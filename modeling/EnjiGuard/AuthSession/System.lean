import EnjiGuard.AuthSession.Coordinator.Committing
import EnjiGuard.Foundation.Reachability

/-!
# Processes on one credential file

Any number of processes run lock-protected sections on the same three files. Between the sections
a process keeps a ticket in its memory: an exchange it dispatched and has not committed, or a
successor it could not store. A crash takes the tickets of the process with it and leaves the
files as they are.
-/

namespace EnjiGuard.AuthSession

open Foundation Action Relation

/-! ### States -/

/-- An exchange that was dispatched and is not committed; without a result it is in flight. -/
structure Exchange where
  owner : RefreshOwner
  source : StoredAuth
  result : Option ExchangeResult

/-- A successor that a process holds in its memory. -/
structure Retained where
  owner : RefreshOwner
  successor : RetainedRefreshSuccessor
  deriving DecidableEq

/-- The files and the memory of the processes. -/
structure Sys where
  world : World
  exchanges : List Exchange
  retained : List Retained
  /-- The processes that have crashed. -/
  dead : List RefreshOwner
  /-- The exchanges that were sent, with their authorizations. -/
  posts : List Dispatch
  /-- The last reading of the clock. -/
  clock : Option Datetime
  /-- The revisions that are in use. -/
  known : List String

/-- What a process can do next; the environment of a section names the process. -/
inductive Label
  | refresh (expected : Option StoredAuth) (env : Env)
  | exchangeReturns (index : Nat) (result : ExchangeResult)
  | commit (index : Nat) (env : Env)
  | recoverStartup (env : Env)
  | importCredential (auth : StoredAuth) (env : Env)
  | projectRetained (index : Nat) (env : Env)
  | crash (owner : RefreshOwner)

/-- The environment of the section a label runs. -/
def Label.env? : Label → Option Env
  | refresh _ env | commit _ env | recoverStartup env | importCredential _ env
  | projectRetained _ env => some env
  | exchangeReturns .. | crash _ => none

namespace Sys

/-- A process crashes. -/
def kill (s : Sys) (owner : RefreshOwner) : Sys :=
  { s with
    exchanges := s.exchanges.filter fun e => e.owner ≠ owner
    retained := s.retained.filter fun r => r.owner ≠ owner
    dead := owner :: s.dead }

/-- A section leaves its files. -/
def leave (s : Sys) (env : Env) (r : Run) : Sys :=
  { s with world := r.world, clock := (r.lastReading env).or s.clock }

/-- A section ends, and takes its process with it when it crashes. -/
def finish {ε α : Type} (s : Sys) (env : Env) : Outcome ε α × Run → Sys
  | (.crashed, r) => (s.leave env r).kill env.owner
  | (_, r) => s.leave env r

/-- A preparation; when it asks for a dispatch, the exchange begins. -/
def refresh (s : Sys) (expected : Option StoredAuth) (env : Env) : Sys :=
  match prepare env expected (Run.start s.world) with
  | (.ok (.dispatch auth), r) =>
    { s.leave env r with
      exchanges := s.exchanges ++ [⟨env.owner, auth, none⟩]
      posts := s.posts ++ r.world.dispatches.getLast?.toList }
  | result => s.finish env result

/-- The commit of an exchange whose result is there. -/
def commit (codec : CookieCodec) (s : Sys) (index : Nat) (source : StoredAuth)
    (result : ExchangeResult) (env : Env) : Sys :=
  let s' : Sys :=
    { s with exchanges := s.exchanges.eraseIdx index, known := env.minted 0 :: s.known }
  match commitExchange codec env source result (Run.start s.world) with
  | (.raised (.postDispatchPersistence retained), r) =>
    { s'.leave env r with retained := s.retained ++ [⟨env.owner, retained⟩] }
  | result => s'.finish env result

/-- The projection of a retained successor; a failed one is tried again. -/
def project (s : Sys) (index : Nat) (retained : RetainedRefreshSuccessor) (env : Env) : Sys :=
  match projectRetainedSuccessor env retained (Run.start s.world) with
  | (.ok _, r) => { s.leave env r with retained := s.retained.eraseIdx index }
  | result => s.finish env result

def imports (s : Sys) (auth : StoredAuth) (env : Env) : Sys :=
  { s with known := auth.revision :: s.known }.finish env
    (importCredential env auth (Run.start s.world))

/-- One step of a process; none when the process is gone or has no such ticket. -/
def step (codec : CookieCodec) (s : Sys) : Label → Option Sys
  | .refresh expected env =>
    if env.owner ∈ s.dead then none else some (s.refresh expected env)
  | .exchangeReturns index result =>
    match s.exchanges[index]? with
    | some ⟨owner, source, none⟩ =>
      some { s with exchanges := s.exchanges.set index ⟨owner, source, some result⟩ }
    | _ => none
  | .commit index env =>
    match s.exchanges[index]? with
    | some ⟨owner, source, some result⟩ =>
      if owner = env.owner ∧ env.owner ∉ s.dead then
        some (s.commit codec index source result env)
      else none
    | _ => none
  | .recoverStartup env =>
    if env.owner ∈ s.dead then none
    else some (s.finish env (recoverStartup env (Run.start s.world)))
  | .importCredential auth env =>
    if env.owner ∈ s.dead then none else some (s.imports auth env)
  | .projectRetained index env =>
    match s.retained[index]? with
    | some ⟨owner, retained⟩ =>
      if owner = env.owner ∧ env.owner ∉ s.dead then some (s.project index retained env) else none
    | none => none
  | .crash owner => some (s.kill owner)

end Sys

/-! ### Assumptions on runs -/

/-- The clock does not go back. -/
def Sys.Timely (s : Sys) (l : Label) : Prop :=
  ∀ env, l.env? = some env →
    (∀ t, s.clock = some t → t ≤ env.now 0) ∧ ∀ n, env.now n ≤ env.now (n + 1)

/-- The liveness probe tells the truth. -/
def Sys.Truthful (s : Sys) (l : Label) : Prop :=
  ∀ env, l.env? = some env → ∀ owner, env.ownerAlive owner = true ↔ owner ∉ s.dead

/-- A process can tell who it is, or says that it cannot. -/
def Label.Identified (l : Label) : Prop :=
  ∀ env, l.env? = some env →
    env.owner.bootId ≠ "" ∧ 0 < env.owner.pid ∧ env.owner.startTicks ≠ ""

/-- Revisions are generated fresh. -/
def Sys.Fresh (s : Sys) : Label → Prop
  | .commit _ env => env.minted 0 ∉ s.known
  | .importCredential auth _ => auth.revision ∉ s.known
  | _ => True

/-- The assumptions on every step of a run. -/
structure Sys.Assumed (s : Sys) (l : Label) : Prop where
  timely : s.Timely l
  truthful : s.Truthful l
  fresh : s.Fresh l

/-- The credential files of new installations: whatever is stored is known, nothing has happened
to it, and no process holds a ticket. -/
structure Sys.Initial (s : Sys) : Prop where
  exchanges : s.exchanges = []
  retained : s.retained = []
  posts : s.posts = []
  journal : s.world.journal = none
  outbox : s.world.outbox = none
  credentialWrites : s.world.credentialWrites = []
  journaledOutcomes : s.world.journaledOutcomes = []
  dispatches : s.world.dispatches = []
  known : ∀ auth, s.world.Holds auth → auth.revision ∈ s.known

/-! ### What a step does -/

/-- What a step does to the system, before its process possibly crashes. -/
inductive Stepped (codec : CookieCodec) (s : Sys) : Label → Sys → Prop
  | prepared {expected : Option StoredAuth} {env : Env} {w : World} (clock : Option Datetime)
      (hlive : env.owner ∉ s.dead)
      (hmoves : ReflTransGen (RecoveryStep env s.world) s.world w) :
      Stepped codec s (.refresh expected env) { s with world := w, clock := clock }
  | dispatched {expected : Option StoredAuth} {env : Env} {w : World} {auth : StoredAuth}
      (clock : Option Datetime) (hlive : env.owner ∉ s.dead)
      (hmoves : ReflTransGen (RecoveryStep env s.world) s.world w)
      (hdispatched : w.Dispatched env s.world auth) :
      Stepped codec s (.refresh expected env)
        { s with
          world := w
          clock := clock
          exchanges := s.exchanges ++ [⟨env.owner, auth, none⟩]
          posts := s.posts ++ w.dispatches.getLast?.toList }
  | returned {index : Nat} {result : ExchangeResult} {owner : RefreshOwner} {source : StoredAuth}
      (hget : s.exchanges[index]? = some ⟨owner, source, none⟩) :
      Stepped codec s (.exchangeReturns index result)
        { s with exchanges := s.exchanges.set index ⟨owner, source, some result⟩ }
  | committed {index : Nat} {env : Env} {w : World} {source : StoredAuth}
      {result : ExchangeResult} (clock : Option Datetime)
      (hget : s.exchanges[index]? = some ⟨env.owner, source, some result⟩)
      (hlive : env.owner ∉ s.dead)
      (hmoves : ReflTransGen (CommitStep env s.world source.revision
        (Outcomes codec env s.world source result)) s.world w) :
      Stepped codec s (.commit index env)
        { s with
          world := w
          clock := clock
          exchanges := s.exchanges.eraseIdx index
          known := env.minted 0 :: s.known }
  | kept {index : Nat} {env : Env} {w : World} {source : StoredAuth} {result : ExchangeResult}
      {retained : RetainedRefreshSuccessor} (clock : Option Datetime)
      (hget : s.exchanges[index]? = some ⟨env.owner, source, some result⟩)
      (hlive : env.owner ∉ s.dead)
      (hmoves : ReflTransGen (CommitStep env s.world source.revision
        (Rotates source.revision (env.minted 0))) s.world w)
      (hsource : retained.sourceRevision = source.revision)
      (hsuccessor : retained.auth.revision = env.minted 0) :
      Stepped codec s (.commit index env)
        { s with
          world := w
          clock := clock
          exchanges := s.exchanges.eraseIdx index
          known := env.minted 0 :: s.known
          retained := s.retained ++ [⟨env.owner, retained⟩] }
  | recovered {env : Env} {w : World} (clock : Option Datetime) (hlive : env.owner ∉ s.dead)
      (hmoves : ReflTransGen (RecoveryStep env s.world) s.world w) :
      Stepped codec s (.recoverStartup env) { s with world := w, clock := clock }
  | imported {auth : StoredAuth} {env : Env} {w : World} (clock : Option Datetime)
      (hlive : env.owner ∉ s.dead)
      (hmoves : ReflTransGen (ImportStep env s.world auth) s.world w) :
      Stepped codec s (.importCredential auth env)
        { s with world := w, clock := clock, known := auth.revision :: s.known }
  | projected {index : Nat} {env : Env} {w : World} {retained : RetainedRefreshSuccessor}
      (clock : Option Datetime) (kept : List Retained)
      (hget : s.retained[index]? = some ⟨env.owner, retained⟩) (hlive : env.owner ∉ s.dead)
      (hmoves : ReflTransGen (ProjectStep env s.world retained) s.world w)
      (hkept : kept = s.retained ∨ kept = s.retained.eraseIdx index) :
      Stepped codec s (.projectRetained index env)
        { s with world := w, clock := clock, retained := kept }
  | crashed (owner : RefreshOwner) : Stepped codec s (.crash owner) s

/-- The process of a label. -/
def Label.owner? : Label → Option RefreshOwner
  | .crash owner => some owner
  | l => l.env?.map Env.owner

/-- A section ends with the files it leaves, and possibly with its process. -/
lemma Sys.finish_cases {ε α : Type} (s : Sys) (env : Env) (result : Outcome ε α × Run) :
    ∃ clock, s.finish env result = { s with world := result.2.world, clock := clock } ∨
      s.finish env result =
        Sys.kill { s with world := result.2.world, clock := clock } env.owner := by
  obtain ⟨_ | _ | _, r⟩ := result
  · exact ⟨_, .inl rfl⟩
  · exact ⟨_, .inl rfl⟩
  · exact ⟨_, .inr rfl⟩

/-- Every step is one of these, and may end with the crash of its process. -/
theorem Sys.step_cases {codec : CookieCodec} {s s' : Sys} {l : Label}
    (h : Sys.step codec s l = some s') :
    ∃ t, Stepped codec s l t ∧ (s' = t ∨ ∃ owner, l.owner? = some owner ∧ s' = t.kill owner) := by
  -- a section that adds no ticket
  have hfinish : ∀ {ε α : Type} {env : Env} (s₀ : Sys) (result : Outcome ε α × Run),
      l.owner? = some env.owner →
      (∀ clock, Stepped codec s l { s₀ with world := result.2.world, clock := clock }) →
      ∃ t, Stepped codec s l t ∧ (s₀.finish env result = t ∨
        ∃ owner, l.owner? = some owner ∧ s₀.finish env result = t.kill owner) := by
    intro ε α env s₀ result howner hstep
    obtain ⟨clock, hend | hend⟩ := s₀.finish_cases env result
    · exact ⟨_, hstep clock, .inl hend⟩
    · exact ⟨_, hstep clock, .inr ⟨_, howner, hend⟩⟩
  cases l with
  | refresh expected env =>
    simp only [Sys.step] at h
    split_ifs at h with hdead
    cases h
    obtain ⟨hmoves, hreturns, -⟩ := tracks_prepare env s.world expected
    rw [Sys.refresh]
    split
    · next auth r hresult =>
      rw [hresult] at hmoves hreturns
      exact ⟨_, .dispatched _ hdead hmoves (hreturns _ rfl auth rfl), .inl rfl⟩
    · exact hfinish s _ rfl fun clock => .prepared clock hdead hmoves
  | exchangeReturns index result =>
    simp only [Sys.step] at h
    split at h
    · next owner source hget => cases h; exact ⟨_, .returned hget, .inl rfl⟩
    · cases h
  | commit index env =>
    simp only [Sys.step] at h
    split at h
    · next owner source result hget =>
      split_ifs at h with hlive
      obtain ⟨rfl, hlive⟩ := hlive
      cases h
      obtain ⟨hmoves, -, hraises⟩ := tracks_commitExchange codec env s.world source result
      rw [Sys.commit]
      split
      · next retained r hresult =>
        rw [hresult] at hraises
        obtain ⟨hsource, hsuccessor, hrotates⟩ := hraises _ rfl retained rfl
        exact ⟨_, .kept _ hget hlive hrotates hsource hsuccessor, .inl rfl⟩
      · exact hfinish _ _ rfl fun clock => .committed clock hget hlive hmoves
    · cases h
  | recoverStartup env =>
    simp only [Sys.step] at h
    split_ifs at h with hdead
    cases h
    exact hfinish s _ rfl fun clock =>
      .recovered clock hdead
        ((tracks_recoverStartup env s.world).mono fun _ _ h => h.recovery).moves
  | importCredential auth env =>
    simp only [Sys.step] at h
    split_ifs at h with hdead
    cases h
    exact hfinish _ _ rfl fun clock =>
      .imported clock hdead (tracks_importCredential env s.world auth).moves
  | projectRetained index env =>
    simp only [Sys.step] at h
    split at h
    · next owner retained hget =>
      split_ifs at h with hlive
      obtain ⟨rfl, hlive⟩ := hlive
      cases h
      obtain ⟨hmoves, -, -⟩ := tracks_projectRetainedSuccessor env s.world retained
      rw [Sys.project]
      split
      · next projection r hresult =>
        rw [hresult] at hmoves
        exact ⟨_, .projected _ _ hget hlive hmoves (.inr rfl), .inl rfl⟩
      · exact hfinish s _ rfl fun clock => .projected clock _ hget hlive hmoves (.inl rfl)
    · cases h
  | crash owner =>
    cases h
    exact ⟨s, .crashed owner, .inr ⟨owner, rfl, rfl⟩⟩

/-- What a step does to the files. -/
inductive Moved (codec : CookieCodec) (s : Sys) : Label → World → Prop
  | prepared {expected : Option StoredAuth} {env : Env} {w : World}
      (hmoves : ReflTransGen (RecoveryStep env s.world) s.world w) :
      Moved codec s (.refresh expected env) w
  | returned (index : Nat) (result : ExchangeResult) :
      Moved codec s (.exchangeReturns index result) s.world
  | committed {index : Nat} {env : Env} {w : World} {source : StoredAuth}
      {result : ExchangeResult}
      (hget : s.exchanges[index]? = some ⟨env.owner, source, some result⟩)
      (hmoves : ReflTransGen (CommitStep env s.world source.revision
        (Outcomes codec env s.world source result)) s.world w) :
      Moved codec s (.commit index env) w
  | recovered {env : Env} {w : World}
      (hmoves : ReflTransGen (ReconcileStep env s.world) s.world w) :
      Moved codec s (.recoverStartup env) w
  | imported {auth : StoredAuth} {env : Env} {w : World}
      (hmoves : ReflTransGen (ImportStep env s.world auth) s.world w) :
      Moved codec s (.importCredential auth env) w
  | projected {index : Nat} {env : Env} {w : World} {retained : RetainedRefreshSuccessor}
      (hget : s.retained[index]? = some ⟨env.owner, retained⟩)
      (hmoves : ReflTransGen (ProjectStep env s.world retained) s.world w) :
      Moved codec s (.projectRetained index env) w
  | crashed (owner : RefreshOwner) : Moved codec s (.crash owner) s.world

lemma Sys.world_finish {ε α : Type} (s : Sys) (env : Env) (result : Outcome ε α × Run) :
    (s.finish env result).world = result.2.world := by
  obtain ⟨_ | _ | _, r⟩ := result <;> rfl

lemma Sys.world_refresh (s : Sys) (expected : Option StoredAuth) (env : Env) :
    (s.refresh expected env).world = (prepare env expected (Run.start s.world)).2.world := by
  rw [Sys.refresh]
  split
  · next hresult => rw [hresult]; rfl
  · exact s.world_finish env _

lemma Sys.world_commit {codec : CookieCodec} (s : Sys) (index : Nat) (source : StoredAuth)
    (result : ExchangeResult) (env : Env) : (s.commit codec index source result env).world =
      (commitExchange codec env source result (Run.start s.world)).2.world := by
  rw [Sys.commit]
  split
  · next hresult => rw [hresult]; rfl
  · exact Sys.world_finish _ env _

lemma Sys.world_project (s : Sys) (index : Nat) (retained : RetainedRefreshSuccessor)
    (env : Env) : (s.project index retained env).world =
      (projectRetainedSuccessor env retained (Run.start s.world)).2.world := by
  rw [Sys.project]
  split
  · next hresult => rw [hresult]; rfl
  · exact s.world_finish env _

/-- Every step moves the files like this. -/
theorem Sys.step_moved {codec : CookieCodec} {s s' : Sys} {l : Label}
    (h : Sys.step codec s l = some s') : Moved codec s l s'.world := by
  cases l with
  | refresh expected env =>
    simp only [Sys.step] at h
    split_ifs at h
    cases h
    rw [Sys.world_refresh]
    exact .prepared (tracks_prepare env s.world expected).moves
  | exchangeReturns index result =>
    simp only [Sys.step] at h
    split at h
    · cases h
      exact .returned index result
    · cases h
  | commit index env =>
    simp only [Sys.step] at h
    split at h
    · next owner source result hget =>
      split_ifs at h with hlive
      obtain ⟨rfl, -⟩ := hlive
      cases h
      rw [Sys.world_commit]
      exact .committed hget (tracks_commitExchange codec env s.world source result).moves
    · cases h
  | recoverStartup env =>
    simp only [Sys.step] at h
    split_ifs at h
    cases h
    rw [Sys.world_finish]
    exact .recovered (tracks_recoverStartup env s.world).moves
  | importCredential auth env =>
    simp only [Sys.step] at h
    split_ifs at h
    cases h
    rw [Sys.imports, Sys.world_finish]
    exact .imported (tracks_importCredential env s.world auth).moves
  | projectRetained index env =>
    simp only [Sys.step] at h
    split at h
    · next owner retained hget =>
      split_ifs at h with hlive
      obtain ⟨rfl, -⟩ := hlive
      cases h
      rw [Sys.world_project]
      exact .projected hget (tracks_projectRetainedSuccessor env s.world retained).moves
    · cases h
  | crash owner =>
    cases h
    exact .crashed owner

/-! ### Calm runs -/

/-- The moment calm runs start at. -/
def launch : Datetime := ⟨63900000000000000, by decide⟩

/-- A number of seconds later. -/
def launchAfter (seconds : Int) : Datetime :=
  (launch.add? (Timedelta.seconds seconds)).getD launch

/-- The processes of calm runs. -/
def worker (pid : Int) : RefreshOwner := ⟨"boot", pid, "100"⟩

/-- The credential calm runs start with. -/
def firstAuth : StoredAuth :=
  ⟨"r0", "https://fleet.enji.ai", .cookie "access_token=a; refresh_token=b", isoformat launch⟩

/-- A response that carries a complete successor. -/
def successResponse : EnjiHttpResponse := ⟨200, none, ["access_token=c", "refresh_token=d"]⟩

/-- An environment in which nothing fails and the clock stands still. -/
def Env.calm (owner : RefreshOwner) (now : Datetime) (minted : String) : Env where
  fault _ _ := .none
  readFault _ _ := none
  now _ := now
  wall _ := now
  owner := owner
  ownerFault := none
  ownerAlive _ := true
  sink := some fun _ => .returned true
  eventSink := false
  minted _ := minted
  polls := 0

/-- The same environment in which one storage operation fails. -/
def Env.failing (env : Env) (operation : Nat) : Env :=
  { env with fault := fun n _ => if n = operation then .error "No space left on device" else .none }

/-- An installation with one credential. -/
def Sys.installed (auth : StoredAuth) : Sys where
  world := ⟨some (.json (authPayload auth)), none, none, [], [], none, [], []⟩
  exchanges := []
  retained := []
  dead := []
  posts := []
  clock := none
  known := [auth.revision]

lemma Sys.installed_initial (auth : StoredAuth) : (Sys.installed auth).Initial where
  exchanges := rfl
  retained := rfl
  posts := rfl
  journal := rfl
  outbox := rfl
  credentialWrites := rfl
  journaledOutcomes := rfl
  dispatches := rfl
  known := by
    intro auth' hheld
    have hauth : (Sys.installed auth).world.Holds auth := ⟨_, rfl, .inl rfl⟩
    rw [hheld.unique hauth]
    exact List.mem_singleton.2 rfl

/-- Whether a label suits a system in which every process lives. -/
def Sys.suits (s : Sys) (l : Label) : Bool :=
  s.dead.isEmpty &&
    (match l.env? with
      | some env => s.clock.all fun t => decide (t ≤ env.now 0)
      | none => true) &&
    match l with
    | .commit _ env => !s.known.contains (env.minted 0)
    | .importCredential auth _ => !s.known.contains auth.revision
    | _ => true

/-- A label whose clock stands still and whose probe finds everybody alive. -/
def Label.Calm (l : Label) : Prop :=
  ∀ env, l.env? = some env → (∀ n, env.now n = env.now 0) ∧ ∀ owner, env.ownerAlive owner = true

/-- A calm label that suits the system meets the assumptions on runs. -/
lemma Label.Calm.assumed {s : Sys} {l : Label} (hcalm : l.Calm) (h : s.suits l = true) :
    s.Assumed l := by
  simp only [Sys.suits, Bool.and_eq_true, List.isEmpty_iff] at h
  obtain ⟨⟨hdead, hclock⟩, hfresh⟩ := h
  refine ⟨fun env henv => ⟨?_, fun n => ?_⟩, fun env henv owner => ?_, ?_⟩
  · intro t ht
    rw [henv, ht] at hclock
    simpa using hclock
  · rw [(hcalm env henv).1 n, (hcalm env henv).1 (n + 1)]
  · rw [hdead]
    simpa using (hcalm env henv).2 owner
  · cases l <;> first | trivial | simpa [Sys.Fresh] using hfresh

/-- A calm run that can be replayed leads to a reachable state. -/
lemma reachable_of_replay {codec : CookieCodec} {s s' : Sys} {ls : List Label}
    (hinitial : s.Initial) (hcalm : ∀ l ∈ ls, l.Calm)
    (h : replay (Sys.step codec) Sys.suits s ls = some s') :
    Reachable Sys.Initial (Sys.step codec) Sys.Assumed s' :=
  ⟨s, ls, hinitial, .of_replay (fun l hl _ hsuits => (hcalm l hl).assumed hsuits) h⟩

/-- An exchange without an answer is committed as an unknown outcome, and its replay is dispatched
when its time has come. -/
def replayedTrace : List Label :=
  [.refresh none (.calm (worker 1) launch "r1"),
    .exchangeReturns 0 (.httpError "NETWORK"),
    .commit 0 (.calm (worker 1) launch "r1"),
    .refresh none (.calm (worker 1) (launchAfter 40) "r2")]

lemma replayedTrace_calm : ∀ l ∈ replayedTrace, l.Calm := by
  simp only [replayedTrace, List.forall_mem_cons]
  refine ⟨?_, ?_, ?_, ?_, by rintro _ ⟨⟩⟩ <;> rintro env henv <;> cases henv <;>
    exact ⟨fun _ => rfl, fun _ => rfl⟩

end EnjiGuard.AuthSession
