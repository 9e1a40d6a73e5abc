import EnjiGuard.AuthSession.Coordinator.Shortening
import EnjiGuard.AuthSession.Showing

/-!
# Observers beside a rotation

An observer reads the credential and the journal of another process that refreshes, each between two
of its storage operations. It may make requests with the credential that was stored before or with
the one the rotation stores, but for one pair of files: the credential that was stored before, and
then the record that rotates it. The observer takes the pair for a rotation that was cut off, and
refuses.
-/

namespace EnjiGuard.AuthSession

open Foundation Action Relation

variable {codec : CookieCodec} {env : Env} {w w' start : World} {auth source : StoredAuth}
  {attempt : RotationAttempt} {minted : String} {allowed : TerminalState → Prop}

/-! ### The files of a commit -/

/-- The attempt of a request that is read back has no continuation. -/
lemma Accepted.continuation_requested {revision : String}
    (h : Accepted (.requested revision) attempt) : attempt.continuation = none := by
  rcases hcontinuation : attempt.continuation with _ | lane | _
  · rfl
  · obtain ⟨⟨_, _, hstate⟩, -⟩ := h.consistent.scheduled lane hcontinuation
    cases hstate
  · obtain ⟨⟨_, hstate, -⟩, -⟩ := h.consistent.stopped hcontinuation
    cases hstate

/-- A request beside a credential that is shown is read back. -/
lemma ShowsWith.accepted_requested {revision : String} {enqueued : Bool}
    (h : ShowsWith auth w.journal)
    (hjournal : w.JournalHolds (.requested revision) enqueued attempt) :
    Accepted (.requested revision) attempt := by
  obtain ⟨_, _, _, hload, -⟩ := h.loaded hjournal
  rcases accepted_or_stopped hload with haccepted | ⟨⟨_, _, hstate⟩, -⟩
  · exact haccepted
  · cases hstate

/-- After a dispatch that is shown the files are legible. -/
lemma World.Dispatched.legible (h : w.Dispatched env start auth) (hnamed : auth.revision ≠ "")
    (hshows : ShowsWith auth w.journal) : w.Legible := by
  obtain ⟨attempt, hjournal, -⟩ := h.journal
  refine ⟨.inr ⟨_, _, _, hjournal⟩, ?_, ?_⟩
  · intro state enqueued attempt' hjournal'
    obtain ⟨rfl, rfl, -⟩ := hjournal.unique hjournal'
    have haccepted := hshows.accepted_requested hjournal
    refine ⟨haccepted, by simp [JournalState.successor?], fun lane hlane => ?_⟩
    rw [haccepted.continuation_requested] at hlane
    cases hlane
  · rintro ⟨current, hheld, hempty⟩
    rw [hheld.unique h.holds] at hempty
    exact hnamed hempty

/-- What a commit may end in agrees with the attempt of the dispatch. -/
lemma World.Dispatched.settled {env' : Env} {revision : String} (h : w.Dispatched env start auth)
    (hshows : ShowsWith auth w.journal) : w.Settled env' revision allowed := by
  obtain ⟨attempt, hjournal, -⟩ := h.journal
  intro t held _ hlooked
  have hidle : held.continuation = none := by
    cases hlooked with
    | found hload =>
      obtain ⟨rfl, rfl, -⟩ := hjournal.unique (World.journalHolds_of_journalOf hload)
      exact (hshows.accepted_requested hjournal).continuation_requested
    | fallback => rfl
  cases t with
  | rotated => exact hidle
  | rejected => simp [TerminalState.Settles, RotationAttempt.scheduled, hidle]
  | outcomeUnknown => trivial

/-- The credential file is the one at the start, or was replaced once by a revision. -/
def World.Replaces (w start : World) (minted : String) : Prop :=
  (w.credential = start.credential ∧ w.credentialWrites = start.credentialWrites) ∨
    ∃ write, w.credentialWrites = start.credentialWrites ++ [write] ∧
      w.credential = some (.json (authPayload write.auth)) ∧ write.auth.revision = minted

lemma World.Replaces.same (h : w.Replaces start minted) (hsame : w.SameDispatches w') :
    w'.Replaces start minted := by
  simp only [World.Replaces, hsame.credential, hsame.credentialWrites]
  exact h

/-- A commit replaces the credential once. -/
lemma World.Replaces.commitStep {revision : String} (hfresh : minted ≠ revision)
    (hnames : ∀ t, allowed t → Names revision minted t)
    (h : w.Replaces start minted) {start' : World}
    (hstep : CommitStep env start' revision allowed w w') : w'.Replaces start minted := by
  cases hstep with
  | record _ hstep => exact h.same hstep.sameDispatches
  | terminal => exact h.same (World.sameDispatches_setTerminal _ _ _ _ _)
  | project ht hstored hcurrent _ hrevision =>
    right
    have hminted := (hnames _ ht).2 _ rfl
    rcases h with ⟨hcredential, hwrites⟩ | ⟨write, -, hcredential, hwritten⟩
    · refine ⟨_, congrArg (· ++ [_]) hwrites, rfl, ?_⟩
      exact hrevision.trans hminted
    · have hheld' : _ = write.auth := hstored.unique ⟨_, hcredential, .inl rfl⟩
      rw [hheld', hwritten] at hcurrent
      exact absurd hcurrent hfresh

/-- A commit that cannot end in a rotation leaves the credential. -/
lemma credential_of_commitStep {revision : String}
    (hnone : ∀ header successor, ¬ allowed (.rotated revision header successor)) {start' : World}
    (hstep : CommitStep env start' revision allowed w w') : w'.credential = w.credential := by
  cases hstep with
  | record _ hstep => exact hstep.sameDispatches.credential
  | terminal => rfl
  | project ht => exact absurd ht (hnone _ _)

section Commit

variable {result : ExchangeResult}

/-- Wherever it is cut off, a commit leaves legible files. -/
lemma legible_of_commitExchange (hlegible : w.Legible) (hnamed : source.revision ≠ "")
    (hminted : env.minted 0 ≠ "") (hsettled : ∀ {env' allowed},
      w.Settled env' source.revision allowed) (n : Nat) :
    (commitExchange codec (env.cut n) source result (Run.start w)).2.world.Legible := by
  refine ((tracks_commitExchange codec (env.cut n) w source result).invariant
    (I := fun v => v.Legible ∧ (v.Current source.revision → w.Current source.revision))
    ⟨hlegible, id⟩ fun v v' hv hstep => ?_).1
  refine World.Legible.commitStep hnamed hlegible (fun t ht _ successor hsuccessor => ?_)
    (fun _ => hsettled) hv hstep
  rw [ht.names.2 successor hsuccessor]
  exact hminted

/-- Whatever fails, a commit replaces the credential once at most. -/
lemma replaces_of_commitExchange (hfresh : env.minted 0 ≠ source.revision)
    (fault : Nat → String → Fault) :
    (commitExchange codec { env with fault := fault } source result
      (Run.start w)).2.world.Replaces w (env.minted 0) :=
  (tracks_commitExchange codec { env with fault := fault } w source result).invariant
    (I := fun v => v.Replaces w (env.minted 0)) (.inl ⟨rfl, rfl⟩)
    fun _ _ hv hstep => hv.commitStep hfresh (fun _ ht => ht.names) hstep

/-- Where a commit is cut off, the credential is the one at its start, or the one that the whole
commit stores, dated by a reading of the wall clock before. -/
lemma stored_of_commitExchange (hfresh : env.minted 0 ≠ source.revision) (n : Nat) :
    (commitExchange codec (env.cut n) source result (Run.start w)).2.world.credential =
        w.credential ∨
      ∃ auth, (commitExchange codec (env.cut n) source result (Run.start w)).2.world.credential =
          some (.json (authPayload auth)) ∧ auth.revision = env.minted 0 ∧
        env.Stamps (commitExchange codec (env.cut n) source result (Run.start w)).2.cursor.wall
          auth ∧
        (commitExchange codec env source result (Run.start w)).2.world.Holds auth := by
  by_cases hcomplete : ∃ response header, result = .response response ∧
      (successfulReplacement codec env source response (Run.start w)).1 = .ok (some header)
  · obtain ⟨response, header, rfl, hvalue⟩ := hcomplete
    obtain ⟨r₁, hrun⟩ : ∃ r₁, successfulReplacement codec env source response (Run.start w) =
        (.ok (some header), r₁) := ⟨_, Prod.ext hvalue rfl⟩
    obtain ⟨⟨-, -, later, hlater, hstamps⟩, -, -, rest, hrest, -⟩ :=
      extends_commitExchange (n := n) hrun
    have hworld : r₁.world = w := by
      have huntouched := (leaves_successfulReplacement env source response (Run.start w)).returns _
        hvalue
      rw [hrun] at huntouched
      exact huntouched.world
    rw [hworld] at hlater
    have hcut : (commitExchange codec (env.cut n) source (.response response)
        (Run.start w)).2.world.Replaces w (env.minted 0) :=
      replaces_of_commitExchange hfresh (env.cut n).fault
    have hwhole : (commitExchange codec env source (.response response)
        (Run.start w)).2.world.Replaces w (env.minted 0) :=
      replaces_of_commitExchange hfresh env.fault
    rcases hcut with ⟨hcredential, -⟩ | ⟨write, hwrites, hcredential, hrevision⟩
    · exact .inl hcredential
    right
    rw [hwrites, List.append_cancel_left_eq] at hlater
    refine ⟨write.auth, hcredential, hrevision, hstamps write (hlater ▸ List.mem_singleton_self _),
      ?_⟩
    -- the whole commit replaces the credential by the same record, and no more
    rw [hwrites, List.append_assoc] at hrest
    rcases hwhole with ⟨-, hwrites'⟩ | ⟨write', hwrites', hcredential', -⟩
    · have hempty := hrest.symm.trans hwrites'
      simp at hempty
    · have hsame := hrest.symm.trans hwrites'
      rw [List.append_cancel_left_eq, List.singleton_append, List.cons.injEq] at hsame
      exact ⟨_, hcredential', .inl (by rw [hsame.1])⟩
  · left
    refine (tracks_commitExchange codec (env.cut n) w source result).invariant
      (I := fun v => v.credential = w.credential) rfl fun v v' hv hstep => ?_
    refine (credential_of_commitStep (fun header successor ht => hcomplete ?_) hstep).trans hv
    obtain ⟨response, header', rfl, hvalue⟩ := ht.ends
    refine ⟨response, header', rfl, ?_⟩
    rwa [successfulReplacement_congr (show (env.cut n).wall = env.wall from rfl)] at hvalue

/-- A commit journals nothing about another revision. -/
lemma sources_of_commitExchange (hjournal : ∀ state enqueued attempt,
      w.JournalHolds state enqueued attempt → state.sourceRevision = source.revision) (n : Nat) :
    ∀ state enqueued attempt,
      (commitExchange codec (env.cut n) source result (Run.start w)).2.world.JournalHolds state
        enqueued attempt → state.sourceRevision = source.revision := by
  refine (tracks_commitExchange codec (env.cut n) w source result).invariant
    (I := fun v => ∀ state enqueued attempt, v.JournalHolds state enqueued attempt →
      state.sourceRevision = source.revision) hjournal fun v v' hv hstep => ?_
  have hset : ∀ {t enqueued attempt clock}, t.sourceRevision = source.revision →
      ∀ state enqueued' attempt',
        (v.setJournal (.terminal t) enqueued attempt clock).JournalHolds state enqueued' attempt' →
        state.sourceRevision = source.revision := by
    intro t enqueued attempt clock hsource state enqueued' attempt' hheld
    rw [(hheld.unique (v.journalHolds_setJournal _ _ _ _)).1]
    exact hsource
  cases hstep with
  | record ht hstep =>
    cases hstep with
    | outbox hstep =>
      intro state enqueued attempt hheld
      exact hv _ _ _ (hstep.sameRotation.journalHolds.1 hheld)
    | mark => exact hset ht.names.1
    | delete => rintro _ _ _ ⟨_, ⟨⟩, _⟩
  | terminal clock ht => exact hset ht.names.1
  | project => exact hv

end Commit

/-! ### The observer -/

/-- Reads the files and decides which credential a request is made with. -/
def requestCredential (env : Env) : Auth (Except AuthProjectionError StoredAuth) := do
  let projection ← observeAuth env
  return networkCredential projection

section Observer

variable {watcher : Env} {answer : Except AuthProjectionError StoredAuth}

/-- The journal is the record of a rotation of a revision. -/
def World.RotatesFrom (w : World) (revision : String) : Prop :=
  ∃ state enqueued attempt migrated,
    journalOf w.journal = .ok (.loaded state enqueued attempt migrated) ∧
      state.RotatesFrom revision

/-- What the observer reads the credential as. -/
def Env.authRead (watcher : Env) (w : World) : Except PyError AuthLoadResult :=
  match watcher.readFault .credential 0 with
  | some detail => .ok (.ioFailure "read credential" detail)
  | none => authOf (watcher.wall 0) w.credential

/-- What the observer reads the journal as. -/
def Env.journalRead (watcher : Env) (w : World) : Except PyError JournalLoadResult :=
  match watcher.readFault .journal 0 with
  | some detail => .ok (.ioFailure "read refresh journal" detail)
  | none => journalOf w.journal

lemma loadAuth_start : ∃ r, r.world = w ∧ r.cursor.journalReads = 0 ∧
    loadAuth watcher (Run.start w) = ofExcept (watcher.authRead w) r := by
  rcases hfault : watcher.readFault .credential 0 with _ | detail
  · have hrun : readText watcher .credential (Run.start w) =
        (.ok (.ok w.credential), ⟨w, { credentialReads := 1 }⟩) := by
      simp only [readText]
      rw [show watcher.readFault .credential ((Run.start w).cursor.reads .credential) = none
        from hfault]
      rfl
    refine ⟨⟨w, { credentialReads := 1, wall := 1 }⟩, rfl, rfl, ?_⟩
    simp only [loadAuth, Env.authRead, hfault]
    rw [bind_of_ok hrun]
    rfl
  · have hrun : readText watcher .credential (Run.start w) =
        (.ok (.error detail), ⟨w, { credentialReads := 1 }⟩) := by
      simp only [readText]
      rw [show watcher.readFault .credential ((Run.start w).cursor.reads .credential) = some detail
        from hfault]
      rfl
    refine ⟨⟨w, { credentialReads := 1 }⟩, rfl, rfl, ?_⟩
    simp only [loadAuth, Env.authRead, hfault]
    rw [bind_of_ok hrun]
    rfl

lemma loadJournal_start {r : Run} (hread : r.cursor.journalReads = 0) : ∃ r',
    loadJournal watcher r = ofExcept (watcher.journalRead r.world) r' := by
  have hreads : r.cursor.reads .journal = 0 := hread
  rcases hfault : watcher.readFault .journal 0 with _ | detail
  · have hrun : readText watcher .journal r =
        (.ok (.ok r.world.journal), { r with cursor := r.cursor.countRead .journal }) := by
      simp only [readText]
      rw [hreads, hfault]
      rfl
    refine ⟨{ r with cursor := r.cursor.countRead .journal }, ?_⟩
    simp only [loadJournal, loadJournalFor, Env.journalRead, hfault]
    rw [bind_of_ok hrun]
  · have hrun : readText watcher .journal r =
        (.ok (.error detail), { r with cursor := r.cursor.countRead .journal }) := by
      simp only [readText]
      rw [hreads, hfault]
    refine ⟨{ r with cursor := r.cursor.countRead .journal }, ?_⟩
    simp only [loadJournal, loadJournalFor, Env.journalRead, hfault]
    rw [bind_of_ok hrun]
    rfl

/-- An observer classifies what it reads of the two files. -/
lemma requestCredential_eq_ok :
    (requestCredential watcher (Run.start w)).1 = .ok answer ↔
      ∃ loaded journal, watcher.authRead w = .ok loaded ∧ watcher.journalRead w = .ok journal ∧
        answer = networkCredential (projectAuth loaded journal) := by
  obtain ⟨r, hworld, hreads, hauth⟩ := @loadAuth_start w watcher
  obtain ⟨r', hjournal⟩ := @loadJournal_start watcher r hreads
  rw [hworld] at hjournal
  rcases hloaded : watcher.authRead w with e | loaded <;> rw [hloaded] at hauth
  · have hobserved : observeAuth watcher (Run.start w) = (.raised e, r) := bind_of_raised hauth
    have hrun : requestCredential watcher (Run.start w) = (.raised e, r) :=
      bind_of_raised hobserved
    rw [hrun]
    constructor
    · rintro ⟨⟩
    · rintro ⟨_, _, ⟨⟩, -⟩
  rcases hread : watcher.journalRead w with e | journal <;> rw [hread] at hjournal
  · have hobserved : observeAuth watcher (Run.start w) = (.raised e, r') :=
      (bind_of_ok hauth).trans (bind_of_raised hjournal)
    have hrun : requestCredential watcher (Run.start w) = (.raised e, r') :=
      bind_of_raised hobserved
    rw [hrun]
    constructor
    · rintro ⟨⟩
    · rintro ⟨_, _, -, ⟨⟩, -⟩
  · have hobserved : observeAuth watcher (Run.start w) =
        (.ok (projectAuth loaded journal), r') := (bind_of_ok hauth).trans (bind_of_ok hjournal)
    have hrun : requestCredential watcher (Run.start w) =
        (.ok (networkCredential (projectAuth loaded journal)), r') := bind_of_ok hobserved
    rw [hrun]
    constructor
    · rintro ⟨⟩
      exact ⟨_, _, rfl, rfl, rfl⟩
    · rintro ⟨_, _, ⟨⟩, ⟨⟩, rfl⟩
      rfl

/-- An observer that gets a credential has read both files. -/
lemma of_requestCredential (h : (requestCredential watcher (Run.start w)).1 = .ok (.ok auth)) :
    watcher.readFault .credential 0 = none ∧ watcher.readFault .journal 0 = none ∧
      authOf (watcher.wall 0) w.credential = .ok (.loaded auth) ∧ ShowsWith auth w.journal := by
  obtain ⟨loaded, journal, hloaded, hjournal, hanswer⟩ := requestCredential_eq_ok.1 h
  have hread : watcher.readFault .journal 0 = none := by
    rcases hfault : watcher.readFault .journal 0 with _ | detail
    · rfl
    · rw [Env.journalRead, hfault] at hjournal
      cases hjournal
      cases loaded <;> cases hanswer
  cases loaded with
  | loaded auth' =>
    have hauth : authOf (watcher.wall 0) w.credential = .ok (.loaded auth') ∧
        watcher.readFault .credential 0 = none := by
      rcases hfault : watcher.readFault .credential 0 with _ | detail <;>
        simp only [Env.authRead, hfault] at hloaded
      · exact ⟨hloaded, rfl⟩
      · cases hloaded
    rw [Env.journalRead, hread] at hjournal
    change Except.ok auth = networkCredential (projectLoaded auth' journal) at hanswer
    obtain rfl : auth = auth' := by
      cases journal with
      | absent =>
        cases hanswer
        rfl
      | corrupt detail => cases hanswer
      | ioFailure operation error => cases hanswer
      | loaded state enqueued attempt migrated =>
        rw [networkCredential_projectLoaded] at hanswer
        split_ifs at hanswer
        cases hanswer
        rfl
    exact ⟨hauth.2, hread, hauth.1, journal, hjournal, hanswer.symm⟩
  | _ => cases hanswer

/-- Beside a journal that can be read, a request is made with the credential unless the journal is
the record that rotates it. -/
lemma requestCredential_of_readable (hcredential : watcher.readFault .credential 0 = none)
    (hjournal : watcher.readFault .journal 0 = none)
    (hauth : authOf (watcher.wall 0) w.credential = .ok (.loaded auth)) (hreadable : w.Readable) :
    ∃ answer, (requestCredential watcher (Run.start w)).1 = .ok answer ∧
      (∀ auth', answer = .ok auth' → auth' = auth) ∧
      ∀ e, answer = .error e ↔ e = rotationPending ∧ w.RotatesFrom auth.revision := by
  have hanswer : ∀ {journal}, journalOf w.journal = .ok journal →
      (requestCredential watcher (Run.start w)).1 =
        .ok (networkCredential (projectLoaded auth journal)) := by
    intro journal hload
    refine requestCredential_eq_ok.2 ⟨.loaded auth, journal, ?_, ?_, rfl⟩
    · rw [Env.authRead, hcredential]
      exact hauth
    · rw [Env.journalRead, hjournal]
      exact hload
  rcases hreadable with habsent | ⟨state, enqueued, attempt, migrated, hload⟩
  · refine ⟨_, hanswer habsent, fun _ h => by cases h; rfl, fun e => ⟨by rintro ⟨⟩, ?_⟩⟩
    rintro ⟨-, _, _, _, _, hload, -⟩
    rw [habsent] at hload
    cases hload
  · refine ⟨_, hanswer hload, ?_⟩
    have hrotates : w.RotatesFrom auth.revision ↔ state.RotatesFrom auth.revision := by
      constructor
      · rintro ⟨_, _, _, _, hload', hrotates⟩
        rw [hload] at hload'
        cases hload'
        exact hrotates
      · exact fun h => ⟨_, _, _, _, hload, h⟩
    rw [networkCredential_projectLoaded, hrotates]
    split_ifs with h
    · exact ⟨by rintro _ ⟨⟩, fun e => ⟨by rintro ⟨⟩; exact ⟨rfl, h⟩, by rintro ⟨rfl, -⟩; rfl⟩⟩
    · exact ⟨by rintro _ ⟨⟩; rfl, fun e => ⟨by rintro ⟨⟩, fun hrefused => absurd hrefused.2 h⟩⟩

end Observer

/-! ### Rotations -/

/-- One refresh of a process: what its two sections find outside the files, which credential it
expects, and how an exchange ends. -/
structure Rotation where
  before : Env
  after : Env
  expected : Option StoredAuth
  exchangeOnce : StoredAuth → ExchangeResult

/-- A moment of a rotation: before a storage operation of its preparation or of its commit. -/
inductive Moment
  | preparing (operation : Nat)
  | committing (operation : Nat)

/-- The order of the moments of a rotation. -/
def Moment.Before : Moment → Moment → Prop
  | .preparing m, .preparing n => m ≤ n
  | .preparing _, .committing _ => True
  | .committing _, .preparing _ => False
  | .committing m, .committing n => m ≤ n

namespace Rotation

variable (codec) (ρ : Rotation) (w : World)

/-- The refresh: a preparation, and then a return, a wait, or an exchange and its commit. -/
def run : Outcome CommitError StoredAuth × Run :=
  match prepare ρ.before ρ.expected (Run.start w) with
  | (.ok (.dispatch auth), r) =>
    commitExchange codec ρ.after auth (ρ.exchangeOnce auth) (Run.start r.world)
  | (.ok (.returnAuth auth), r) => (.ok auth, r)
  | (.ok (.waitForRevision source), r) =>
    Auth.plain (waitForTerminalRevision ρ.after source ρ.after.polls) (Run.start r.world)
  | (.raised (.osError detail), r) => (.raised (.plain (.preDispatchLocal detail)), r)
  | (.raised e, r) => (.raised (.plain e), r)
  | (.crashed, r) => (.crashed, r)

/-- The same refresh, and its commit is cut off before a storage operation. -/
def cut (n : Nat) : Rotation := { ρ with after := ρ.after.cut n }

/-- How far the refresh is at a moment. -/
def stateAt : Moment → Run
  | .preparing n => (prepare (ρ.before.cut n) ρ.expected (Run.start w)).2
  | .committing n => ((ρ.cut n).run codec w).2

/-- What an observer reads that reads the credential at one moment and the journal at another. -/
def between (i j : Moment) : World :=
  { (ρ.stateAt codec w i).world with journal := (ρ.stateAt codec w j).world.journal }

variable {codec ρ w} {i j : Moment}

lemma credential_between :
    (ρ.between codec w i j).credential = (ρ.stateAt codec w i).world.credential := rfl

lemma journal_between :
    (ρ.between codec w i j).journal = (ρ.stateAt codec w j).world.journal := rfl

lemma readable_between :
    (ρ.between codec w i j).Readable ↔ (ρ.stateAt codec w j).world.Readable := by
  simp only [World.Readable, journal_between]

lemma rotatesFrom_between {revision : String} :
    (ρ.between codec w i j).RotatesFrom revision ↔
      (ρ.stateAt codec w j).world.RotatesFrom revision := by
  simp only [World.RotatesFrom, journal_between]

end Rotation

section Rotating

variable {ρ : Rotation} {watcher : Env} {old new : StoredAuth}

/-- A refresh that succeeds by itself does not wait. -/
lemma Rotation.prepared_of_run (hheld : w.Holds old) (hshows : ShowsWith old w.journal)
    (hsucceeds : (ρ.run codec w).1 = .ok new) :
    ∃ preparation r, prepare ρ.before ρ.expected (Run.start w) = (.ok preparation, r) ∧
      ∀ source, preparation ≠ .waitForRevision source := by
  rcases hrun : prepare ρ.before ρ.expected (Run.start w) with ⟨preparation | e | _, r⟩
  · refine ⟨preparation, r, rfl, ?_⟩
    rintro source rfl
    have hsource := awaits_of_prepare hheld (congrArg Prod.fst hrun)
    have hcredential := @credential_of_prepare old w ρ.before ρ.expected hheld hshows
    rw [hrun] at hcredential
    have hstored : ∀ current, r.world.Holds current → current.revision = source := by
      intro current hcurrent
      rw [World.Holds, hcredential] at hcurrent
      rw [World.Holds.unique hcurrent hheld, hsource]
    have hwait : Tracks Run.world (fun _ _ => True)
        (waitForTerminalRevision ρ.after source ρ.after.polls) (Run.start r.world)
        (fun _ _ => False) fun _ _ => True := tracks_waitForTerminalRevision _ hstored
    simp only [Rotation.run, hrun, Auth.plain, tryCatch_apply] at hsucceeds
    rcases hend : waitForTerminalRevision ρ.after source ρ.after.polls (Run.start r.world) with
      ⟨auth | e | _, r'⟩ <;> rw [hend] at hsucceeds
    · exact hwait.returns auth (congrArg Prod.fst hend)
    · cases hsucceeds
    · cases hsucceeds
  · simp only [Rotation.run, hrun] at hsucceeds
    split at hsucceeds <;> simp_all
  · simp only [Rotation.run, hrun] at hsucceeds
    cases hsucceeds

/-- What a refresh that succeeds by itself is at the moments of its commit: it has returned, or it
commits the exchange of the credential that was stored. -/
inductive Rotation.Ends (codec : CookieCodec) (ρ : Rotation) (w : World) (old : StoredAuth) : Prop
  | returned {r : Run} (hshown : r.world.Shown w old.revision)
      (hat : ∀ n, ρ.stateAt codec w (.committing n) = r) : ρ.Ends codec w old
  | committed {v : World} (hshown : v.Shown w old.revision)
      (hdispatched : v.Dispatched ρ.before w old)
      (hat : ∀ n, ρ.stateAt codec w (.committing n) =
        (commitExchange codec (ρ.after.cut n) old (ρ.exchangeOnce old) (Run.start v)).2)
      (hrun : ρ.run codec w =
        commitExchange codec ρ.after old (ρ.exchangeOnce old) (Run.start v)) : ρ.Ends codec w old

lemma Rotation.ends_of_run (howner : ρ.before.owner.Identified) (hheld : w.Holds old)
    (hnamed : old.revision ≠ "") (hshows : ShowsWith old w.journal)
    (hsucceeds : (ρ.run codec w).1 = .ok new) : ρ.Ends codec w old := by
  obtain ⟨preparation, r, hrun, hwaits⟩ := ρ.prepared_of_run hheld hshows hsucceeds
  have hshown : r.world.Shown w old.revision := by
    have hshown := shown_of_prepare howner hheld hnamed hshows (congrArg Prod.fst hrun) hwaits
      ρ.before.fault
    rw [show { ρ.before with fault := ρ.before.fault } = ρ.before from rfl, hrun] at hshown
    exact hshown
  cases preparation with
  | dispatch auth =>
    have hdispatched : r.world.Dispatched ρ.before w auth := by
      have hprepared := (tracks_prepare ρ.before w ρ.expected).returns _ (congrArg Prod.fst hrun)
      rw [hrun] at hprepared
      exact hprepared auth rfl
    obtain rfl : auth = old := by
      have hstored := hdispatched.holds
      rw [World.Holds, hshown.credential] at hstored
      exact World.Holds.unique hstored hheld
    refine .committed hshown hdispatched (fun n => ?_) ?_
    · simp only [Rotation.stateAt, Rotation.cut, Rotation.run, hrun]
    · simp only [Rotation.run, hrun]
  | returnAuth auth =>
    refine .returned hshown fun n => ?_
    simp only [Rotation.stateAt, Rotation.cut, Rotation.run, hrun]
  | waitForRevision source => exact absurd rfl (hwaits source)

/-- A clock at which a credential is read can be compared with its date. -/
lemma exists_latest_of_authOf {file : Option FileText} {now : Datetime}
    (h : authOf now file = .ok (.loaded auth)) :
    ∃ latest, now.add? importedAtFutureTolerance = some latest := by
  rcases file with _ | _ | detail | typeName | _ | _ | _ | _ | _ | _ | fields
  case some.json.obj =>
    simp only [authOf, parseAuth] at h
    split_ifs at h
    swap
    · cases h
    rcases hmetadata : credentialMetadata fields with _ | ⟨revision, baseUrl, importedAt⟩ <;>
      rw [hmetadata] at h
    · cases h
    · rcases hcheck : validateImportedAt importedAt now with e | ⟨_ | refused⟩ <;>
        simp only [hcheck, bind, Except.bind] at h
      · cases h
      · rw [validateImportedAt] at hcheck
        rcases hparsed : parseUtcTimestamp importedAt with _ | parsed <;> rw [hparsed] at hcheck
        · cases hcheck
        · rcases hlatest : now.add? importedAtFutureTolerance with _ | latest
          · rw [hlatest] at hcheck
            cases hcheck
          · exact ⟨latest, rfl⟩
      · rcases refused_of_validateImportedAt hcheck with rfl | ⟨_, rfl⟩ <;> cases h
  all_goals cases h

/-- A date is not further in the future of a reading of the clock than a credential's may be. -/
def Tolerable (now date : Datetime) : Prop :=
  ∀ latest, now.add? importedAtFutureTolerance = some latest → ¬ latest < date

/-- A credential whose date can be tolerated is read as it was stored. -/
lemma authOf_of_stamps {file : Option FileText} {readings : Nat} {now : Datetime}
    (hread : authOf now file = .ok (.loaded old)) (hnamed : auth.revision ≠ "")
    (hstamps : env.Stamps readings auth) (hclock : ∀ k < readings, Tolerable now (env.wall k)) :
    authOf now (some (.json (authPayload auth))) = .ok (.loaded auth) := by
  obtain ⟨hurl, k, hk, hdate⟩ := hstamps
  obtain ⟨latest, hlatest⟩ := exists_latest_of_authOf hread
  have hparsed : parseUtcTimestamp auth.importedAt = some (env.wall k) := by
    simp only [hdate, parseUtcTimestamp, fromIsoformat_isoformat, if_true]
    exact toUtc?_zero _ _
  have hpast : ¬ latest < env.wall k := hclock k hk latest hlatest
  have hvalid : validateImportedAt auth.importedAt now = .ok none := by
    unfold validateImportedAt
    generalize now.add? importedAtFutureTolerance = bound at hlatest ⊢
    subst hlatest
    simp only [hparsed, if_neg hpast]
  have hload : parseAuth (authPayload auth) now = .ok (.loaded auth) := by
    rw [parseAuth_authPayload, if_pos ⟨hnamed, hurl, hdate ▸ isoformat_ne_empty _⟩, hvalid]
    rfl
  exact hload

/-- At every moment of a refresh that succeeds by itself the journal can be read. -/
lemma Rotation.readable (howner : ρ.before.owner.Identified) (hminted : ρ.after.minted 0 ≠ "")
    (hheld : w.Holds old) (hnamed : old.revision ≠ "") (hshows : ShowsWith old w.journal)
    (hsucceeds : (ρ.run codec w).1 = .ok new) (j : Moment) :
    (ρ.stateAt codec w j).world.Readable := by
  cases j with
  | preparing n =>
    obtain ⟨preparation, r, hrun, hwaits⟩ := ρ.prepared_of_run hheld hshows hsucceeds
    have hshown := shown_of_prepare howner hheld hnamed hshows (congrArg Prod.fst hrun) hwaits
      (ρ.before.cut n).fault
    exact (hshown.showsWith hshows).2.readable
  | committing n =>
    cases ρ.ends_of_run howner hheld hnamed hshows hsucceeds with
    | returned hshown hat =>
      rw [hat]
      exact (hshown.showsWith hshows).2.readable
    | committed hshown hdispatched hat =>
      rw [hat]
      have hshows' := (hshown.showsWith hshows).2
      exact (legible_of_commitExchange (hdispatched.legible hnamed hshows') hnamed hminted
        (hdispatched.settled hshows') n).readable

/-- What an observer makes of files beside a rotation: it may make requests with the credential
that was stored before or with the one that is stored after, and is refused exactly when it reads
the one before and the record that rotates it. -/
structure Answered (seen final : World) (old : StoredAuth)
    (answer : Except AuthProjectionError StoredAuth) : Prop where
  credential : ∀ auth, answer = .ok auth → auth = old ∨ final.Holds auth
  refused : ∀ e, answer = .error e ↔
    e = rotationPending ∧ seen.Holds old ∧ seen.RotatesFrom old.revision

/-- The credential at a moment is the one before, or, in a commit, the one that is stored after. -/
lemma Rotation.credential_cases (howner : ρ.before.owner.Identified) (hheld : w.Holds old)
    (hnamed : old.revision ≠ "") (hshows : ShowsWith old w.journal)
    (hsucceeds : (ρ.run codec w).1 = .ok new) (hfresh : ρ.after.minted 0 ≠ old.revision)
    (i : Moment) :
    (ρ.stateAt codec w i).world.credential = w.credential ∨
      (∃ n, i = .committing n) ∧ (∃ auth, (ρ.stateAt codec w i).world.credential =
          some (.json (authPayload auth)) ∧ auth.revision = ρ.after.minted 0 ∧
        ρ.after.Stamps (ρ.stateAt codec w i).cursor.wall auth ∧
        (ρ.run codec w).2.world.Holds auth) ∧
      ∀ m revision, (ρ.stateAt codec w (.committing m)).world.RotatesFrom revision →
        revision = old.revision := by
  cases i with
  | preparing n =>
    obtain ⟨preparation, r, hrun, hwaits⟩ := ρ.prepared_of_run hheld hshows hsucceeds
    exact .inl (shown_of_prepare howner hheld hnamed hshows (congrArg Prod.fst hrun) hwaits
      (ρ.before.cut n).fault).credential
  | committing n =>
    cases ρ.ends_of_run howner hheld hnamed hshows hsucceeds with
    | returned hshown hat =>
      rw [hat]
      exact .inl hshown.credential
    | committed hshown hdispatched hat hrun =>
      rw [hat, hrun]
      refine (stored_of_commitExchange hfresh n).imp (fun h => h.trans hshown.credential)
        fun hstored => ⟨⟨n, rfl⟩, hstored, fun m revision hrotates => ?_⟩
      rw [hat] at hrotates
      obtain ⟨state, enqueued, attempt, migrated, hload, hsource⟩ := hrotates
      obtain ⟨attempt', hjournal, -⟩ := hdispatched.journal
      have hsources := sources_of_commitExchange (fun state enqueued attempt hheld => by
        rw [(hheld.unique hjournal).1]; rfl) m _ _ _ (World.journalHolds_of_journalOf hload)
      rcases state with _ | _ | ⟨_ | _ | _⟩
      case terminal.rotated => exact hsource.symm.trans hsources
      all_goals exact hsource.elim

/-- Whatever two moments of a refresh that succeeds by itself an observer reads the credential and
then the journal at, it may make requests with the credential before or the one after, unless it
reads the one before and the record that rotates it. -/
theorem answered_of_rotation {i j : Moment}
    (hshown : (requestCredential watcher (Run.start w)).1 = .ok (.ok old))
    (hsucceeds : (ρ.run codec w).1 = .ok new) (howner : ρ.before.owner.Identified)
    (hminted : ρ.after.minted 0 ≠ "") (hfresh : ρ.after.minted 0 ≠ old.revision)
    (hclock : ∀ n, i = .committing n → ∀ k < (ρ.stateAt codec w i).cursor.wall,
      Tolerable (watcher.wall 0) (ρ.after.wall k)) (hbefore : i.Before j) :
    ∃ answer, (requestCredential watcher (Run.start (ρ.between codec w i j))).1 = .ok answer ∧
      Answered (ρ.between codec w i j) (ρ.run codec w).2.world old answer := by
  obtain ⟨hcredential, hjournal, hauth, hshows⟩ := of_requestCredential hshown
  have hheld := World.holds_of_authOf hauth
  have hnamed := (named_of_authOf hauth).1
  have hreadable : (ρ.between codec w i j).Readable :=
    Rotation.readable_between.2 (ρ.readable howner hminted hheld hnamed hshows hsucceeds j)
  rcases ρ.credential_cases howner hheld hnamed hshows hsucceeds hfresh i with
    hsame | ⟨⟨n, rfl⟩, ⟨auth, hstored, hrevision, hstamps, hfinal⟩, hrotates⟩
  · have hread : authOf (watcher.wall 0) (ρ.between codec w i j).credential =
        .ok (.loaded old) := by
      rw [Rotation.credential_between, hsame, hauth]
    obtain ⟨answer, hanswer, hok, herror⟩ :=
      requestCredential_of_readable hcredential hjournal hread hreadable
    refine ⟨answer, hanswer, fun auth h => .inl (hok auth h), fun e => ?_⟩
    rw [herror e]
    exact and_congr Iff.rfl ⟨fun h => ⟨World.holds_of_authOf hread, h⟩, And.right⟩
  · have hread : authOf (watcher.wall 0) (ρ.between codec w (.committing n) j).credential =
        .ok (.loaded auth) := by
      rw [Rotation.credential_between, hstored]
      exact authOf_of_stamps hauth (hrevision ▸ hminted) hstamps (hclock n rfl)
    obtain ⟨answer, hanswer, hok, herror⟩ :=
      requestCredential_of_readable hcredential hjournal hread hreadable
    have hother : auth.revision ≠ old.revision := by
      rw [hrevision]
      exact hfresh
    refine ⟨answer, hanswer, fun auth' h => .inr (hok auth' h ▸ hfinal), fun e => ?_⟩
    rw [herror e]
    constructor
    · rintro ⟨-, hrotated⟩
      cases j with
      | preparing m => exact hbefore.elim
      | committing m => exact absurd (hrotates m _ (Rotation.rotatesFrom_between.1 hrotated)) hother
    · rintro ⟨-, hseen, -⟩
      rw [hseen.unique (World.holds_of_authOf hread)] at hother
      exact absurd rfl hother

end Rotating

/-! ### A calm rotation -/

/-- A worker refreshes the first credential, and the service answers with a complete successor. -/
def calmRotation : Rotation where
  before := .calm (worker 1) launch "r1"
  after := .calm (worker 1) launch "r1"
  expected := none
  exchangeOnce _ := .response successResponse

/-- What a calm rotation stores. -/
def secondAuth : StoredAuth :=
  ⟨"r1", "https://fleet.enji.ai", .cookie "access_token=c; refresh_token=d", isoformat launch⟩

lemma run_calmRotation :
    (calmRotation.run plainCodec (Sys.installed firstAuth).world).1 = .ok secondAuth := by
  decide +kernel

lemma requestCredential_installed :
    (requestCredential (.calm (worker 2) launch "r2")
      (Run.start (Sys.installed firstAuth).world)).1 = .ok (.ok firstAuth) :=
  requestCredential_eq_ok.2 ⟨.loaded firstAuth, .absent, authOf_firstAuth, rfl, rfl⟩

lemma tolerable_launch : Tolerable launch launch := by
  intro latest hlatest
  have hlater : launch.add? importedAtFutureTolerance = some (launchAfter 5) := by
    decide +kernel
  obtain rfl := Option.some.inj (hlater.symm.trans hlatest)
  decide +kernel

/-- Once the successor is stored, another worker reads the files. -/
theorem answered_of_rotation_stored :
    let seen := calmRotation.between plainCodec (Sys.installed firstAuth).world (.committing 30)
      (.committing 40)
    ∃ answer, (requestCredential (.calm (worker 2) launch "r2") (Run.start seen)).1 = .ok answer ∧
      Answered seen (calmRotation.run plainCodec (Sys.installed firstAuth).world).2.world firstAuth
        answer :=
  answered_of_rotation requestCredential_installed run_calmRotation
    ⟨by decide, by decide, by decide⟩ (by decide) (by decide)
    (fun _ _ _ _ => tolerable_launch) (by decide : 30 ≤ 40)

/-- Between the record of the rotation and the successor, another worker is refused. -/
theorem not_shown_of_rotation :
    ¬ ∀ codec (ρ : Rotation) w watcher old new i j,
      (requestCredential watcher (Run.start w)).1 = .ok (.ok old) →
      (ρ.run codec w).1 = .ok new → ρ.before.owner.Identified → ρ.after.minted 0 ≠ "" →
      ρ.after.minted 0 ≠ old.revision →
      (∀ n, i = .committing n → ∀ k < (ρ.stateAt codec w i).cursor.wall,
        Tolerable (watcher.wall 0) (ρ.after.wall k)) → i.Before j →
      ∃ auth, (requestCredential watcher (Run.start (ρ.between codec w i j))).1 =
          .ok (.ok auth) ∧
        (auth = old ∨ (ρ.run codec w).2.world.Holds auth) := by
  intro h
  obtain ⟨auth, hanswer, -⟩ := h plainCodec calmRotation (Sys.installed firstAuth).world
    (.calm (worker 2) launch "r2") firstAuth secondAuth (.committing 10) (.committing 10)
    requestCredential_installed run_calmRotation ⟨by decide, by decide, by decide⟩ (by decide)
    (by decide) (fun _ _ _ _ => tolerable_launch) (le_refl 10)
  have hrefused : (requestCredential (.calm (worker 2) launch "r2") (Run.start
      (calmRotation.between plainCodec (Sys.installed firstAuth).world (.committing 10)
        (.committing 10)))).1 = .ok (.error rotationPending) := by decide +kernel
  rw [hanswer] at hrefused
  cases hrefused

end EnjiGuard.AuthSession
