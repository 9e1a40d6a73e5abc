import EnjiGuard.AuthSession.Store.RoundTrip
import EnjiGuard.Foundation.Action

/-!
# The files and the environment of one section

`World` is what survives a crash: the credential, the journal and the outbox. It also carries a
record of what happened to them, which no modelled function reads. `Env` resolves everything a
lock-protected section takes from outside the files: storage failures, clock readings, the
liveness of owners, the answers of the outcome sink and fresh revisions. A section consumes each
of these in order, and `Cursor` counts how far it got.
-/

namespace EnjiGuard.AuthSession

open Foundation

/-! ### The files -/

/-- The identity of a process. -/
structure RefreshOwner where
  bootId : String
  pid : Int
  startTicks : String
  deriving DecidableEq, Repr

/-- Why the credential file was replaced. -/
inductive WriteCause
  | imported
  | projected (sourceRevision : String)
  deriving DecidableEq, Repr

/-- One replacement of the credential file, with the journal at that moment. -/
structure CredentialWrite where
  before : Option FileText
  auth : StoredAuth
  cause : WriteCause
  journal : Option FileText

/-- One durable authorization of an exchange. -/
structure Dispatch where
  sourceRevision : String
  attempt : RotationAttempt
  /-- The `next_attempt_at` of the record its reservation replaced. -/
  notBefore : Option String
  /-- The last clock reading before it. -/
  clock : Option Datetime
  deriving DecidableEq

/-- The files, and what has happened to them. -/
structure World where
  credential : Option FileText
  journal : Option FileText
  outbox : Option FileText
  /-- Every replacement of the credential file. -/
  credentialWrites : List CredentialWrite
  /-- The event key of every terminal outcome that was journaled. -/
  journaledOutcomes : List String
  /-- The `next_attempt_at` of the record the last reservation replaced. -/
  schedule : Option String
  /-- Every exchange that was durably authorized. -/
  dispatches : List Dispatch
  /-- The event keys the outcome sink accepted. -/
  accepted : List String

/-- What a file is read for; a diagnostic observation looks at the journal too. -/
inductive ReadSite
  | credential
  | journal
  | outbox
  | observation
  deriving DecidableEq, Repr

/-- The retry time of a journal file that is read back. -/
def scheduledAt : Option FileText → Option String
  | some (.json payload) =>
    match parseJournal payload with
    | .ok (.loaded _ _ attempt _) => attempt.nextAttemptAt
    | _ => none
  | _ => none

namespace World

def file (w : World) : ReadSite → Option FileText
  | .credential => w.credential
  | .journal => w.journal
  | .outbox => w.outbox
  | .observation => w.journal

/-- Replaces the credential file. -/
def setCredential (w : World) (auth : StoredAuth) (cause : WriteCause) : World :=
  { w with
    credential := some (.json (authPayload auth))
    credentialWrites := w.credentialWrites ++ [⟨w.credential, auth, cause, w.journal⟩] }

/-- Replaces the journal file. -/
def setJournal (w : World) (state : JournalState) (outboxEnqueued : Bool)
    (attempt : RotationAttempt) (clock : Option Datetime) : World :=
  { w with
    journal := some (.json (journalPayload state outboxEnqueued (some attempt)))
    journaledOutcomes := match state with
      | .terminal t => w.journaledOutcomes ++ [t.eventKey]
      | _ => w.journaledOutcomes
    schedule := match state with
      | .reserved _ => scheduledAt w.journal
      | _ => w.schedule
    dispatches := match state with
      | .requested source => w.dispatches ++ [⟨source, attempt, w.schedule, clock⟩]
      | _ => w.dispatches }

def removeJournal (w : World) : World := { w with journal := none }

/-- Replaces the outbox file. -/
def setOutbox (w : World) (records : List OutcomeOutboxRecord) : World :=
  { w with outbox := some (.json (outboxPayload records)) }

def removeOutbox (w : World) : World := { w with outbox := none }

def accept (w : World) (eventKey : String) : World :=
  { w with accepted := w.accepted ++ [eventKey] }

end World

/-! ### The environment -/

/-- What happens at a storage operation. -/
inductive Fault
  | none
  | error (detail : String)
  | crash
  deriving DecidableEq, Repr

/-- An exception of the outcome sink. -/
inductive SinkError
  | osError
  | runtimeError
  | valueError
  | other (typeName : String)
  deriving DecidableEq, Repr

/-- What the outcome sink does with an event. -/
inductive SinkReply
  | returned (isTrue : Bool)
  | raised (error : SinkError)
  deriving DecidableEq, Repr

/-- How the event sink takes the event of a section: it returns, or it raises one of the errors that
are caught. -/
inductive EventReply
  | returned
  | osError (detail : String)
  | runtimeError
  | valueError
  deriving DecidableEq, Repr

/-- What one section finds outside the files. -/
structure Env where
  /-- The fate of each storage operation, by its position in the section. -/
  fault : Nat → String → Fault
  /-- The error of each read of a file that fails. -/
  readFault : ReadSite → Nat → Option String
  /-- The readings of the coordinator's clock. -/
  now : Nat → Datetime
  /-- The readings of the wall clock the store uses. -/
  wall : Nat → Datetime
  /-- The process that runs the section. -/
  owner : RefreshOwner
  /-- The error when the process cannot establish its identity. -/
  ownerFault : Option String
  /-- The liveness probe. -/
  ownerAlive : RefreshOwner → Bool
  /-- The outcome sink, when there is one. -/
  sink : Option (Nat → SinkReply)
  /-- Whether an event sink is configured. -/
  eventSink : Bool
  eventReply : EventReply := .returned
  /-- The revisions the section would generate. -/
  minted : Nat → String
  /-- How often a wait for another revision polls before its time is up. -/
  polls : Nat

/-- How much of its environment a section has used. -/
structure Cursor where
  faults : Nat := 0
  credentialReads : Nat := 0
  journalReads : Nat := 0
  outboxReads : Nat := 0
  observationReads : Nat := 0
  now : Nat := 0
  wall : Nat := 0
  deliveries : Nat := 0
  minted : Nat := 0
  deriving DecidableEq

/-- The reads for a purpose so far. -/
def Cursor.reads (c : Cursor) : ReadSite → Nat
  | .credential => c.credentialReads
  | .journal => c.journalReads
  | .outbox => c.outboxReads
  | .observation => c.observationReads

def Cursor.countRead (c : Cursor) : ReadSite → Cursor
  | .credential => { c with credentialReads := c.credentialReads + 1 }
  | .journal => { c with journalReads := c.journalReads + 1 }
  | .outbox => { c with outboxReads := c.outboxReads + 1 }
  | .observation => { c with observationReads := c.observationReads + 1 }

/-- The state a section runs on. -/
structure Run where
  world : World
  cursor : Cursor

/-- The start of a section. -/
def Run.start (w : World) : Run := ⟨w, {}⟩

/-- A computation of the store or the coordinator. -/
abbrev Auth (α : Type) : Type := Action PyError Run α

/-- A computation that may hand a successor to its caller. -/
abbrev Commit (α : Type) : Type := Action CommitError Run α

/-- A part of a commit that cannot. -/
def Auth.plain {α : Type} (p : Auth α) : Commit α :=
  Action.tryCatch p fun e => Action.raise (.plain e)

/-! ### Primitives -/

/-- A storage operation that may fail or be the last thing the process does. -/
def trigger (env : Env) (operation : String) : Auth Unit := fun r =>
  let r' := { r with cursor := { r.cursor with faults := r.cursor.faults + 1 } }
  match env.fault r.cursor.faults operation with
  | .none => (.ok (), r')
  | .error detail => (.raised (.osError detail), r')
  | .crash => (.crashed, r')

/-- Changes the files. -/
def change (f : World → World) : Auth Unit :=
  Action.update fun r => { r with world := f r.world }

/-- A reading of the coordinator's clock. -/
def nowFn (env : Env) : Auth Datetime := fun r =>
  (.ok (env.now r.cursor.now), { r with cursor := { r.cursor with now := r.cursor.now + 1 } })

/-- A reading of the wall clock. -/
def wallNow (env : Env) : Auth Datetime := fun r =>
  (.ok (env.wall r.cursor.wall), { r with cursor := { r.cursor with wall := r.cursor.wall + 1 } })

/-- A generated revision. -/
def mintRevision (env : Env) : Auth String := fun r =>
  (.ok (env.minted r.cursor.minted),
    { r with cursor := { r.cursor with minted := r.cursor.minted + 1 } })

/-- The last reading of the coordinator's clock in this section. -/
def Run.lastReading (env : Env) (r : Run) : Option Datetime :=
  if r.cursor.now = 0 then none else some (env.now (r.cursor.now - 1))

/-- Reads a file; the error is the detail of a failed read. -/
def readText (env : Env) (file : ReadSite) : Auth (Except String (Option FileText)) := fun r =>
  let r' := { r with cursor := r.cursor.countRead file }
  match env.readFault file (r.cursor.reads file) with
  | some detail => (.ok (.error detail), r')
  | none => (.ok (.ok (r.world.file file)), r')

/-- Makes a metadata change durable. -/
def fsyncDirectory (env : Env) : Auth Unit := do
  trigger env "parent_directory_open"
  Action.ensure (trigger env "parent_directory_fsync") (trigger env "parent_directory_close")

/-- Replaces a file atomically; `replace` is the effect of the rename, given the last reading. -/
def writeAtomicJson (env : Env) (replace : World → Option Datetime → World) : Auth Unit := do
  trigger env "parent_directory_mkdir"
  trigger env "parent_directory_chmod"
  trigger env "temporary_file"
  -- from here on a temporary file exists, and a failure tries to remove it
  Action.tryCatch
    (do
      trigger env "write"
      trigger env "file_fsync"
      trigger env "temporary_chmod"
      trigger env "rename"
      Action.update fun r => { r with world := replace r.world (r.lastReading env) }
      trigger env "destination_chmod"
      fsyncDirectory env)
    fun original =>
      match original with
      | .osError detail => do
        Action.tryCatch (trigger env "unlink")
          fun cleanup => match cleanup with
            | .osError cleanupDetail => Action.raise (.exceptionGroup [detail, cleanupDetail])
            | e => Action.raise e
        Action.raise original
      | e => Action.raise e

/-- Runs a section under the file lock. -/
def withAuthFileLock {α : Type} (env : Env) (section_ : Auth α) : Auth α := do
  trigger env "lock_open"
  trigger env "lock"
  Action.ensure section_ (trigger env "unlock")

/-! ### What the primitives do -/

open Action

/-- Two runs agree on the files, the clock readings and the journal reads used. -/
structure Run.Same (r r' : Run) : Prop where
  world : r'.world = r.world
  now : r'.cursor.now = r.cursor.now
  journalReads : r'.cursor.journalReads = r.cursor.journalReads

lemma Run.Same.refl (r : Run) : r.Same r := ⟨rfl, rfl, rfl⟩

lemma Run.Same.trans {r r' r'' : Run} (h : r.Same r') (h' : r'.Same r'') : r.Same r'' :=
  ⟨h'.world.trans h.world, h'.now.trans h.now, h'.journalReads.trans h.journalReads⟩

/-- After a replacement that went through. -/
structure Run.Replaced (r : Run) (w : World) (r' : Run) : Prop where
  world : r'.world = w
  now : r'.cursor.now = r.cursor.now
  journalReads : r'.cursor.journalReads = r.cursor.journalReads

/-- After a replacement that may have been cut short. -/
structure Run.MaybeReplaced (r : Run) (w : World) (r' : Run) : Prop where
  world : r'.world = r.world ∨ r'.world = w
  now : r'.cursor.now = r.cursor.now
  journalReads : r'.cursor.journalReads = r.cursor.journalReads

lemma Run.Same.maybe {r r' : Run} {w : World} (h : r.Same r') : r.MaybeReplaced w r' :=
  ⟨.inl h.world, h.now, h.journalReads⟩

lemma Run.Same.replaced {r r' r'' : Run} {w : World} (h : r.Same r') (h' : r'.Replaced w r'') :
    r.Replaced w r'' :=
  ⟨h'.world, h'.now.trans h.now, h'.journalReads.trans h.journalReads⟩

lemma Run.Same.maybeReplaced {r r' r'' : Run} {w : World} (h : r.Same r')
    (h' : r'.MaybeReplaced w r'') : r.MaybeReplaced w r'' :=
  ⟨h.world ▸ h'.world, h'.now.trans h.now, h'.journalReads.trans h.journalReads⟩

lemma Run.Replaced.same {r r' r'' : Run} {w : World} (h : r.Replaced w r')
    (h' : r'.Same r'') : r.Replaced w r'' :=
  ⟨h'.world.trans h.world, h'.now.trans h.now, h'.journalReads.trans h.journalReads⟩

lemma Run.Replaced.maybe {r r' : Run} {w : World} (h : r.Replaced w r') :
    r.MaybeReplaced w r' := ⟨.inr h.world, h.now, h.journalReads⟩

lemma Run.MaybeReplaced.same {r r' r'' : Run} {w : World} (h : r.MaybeReplaced w r')
    (h' : r'.Same r'') : r.MaybeReplaced w r'' :=
  ⟨h'.world ▸ h.world, h'.now.trans h.now, h'.journalReads.trans h.journalReads⟩

section Specs

variable {α : Type} {R : World → World → Prop} {r : Run}

/-- A storage operation changes no file. -/
lemma tracks_trigger (env : Env) (operation : String) (r : Run) :
    Tracks Run.world R (trigger env operation) r (fun _ => r.Same)
      (fun _ => r.Same) := by
  rcases h : env.fault r.cursor.faults operation with _ | detail | _
  all_goals
    refine ⟨?_, ?_, ?_⟩ <;> simp only [trigger, h]
  · exact .refl
  · rintro _ -; exact ⟨rfl, rfl, rfl⟩
  · rintro _ ⟨⟩
  · exact .refl
  · rintro _ ⟨⟩
  · rintro _ ⟨⟩; exact ⟨rfl, rfl, rfl⟩
  · exact .refl
  · rintro _ ⟨⟩
  · rintro _ ⟨⟩

/-- A storage operation before one that changes no file. -/
lemma tracks_trigger_then {env : Env} {operation : String} {p : Auth α} {Q : α → Run → Prop}
    {E : PyError → Run → Prop} (hp : ∀ r', r.Same r' → Tracks Run.world R p r' Q E)
    (hE : ∀ e r', r.Same r' → E e r') :
    Tracks Run.world R (trigger env operation >>= fun _ => p) r Q E :=
  ((tracks_trigger env operation r).weaken (fun _ _ h => h) hE).bind fun _ r' _ h => hp r' h

/-- Syncing a directory changes no file. -/
lemma tracks_fsyncDirectory (env : Env) (r : Run) :
    Tracks Run.world R (fsyncDirectory env) r (fun _ => r.Same)
      (fun _ => r.Same) := by
  refine tracks_trigger_then (fun r' h => ?_) fun _ _ h => h
  refine Tracks.ensure (((tracks_trigger env _ r').weaken ?_ ?_)) ?_ ?_
  · exact fun _ _ h' => h.trans h'
  · exact fun _ _ h' => h.trans h'
  · exact fun _ r'' h' => (tracks_trigger env _ r'').weaken (fun _ _ k => h'.trans k)
      fun _ _ k => h'.trans k
  · exact fun _ r'' h' => (tracks_trigger env _ r'').weaken (fun _ _ k => h'.trans k)
      fun _ _ k => h'.trans k

/-- An atomic write replaces the file or leaves it, also when it fails. -/
lemma tracks_writeAtomicJson (env : Env) {replace : World → Option Datetime → World} {w : World}
    (hw : replace r.world (r.lastReading env) = w) (hR : R r.world w) :
    Tracks Run.world R (writeAtomicJson env replace) r (fun _ => r.Replaced w)
      (fun _ => r.MaybeReplaced w) := by
  refine tracks_trigger_then (fun r₁ h₁ => ?_) fun _ _ h => h.maybe
  refine tracks_trigger_then (fun r₂ h₂ => ?_) fun _ _ h => (h₁.trans h).maybe
  refine tracks_trigger_then (fun r₃ h₃ => ?_) fun _ _ h => ((h₁.trans h₂).trans h).maybe
  have h₃ : r.Same r₃ := (h₁.trans h₂).trans h₃
  refine Tracks.tryCatch (E := fun _ => r.MaybeReplaced w) ?_ ?_
  · refine tracks_trigger_then (fun r₄ h₄ => ?_) fun _ _ h => (h₃.trans h).maybe
    have h₄ := h₃.trans h₄
    refine tracks_trigger_then (fun r₅ h₅ => ?_) fun _ _ h => (h₄.trans h).maybe
    have h₅ := h₄.trans h₅
    refine tracks_trigger_then (fun r₆ h₆ => ?_) fun _ _ h => (h₅.trans h).maybe
    have h₆ := h₅.trans h₆
    refine tracks_trigger_then (fun r₇ h₇ => ?_) fun _ _ h => (h₆.trans h).maybe
    have h₇ := h₆.trans h₇
    have hreading : r₇.lastReading env = r.lastReading env := by
      simp only [Run.lastReading, h₇.now]
    have heffect : replace r₇.world (r₇.lastReading env) = w := by rw [h₇.world, hreading, hw]
    refine (Tracks.step (Q := fun _ => r.Replaced w) ?_ ?_).bind fun _ r₈ _ h₈ => ?_
    · change R r₇.world (replace r₇.world (r₇.lastReading env))
      rw [heffect, h₇.world]; exact hR
    · exact ⟨heffect, h₇.now, h₇.journalReads⟩
    · refine tracks_trigger_then (fun r₉ h₉ => ?_) fun _ _ h => h₈.maybe.same h
      have h₉ := h₈.same h₉
      exact (tracks_fsyncDirectory env r₉).weaken (fun _ _ h => h₉.same h)
        fun _ _ h => h₉.maybe.same h
  · -- the clean-up keeps what the failed write left
    rintro original r' - h
    have hkeep : ∀ {r'' : Run}, r'.Same r'' → r.MaybeReplaced w r'' := h.same
    cases original with
    | osError detail =>
      refine Tracks.bind (Q := fun _ => r'.Same) (Tracks.tryCatch
        (E := fun _ => r'.Same) (tracks_trigger env "unlink" r') ?_) ?_
      · rintro cleanup r'' - h'
        cases cleanup <;> exact Tracks.raise (hkeep h')
      · rintro _ r'' - h'
        exact Tracks.raise (hkeep h')
    | _ => exact Tracks.raise h

/-- The lock adds storage operations around a section. -/
lemma tracks_withAuthFileLock {env : Env} {p : Auth α} {Q : α → Run → Prop}
    {E : PyError → Run → Prop} (hp : ∀ r', r.Same r' → Tracks Run.world R p r' Q E)
    (hstart : ∀ e r', r.Same r' → E e r')
    (hQ : ∀ a r' r'', Q a r' → r'.Same r'' → Q a r'')
    (hQE : ∀ a e r' r'', Q a r' → r'.Same r'' → E e r'')
    (hE : ∀ e e' r' r'', E e r' → r'.Same r'' → E e' r'') :
    Tracks Run.world R (withAuthFileLock env p) r Q E := by
  refine tracks_trigger_then (fun r₁ h₁ => ?_) hstart
  refine tracks_trigger_then (fun r₂ h₂ => ?_) fun e _ h => hstart e _ (h₁.trans h)
  refine (hp r₂ (h₁.trans h₂)).ensure ?_ ?_
  · exact fun a r' h => (tracks_trigger env _ r').weaken (fun _ _ k => hQ _ _ _ h k)
      fun _ _ k => hQE _ _ _ _ h k
  · exact fun e r' h => (tracks_trigger env _ r').weaken (fun _ _ k => hE _ _ _ _ h k)
      fun _ _ k => hE _ _ _ _ h k

/-- After a read of a file. -/
structure Run.Read (r : Run) (file : ReadSite) (r' : Run) : Prop where
  world : r'.world = r.world
  now : r'.cursor.now = r.cursor.now
  journalReads : r'.cursor.journalReads =
    r.cursor.journalReads + if file = .journal then 1 else 0

/-- Reading a file yields its content unless the read fails. -/
lemma tracks_readText (env : Env) (file : ReadSite) (r : Run) {E : PyError → Run → Prop} :
    Tracks Run.world R (readText env file) r
      (fun text r' => r.Read file r' ∧ text =
        match env.readFault file (r.cursor.reads file) with
        | some detail => .error detail
        | none => .ok (r.world.file file))
      E := by
  have hread : r.Read file { r with cursor := r.cursor.countRead file } := by
    cases file <;> exact ⟨rfl, rfl, rfl⟩
  rcases h : env.readFault file (r.cursor.reads file) with _ | detail
  all_goals
    refine ⟨?_, ?_, ?_⟩ <;> simp only [readText, h]
  · exact .refl
  · rintro _ ⟨⟩
    exact ⟨hread, rfl⟩
  · rintro _ ⟨⟩
  · exact .refl
  · rintro _ ⟨⟩
    exact ⟨hread, rfl⟩
  · rintro _ ⟨⟩

/-- Only reads of the journal itself are counted by the specifications. -/
lemma Run.Read.same {r r' : Run} {file : ReadSite} (h : r.Read file r')
    (hfile : file ≠ .journal) : r.Same r' :=
  ⟨h.world, h.now, by rw [h.journalReads, if_neg hfile, Nat.add_zero]⟩

/-- A reading of the wall clock changes nothing the specifications speak of. -/
lemma tracks_wallNow (env : Env) (r : Run) {E : PyError → Run → Prop} :
    Tracks Run.world R (wallNow env) r (fun _ => r.Same) E :=
  ⟨.refl, by rintro _ -; exact ⟨rfl, rfl, rfl⟩, by rintro _ ⟨⟩⟩

/-- A generated revision is one of the environment's. -/
lemma tracks_mintRevision (env : Env) (r : Run) {E : PyError → Run → Prop} :
    Tracks Run.world R (mintRevision env) r
      (fun revision r' => r.Same r' ∧ revision = env.minted r.cursor.minted) E :=
  ⟨.refl, by rintro _ ⟨⟩; exact ⟨⟨rfl, rfl, rfl⟩, rfl⟩, by rintro _ ⟨⟩⟩

/-- A clock reading is the next one. -/
lemma tracks_nowFn (env : Env) (r : Run) {E : PyError → Run → Prop} :
    Tracks Run.world R (nowFn env) r
      (fun now r' => now = env.now r.cursor.now ∧ r'.world = r.world ∧
        r'.cursor.now = r.cursor.now + 1 ∧ r'.cursor.journalReads = r.cursor.journalReads) E :=
  ⟨.refl, by rintro _ ⟨⟩; exact ⟨rfl, rfl, rfl, rfl⟩, by rintro _ ⟨⟩⟩

end Specs

end EnjiGuard.AuthSession
