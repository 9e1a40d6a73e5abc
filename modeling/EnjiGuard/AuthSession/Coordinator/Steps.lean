import EnjiGuard.AuthSession.Coordinator.Sections

/-!
# What a section can do to the files

A section changes the files one durable operation at a time, and can be cut off after any of
them. The relations below list these operations, each with what is known when it happens; `start`
is the state of the files at the start of the section. Every invariant of the coordinator is
derived from them.
-/

namespace EnjiGuard.AuthSession

open Foundation

/-- An outcome is accepted by the sink or waits in the outbox. -/
def World.Delivering (w : World) (eventKey : String) : Prop :=
  eventKey ∈ w.accepted ∨ w.InOutbox eventKey

def TerminalState.successor? (t : TerminalState) : Option String :=
  (JournalState.terminal t).successor?

/-- The successor of a rotation, if the state is one, is what the credential file holds. -/
def World.Projected (w : World) (t : TerminalState) : Prop :=
  ∀ successor, t.successor? = some successor → ∃ auth, w.Holds auth ∧ auth.revision = successor

/-- Recording a terminal outcome; `prior` is what is known of the journal that is marked. -/
inductive RecordStep (t : TerminalState) (attempt : RotationAttempt) (prior : World → Prop) :
    World → World → Prop
  | outbox {w w' : World} (h : OutboxStep w w') : RecordStep t attempt prior w w'
  | mark {w : World} (clock : Option Datetime) (hprior : prior w)
      (hprojected : w.Projected t) (hkey : w.Delivering t.eventKey) :
      RecordStep t attempt prior w (w.setJournal (.terminal t) true attempt clock)
  | delete {w : World} (hjournal : w.JournalHolds (.terminal t) true attempt)
      (hprojected : w.Projected t) (hrotated : t.successor?.isSome)
      (hgone : ¬ w.InOutbox t.eventKey) :
      RecordStep t attempt prior w w.removeJournal

/-- The usual prior of a record: the journal holds the outcome, not yet enqueued. -/
def World.Pending (t : TerminalState) (attempt : RotationAttempt) (w : World) : Prop :=
  w.JournalHolds (.terminal t) false attempt

/-! ### Recovery -/

/-- How a section comes by an unknown outcome, and how many clock readings that takes. -/
inductive Found (env : Env) (start : World) (revision reason : String)
    (attempt : RotationAttempt) : Nat → Prop
  | unknown {enqueued : Bool}
      (h : start.JournalHolds (.terminal (.outcomeUnknown revision reason)) enqueued attempt) :
      Found env start revision reason attempt 0
  | requested {enqueued : Bool} {held : RotationAttempt} {deadline : String}
      (h : start.JournalHolds (.requested revision) enqueued held)
      (hdead : ownerIsAlive env held = false)
      (hdeadline : isoformatAfter (env.now 0) recoveryWindow = .ok deadline)
      (hattempt : withContinuation held .ambiguityReplay deadline (env.now 1) = .ok attempt) :
      Found env start revision reason attempt 2

/-- The first attempt of a revision. -/
def firstAttempt (revision deadline : String) : RotationAttempt :=
  { rotationId := revision, attemptKind := .normal, dispatchCount := 1,
    recoveryDeadline := some deadline }

/-- Why a dispatch is authorized. `origin` is the unknown outcome it continues, if any, and
`clock` the last reading before it. -/
inductive Authorised (env : Env) (start : World) (revision : String) :
    Option (String × RotationAttempt) → RotationAttempt → Datetime → Prop
  | normal {deadline : String}
      (hdeadline : isoformatAfter (env.now 0) recoveryWindow = .ok deadline) :
      Authorised env start revision none (firstAttempt revision deadline) (env.now 0)
  | recovery {reason : String} {held next : RotationAttempt} {offset : Nat} {lane : RecoveryLane}
      {left left' : Timedelta} (hfound : Found env start revision reason held offset)
      (hnext : nextRecoveryAttemptAt held (env.now offset) = .ok (some next))
      (hkind : next.attemptKind = .recovery lane)
      (hwaited : secondsUntil next.nextAttemptAt (env.now (offset + 1)) = .ok left)
      (hleft : left ≤ 0)
      (hopen : deadlinePassed next.recoveryDeadline (env.now (offset + 2)) = .ok false)
      (hcooled : secondsUntil next.nextAttemptAt (env.now (offset + 3)) = .ok left')
      (hleft' : left' ≤ 0)
      (hauthorized : recoveryDispatchIsAuthorized (authorization lane next true true) = true) :
      Authorised env start revision (some (reason, held)) next (env.now (offset + 3))

/-- What the journal holds when a dispatch with a given origin is reserved. -/
def World.Awaits (w : World) (revision : String) : Option (String × RotationAttempt) → Prop
  | none => w.journal = none
  | some (reason, held) =>
    w.JournalHolds (.terminal (.outcomeUnknown revision reason)) true held

/-- An attempt stopped for want of a further dispatch. -/
def stopAttempt (attempt : RotationAttempt) : RotationAttempt :=
  { withoutOwner attempt with
    continuation := some .stop
    stopReason := match attempt.stopReason with
      | some reason => if reason = "" then some "recovery-budget-exhausted" else some reason
      | none => some "recovery-budget-exhausted" }

/-- A preparation or a startup recovery. -/
inductive RecoveryStep (env : Env) (start : World) : World → World → Prop
  | outbox {w w' : World} (h : OutboxStep w w') : RecoveryStep env start w w'
  | record {w w' : World} {t : TerminalState} {attempt : RotationAttempt}
      (h : RecordStep t attempt (World.Pending t attempt) w w') : RecoveryStep env start w w'
  | discard {w : World} {current : StoredAuth} {state : JournalState} {enqueued : Bool}
      {attempt : RotationAttempt} (hheld : w.Holds current)
      (hjournal : w.JournalHolds state enqueued attempt)
      (hother : state.sourceRevision ≠ current.revision)
      (hsafe : ∀ t, state = .terminal t → enqueued = false → w.Delivering t.eventKey) :
      RecoveryStep env start w w.removeJournal
  | dropReserved {w : World} {current : StoredAuth} {enqueued : Bool}
      {attempt : RotationAttempt} (hheld : w.Holds current)
      (hjournal : w.JournalHolds (.reserved current.revision) enqueued attempt)
      (hstart : start.JournalHolds (.reserved current.revision) enqueued attempt) :
      RecoveryStep env start w w.removeJournal
  | abandon {w : World} {current : StoredAuth} {enqueued : Bool} {held attempt : RotationAttempt}
      {deadline reason : String} (clock : Option Datetime) (hheld : w.Holds current)
      (hjournal : w.JournalHolds (.requested current.revision) enqueued held)
      (hdead : ownerIsAlive env held = false)
      (hattempt : withContinuation held .ambiguityReplay deadline (env.now 1) = .ok attempt) :
      RecoveryStep env start w
        (w.setJournal (.terminal (.outcomeUnknown current.revision reason)) false attempt clock)
  | project {w : World} {current auth : StoredAuth} {enqueued : Bool}
      {attempt : RotationAttempt} {replacement successor : String} (hheld : w.Holds current)
      (hjournal : w.JournalHolds
        (.terminal (.rotated current.revision replacement successor)) enqueued attempt)
      (hrevision : auth.revision = successor) (hcookie : auth.credential = .cookie replacement) :
      RecoveryStep env start w (w.setCredential auth (.projected current.revision))
  | reserve {w : World} {current : StoredAuth} {origin : Option (String × RotationAttempt)}
      {attempt : RotationAttempt} {clock : Datetime} (reading : Option Datetime)
      (hheld : w.Holds current)
      (hauthorised : Authorised env start current.revision origin attempt clock)
      (hawaits : w.Awaits current.revision origin) :
      RecoveryStep env start w (w.setJournal (.reserved current.revision) false
        (ownedAttempt attempt env.owner) reading)
  | request {w : World} {current : StoredAuth} {origin : Option (String × RotationAttempt)}
      {attempt : RotationAttempt} {clock : Datetime} (hheld : w.Holds current)
      (hauthorised : Authorised env start current.revision origin attempt clock)
      (hjournal : w.JournalHolds (.reserved current.revision) false
        (ownedAttempt attempt env.owner))
      (hschedule : ∀ text, w.schedule = some text →
        ∃ reason held, origin = some (reason, held) ∧ held.nextAttemptAt = some text) :
      RecoveryStep env start w (w.setJournal (.requested current.revision) false
        (ownedAttempt attempt env.owner) (some clock))
  | stop {w : World} {current : StoredAuth} {held : RotationAttempt} {reason : String}
      {offset : Nat} (clock : Option Datetime) (hheld : w.Holds current)
      (hjournal : w.JournalHolds (.terminal (.outcomeUnknown current.revision reason)) true held)
      (hfound : Found env start current.revision reason held offset)
      (hnone : nextRecoveryAttemptAt held (env.now offset) = .ok none) :
      RecoveryStep env start w (w.setJournal
        (.terminal (.outcomeUnknown current.revision reason)) false (stopAttempt held) clock)

/-- A recovery step that neither dispatches nor stops, as at startup. -/
inductive ReconcileStep (env : Env) (start : World) : World → World → Prop
  | outbox {w w' : World} (h : OutboxStep w w') : ReconcileStep env start w w'
  | record {w w' : World} {t : TerminalState} {attempt : RotationAttempt}
      (h : RecordStep t attempt (World.Pending t attempt) w w') : ReconcileStep env start w w'
  | discard {w : World} {current : StoredAuth} {state : JournalState} {enqueued : Bool}
      {attempt : RotationAttempt} (hheld : w.Holds current)
      (hjournal : w.JournalHolds state enqueued attempt)
      (hother : state.sourceRevision ≠ current.revision)
      (hsafe : ∀ t, state = .terminal t → enqueued = false → w.Delivering t.eventKey) :
      ReconcileStep env start w w.removeJournal
  | dropReserved {w : World} {current : StoredAuth} {enqueued : Bool}
      {attempt : RotationAttempt} (hheld : w.Holds current)
      (hjournal : w.JournalHolds (.reserved current.revision) enqueued attempt)
      (hstart : start.JournalHolds (.reserved current.revision) enqueued attempt) :
      ReconcileStep env start w w.removeJournal
  | abandon {w : World} {current : StoredAuth} {enqueued : Bool} {held attempt : RotationAttempt}
      {deadline reason : String} (clock : Option Datetime) (hheld : w.Holds current)
      (hjournal : w.JournalHolds (.requested current.revision) enqueued held)
      (hdead : ownerIsAlive env held = false)
      (hattempt : withContinuation held .ambiguityReplay deadline (env.now 1) = .ok attempt) :
      ReconcileStep env start w
        (w.setJournal (.terminal (.outcomeUnknown current.revision reason)) false attempt clock)
  | project {w : World} {current auth : StoredAuth} {enqueued : Bool}
      {attempt : RotationAttempt} {replacement successor : String} (hheld : w.Holds current)
      (hjournal : w.JournalHolds
        (.terminal (.rotated current.revision replacement successor)) enqueued attempt)
      (hrevision : auth.revision = successor) (hcookie : auth.credential = .cookie replacement) :
      ReconcileStep env start w (w.setCredential auth (.projected current.revision))

lemma ReconcileStep.recovery {env : Env} {start w w' : World} (h : ReconcileStep env start w w') :
    RecoveryStep env start w w' := by
  cases h with
  | outbox h => exact .outbox h
  | record h => exact .record h
  | discard hheld hjournal hother hsafe => exact .discard hheld hjournal hother hsafe
  | dropReserved hheld hjournal hstart => exact .dropReserved hheld hjournal hstart
  | abandon clock hheld hjournal hdead hattempt =>
    exact .abandon clock hheld hjournal hdead hattempt
  | project hheld hjournal hrevision hcookie => exact .project hheld hjournal hrevision hcookie

/-! ### Commits -/

/-- The attempt a commit looks up for its source. Without a readable record of the source in the
journal it is a fresh one. -/
inductive LookedUp (env : Env) (start : World) (source : String) : RotationAttempt → Prop
  | found {state : JournalState} {enqueued : Bool} {attempt : RotationAttempt}
      {migrated : Option Nat}
      (h : journalOf start.journal = .ok (.loaded state enqueued attempt migrated))
      (hsource : state.sourceRevision = source) : LookedUp env start source attempt
  | fallback (h : ∀ state enqueued attempt migrated, env.readFault .journal 0 = none →
        journalOf start.journal = .ok (.loaded state enqueued attempt migrated) →
        state.sourceRevision ≠ source) :
      LookedUp env start source
        { rotationId := source, attemptKind := .normal, dispatchCount := 1 }

/-- The attempt a terminal state is committed with. -/
inductive Committed (held : RotationAttempt) : TerminalState → RotationAttempt → Prop
  | rotated (source replacement successor : String) :
      Committed held (.rotated source replacement successor) (withoutOwner held)
  | rejected (source reason : String) :
      Committed held (.rejected source reason) (withoutOwner held)
  | unknown {attempt : RotationAttempt} {lane : RecoveryLane} {deadline : String}
      {now : Datetime} (source reason : String) (responseClass : Option String)
      (h : withContinuation held lane deadline now = .ok attempt) :
      Committed held (.outcomeUnknown source reason)
        { attempt with responseClass := responseClass }

/-- A commit for a source; `allowed` is what the exchange can end in. -/
inductive CommitStep (env : Env) (start : World) (source : String)
    (allowed : TerminalState → Prop) : World → World → Prop
  | record {w w' : World} {t : TerminalState} {attempt : RotationAttempt} (hallowed : allowed t)
      (h : RecordStep t attempt (World.Pending t attempt) w w') :
      CommitStep env start source allowed w w'
  | terminal {w : World} {current : StoredAuth} {t : TerminalState}
      {held attempt : RotationAttempt} (clock : Option Datetime) (hallowed : allowed t)
      (hheld : w.Holds current) (hcurrent : current.revision = source)
      (hsource : t.sourceRevision = source) (hjournal : w.journal = start.journal)
      (hlooked : LookedUp env start source held) (hattempt : Committed held t attempt) :
      CommitStep env start source allowed w (w.setJournal (.terminal t) false attempt clock)
  | project {w : World} {current auth : StoredAuth} {attempt : RotationAttempt}
      {replacement successor : String} (hallowed : allowed (.rotated source replacement successor))
      (hheld : w.Holds current) (hcurrent : current.revision = source)
      (hjournal : w.JournalHolds (.terminal (.rotated source replacement successor)) false attempt)
      (hrevision : auth.revision = successor) (hcookie : auth.credential = .cookie replacement) :
      CommitStep env start source allowed w (w.setCredential auth (.projected source))

/-- A terminal state of a source that leads to no other successor. -/
def Names (source successor : String) (t : TerminalState) : Prop :=
  t.sourceRevision = source ∧ ∀ s, t.successor? = some s → s = successor

/-- What the result of an exchange can be committed as: a rotation when the response carries a
complete successor, a rejection when it says so, and an unknown outcome. -/
def ExchangeResult.EndsIn (codec : CookieCodec) (env : Env) (start : World) (source : StoredAuth)
    (result : ExchangeResult) : TerminalState → Prop
  | .rotated .. => ∃ response header, result = .response response ∧
      (successfulReplacement codec env source response (Run.start start)).1 = .ok (some header)
  | .rejected .. => ∃ response, result = .response response ∧
      responseContinuation response = .ok .stop
  | .outcomeUnknown .. => True

/-- The terminal states an exchange of a source can be committed with. -/
structure Outcomes (codec : CookieCodec) (env : Env) (start : World) (source : StoredAuth)
    (result : ExchangeResult) (t : TerminalState) : Prop where
  names : Names source.revision (env.minted 0) t
  ends : result.EndsIn codec env start source t

/-- The rotation of a source to a successor. -/
def Rotates (source successor : String) (t : TerminalState) : Prop :=
  ∃ header, t = .rotated source header successor

/-- The projection of a retained successor, or of one that is already stored. -/
inductive ProjectStep (env : Env) (start : World) (retained : RetainedRefreshSuccessor) :
    World → World → Prop
  | commit {w w' : World}
      (h : CommitStep env start retained.sourceRevision
        (Rotates retained.sourceRevision retained.auth.revision) w w') :
      ProjectStep env start retained w w'
  | already {w w' : World} {t : TerminalState} {held : RotationAttempt}
      (ht : Rotates retained.sourceRevision retained.auth.revision t)
      (hlooked : LookedUp env start retained.sourceRevision held)
      (hstored : ∃ current, start.Holds current ∧ current.revision = retained.auth.revision)
      (h : RecordStep t (withoutOwner held) (fun w => start.SameRotation w) w w') :
      ProjectStep env start retained w w'

/-- An import. -/
inductive ImportStep (env : Env) (start : World) (auth : StoredAuth) : World → World → Prop
  | outbox {w w' : World} (h : OutboxStep w w') : ImportStep env start auth w w'
  | write : ImportStep env start auth start (start.setCredential auth .imported)
  | delete {w : World} (hheld : w.Holds auth)
      (hsafe : ∀ t attempt migrated, env.readFault .journal 0 = none →
        journalOf w.journal = .ok (.loaded (.terminal t) false attempt migrated) →
        w.Delivering t.eventKey) :
      ImportStep env start auth w w.removeJournal

end EnjiGuard.AuthSession
