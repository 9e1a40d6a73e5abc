import EnjiGuard.Foundation.IsoFormat

/-!
# The rotation state machine

One cookie-refresh credential generation moves through the states below. `transition` is the pure
transition function; the coordinator executes its effects. The state that a journal can hold is a
type of its own, so that the implicit ready state cannot be persisted.
-/

namespace EnjiGuard.AuthSession

open Foundation

/-! ### Recovery safety policy -/

/-- The most exchanges one source revision may see. -/
def totalDispatchCap : Int := 6

/-- The most dispatches in the safe-retry lane. -/
def safeRetryLimit : Int := 4

/-- The most dispatches in the validation-recovery lane. -/
def validationRetryLimit : Int := 1

/-- The most dispatches in the ambiguity-replay lane. -/
def ambiguityReplayLimit : Int := 1

/-- The time within which recovery dispatches are allowed. -/
def recoveryWindow : Timedelta := Timedelta.seconds 600

inductive RecoveryLane
  | safeRetry
  | validationRecovery
  | ambiguityReplay
  deriving DecidableEq, Repr

/-- The most dispatches a lane allows. -/
def RecoveryLane.limit : RecoveryLane → Int
  | safeRetry => safeRetryLimit
  | validationRecovery => validationRetryLimit
  | ambiguityReplay => ambiguityReplayLimit

/-- The cooldown of a lane. -/
def RecoveryLane.delay : RecoveryLane → Timedelta
  | safeRetry => Timedelta.seconds 10
  | validationRecovery => Timedelta.seconds 30
  | ambiguityReplay => Timedelta.seconds 30

/-! ### States -/

/-- The outcome of a rotation, as the outbox names it. -/
inductive RotationOutcome
  | rotated
  | rejected
  | outcomeUnknown
  deriving DecidableEq, Repr

/-- A state whose exchange has come to an end. -/
inductive TerminalState
  | rotated (sourceRevision replacementCookieHeader successorRevision : String)
  | rejected (sourceRevision reason : String)
  | outcomeUnknown (sourceRevision reason : String)
  deriving DecidableEq, Repr

inductive JournalState
  | reserved (sourceRevision : String)
  | requested (sourceRevision : String)
  | terminal (state : TerminalState)
  deriving DecidableEq, Repr

/-- A state of a credential generation; `ready` is implicit and never persisted. -/
inductive RotationState
  | ready (revision : String)
  | journaled (state : JournalState)
  deriving DecidableEq, Repr

def TerminalState.sourceRevision : TerminalState → String
  | rotated source _ _ => source
  | rejected source _ => source
  | outcomeUnknown source _ => source

def JournalState.sourceRevision : JournalState → String
  | reserved source => source
  | requested source => source
  | terminal state => state.sourceRevision

def TerminalState.outcome : TerminalState → RotationOutcome
  | rotated .. => .rotated
  | rejected .. => .rejected
  | outcomeUnknown .. => .outcomeUnknown

/-! ### Events, effects and the transition function -/

/-- One already budgeted retry of an unknown exchange. -/
structure AuthorizeRecoveryDispatch where
  continuation : RecoveryLane
  dispatchCount : Int
  safeRetryCount : Int
  validationRetryCount : Int
  ambiguityReplayCount : Int
  totalDispatchCap : Int
  deadlineOpen : Bool
  cooldownElapsed : Bool
  deriving DecidableEq, Repr

/-- What can happen to a generation. -/
inductive RotationEvent
  | begin (sourceRevision : String)
  | dispatchBegun
  | exchangeSucceeded (replacementCookieHeader successorRevision : String)
  | exchangeRejected (reason : String)
  | exchangeOutcomeUnknown (reason : String)
  | imported (revision : String)
  | recover
  | authorizeRecoveryDispatch (authorization : AuthorizeRecoveryDispatch)
  deriving DecidableEq, Repr

/-- What the coordinator has to do. -/
inductive Effect
  | persistJournal (state : JournalState)
  | dispatchExchange (sourceRevision : String)
  | persistReplacement (sourceRevision replacementCookieHeader successorRevision : String)
  | deleteJournal
  | waitForTerminalRevision (sourceRevision : String)
  deriving DecidableEq, Repr

/-- The state after an event and the effects it asks for. -/
structure Transition (σ : Type) where
  state : σ
  effects : List Effect

def AuthorizeRecoveryDispatch.laneCount (event : AuthorizeRecoveryDispatch) : Int :=
  match event.continuation with
  | .safeRetry => event.safeRetryCount
  | .validationRecovery => event.validationRetryCount
  | .ambiguityReplay => event.ambiguityReplayCount

/-- Whether an authorization stays within the policy. -/
def recoveryDispatchIsAuthorized (event : AuthorizeRecoveryDispatch) : Bool :=
  event.deadlineOpen && event.cooldownElapsed &&
    event.totalDispatchCap = AuthSession.totalDispatchCap &&
    event.dispatchCount ≤ event.totalDispatchCap &&
    event.dispatchCount =
      1 + event.safeRetryCount + event.validationRetryCount + event.ambiguityReplayCount &&
    0 < event.laneCount && event.laneCount ≤ event.continuation.limit

/-- The transitions of a ready generation; `none` is an invalid transition. -/
def readyTransition : RotationEvent → Option (Transition RotationState)
  | .begin source => some ⟨.journaled (.reserved source), [.persistJournal (.reserved source)]⟩
  | .imported revision => some ⟨.ready revision, []⟩
  | _ => none

def reservedTransition (source : String) : RotationEvent → Option (Transition RotationState)
  | .dispatchBegun =>
    some ⟨.journaled (.requested source),
      [.persistJournal (.requested source), .dispatchExchange source]⟩
  | .recover => some ⟨.ready source, [.deleteJournal]⟩
  | .imported revision => some ⟨.ready revision, [.deleteJournal]⟩
  | _ => none

def terminate (state : TerminalState) (more : List Effect) : Transition RotationState :=
  ⟨.journaled (.terminal state), .persistJournal (.terminal state) :: more⟩

def requestedTransition (source : String) : RotationEvent → Option (Transition RotationState)
  | .exchangeSucceeded replacement successor =>
    some (terminate (.rotated source replacement successor)
      [.persistReplacement source replacement successor])
  | .exchangeRejected reason => some (terminate (.rejected source reason) [])
  | .exchangeOutcomeUnknown reason => some (terminate (.outcomeUnknown source reason) [])
  | .imported revision => some ⟨.ready revision, [.deleteJournal]⟩
  | .recover =>
    some (terminate (.outcomeUnknown source "interrupted after refresh dispatch") [])
  | _ => none

def rotatedTransition (source replacement successor : String) :
    RotationEvent → Option (Transition RotationState)
  | .recover =>
    some ⟨.journaled (.terminal (.rotated source replacement successor)),
      [.persistReplacement source replacement successor]⟩
  | .imported revision => some ⟨.ready revision, [.deleteJournal]⟩
  | _ => none

/-- The transitions of a rejected or unknown generation. -/
def terminalTransition (state : TerminalState) : RotationEvent → Option (Transition RotationState)
  | .authorizeRecoveryDispatch authorization =>
    match state with
    | .outcomeUnknown source _ =>
      if recoveryDispatchIsAuthorized authorization then
        some ⟨.journaled (.reserved source), [.persistJournal (.reserved source)]⟩
      else none
    | _ => none
  | .imported revision => some ⟨.ready revision, [.deleteJournal]⟩
  | .recover =>
    some ⟨.journaled (.terminal state), [.waitForTerminalRevision state.sourceRevision]⟩
  | _ => none

/-- One transition; `none` is the invalid transition error. -/
def transition : RotationState → RotationEvent → Option (Transition RotationState)
  | .ready _ => readyTransition
  | .journaled (.reserved source) => reservedTransition source
  | .journaled (.requested source) => requestedTransition source
  | .journaled (.terminal (.rotated source replacement successor)) =>
    rotatedTransition source replacement successor
  | .journaled (.terminal state) => terminalTransition state

/-! ### Outbox identity -/

def RotationOutcome.text : RotationOutcome → String
  | rotated => "rotated"
  | rejected => "rejected"
  | outcomeUnknown => "outcome_unknown"

def rotationEventKey (sourceRevision : String) (outcome : RotationOutcome) : String :=
  "auth-rotation:" ++ sourceRevision ++ ":" ++ outcome.text

def TerminalState.eventKey (state : TerminalState) : String :=
  rotationEventKey state.sourceRevision state.outcome

/-- An authorization covers at most the cap. -/
lemma dispatchCount_le_of_authorized {event : AuthorizeRecoveryDispatch}
    (h : recoveryDispatchIsAuthorized event = true) :
    event.dispatchCount ≤ totalDispatchCap ∧
      event.dispatchCount =
        1 + event.safeRetryCount + event.validationRetryCount + event.ambiguityReplayCount ∧
      0 < event.laneCount ∧ event.laneCount ≤ event.continuation.limit ∧
      event.deadlineOpen = true ∧ event.cooldownElapsed = true := by
  simp only [recoveryDispatchIsAuthorized, Bool.and_eq_true, decide_eq_true_eq] at h
  obtain ⟨⟨⟨⟨⟨⟨hd, hc⟩, hcap⟩, hle⟩, hsum⟩, hpos⟩, hlim⟩ := h
  exact ⟨hcap ▸ hle, hsum, hpos, hlim, hd, hc⟩

/-- A transition out of an unknown outcome to a dispatch needs an authorization. -/
lemma transition_authorize {source reason : String} {event : AuthorizeRecoveryDispatch}
    {t : Transition RotationState}
    (h : transition (.journaled (.terminal (.outcomeUnknown source reason)))
      (.authorizeRecoveryDispatch event) = some t) :
    recoveryDispatchIsAuthorized event = true ∧ t.state = .journaled (.reserved source) := by
  simp only [transition, terminalTransition] at h
  split at h
  · next hauth => cases h; exact ⟨hauth, rfl⟩
  · cases h

end EnjiGuard.AuthSession
