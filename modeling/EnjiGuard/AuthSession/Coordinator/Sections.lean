import EnjiGuard.AuthSession.Coordinator.Attempt

/-!
# The refresh coordinator

The lock-protected sections of the coordinator: preparing a refresh, recovering at startup,
committing the result of an exchange, projecting a retained successor and importing a credential.
The exchange itself runs between a preparation and its commit with no lock held.
-/

namespace EnjiGuard.AuthSession

open Foundation Action

/-! ### Results -/

/-- What a preparation asks for. -/
inductive Preparation
  | dispatch (auth : StoredAuth)
  | returnAuth (auth : StoredAuth)
  | waitForRevision (sourceRevision : String)
  deriving DecidableEq, Repr

inductive RetainedSuccessorProjection
  | projected (auth : StoredAuth)
  | superseded (currentRevision : Option String)
  deriving DecidableEq, Repr

/-- How an exchange ends. -/
inductive ExchangeResult
  | response (response : EnjiHttpResponse)
  | httpError (code : String)
  | osError (typeName : String)
  | cancelled
  /-- An exception that no handler around the exchange catches. -/
  | failed (error : PyError)

/-- The credential of a load result; the error texts leave out the unsupported version. -/
def loadedOrRaise : AuthLoadResult → Except PyError StoredAuth
  | .loaded auth => .ok auth
  | .absent => .error (.enjiHttp "AUTH_REQUIRED" "auth file does not exist")
  | .clockAnomaly =>
    .error (.enjiHttp "AUTH_CLOCK_ANOMALY" "auth file imported_at is in the future")
  | .corrupt detail => .error (.enjiHttp "AUTH_CORRUPT" ("auth file is corrupt: " ++ detail))
  | .unsupported _ =>
    .error (.enjiHttp "AUTH_UNSUPPORTED" "auth file version is unsupported")
  | .ioFailure operation error =>
    .error (.enjiHttp "AUTH_IO_FAILURE" (operation ++ " failed: " ++ error))

/-- Whether a load result does not show a revision. -/
def isSupersededResult (sourceRevision : String) : AuthLoadResult → Bool
  | .loaded auth => auth.revision ≠ sourceRevision
  | _ => true

def transitionOrRaise (source : RotationState) (event : RotationEvent) : Auth RotationState :=
  match transition source event with
  | some t => return t.state
  | none => raise .invalidTransition

/-! ### Outcome delivery -/

/-- The next answer of the outcome sink. -/
def nextReply (reply : Nat → SinkReply) : Auth SinkReply := fun r =>
  (.ok (reply r.cursor.deliveries),
    { r with cursor := { r.cursor with deliveries := r.cursor.deliveries + 1 } })

/-- Offers a record to the outcome sink. -/
def deliverOutboxRecord (env : Env) (record : OutcomeOutboxRecord) : Auth Bool :=
  match env.sink with
  | none => return false
  | some reply => do
    match ← nextReply reply with
    | .returned true => do
      change fun w => w.accept record.eventKey
      return true
    | .returned false => return false
    | .raised (.other typeName) => raise (.other typeName)
    | .raised _ => return false

/-- Delivers and acknowledges the records that are in the outbox at the start. -/
def drainOutbox (env : Env) : Auth Unit := do
  match ← loadOutbox env with
  | .corrupt detail => raise (.enjiHttp "STORAGE" ("outcome outbox is corrupt: " ++ detail))
  | .ioFailure operation error =>
    raise (.enjiHttp "STORAGE" (operation ++ " failed: " ++ error))
  | .absent => return ()
  | .loaded records =>
    each (fun record => do
      if ← deliverOutboxRecord env record then acknowledgeOutcome env record.eventKey
      else return ()) records

def outboxContains (env : Env) (eventKey : String) : Auth Bool := do
  match ← loadOutbox env with
  | .corrupt detail => raise (.enjiHttp "STORAGE" ("outcome outbox is corrupt: " ++ detail))
  | .ioFailure operation error =>
    raise (.enjiHttp "STORAGE" (operation ++ " failed: " ++ error))
  | .absent => return false
  | .loaded records => return records.any fun record => record.eventKey = eventKey

/-- Deletes the journal of a rotation whose outcome has left the outbox. -/
def deleteDelivered (env : Env) (t : TerminalState) : Auth Unit := do
  match t with
  | .rotated .. => do
    if ← outboxContains env t.eventKey then return () else deleteJournal env
  | _ => return ()

/-- Makes the delivery of a terminal outcome independent of the journal. -/
def recordTerminalOutcome (env : Env) (t : TerminalState) (attempt : RotationAttempt)
    (outboxEnqueued : Bool) : Auth Unit := do
  if outboxEnqueued then
    drainOutbox env
    deleteDelivered env t
  else
    enqueueOutcome env (outboxRecord t)
    writeJournal env (.terminal t) true attempt
    drainOutbox env
    deleteDelivered env t

/-- Clears obsolete state after retaining its terminal outcome. -/
def discardRotationState (env : Env) (journal : JournalState) (outboxEnqueued : Bool) :
    Auth Unit := do
  match journal with
  | .terminal t =>
    if outboxEnqueued then deleteJournal env
    else
      enqueueOutcome env (outboxRecord t)
      deleteJournal env
  | _ => deleteJournal env

/-! ### Preparing a dispatch -/

/-- The event that authorizes a recovery dispatch. -/
def authorization (lane : RecoveryLane) (attempt : RotationAttempt)
    (deadlineOpen cooldownElapsed : Bool) : AuthorizeRecoveryDispatch :=
  { continuation := lane
    dispatchCount := attempt.dispatchCount
    safeRetryCount := attempt.safeRetryCount
    validationRetryCount := attempt.validationRetryCount
    ambiguityReplayCount := attempt.ambiguityReplayCount
    totalDispatchCap := attempt.totalDispatchCap
    deadlineOpen := deadlineOpen
    cooldownElapsed := cooldownElapsed }

/-- Authorizes the next dispatch of a ready or of an unknown generation. -/
def authorizeDispatch (env : Env) (current : StoredAuth) (attempt : RotationAttempt)
    (recoveryState : Option TerminalState) : Auth RotationState := do
  match recoveryState with
  | none => transitionOrRaise (.ready current.revision) (.begin current.revision)
  | some t =>
    match attempt.attemptKind with
    | .normal => raise .keyError
    | .recovery lane => do
      let now ← nowFn env
      let passed ← ofExcept (deadlinePassed attempt.recoveryDeadline now)
      let now ← nowFn env
      let left ← ofExcept (secondsUntil attempt.nextAttemptAt now)
      transitionOrRaise (.journaled (.terminal t))
        (.authorizeRecoveryDispatch (authorization lane attempt (!passed) (decide (left ≤ 0))))

/-- The identity of the process, when it can be established. -/
def ownerFn (env : Env) : Auth RefreshOwner :=
  match env.ownerFault with
  | some detail => raise (.osError detail)
  | none => return env.owner

/-- Persists the next dispatch before its exchange begins. -/
def prepareDispatch (env : Env) (current : StoredAuth) (attempt : RotationAttempt)
    (recoveryState : Option TerminalState) : Auth Preparation := do
  let owner ← ownerFn env
  let owned := ownedAttempt attempt owner
  match ← authorizeDispatch env current attempt recoveryState with
  | .journaled (.reserved source) => do
    writeJournal env (.reserved source) false owned
    match ← transitionOrRaise (.journaled (.reserved source)) .dispatchBegun with
    | .journaled (.requested source) => do
      writeJournal env (.requested source) false owned
      return .dispatch current
    | _ => raise .assertion
  | _ => raise .assertion

/-! ### Recovery -/

/-- Continues an unknown outcome: dispatches again, asks to wait, or stops. -/
def recoverUnknown (env : Env) (current : StoredAuth) (t : TerminalState)
    (attempt : RotationAttempt) : Auth Preparation := do
  match ← nextRecoveryAttempt env attempt with
  | none => do
    let stopped : RotationAttempt :=
      { withoutOwner attempt with
        continuation := some .stop
        stopReason := match attempt.stopReason with
          | some reason => if reason = "" then some "recovery-budget-exhausted" else some reason
          | none => some "recovery-budget-exhausted" }
    writeJournal env (.terminal t) false stopped
    return .waitForRevision t.sourceRevision
  | some next => do
    let now ← nowFn env
    let retryAfter ← ofExcept (secondsUntil next.nextAttemptAt now)
    if 0 < retryAfter then
      match next.continuation with
      | some (.lane lane) => raise (.recoveryRequired t.sourceRevision lane retryAfter)
      | _ => raise .assertion
    else prepareDispatch env current next (some t)

/-- The unknown outcome of an exchange whose process is gone. -/
def abandonRequested (env : Env) (source : String) (attempt : RotationAttempt)
    (reason : String) : Auth (TerminalState × RotationAttempt) := do
  match ← transitionOrRaise (.journaled (.requested source)) (.exchangeOutcomeUnknown reason) with
  | .journaled (.terminal t) => do
    let deadline ← recoveryDeadline env
    let now ← nowFn env
    let unknownAttempt ← ofExcept (withContinuation attempt .ambiguityReplay deadline now)
    writeJournal env (.terminal t) false unknownAttempt
    recordTerminalOutcome env t unknownAttempt false
    return (t, unknownAttempt)
  | _ => raise .assertion

def ownerIsAlive (env : Env) (attempt : RotationAttempt) : Bool :=
  match attemptOwner attempt with
  | some owner => env.ownerAlive owner
  | none => false

/-- Takes over an exchange whose owner is gone. -/
def recoverRequested (env : Env) (current : StoredAuth) (source : String)
    (attempt : RotationAttempt) : Auth Preparation := do
  if ownerIsAlive env attempt then return .waitForRevision source
  else
    let (t, unknownAttempt) ←
      abandonRequested env source attempt "interrupted after refresh dispatch"
    recoverUnknown env current t unknownAttempt

/-- Projects a journaled successor. -/
def recoverRotated (env : Env) (t : TerminalState) (source replacement successor : String)
    (attempt : RotationAttempt) (outboxEnqueued : Bool) : Auth StoredAuth := do
  match ← casReplaceCookie env source replacement successor with
  | .written auth => do
    recordTerminalOutcome env t attempt outboxEnqueued
    return auth
  | .superseded _ => do
    let loaded ← loadAuth env
    ofExcept (loadedOrRaise loaded)

def recoverMatchingState (env : Env) (current : StoredAuth) (journal : JournalState)
    (attempt : RotationAttempt) (outboxEnqueued : Bool) : Auth (Option Preparation) := do
  match journal with
  | .terminal (.rotated source replacement successor) => do
    let auth ← recoverRotated env (.rotated source replacement successor) source replacement
      successor attempt outboxEnqueued
    return some (.returnAuth auth)
  | .reserved _ => do
    deleteJournal env
    return none
  | .requested source => do
    let preparation ← recoverRequested env current source attempt
    return some preparation
  | .terminal (.outcomeUnknown source reason) => do
    recordTerminalOutcome env (.outcomeUnknown source reason) attempt outboxEnqueued
    let preparation ← recoverUnknown env current (.outcomeUnknown source reason) attempt
    return some preparation
  | .terminal (.rejected source reason) => do
    recordTerminalOutcome env (.rejected source reason) attempt outboxEnqueued
    return some (.waitForRevision source)

/-- The message for a journal that cannot be used. -/
def journalErrorMessage : JournalLoadResult → String
  | .corrupt detail => "refresh journal is corrupt: " ++ detail
  | .ioFailure operation error => operation ++ " failed: " ++ error
  | _ => ""

/-- Recovers whatever the journal holds; `none` lets the preparation go on. -/
def recoverOrWait (env : Env) (current : StoredAuth) : Auth (Option Preparation) := do
  match ← loadJournal env with
  | .corrupt detail => raise (.enjiHttp "STORAGE" (journalErrorMessage (.corrupt detail)))
  | .ioFailure operation error =>
    raise (.enjiHttp "STORAGE" (journalErrorMessage (.ioFailure operation error)))
  | .absent => return none
  | .loaded journal outboxEnqueued attempt _ =>
    match journal.successor? with
    | some successor =>
      if successor = current.revision then
        match journal with
        | .terminal t => do
          recordTerminalOutcome env t attempt outboxEnqueued
          return some (.returnAuth current)
        | _ => raise .assertion
      else if journal.sourceRevision ≠ current.revision then
        discardRotationState env journal outboxEnqueued
        return none
      else recoverMatchingState env current journal attempt outboxEnqueued
    | none =>
      if journal.sourceRevision ≠ current.revision then
        discardRotationState env journal outboxEnqueued
        return none
      else recoverMatchingState env current journal attempt outboxEnqueued

/-- Prepares a refresh under the lock. -/
def prepare (env : Env) (expected : Option StoredAuth) : Auth Preparation :=
  withAuthFileLock env do
    let loaded ← loadAuth env
    let current ← ofExcept (loadedOrRaise loaded)
    match current.credential with
    | .bearerToken _ =>
      raise (.enjiHttp "AUTH_REQUIRED" "stored credential is not cookie based")
    | .cookie _ => do
      match ← recoverOrWait env current with
      | some preparation => return preparation
      | none => do
        drainOutbox env
        if (expected.map StoredAuth.revision).getD current.revision ≠ current.revision then
          return .returnAuth current
        else
          let deadline ← recoveryDeadline env
          prepareDispatch env current
            { rotationId := current.revision, attemptKind := .normal, dispatchCount := 1,
              recoveryDeadline := some deadline } none

/-- Reconciles the journal at startup, without dispatching. -/
def recoverStartupJournal (env : Env) (current : StoredAuth) : Auth StoredAuth := do
  match ← loadJournal env with
  | .loaded journal outboxEnqueued attempt _ =>
    if journal.successor? = some current.revision then
      match journal with
      | .terminal t => do
        recordTerminalOutcome env t attempt outboxEnqueued
        return current
      | _ => raise .assertion
    else if journal.sourceRevision ≠ current.revision then
      discardRotationState env journal outboxEnqueued
      return current
    else
      match journal with
      | .terminal (.rotated source replacement successor) =>
        recoverRotated env (.rotated source replacement successor) source replacement successor
          attempt outboxEnqueued
      | .reserved _ => do
        deleteJournal env
        return current
      | .requested source =>
        if ownerIsAlive env attempt then return current
        else
          let _ ← abandonRequested env source attempt "process exited after refresh dispatch"
          return current
      | .terminal t => do
        recordTerminalOutcome env t attempt outboxEnqueued
        return current
  | _ => return current

/-- Startup recovery under the lock. -/
def recoverStartup (env : Env) : Auth (Option StoredAuth) :=
  withAuthFileLock env do
    match ← loadAuth env with
    | .loaded current => do
      drainOutbox env
      let auth ← recoverStartupJournal env current
      return some auth
    | _ => return none

/-! ### Committing an exchange -/

/-- The attempt a load result has for a source revision; a fresh one when there is none. -/
def attemptOfJournal (sourceRevision : String) : JournalLoadResult → RotationAttempt
  | .loaded journal _ attempt _ =>
    if journal.sourceRevision = sourceRevision then attempt
    else { rotationId := sourceRevision, attemptKind := .normal, dispatchCount := 1 }
  | _ => { rotationId := sourceRevision, attemptKind := .normal, dispatchCount := 1 }

/-- The attempt of the current exchange. -/
def attemptForSource (env : Env) (sourceRevision : String) : Auth RotationAttempt := do
  let journal ← loadJournal env
  return attemptOfJournal sourceRevision journal

/-- Whether the stored revision is another one. -/
def isSuperseded (env : Env) (sourceRevision : String) : Auth Bool := do
  let loaded ← loadAuth env
  return isSupersededResult sourceRevision loaded

/-- Whatever credential is stored. -/
def currentOrRaise (env : Env) : Auth StoredAuth := do
  let loaded ← loadAuth env
  ofExcept (loadedOrRaise loaded)

def EventReply.raised? : EventReply → Option PyError
  | returned => none
  | osError detail => some (.osError detail)
  | runtimeError => some .runtimeError
  | valueError => some .valueError

/-- Hands an event to the sink, whose errors end here. -/
def deliverEvent (env : Env) : Auth Unit :=
  tryCatch
    (match env.eventReply.raised? with
      | none => return ()
      | some e => raise e)
    fun e => if e.isOsError || e = .runtimeError || e.isValueError then return () else raise e

/-- Whatever the sink replies, delivering an event does nothing to the section. -/
lemma deliverEvent_eq (env : Env) : deliverEvent env = return () := by
  unfold deliverEvent
  cases env.eventReply <;> rfl

variable (codec : CookieCodec)

/-- Emits diagnostics. The event sink's own failures are caught, the preparation's are not. -/
def emitRefreshObservation (env : Env) (source : StoredAuth) (response : Option EnjiHttpResponse)
    (replacementCookieHeader : Option String) : Auth Unit := do
  if !env.eventSink then return ()
  else
    let _ ← loadJournalFor env .observation
    match response with
    | none => pure ()
    | some response => do
      let _ ← ofExcept (normalizedResponseClass response)
    let now ← nowFn env
    let _ ← ofExcept (refreshDiagnosticFields codec source replacementCookieHeader now)
    deliverEvent env

/-- The locked part of committing a successor. -/
def commitSuccessor (env : Env) (sourceRevision cookieHeader successorRevision : String) :
    Auth StoredAuth :=
  withAuthFileLock env do
    if ← isSuperseded env sourceRevision then currentOrRaise env
    else
      let found ← attemptForSource env sourceRevision
      let attempt := withoutOwner found
      writeJournal env (.terminal (.rotated sourceRevision cookieHeader successorRevision)) false
        attempt
      match ← casReplaceCookie env sourceRevision cookieHeader successorRevision with
      | .written auth => do
        recordTerminalOutcome env (.rotated sourceRevision cookieHeader successorRevision)
          attempt false
        return auth
      | .superseded _ => currentOrRaise env

/-- Commits a successor; a storage failure hands it to the caller. -/
def commitSuccess (env : Env) (source : StoredAuth) (cookieHeader : String)
    (response : EnjiHttpResponse) : Commit StoredAuth := do
  let successorRevision ← Auth.plain (mintRevision env)
  match ← Auth.plain (transitionOrRaise (.journaled (.requested source.revision))
    (.exchangeSucceeded cookieHeader successorRevision)) with
  | .journaled (.terminal (.rotated _ _ successorRevision)) => do
    Auth.plain (emitRefreshObservation codec env source (some response) (some cookieHeader))
    let successor ← Auth.plain
      (storedAuth env source.baseUrl (.cookie cookieHeader) (some successorRevision))
    tryCatch (commitSuccessor env source.revision cookieHeader successorRevision) fun e =>
      if e.isOsError then raise (.postDispatchPersistence ⟨source.revision, successor⟩)
      else raise (.plain e)
  | _ => raise (.plain .assertion)

def commitRejected (env : Env) (sourceRevision reason : String) : Auth StoredAuth := do
  let current ← withAuthFileLock env do
    if ← isSuperseded env sourceRevision then
      let current ← currentOrRaise env
      return some current
    else
      let found ← attemptForSource env sourceRevision
      let attempt := withoutOwner found
      writeJournal env (.terminal (.rejected sourceRevision reason)) false attempt
      recordTerminalOutcome env (.rejected sourceRevision reason) attempt false
      return none
  match current with
  | some current => return current
  | none =>
    raise (.terminalRevisionRequired sourceRevision "stored refresh cookie is not authenticated")

def observedClass (response : Option EnjiHttpResponse) : Except PyError (Option String) :=
  match response with
  | none => .ok none
  | some response => (normalizedResponseClass response).map some

/-- Commits an outcome that is not known. -/
def commitUnknown (env : Env) (source : StoredAuth) (reason : String) (continuation : RecoveryLane)
    (observation : Option EnjiHttpResponse) : Auth StoredAuth := do
  let result ← withAuthFileLock env do
    if ← isSuperseded env source.revision then
      let current ← currentOrRaise env
      return Sum.inl current
    else
      let found ← attemptForSource env source.revision
      let deadline ← recoveryDeadline env
      let now ← nowFn env
      let scheduled ← ofExcept (withContinuation found continuation deadline now)
      let responseClass ← ofExcept (observedClass observation)
      let attempt := { scheduled with responseClass := responseClass }
      writeJournal env (.terminal (.outcomeUnknown source.revision reason)) false attempt
      match observation with
      | none => recordTerminalOutcome env (.outcomeUnknown source.revision reason) attempt false
      | some response => do
        emitRefreshObservation codec env source (some response) none
        recordTerminalOutcome env (.outcomeUnknown source.revision reason) attempt false
      return Sum.inr attempt.continuation
  match result with
  | .inl current => return current
  | .inr (some .stop) =>
    raise (.terminalRevisionRequired source.revision
      "refresh recovery is exhausted; import a fresh browser credential")
  | .inr _ => raise (.recoveryRequired source.revision continuation 0)

def commitResponse (env : Env) (source : StoredAuth) (response : EnjiHttpResponse) :
    Commit StoredAuth := do
  match ← Auth.plain (successfulReplacement codec env source response) with
  | some cookieHeader => commitSuccess codec env source cookieHeader response
  | none => Auth.plain do
    match ← ofExcept (responseContinuation response) with
    | .stop => do
      emitRefreshObservation codec env source (some response) none
      commitRejected env source.revision
        ("refresh rejected with HTTP " ++ toString response.statusCode)
    | .lane lane =>
      commitUnknown codec env source ("refresh response HTTP " ++ toString response.statusCode)
        lane (some response)

/-- Commits an exchange that brought no response. -/
def commitFailure (env : Env) (source : StoredAuth) (detail : String) : Auth StoredAuth := do
  emitRefreshObservation codec env source none none
  commitUnknown codec env source ("transport failure: " ++ detail) .ambiguityReplay none

/-- Commits an exchange whose task was cancelled. -/
def commitCancelled (env : Env) (source : StoredAuth) : Auth StoredAuth := do
  tryCatch
    (do
      emitRefreshObservation codec env source none none
      let _ ← commitUnknown codec env source "refresh task cancelled" .ambiguityReplay none
      return ())
    fun e => match e with
      | .terminalRevisionRequired .. | .recoveryRequired .. => return ()
      | .enjiHttp code message =>
        if code = "AUTH_IMPORT_REQUIRED" || code = "AUTH_RECOVERY_PENDING" then return ()
        else raise (.enjiHttp code message)
      | e => raise e
  raise .cancelled

/-- Commits however the exchange ended. -/
def commitExchange (env : Env) (source : StoredAuth) : ExchangeResult → Commit StoredAuth
  | .response response =>
    tryCatch (commitResponse codec env source response) fun e =>
      match e with
      | .plain e =>
        if e.isOsError then
          raise (.plain (.terminalRevisionRequired source.revision
            "refresh dispatch completed; import a fresh browser credential"))
        else raise (.plain e)
      | .postDispatchPersistence retained => raise (.postDispatchPersistence retained)
  | .httpError code => Auth.plain (commitFailure codec env source code)
  | .osError typeName => Auth.plain (commitFailure codec env source typeName)
  | .cancelled => Auth.plain (commitCancelled codec env source)
  | .failed error => raise (.plain error)

/-! ### Retained successors and imports -/

def retainedRotatedState (retained : RetainedRefreshSuccessor) : Except PyError TerminalState :=
  match retained.auth.credential with
  | .cookie header => .ok (.rotated retained.sourceRevision header retained.auth.revision)
  | .bearerToken _ =>
    .error (.enjiHttp "AUTH_UNSUPPORTED" "retained refresh successor is not cookie based")

/-- The stored credential, when it is a retained successor. -/
def projectedAuthOrNone (loaded : AuthLoadResult) (retained : RetainedRefreshSuccessor) :
    Option StoredAuth :=
  match loaded with
  | .loaded auth => if auth.revision = retained.auth.revision then some auth else none
  | _ => none

def currentRevision : AuthLoadResult → Option String
  | .loaded auth => some auth.revision
  | _ => none

/-- Projects a retained successor under the lock. -/
def projectRetainedSuccessor (env : Env) (retained : RetainedRefreshSuccessor) :
    Auth RetainedSuccessorProjection :=
  withAuthFileLock env do
    let loaded ← loadAuth env
    let rotated ← ofExcept (retainedRotatedState retained)
    let found ← attemptForSource env retained.sourceRevision
    let attempt := withoutOwner found
    match projectedAuthOrNone loaded retained with
    | some auth => do
      recordTerminalOutcome env rotated attempt false
      return .projected auth
    | none =>
      if isSupersededResult retained.sourceRevision loaded then
        return .superseded (currentRevision loaded)
      else
        match rotated with
        | .rotated _ replacement successor => do
          writeJournal env (.terminal rotated) false attempt
          match ← casReplaceCookie env retained.sourceRevision replacement successor with
          | .written auth => do
            recordTerminalOutcome env rotated attempt false
            return .projected auth
          | .superseded current => return .superseded current
        | _ => raise .assertion

/-- Imports a credential under the lock, retaining an unacknowledged outcome. -/
def importCredential (env : Env) (auth : StoredAuth) : Auth StoredAuth :=
  withAuthFileLock env do
    writeAuthFile env auth .imported
    match ← loadJournal env with
    | .loaded (.terminal t) false _ _ => do
      enqueueOutcome env (outboxRecord t)
      deleteJournal env
      return auth
    | _ => do
      deleteJournal env
      return auth

/-! ### The calls of the coordinator -/

/-- Waits for another revision; never dispatches. -/
def waitForTerminalRevision (env : Env) (sourceRevision : String) : Nat → Auth StoredAuth
  | polls => do
    let loaded ← loadAuth env
    match currentRevision loaded with
    | some revision =>
      if revision ≠ sourceRevision then
        match ← loadAuth env with
        | .loaded auth => return auth
        | _ => waitAgain polls
      else waitAgain polls
    | none => waitAgain polls
where
  /-- Another poll while there is time left. -/
  waitAgain : Nat → Auth StoredAuth
    | 0 =>
      raise (.terminalRevisionRequired sourceRevision
        "refresh outcome is terminal; import a fresh browser credential")
    | polls + 1 => waitForTerminalRevision env sourceRevision polls

/-- One refresh: prepare, and then return, wait, or exchange and commit. -/
def refresh (env : Env) (expected : Option StoredAuth)
    (exchangeOnce : StoredAuth → ExchangeResult) : Commit StoredAuth := do
  let prepared ← Auth.plain (tryCatch (prepare env expected) fun e =>
    match e with
    | .osError detail => raise (.preDispatchLocal detail)
    | e => raise e)
  match prepared with
  | .returnAuth auth => return auth
  | .waitForRevision source => Auth.plain (waitForTerminalRevision env source env.polls)
  | .dispatch auth => commitExchange codec env auth (exchangeOnce auth)

end EnjiGuard.AuthSession
