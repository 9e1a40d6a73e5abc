import EnjiGuard.AuthSession.StateMachine
import EnjiGuard.Foundation.Json

/-!
# Stored credentials, the refresh journal and the outcome outbox

The records the three files hold, their JSON payloads and the readers that turn a parsed payload
into a typed load result. A reader can raise: looking an unhashable value up in a set is a type
error, and converting an extreme timestamp overflows.
-/

namespace EnjiGuard.AuthSession

open Foundation

/-! ### Credentials and errors -/

/-- A stored credential. -/
inductive Credential
  | cookie (cookieHeader : String)
  | bearerToken (token : String)
  deriving DecidableEq, Repr

/-- The content of the credential file. -/
structure StoredAuth where
  revision : String
  baseUrl : String
  credential : Credential
  importedAt : String
  deriving DecidableEq, Repr

/-- A replacement credential held only in process memory. -/
structure RetainedRefreshSuccessor where
  sourceRevision : String
  auth : StoredAuth
  deriving DecidableEq, Repr

/-- The exceptions the modelled code can raise, but for the one that carries a successor. -/
inductive PyError
  | osError (detail : String)
  | exceptionGroup (details : List String)
  | enjiHttp (code message : String)
  | terminalRevisionRequired (sourceRevision message : String)
  | recoveryRequired (sourceRevision : String) (continuation : RecoveryLane)
      (retryAfter : Timedelta)
  | preDispatchLocal (detail : String)
  | invalidTransition
  | assertion
  | typeError
  | valueError
  | overflowError
  | unicodeDecodeError
  | cookieError
  | runtimeError
  | keyError
  | cancelled
  | other (typeName : String)
  deriving DecidableEq, Repr

/-- The exceptions of a commit: one hands the successor to the caller. -/
inductive CommitError
  | postDispatchPersistence (retained : RetainedRefreshSuccessor)
  | plain (error : PyError)
  deriving DecidableEq, Repr

/-- What `except (OSError, TimeoutError)` catches. -/
def PyError.isOsError : PyError → Bool
  | osError _ | preDispatchLocal _ => true
  | _ => false

/-- What `except EnjiHttpError` catches. -/
def PyError.isEnjiHttp : PyError → Bool
  | enjiHttp .. | terminalRevisionRequired .. | recoveryRequired .. => true
  | _ => false

/-- What the parser raises for a text that it refuses. -/
def PyError.ofRefused (typeName : String) : PyError :=
  if typeName = "ValueError" then .valueError else .other typeName

@[simp] lemma PyError.isEnjiHttp_ofRefused (typeName : String) :
    (ofRefused typeName).isEnjiHttp = false := by
  unfold ofRefused
  split_ifs <;> rfl

@[simp] lemma PyError.isOsError_ofRefused (typeName : String) :
    (ofRefused typeName).isOsError = false := by
  unfold ofRefused
  split_ifs <;> rfl

/-- What `except ValueError` catches. -/
def PyError.isValueError : PyError → Bool
  | valueError | unicodeDecodeError | invalidTransition => true
  | _ => false

/-! ### Load results and records -/

/-- The result of reading the credential file. -/
inductive AuthLoadResult
  | absent
  | corrupt (detail : String)
  | unsupported (version : Json)
  | ioFailure (operation error : String)
  | clockAnomaly
  | loaded (auth : StoredAuth)

/-- What a dispatch was for. -/
inductive AttemptKind
  | normal
  | recovery (lane : RecoveryLane)
  deriving DecidableEq, Repr

/-- What may follow an unknown outcome. -/
inductive Continuation
  | lane (lane : RecoveryLane)
  | stop
  deriving DecidableEq, Repr

/-- The durable recovery budget of one credential revision. -/
structure RotationAttempt where
  rotationId : String
  attemptKind : AttemptKind
  dispatchCount : Int
  safeRetryCount : Int := 0
  validationRetryCount : Int := 0
  ambiguityReplayCount : Int := 0
  recoveryDeadline : Option String := none
  continuation : Option Continuation := none
  ownerBootId : Option String := none
  ownerPid : Option Int := none
  ownerStartTicks : Option String := none
  nextAttemptAt : Option String := none
  totalDispatchCap : Int := AuthSession.totalDispatchCap
  responseClass : Option String := none
  stopReason : Option String := none
  deriving DecidableEq, Repr

inductive JournalLoadResult
  | absent
  | corrupt (detail : String)
  | ioFailure (operation error : String)
  | loaded (state : JournalState) (outboxEnqueued : Bool) (attempt : RotationAttempt)
      (migratedFromVersion : Option Nat)
  deriving DecidableEq

/-- A terminal outcome awaiting acknowledgement. -/
structure OutcomeOutboxRecord where
  outcome : RotationOutcome
  eventKey : String
  deriving DecidableEq, Repr

inductive OutcomeOutboxLoadResult
  | absent
  | corrupt (detail : String)
  | ioFailure (operation error : String)
  | loaded (records : List OutcomeOutboxRecord)
  deriving DecidableEq

/-! ### Texts -/

def RecoveryLane.text : RecoveryLane → String
  | safeRetry => "safe_retry"
  | validationRecovery => "validation_recovery"
  | ambiguityReplay => "ambiguity_replay"

def AttemptKind.text : AttemptKind → String
  | normal => "normal"
  | recovery lane => lane.text

def Continuation.text : Continuation → String
  | lane l => l.text
  | stop => "stop"

/-- Reads a lane. -/
def parseRecoveryLane (text : String) : Option RecoveryLane :=
  if text = "safe_retry" then some .safeRetry
  else if text = "validation_recovery" then some .validationRecovery
  else if text = "ambiguity_replay" then some .ambiguityReplay
  else none

def parseAttemptKind (text : String) : Option AttemptKind :=
  if text = "normal" then some .normal else (parseRecoveryLane text).map .recovery

/-- Reads a continuation. -/
def parseContinuation (text : String) : Option Continuation :=
  if text = "stop" then some .stop else (parseRecoveryLane text).map .lane

/-! ### Reading the credential -/

/-- The payload of the credential file. -/
def authPayload (auth : StoredAuth) : Json :=
  .obj [
    ("version", .int 2),
    ("revision", .str auth.revision),
    ("base_url", .str auth.baseUrl),
    ("credential", match auth.credential with
      | .cookie header => .obj [("type", .str "cookie"), ("cookie_header", .str header)]
      | .bearerToken token => .obj [("type", .str "bearer_token"), ("token", .str token)]),
    ("imported_at", .str auth.importedAt)]

/-- The required non-empty identity fields, in storage order. -/
def credentialMetadata (payload : List (String × Json)) : Option (String × String × String) :=
  match (Json.lookup "revision" payload).str?, (Json.lookup "base_url" payload).str?,
    (Json.lookup "imported_at" payload).str? with
  | some revision, some baseUrl, some importedAt =>
    if revision ≠ "" ∧ baseUrl ≠ "" ∧ importedAt ≠ "" then some (revision, baseUrl, importedAt)
    else none
  | _, _, _ => none

/-- An aware timestamp with offset zero. -/
def parseUtcTimestamp (value : String) : Option Datetime :=
  match fromIsoformat value with
  | some parsed => if parsed.offset = some 0 then parsed.toUtc? 0 else none
  | none => none

/-- How far in the future an import time may lie. -/
def importedAtFutureTolerance : Timedelta := Timedelta.seconds 5

/-- Checks the import time; `none` is a valid one. -/
def validateImportedAt (value : String) (now : Datetime) :
    Except PyError (Option AuthLoadResult) :=
  match parseUtcTimestamp value with
  | none => .ok (some (.corrupt "credential imported_at must be an ISO 8601 UTC timestamp"))
  | some parsed =>
    match now.add? importedAtFutureTolerance with
    | none => .error .overflowError
    | some latest => .ok (if latest < parsed then some .clockAnomaly else none)

/-- Reads the credential proper. -/
def parseCredential : Json → Option Credential
  | .obj raw =>
    let kind := Json.lookup "type" raw
    match kind.equalsStr "cookie", (Json.lookup "cookie_header" raw).str?,
      kind.equalsStr "bearer_token", (Json.lookup "token" raw).str? with
    | true, some header, _, _ => some (.cookie header)
    | _, _, true, some token => some (.bearerToken token)
    | _, _, _, _ => none
  | _ => none

/-- Reads a credential payload at a wall-clock time. -/
def parseAuth (payload : Json) (now : Datetime) : Except PyError AuthLoadResult :=
  match payload with
  | .obj fields =>
    let version := Json.lookup "version" fields
    if version.equalsInt 2 then
      match credentialMetadata fields with
      | none =>
        .ok (.corrupt "credential revision, base_url, and imported_at must be non-empty strings")
      | some (revision, baseUrl, importedAt) => do
        match ← validateImportedAt importedAt now with
        | some refused => .ok refused
        | none =>
          match parseCredential (Json.lookup "credential" fields) with
          | none => .ok (.corrupt "credential is invalid")
          | some credential => .ok (.loaded ⟨revision, baseUrl, credential, importedAt⟩)
    else .ok (.unsupported version)
  | _ => .ok (.corrupt "credential payload must be an object")

/-! ### Reading the journal -/

/-- The journal fields that name the dispatches of an attempt. -/
def parseAttemptCounts (payload : List (String × Json)) :
    Option (String × AttemptKind × Int × Int × Int × Int) := do
  let rotationId ← (Json.lookup "rotation_id" payload).str?
  let attemptKind ← (Json.lookup "attempt_kind" payload).str? >>= parseAttemptKind
  let dispatchCount ← (Json.lookup "dispatch_count" payload).int?
  let safeRetryCount ← (Json.lookup "safe_retry_count" payload).int?
  let validationRetryCount ← (Json.lookup "validation_retry_count" payload).int?
  let ambiguityReplayCount ← (Json.lookup "ambiguity_replay_count" payload).int?
  return (rotationId, attemptKind, dispatchCount, safeRetryCount, validationRetryCount,
    ambiguityReplayCount)

/-- Reads a nullable continuation. -/
def parseOptionalContinuation : Json → Option (Option Continuation)
  | .str text => (parseContinuation text).map some
  | .null => some none
  | _ => none

/-- Whether an attempt keeps within its budget and names its owner fully or not at all. -/
def rotationAttemptIsValid (attempt : RotationAttempt) : Bool :=
  let retryCount :=
    attempt.safeRetryCount + attempt.validationRetryCount + attempt.ambiguityReplayCount
  let ownerAbsent :=
    attempt.ownerBootId = none ∧ attempt.ownerPid = none ∧ attempt.ownerStartTicks = none
  let ownerValid :=
    attempt.ownerBootId.getD "" ≠ "" ∧ 0 < attempt.ownerPid.getD 0 ∧
      attempt.ownerStartTicks.getD "" ≠ ""
  attempt.rotationId ≠ "" ∧ 0 ≤ attempt.dispatchCount ∧
    (0 ≤ attempt.safeRetryCount ∧ attempt.safeRetryCount ≤ safeRetryLimit) ∧
    (0 ≤ attempt.validationRetryCount ∧ attempt.validationRetryCount ≤ validationRetryLimit) ∧
    (0 ≤ attempt.ambiguityReplayCount ∧ attempt.ambiguityReplayCount ≤ ambiguityReplayLimit) ∧
    attempt.totalDispatchCap = totalDispatchCap ∧
    attempt.dispatchCount ≤ attempt.totalDispatchCap ∧
    (attempt.dispatchCount = retryCount ∨ attempt.dispatchCount = 1 + retryCount) ∧
    (ownerAbsent ∨ ownerValid)

/-- Reads the recovery budget. -/
def parseRotationAttempt (payload : List (String × Json)) : Option RotationAttempt := do
  let (rotationId, attemptKind, dispatchCount, safeRetryCount, validationRetryCount,
    ambiguityReplayCount) ← parseAttemptCounts payload
  let recoveryDeadline ← (Json.lookup "recovery_deadline" payload).optionalStr?
  let continuation ← parseOptionalContinuation (Json.lookup "continuation" payload)
  let ownerBootId ← (Json.lookup "owner_boot_id" payload).optionalStr?
  let ownerPid ← (Json.lookup "owner_pid" payload).optionalInt?
  let ownerStartTicks ← (Json.lookup "owner_start_ticks" payload).optionalStr?
  let nextAttemptAt ← (Json.lookup "next_attempt_at" payload).optionalStr?
  let totalDispatchCap ← (Json.lookup "total_dispatch_cap" payload).int?
  let responseClass ← (Json.lookup "response_class" payload).optionalStr?
  let stopReason ← (Json.lookup "stop_reason" payload).optionalStr?
  let attempt : RotationAttempt :=
    ⟨rotationId, attemptKind, dispatchCount, safeRetryCount, validationRetryCount,
      ambiguityReplayCount, recoveryDeadline, continuation, ownerBootId, ownerPid,
      ownerStartTicks, nextAttemptAt, totalDispatchCap, responseClass, stopReason⟩
  if rotationAttemptIsValid attempt then some attempt else none

/-- The first field error outside the recovery budget. -/
def journalScalarFieldError (payload : List (String × Json)) : Option String :=
  if (Json.lookup "source_revision" payload).str?.getD "" = "" then
    some "journal source_revision must be a non-empty string"
  else if (Json.lookup "replacement_cookie_header" payload).optionalStr? = none ∨
      (Json.lookup "reason" payload).optionalStr? = none then
    some "journal replacement_cookie_header and reason must be strings or null"
  else if (Json.lookup "successor_revision" payload).optionalStr? = none ∨
      (Json.lookup "event_key" payload).optionalStr? = none then
    some "journal successor_revision and event_key must be strings or null"
  else if (Json.lookup "outbox_enqueued" payload).bool? = none then
    some "journal outbox_enqueued must be a boolean"
  else none

/-- A timestamp with its offset removed; a text that is no aware timestamp reads as `none`. -/
def parseAware (value : String) : Except PyError (Option Datetime) :=
  match fromIsoformat value with
  | some ⟨localMicros, some offset⟩ =>
    match IsoDatetime.toUtc? ⟨localMicros, some offset⟩ offset with
    | some t => .ok (some t)
    | none => .error .overflowError
  | _ => .ok none

/-- Whether a retry time lies within its deadline. -/
def validRecoveryWindow (notBefore deadline : Option String) : Except PyError Bool :=
  match notBefore, deadline with
  | some notBefore, some deadline =>
    match fromIsoformat notBefore, fromIsoformat deadline with
    | some ⟨a, some offsetA⟩, some ⟨b, some offsetB⟩ =>
      match IsoDatetime.toUtc? ⟨a, some offsetA⟩ offsetA,
        IsoDatetime.toUtc? ⟨b, some offsetB⟩ offsetB with
      | some a, some b => .ok (decide (a ≤ b))
      | _, _ => .error .overflowError
    | _, _ => .ok false
  | _, _ => .ok false

/-- Set membership of a raw value. -/
def rawMemberOf (raw : Json) (texts : List String) : Except PyError Bool :=
  match raw.memberOf texts with
  | some b => .ok b
  | none => .error .typeError

/-- Whether an owner is recorded. -/
def RotationAttempt.ownerPresent (attempt : RotationAttempt) : Bool := attempt.ownerBootId.isSome

/-- Whether a recovery dispatch is scheduled. -/
def RotationAttempt.scheduled (attempt : RotationAttempt) : Bool :=
  match attempt.continuation with
  | some (.lane _) => true
  | _ => false

/-- The first disagreement of the recovery budget with the raw state. -/
def attemptStateError (raw : Json) (attempt : RotationAttempt) :
    Except PyError (Option String) := do
  let strayOwner ← if attempt.ownerPresent then
      (rawMemberOf raw ["RESERVED", "REQUESTED"]).map (! ·) else .ok false
  if strayOwner then return some "terminal journal cannot retain a dispatch owner"
  else if attempt.scheduled ∧ (!raw.equalsStr "OUTCOME_UNKNOWN" ∨ attempt.nextAttemptAt = none ∨
      attempt.recoveryDeadline = none ∨ attempt.stopReason ≠ none) then
    return some "scheduled recovery metadata is inconsistent"
  else
    let badWindow ← if attempt.scheduled then
        (validRecoveryWindow attempt.nextAttemptAt attempt.recoveryDeadline).map (! ·)
      else .ok false
    if badWindow then return some "scheduled recovery timestamps are invalid"
    else
      let badStop ← if attempt.continuation = some .stop then
          (rawMemberOf raw ["OUTCOME_UNKNOWN", "REJECTED"]).map fun known =>
            !known || attempt.nextAttemptAt ≠ none || attempt.stopReason.getD "" = "" ||
              attempt.ownerPresent
        else .ok false
      if badStop then return some "stopped recovery metadata is inconsistent"
      else if attempt.continuation = none ∧
          (attempt.nextAttemptAt ≠ none ∨ attempt.stopReason ≠ none) then
        return some "inactive recovery metadata is inconsistent"
      else return none

/-- The first field error. -/
def journalFieldError (payload : List (String × Json)) (attempt : Option RotationAttempt) :
    Except PyError (Option String) :=
  match journalScalarFieldError payload with
  | some detail => .ok (some detail)
  | none =>
    match attempt with
    | none => .ok (some "journal recovery budget is invalid")
    | some attempt => attemptStateError (Json.lookup "state" payload) attempt

/-- Reads an outcome; the outer `none` is an unknown one. -/
def parseJournalOutcome : Json → Option (Option RotationOutcome)
  | .str "rotated" => some (some .rotated)
  | .str "rejected" => some (some .rejected)
  | .str "outcome_unknown" => some (some .outcomeUnknown)
  | .null => some none
  | _ => none

structure JournalFields where
  sourceRevision : String
  rawState : Json
  replacementCookieHeader : Option String
  reason : Option String
  successorRevision : Option String
  outcome : Option RotationOutcome
  eventKey : Option String
  outboxEnqueued : Bool
  attempt : RotationAttempt

/-- Validates the journal fields; the inner error is the detail of a corrupt journal. -/
def journalFields (payload : List (String × Json)) :
    Except PyError (Except String JournalFields) := do
  let attempt := parseRotationAttempt payload
  match ← journalFieldError payload attempt with
  | some detail => return .error detail
  | none =>
    match parseJournalOutcome (Json.lookup "outcome" payload) with
    | none => return .error "journal outcome must be a known terminal outcome or null"
    | some outcome =>
      match (Json.lookup "source_revision" payload).str?,
        (Json.lookup "replacement_cookie_header" payload).optionalStr?,
        (Json.lookup "reason" payload).optionalStr?,
        (Json.lookup "successor_revision" payload).optionalStr?,
        (Json.lookup "event_key" payload).optionalStr?,
        (Json.lookup "outbox_enqueued" payload).bool?, attempt with
      | some source, some replacement, some reason, some successor, some eventKey,
          some outboxEnqueued, some attempt =>
        return .ok ⟨source, Json.lookup "state" payload, replacement, reason, successor, outcome,
          eventKey, outboxEnqueued, attempt⟩
      | _, _, _, _, _, _, _ => .error .assertion

/-- The state a combination of fields stands for. -/
def journalState (fields : JournalFields) : Option JournalState :=
  let checked (state : TerminalState) (key : String) : Option JournalState :=
    if key = state.eventKey then some (.terminal state) else none
  match fields.rawState, fields.replacementCookieHeader, fields.reason, fields.successorRevision,
    fields.outcome, fields.eventKey, fields.outboxEnqueued with
  | .str "RESERVED", none, none, none, none, none, false =>
    some (.reserved fields.sourceRevision)
  | .str "REQUESTED", none, none, none, none, none, false =>
    some (.requested fields.sourceRevision)
  | .str "ROTATED", some header, none, some successor, some .rotated, some key, _ =>
    checked (.rotated fields.sourceRevision header successor) key
  | .str "REJECTED", none, some reason, none, some .rejected, some key, _ =>
    checked (.rejected fields.sourceRevision reason) key
  | .str "OUTCOME_UNKNOWN", none, some reason, none, some .outcomeUnknown, some key, _ =>
    checked (.outcomeUnknown fields.sourceRevision reason) key
  | _, _, _, _, _, _, _ => none

/-- The state of a journal of the previous schema; the error is the detail of a corrupt one. -/
def parseV2State (payload : List (String × Json)) (source : String) (raw : Json) :
    Except String JournalState :=
  match raw with
  | .str "RESERVED" => .ok (.reserved source)
  | .str "REQUESTED" =>
    .ok (.terminal (.outcomeUnknown source "v2 in-flight refresh outcome is unknown"))
  | .str "ROTATED" =>
    match (Json.lookup "replacement_cookie_header" payload).str?,
      (Json.lookup "successor_revision" payload).str? with
    | some replacement, some successor =>
      .ok (.terminal (.rotated source replacement successor))
    | _, _ => .error "v2 rotated journal is incomplete"
  | .str "REJECTED" =>
    match (Json.lookup "reason" payload).str? with
    | some reason => .ok (.terminal (.rejected source reason))
    | none => .error "v2 terminal journal is incomplete"
  | .str "OUTCOME_UNKNOWN" =>
    match (Json.lookup "reason" payload).str? with
    | some reason => .ok (.terminal (.outcomeUnknown source reason))
    | none => .error "v2 terminal journal is incomplete"
  | _ => .error "v2 journal state is unsupported"

/-- The recovery budget of a journal of the previous schema. -/
def v2Attempt (source : String) (raw : Json) : RotationAttempt :=
  let requested := raw.equalsStr "REQUESTED"
  let unknown := requested || raw.equalsStr "OUTCOME_UNKNOWN"
  { rotationId := source
    attemptKind := .normal
    dispatchCount := if requested then 1 else 0
    totalDispatchCap := if requested then 1 else 6
    continuation := if unknown then some .stop else none
    stopReason := if unknown then some "v2-active-ambiguity" else none }

/-- Reads a journal of the previous schema. -/
def parseV2Journal (payload : List (String × Json)) : Except PyError JournalLoadResult := do
  let raw := Json.lookup "state" payload
  match (Json.lookup "source_revision" payload).str? with
  | none => return .corrupt "v2 journal source_revision must be a non-empty string"
  | some source =>
    if source = "" then return .corrupt "v2 journal source_revision must be a non-empty string"
    else
      let enqueued := if Json.hasKey "outbox_enqueued" payload then
        Json.lookup "outbox_enqueued" payload else .bool false
      match enqueued.bool? with
      | none => return .corrupt "v2 journal outbox_enqueued must be a boolean"
      | some outboxEnqueued =>
        let active ← rawMemberOf raw ["RESERVED", "REQUESTED"]
        let stray := ["replacement_cookie_header", "reason", "successor_revision", "outcome",
          "event_key"].any fun field => match Json.lookup field payload with
            | .null => false
            | _ => true
        if active && stray then return .corrupt "v2 active journal contains terminal fields"
        else
          match parseV2State payload source raw with
          | .error detail => return .corrupt detail
          | .ok state => return .loaded state outboxEnqueued (v2Attempt source raw) (some 2)

/-- Reads a journal payload. -/
def parseJournal : Json → Except PyError JournalLoadResult
  | .obj payload =>
    let version := Json.lookup "version" payload
    if version.equalsInt 2 then parseV2Journal payload
    else if version.equalsInt 3 then do
      match ← journalFields payload with
      | .error detail => return .corrupt detail
      | .ok fields =>
        match journalState fields with
        | some state => return .loaded state fields.outboxEnqueued fields.attempt none
        | none => return .corrupt "journal state payload is inconsistent"
    else .ok (.corrupt "journal version must be 2 or 3")
  | _ => .ok (.corrupt "journal payload must be an object")

/-! ### Writing the journal -/

def JournalState.name : JournalState → String
  | reserved _ => "RESERVED"
  | requested _ => "REQUESTED"
  | terminal (.rotated ..) => "ROTATED"
  | terminal (.rejected ..) => "REJECTED"
  | terminal (.outcomeUnknown ..) => "OUTCOME_UNKNOWN"

def JournalState.terminal? : JournalState → Option TerminalState
  | terminal state => some state
  | _ => none

def JournalState.replacement? : JournalState → Option String
  | terminal (.rotated _ replacement _) => some replacement
  | _ => none

def JournalState.successor? : JournalState → Option String
  | terminal (.rotated _ _ successor) => some successor
  | _ => none

def JournalState.reason? : JournalState → Option String
  | terminal (.rejected _ reason) => some reason
  | terminal (.outcomeUnknown _ reason) => some reason
  | _ => none

/-- The budget that stands in when a writer gives none. -/
def initialRotationAttempt (state : JournalState) : RotationAttempt :=
  match state with
  | .terminal (.rejected source _) | .terminal (.outcomeUnknown source _) =>
    { rotationId := source, attemptKind := .normal, dispatchCount := 0,
      continuation := some .stop, stopReason := some "terminal-state" }
  | state => { rotationId := state.sourceRevision, attemptKind := .normal, dispatchCount := 0 }

def journalPayload (state : JournalState) (outboxEnqueued : Bool)
    (attempt : Option RotationAttempt) : Json :=
  let attempt := attempt.getD (initialRotationAttempt state)
  .obj [
    ("version", .int 3),
    ("source_revision", .str state.sourceRevision),
    ("state", .str state.name),
    ("replacement_cookie_header", .ofOptionalStr state.replacement?),
    ("reason", .ofOptionalStr state.reason?),
    ("successor_revision", .ofOptionalStr state.successor?),
    ("outcome", .ofOptionalStr (state.terminal?.map fun t => t.outcome.text)),
    ("event_key", .ofOptionalStr (state.terminal?.map TerminalState.eventKey)),
    ("outbox_enqueued", .bool (state.terminal?.isSome && outboxEnqueued)),
    ("rotation_id", .str attempt.rotationId),
    ("attempt_kind", .str attempt.attemptKind.text),
    ("dispatch_count", .int attempt.dispatchCount),
    ("safe_retry_count", .int attempt.safeRetryCount),
    ("validation_retry_count", .int attempt.validationRetryCount),
    ("ambiguity_replay_count", .int attempt.ambiguityReplayCount),
    ("recovery_deadline", .ofOptionalStr attempt.recoveryDeadline),
    ("continuation", .ofOptionalStr (attempt.continuation.map Continuation.text)),
    ("owner_boot_id", .ofOptionalStr attempt.ownerBootId),
    ("owner_pid", .ofOptionalInt attempt.ownerPid),
    ("owner_start_ticks", .ofOptionalStr attempt.ownerStartTicks),
    ("next_attempt_at", .ofOptionalStr attempt.nextAttemptAt),
    ("total_dispatch_cap", .int attempt.totalDispatchCap),
    ("response_class", .ofOptionalStr attempt.responseClass),
    ("stop_reason", .ofOptionalStr attempt.stopReason)]

/-! ### The outbox -/

/-- Reads an outcome name. -/
def parseOutcome (text : String) : Option RotationOutcome :=
  if text = "rotated" then some .rotated
  else if text = "rejected" then some .rejected
  else if text = "outcome_unknown" then some .outcomeUnknown
  else none

/-- Whether a key has the form the outbox gives to an outcome. -/
def eventKeyMatches (key : String) (outcome : RotationOutcome) : Bool :=
  "auth-rotation:".toList.isPrefixOf key.toList &&
    (":" ++ outcome.text).toList.isSuffixOf key.toList

/-- Reads one outbox record; the inner `none` is an invalid one. -/
def parseOutboxRecord : Json → Except PyError (Option OutcomeOutboxRecord)
  | .obj payload =>
    match (Json.lookup "event_key" payload).str? with
    | none => .ok none
    | some key =>
      if key = "" then .ok none
      else do
        let raw := Json.lookup "outcome" payload
        let known ← rawMemberOf raw ["rotated", "rejected", "outcome_unknown"]
        match known, raw.str? >>= parseOutcome with
        | true, some outcome =>
          if eventKeyMatches key outcome then return some ⟨outcome, key⟩ else return none
        | _, _ => return none
  | _ => .ok none

/-- Reads the records of an outbox onto the ones already read. -/
def parseOutboxRecords (done : List OutcomeOutboxRecord) :
    List Json → Except PyError OutcomeOutboxLoadResult
  | [] => .ok (.loaded done)
  | raw :: rest => do
    match ← parseOutboxRecord raw with
    | none => return .corrupt "outbox records must contain valid unique outcome event keys"
    | some record =>
      if done.any fun existing => existing.eventKey = record.eventKey then
        return .corrupt "outbox event keys must be unique"
      else parseOutboxRecords (done ++ [record]) rest

/-- Reads an outbox payload. -/
def parseOutbox : Json → Except PyError OutcomeOutboxLoadResult
  | .obj payload =>
    if (Json.lookup "version" payload).equalsInt 2 then
      match Json.lookup "records" payload with
      | .arr raw => parseOutboxRecords [] raw
      | _ => .ok (.corrupt "outbox records must be a list")
    else .ok (.corrupt "outbox version must be 2")
  | _ => .ok (.corrupt "outbox version must be 2")

def outboxPayload (records : List OutcomeOutboxRecord) : Json :=
  .obj [
    ("version", .int 2),
    ("records", .arr (records.map fun record =>
      .obj [("outcome", .str record.outcome.text), ("event_key", .str record.eventKey)]))]

end EnjiGuard.AuthSession
