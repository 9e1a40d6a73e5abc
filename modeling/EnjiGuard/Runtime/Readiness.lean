import EnjiGuard.Foundation.Double
import EnjiGuard.Foundation.IsoFormat
import EnjiGuard.Foundation.Json

/-!
# Backend readiness

The service probes the backend again and again and keeps a summary of the results in a file. A
health check of the container reads the file and decides whether the service is ready, with some
grace for failures after a success. The verdict is a function of the whole history of probes.
-/

namespace EnjiGuard.Runtime

open Foundation

/-! ### Probes and states -/

structure BackendReadinessProbe where
  ready : Bool
  failureKind : Option String := none
  failureCode : Option String := none
  failureMessage : Option String := none
  failureStatusCode : Option Int := none
  credentialType : Option String := none
  refreshState : Option String := none
  reauthRequired : Bool := false
  bypassGrace : Bool := false
  deriving DecidableEq, Repr

/-- The summary of the probes so far. -/
@[ext]
structure BackendReadinessState where
  ready : Option Bool
  checkedAt : Option String
  lastSuccessAt : Option String
  failureKind : Option String
  failureCode : Option String
  failureMessage : Option String
  failureStatusCode : Option Int
  credentialType : Option String
  refreshState : Option String := none
  reauthRequired : Bool := false
  consecutiveFailures : Int := 0
  bypassGrace : Bool := false
  deriving DecidableEq, Repr

structure ReadinessSettings where
  enabled : Bool
  failureThreshold : Int
  stateStaleAfterSeconds : Int
  deriving DecidableEq, Repr

/-- How many failures the effective state tolerates. -/
def ReadinessSettings.readyAfterFailureCount (settings : ReadinessSettings) : Int :=
  settings.failureThreshold - 1

/-- What the health check decides. -/
structure ReadinessVerdict where
  ready : Bool
  reason : Option String
  state : Option BackendReadinessState
  deriving DecidableEq, Repr

/-- The errors that a verdict can end in. -/
inductive ReadinessError
  | unicodeDecode
  | refused (typeName : String)
  | overflow
  deriving DecidableEq, Repr

def backendReadinessStateAfterProbe (previous : BackendReadinessState)
    (probe : BackendReadinessProbe) (checkedAt : Datetime) : BackendReadinessState :=
  if probe.ready then
    { ready := some true
      checkedAt := some (isoformat checkedAt)
      lastSuccessAt := some (isoformat checkedAt)
      failureKind := none
      failureCode := none
      failureMessage := none
      failureStatusCode := none
      credentialType := probe.credentialType
      refreshState := probe.refreshState
      reauthRequired := probe.reauthRequired
      consecutiveFailures := 0
      bypassGrace := false }
  else
    { ready := some false
      checkedAt := some (isoformat checkedAt)
      lastSuccessAt := previous.lastSuccessAt
      failureKind := probe.failureKind
      failureCode := probe.failureCode
      failureMessage := probe.failureMessage
      failureStatusCode := probe.failureStatusCode
      credentialType := probe.credentialType
      refreshState := probe.refreshState
      reauthRequired := probe.reauthRequired
      consecutiveFailures := previous.consecutiveFailures + 1
      bypassGrace := probe.bypassGrace }

def backendReadinessStartingState (checkedAt : Datetime) : BackendReadinessState where
  ready := some false
  checkedAt := some (isoformat checkedAt)
  lastSuccessAt := none
  failureKind := some "startup"
  failureCode := some "STARTING"
  failureMessage := some "backend readiness has not succeeded yet"
  failureStatusCode := none
  credentialType := none

/-! ### The file -/

/-- A boolean or `null`. -/
def ofOptionalBool : Option Bool → Json
  | some b => .bool b
  | none => .null

def writeBackendReadinessState (state : BackendReadinessState) : Option FileText :=
  some (.json (.obj [
    ("ready", ofOptionalBool state.ready),
    ("checked_at", .ofOptionalStr state.checkedAt),
    ("last_success_at", .ofOptionalStr state.lastSuccessAt),
    ("failure_kind", .ofOptionalStr state.failureKind),
    ("failure_code", .ofOptionalStr state.failureCode),
    ("failure_message", .ofOptionalStr state.failureMessage),
    ("failure_status_code", .ofOptionalInt state.failureStatusCode),
    ("credential_type", .ofOptionalStr state.credentialType),
    ("refresh_state", .ofOptionalStr state.refreshState),
    ("reauth_required", .bool state.reauthRequired),
    ("consecutive_failures", .int state.consecutiveFailures),
    ("bypass_grace", .bool state.bypassGrace)]))

/-- A nullable boolean; the outer `none` is any other value. -/
def optionalBool? : Json → Option (Option Bool)
  | .bool b => some (some b)
  | .null => some none
  | _ => none

/-- The integer a value is, booleans included. -/
def integer? : Json → Option Int
  | .int n => some n
  | .bool b => some (if b then 1 else 0)
  | _ => none

/-- The state of a payload; none when a field that matters has another type. -/
def backendReadinessStateFromPayload (payload : List (String × Json)) :
    Option BackendReadinessState := do
  let ready ← optionalBool? (Json.lookup "ready" payload)
  let checkedAt ← (Json.lookup "checked_at" payload).optionalStr?
  let lastSuccessAt ← (Json.lookup "last_success_at" payload).optionalStr?
  let consecutiveFailures ← integer? (Json.lookup "consecutive_failures" payload)
  return {
    ready := ready
    checkedAt := checkedAt
    lastSuccessAt := lastSuccessAt
    failureKind := (Json.lookup "failure_kind" payload).str?
    failureCode := (Json.lookup "failure_code" payload).str?
    failureMessage := (Json.lookup "failure_message" payload).str?
    failureStatusCode := integer? (Json.lookup "failure_status_code" payload)
    credentialType := (Json.lookup "credential_type" payload).str?
    refreshState := (Json.lookup "refresh_state" payload).str?
    reauthRequired := (Json.lookup "reauth_required" payload).bool?.getD false
    consecutiveFailures := consecutiveFailures
    bypassGrace := (Json.lookup "bypass_grace" payload).bool?.getD false }

/-- Reads the state; none when the file is missing or holds no state. -/
def readBackendReadinessState :
    Option FileText → Except ReadinessError (Option BackendReadinessState)
  | none => .ok none
  | some .notUtf8 => .error .unicodeDecode
  | some (.notJson _) => .ok none
  | some (.refused typeName) => .error (.refused typeName)
  | some (.json (.obj payload)) => .ok (backendReadinessStateFromPayload payload)
  | some (.json _) => .ok none

/-! ### The verdict -/

/-- How far ahead of the reader's clock a check may be. -/
def readinessClockAnomalyTolerance : Timedelta := Timedelta.seconds 5

/-- The result of a calculation with datetimes, which can leave their range. -/
def orOverflow : Option Datetime → Except ReadinessError Datetime
  | some t => .ok t
  | none => .error .overflow

/-- A timestamp in UTC; one without an offset is taken to be in UTC. -/
def parseCheckedAt : Option String → Except ReadinessError (Option Datetime)
  | none => .ok none
  | some value =>
    match fromIsoformat value with
    | none => .ok none
    | some parsed => some <$> orOverflow (IsoDatetime.toUtc? parsed (parsed.offset.getD 0))

/-- Why a state does not make the service ready. -/
def readinessUnavailableReason (state : BackendReadinessState) (settings : ReadinessSettings)
    (checkedAt currentTime : Datetime) : Except ReadinessError (Option String) := do
  let latest ← orOverflow (currentTime.add? readinessClockAnomalyTolerance)
  if latest < checkedAt then return some "backend readiness state has a clock anomaly"
  let ageSeconds := wholeSeconds (currentTime.sub checkedAt)
  if settings.stateStaleAfterSeconds < ageSeconds then
    return some "backend readiness state is stale"
  if state.bypassGrace then return some "backend readiness has a terminal auth failure"
  if state.lastSuccessAt = none then return some "backend readiness has not succeeded yet"
  if settings.failureThreshold ≤ state.consecutiveFailures then
    return some "backend readiness failure threshold reached"
  return none

/-- The state with the readiness that the grace for failures leaves. -/
def stateWithEffectiveReady (state : BackendReadinessState) (settings : ReadinessSettings) :
    BackendReadinessState :=
  if state.consecutiveFailures = 0 then state
  else { state with
    ready := some (decide (state.consecutiveFailures ≤ settings.readyAfterFailureCount)) }

/-- The verdict about a state that does not make the service ready; none when it does. -/
def unavailableStateVerdict (state : BackendReadinessState) (settings : ReadinessSettings)
    (now : Datetime) : Except ReadinessError (Option ReadinessVerdict) := do
  match ← parseCheckedAt state.checkedAt with
  | none =>
    return some { ready := false
                  reason := some "backend readiness state is invalid"
                  state := some state }
  | some checkedAt =>
    let reason ← readinessUnavailableReason state settings checkedAt now
    return reason.map fun reason =>
      { ready := false, reason := some reason, state := some state }

/-- The verdict of the health check at a time. -/
def readinessVerdict (settings : ReadinessSettings) (file : Option FileText) (now : Datetime) :
    Except ReadinessError ReadinessVerdict := do
  if ¬ settings.enabled then return { ready := true, reason := none, state := none }
  match ← readBackendReadinessState file with
  | none =>
    return { ready := false
             reason := some "backend readiness state is missing"
             state := none }
  | some state =>
    let unavailable ← unavailableStateVerdict state settings now
    return unavailable.getD
      { ready := true, reason := none, state := some (stateWithEffectiveReady state settings) }

/-! ### Histories -/

/-- What one turn of the readiness loop records. -/
inductive ProbeResult
  | observed (probe : BackendReadinessProbe)
  | crashed (errorType message : String)
  deriving DecidableEq, Repr

/-- The probe a turn is recorded as; a crash is a failure. -/
def ProbeResult.probe : ProbeResult → BackendReadinessProbe
  | .observed probe => probe
  | .crashed errorType message =>
    { ready := false
      failureKind := some "internal"
      failureCode := some errorType
      failureMessage := some message }

/-- A recorded turn and when it was checked. -/
structure Turn where
  result : ProbeResult
  checkedAt : Datetime

def Turn.succeeded (turn : Turn) : Bool := turn.result.probe.ready

/-- Whether a turn was a failure that no grace applies to. -/
def Turn.bypassesGrace (turn : Turn) : Bool :=
  !turn.result.probe.ready && turn.result.probe.bypassGrace

def stateAfter (startedAt : Datetime) (turns : List Turn) : BackendReadinessState :=
  turns.foldl (fun state turn =>
    backendReadinessStateAfterProbe state turn.result.probe turn.checkedAt)
    (backendReadinessStartingState startedAt)

/-- When the last check was, the start of the service counting as one. -/
def lastCheckedAt (startedAt : Datetime) (turns : List Turn) : Datetime :=
  (turns.getLast?.map Turn.checkedAt).getD startedAt

/-- The number of failures since the last success. -/
def failuresSinceSuccess (turns : List Turn) : Nat :=
  (turns.reverse.takeWhile fun turn => !turn.succeeded).length

section

variable {startedAt now : Datetime} {turns : List Turn} {turn : Turn} {settings : ReadinessSettings}
variable {state : BackendReadinessState}

lemma stateAfter_concat : stateAfter startedAt (turns ++ [turn]) =
    backendReadinessStateAfterProbe (stateAfter startedAt turns) turn.result.probe
      turn.checkedAt := by
  simp [stateAfter]

/-- What the state keeps of a history. -/
structure Summarises (startedAt : Datetime) (turns : List Turn) (state : BackendReadinessState) :
    Prop where
  checkedAt : state.checkedAt = some (isoformat (lastCheckedAt startedAt turns))
  lastSuccessAt : state.lastSuccessAt ≠ none ↔ ∃ turn ∈ turns, turn.succeeded = true
  consecutiveFailures : state.consecutiveFailures = failuresSinceSuccess turns
  bypassGrace : state.bypassGrace = true ↔ ∃ turn ∈ turns.getLast?, turn.bypassesGrace = true

/-- One more turn keeps the summary. -/
lemma Summarises.concat (h : Summarises startedAt turns state) :
    Summarises startedAt (turns ++ [turn])
      (backendReadinessStateAfterProbe state turn.result.probe turn.checkedAt) := by
  by_cases hready : turn.result.probe.ready = true
  · rw [backendReadinessStateAfterProbe, if_pos hready]
    constructor
    · simp [lastCheckedAt]
    · simp [Turn.succeeded, hready]
    · simp [failuresSinceSuccess, Turn.succeeded, hready]
    · simp [Turn.bypassesGrace, hready]
  · rw [backendReadinessStateAfterProbe, if_neg hready]
    have hfailed : turn.result.probe.ready = false := by simpa using hready
    constructor
    · simp [lastCheckedAt]
    · simp [h.lastSuccessAt, Turn.succeeded, hfailed, or_and_right, exists_or]
    · simp [h.consecutiveFailures, failuresSinceSuccess, Turn.succeeded, hfailed]
    · simp [Turn.bypassesGrace, hfailed]

/-- The state after turns keeps what the verdict needs of them. -/
lemma summarises_stateAfter : Summarises startedAt turns (stateAfter startedAt turns) := by
  induction turns using List.reverseRecOn with
  | nil =>
    constructor <;> simp [stateAfter, backendReadinessStartingState, lastCheckedAt,
      failuresSinceSuccess]
  | append_singleton turns turn ih =>
    rw [stateAfter_concat]
    exact ih.concat

/-- A state reads back as it was written. -/
lemma readBackendReadinessState_write (state : BackendReadinessState) :
    readBackendReadinessState (writeBackendReadinessState state) = .ok (some state) := by
  have hint : ∀ n : Option Int, integer? (.ofOptionalInt n) = n := by
    intro n
    cases n <;> rfl
  have hbool : ∀ b : Option Bool, optionalBool? (ofOptionalBool b) = some b := by
    intro b
    cases b <;> rfl
  have hstr : ∀ text : Option String, (Json.ofOptionalStr text).str? = text := by
    intro text
    cases text <;> rfl
  have hcount : ∀ n : Int, integer? (.int n) = some n := fun _ => rfl
  simp [readBackendReadinessState, writeBackendReadinessState, backendReadinessStateFromPayload,
    Json.lookup, hint, hbool, hstr, hcount]

/-- The file after turns holds their state. -/
lemma readBackendReadinessState_stateAfter :
    readBackendReadinessState (writeBackendReadinessState (stateAfter startedAt turns)) =
      .ok (some (stateAfter startedAt turns)) :=
  readBackendReadinessState_write _

lemma parseCheckedAt_of_fromIsoformat {value : String} {parsed : IsoDatetime} {t : Datetime}
    (hparsed : fromIsoformat value = some parsed)
    (hutc : IsoDatetime.toUtc? parsed (parsed.offset.getD 0) = some t) :
    parseCheckedAt (some value) = .ok (some t) := by
  simp only [parseCheckedAt, hparsed, hutc]
  rfl

/-- A timestamp that was printed parses as itself. -/
lemma parseCheckedAt_isoformat (t : Datetime) :
    parseCheckedAt (some (isoformat t)) = .ok (some t) :=
  parseCheckedAt_of_fromIsoformat (fromIsoformat_isoformat t) (toUtc?_zero t _)

/-- What makes the service ready, in terms of its history. -/
structure ReadyAt (settings : ReadinessSettings) (startedAt : Datetime) (turns : List Turn)
    (now : Datetime) : Prop where
  notAhead : ((lastCheckedAt startedAt turns).micros : Int) ≤
    now.micros + readinessClockAnomalyTolerance
  fresh : wholeSeconds (now.sub (lastCheckedAt startedAt turns)) ≤ settings.stateStaleAfterSeconds
  notBypassed : ∀ turn ∈ turns.getLast?, turn.bypassesGrace = false
  succeeded : ∃ turn ∈ turns, turn.succeeded = true
  belowThreshold : (failuresSinceSuccess turns : Int) < settings.failureThreshold

lemma readinessUnavailableReason_of_none {checkedAt : Datetime}
    (hlatest : now.add? readinessClockAnomalyTolerance = none) :
    readinessUnavailableReason state settings checkedAt now = .error .overflow := by
  rw [readinessUnavailableReason, hlatest]
  rfl

lemma readinessUnavailableReason_of_some {checkedAt latest : Datetime}
    (hlatest : now.add? readinessClockAnomalyTolerance = some latest) :
    ∃ reason, readinessUnavailableReason state settings checkedAt now = .ok reason := by
  rw [readinessUnavailableReason, hlatest]
  simp only [orOverflow, bind, Except.bind]
  split_ifs <;> exact ⟨_, rfl⟩

/-- The five checks together are the readiness of the history. -/
lemma Summarises.readinessUnavailableReason_eq_none {latest : Datetime}
    (h : Summarises startedAt turns state)
    (hlatest : now.add? readinessClockAnomalyTolerance = some latest) :
    readinessUnavailableReason state settings (lastCheckedAt startedAt turns) now = .ok none ↔
      ReadyAt settings startedAt turns now := by
  have hmicros := Datetime.micros_of_add? hlatest
  have hahead : latest < lastCheckedAt startedAt turns ↔
      ¬ ((lastCheckedAt startedAt turns).micros : Int) ≤
        now.micros + readinessClockAnomalyTolerance := by
    rw [Datetime.lt_def, ← hmicros]
    omega
  have hbypass : state.bypassGrace = true ↔
      ¬ ∀ turn ∈ turns.getLast?, turn.bypassesGrace = false := by
    rw [h.bypassGrace]
    simp
  have hsuccess : state.lastSuccessAt = none ↔ ¬ ∃ turn ∈ turns, turn.succeeded = true := by
    rw [← h.lastSuccessAt, not_not]
  rw [readinessUnavailableReason, hlatest]
  simp only [orOverflow, bind, Except.bind, pure, Except.pure]
  constructor
  · intro hready
    split_ifs at hready with hearly hstale hbypassed hnever hmany
    iterate 5 cases hready
    constructor
    · exact not_not.1 (mt hahead.2 hearly)
    · exact not_lt.1 hstale
    · exact not_not.1 (mt hbypass.2 hbypassed)
    · exact not_not.1 (mt hsuccess.2 hnever)
    · rw [← h.consecutiveFailures]
      exact not_le.1 hmany
  · intro hready
    rw [if_neg (mt hahead.1 (not_not.2 hready.notAhead)), if_neg (not_lt.2 hready.fresh),
      if_neg (mt hbypass.1 (not_not.2 hready.notBypassed)),
      if_neg (mt hsuccess.1 (not_not.2 hready.succeeded)), if_neg]
    rw [h.consecutiveFailures]
    exact not_le.2 hready.belowThreshold

/-- After a value, the rest runs on it. -/
lemma ok_bind {α β : Type} (a : α) (f : α → Except ReadinessError β) :
    (Except.ok a >>= f) = f a := rfl

lemma unavailableStateVerdict_of_checkedAt {checkedAt : Datetime}
    (hchecked : parseCheckedAt state.checkedAt = .ok (some checkedAt)) :
    unavailableStateVerdict state settings now =
      readinessUnavailableReason state settings checkedAt now >>= fun reason =>
        pure (reason.map fun reason =>
          { ready := false, reason := some reason, state := some state }) := by
  rw [unavailableStateVerdict, hchecked, ok_bind]

lemma readinessVerdict_of_read {file : Option FileText} (henabled : settings.enabled = true)
    (hread : readBackendReadinessState file = .ok (some state)) :
    readinessVerdict settings file now =
      unavailableStateVerdict state settings now >>= fun unavailable =>
        pure (unavailable.getD { ready := true
                                 reason := none
                                 state := some (stateWithEffectiveReady state settings) }) := by
  rw [readinessVerdict, if_neg (not_not.2 henabled), hread, ok_bind]

/-- The verdict about a history is decided by the checks of its state. -/
lemma readinessVerdict_stateAfter (henabled : settings.enabled = true) :
    readinessVerdict settings (writeBackendReadinessState (stateAfter startedAt turns)) now =
      unavailableStateVerdict (stateAfter startedAt turns) settings now >>= fun unavailable =>
        pure (unavailable.getD
          { ready := true
            reason := none
            state := some (stateWithEffectiveReady (stateAfter startedAt turns) settings) }) :=
  readinessVerdict_of_read henabled readBackendReadinessState_stateAfter

lemma unavailableStateVerdict_stateAfter :
    unavailableStateVerdict (stateAfter startedAt turns) settings now =
      readinessUnavailableReason (stateAfter startedAt turns) settings
        (lastCheckedAt startedAt turns) now >>= fun reason =>
          pure (reason.map fun reason =>
            { ready := false
              reason := some reason
              state := some (stateAfter startedAt turns) }) := by
  have hchecked : parseCheckedAt (stateAfter startedAt turns).checkedAt =
      .ok (some (lastCheckedAt startedAt turns)) := by
    rw [summarises_stateAfter.checkedAt, parseCheckedAt_isoformat]
  exact unavailableStateVerdict_of_checkedAt hchecked

/-- The file keeps the state of every history, and the verdict at any time says ready exactly when
the history of the probes does. The verdict has no value only when the reader's clock is within the
tolerance of the last datetime there is. -/
theorem verdict_of_history (startedAt : Datetime) (turns : List Turn)
    (settings : ReadinessSettings) (henabled : settings.enabled = true) (now : Datetime) :
    readBackendReadinessState (writeBackendReadinessState (stateAfter startedAt turns)) =
        .ok (some (stateAfter startedAt turns)) ∧
      ((now.add? readinessClockAnomalyTolerance).isSome = true ↔
        ∃ verdict, readinessVerdict settings
          (writeBackendReadinessState (stateAfter startedAt turns)) now = .ok verdict) ∧
      ∀ verdict, readinessVerdict settings
          (writeBackendReadinessState (stateAfter startedAt turns)) now = .ok verdict →
        (verdict.ready = true ↔ ReadyAt settings startedAt turns now) := by
  refine ⟨readBackendReadinessState_stateAfter, ?_, ?_⟩
  · rw [readinessVerdict_stateAfter henabled, unavailableStateVerdict_stateAfter]
    cases hlatest : now.add? readinessClockAnomalyTolerance with
    | none =>
      rw [readinessUnavailableReason_of_none hlatest]
      simp [bind, Except.bind]
    | some latest =>
      obtain ⟨reason, hreason⟩ := readinessUnavailableReason_of_some hlatest
      rw [hreason]
      simp [bind, Except.bind, pure, Except.pure]
  · intro verdict hverdict
    rw [readinessVerdict_stateAfter henabled, unavailableStateVerdict_stateAfter] at hverdict
    cases hlatest : now.add? readinessClockAnomalyTolerance with
    | none =>
      rw [readinessUnavailableReason_of_none hlatest] at hverdict
      cases hverdict
    | some latest =>
      have hready : readinessUnavailableReason (stateAfter startedAt turns) settings
            (lastCheckedAt startedAt turns) now = .ok none ↔
          ReadyAt settings startedAt turns now :=
        summarises_stateAfter.readinessUnavailableReason_eq_none hlatest
      rw [← hready]
      obtain ⟨reason, hreason⟩ := readinessUnavailableReason_of_some hlatest
      rw [hreason] at hverdict ⊢
      cases reason <;> cases hverdict <;> simp

/-- A success in the first second and a crash a minute later. -/
def successThenCrash : List Turn :=
  [⟨.observed { ready := true }, ⟨1000000, by decide⟩⟩,
    ⟨.crashed "OSError" "", ⟨61000000, by decide⟩⟩]

/-- A success and a crash a minute later leave the service ready for the next five minutes. -/
theorem verdict_of_history_grace :
    ReadyAt ⟨true, 3, 300⟩ ⟨0, by decide⟩ successThenCrash ⟨361000000, by decide⟩ ∧
      ∃ verdict, readinessVerdict ⟨true, 3, 300⟩
        (writeBackendReadinessState (stateAfter ⟨0, by decide⟩ successThenCrash))
          ⟨361000000, by decide⟩ = .ok verdict ∧ verdict.ready = true := by
  have hready : ReadyAt ⟨true, 3, 300⟩ ⟨0, by decide⟩ successThenCrash
      ⟨361000000, by decide⟩ := by
    constructor
    · decide +kernel
    · decide +kernel
    · decide +kernel
    · decide +kernel
    · decide +kernel
  obtain ⟨-, hcomputed, hverdict⟩ := verdict_of_history ⟨0, by decide⟩ successThenCrash
    ⟨true, 3, 300⟩ rfl ⟨361000000, by decide⟩
  obtain ⟨verdict, hrun⟩ := hcomputed.1 (by decide +kernel)
  exact ⟨hready, verdict, hrun, (hverdict verdict hrun).2 hready⟩

end

end EnjiGuard.Runtime
