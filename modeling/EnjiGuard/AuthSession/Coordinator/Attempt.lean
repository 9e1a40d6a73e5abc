import EnjiGuard.AuthSession.Cookies
import EnjiGuard.AuthSession.Store.Specs

/-!
# The recovery budget

How an attempt is scheduled, stopped and advanced. The functions that read the clock are actions;
the rest is pure.
-/

namespace EnjiGuard.AuthSession

open Foundation Action

/-! ### Deadlines -/

/-- The text of a datetime a span after another. -/
def isoformatAfter (now : Datetime) (span : Timedelta) : Except PyError String :=
  match now.add? span with
  | some t => .ok (isoformat t)
  | none => .error .overflowError

/-- Reads a deadline. -/
def parseDeadline (deadline : Option String) : Except PyError (Option Datetime) :=
  match deadline with
  | none => .ok none
  | some text => parseAware text

/-- Whether a deadline has passed; an unreadable one has. -/
def deadlinePassed (deadline : Option String) (now : Datetime) : Except PyError Bool :=
  (parseDeadline deadline).map fun parsed =>
    match parsed with
    | none => true
    | some parsed => decide (parsed ≤ now)

/-- The time left until a timestamp; none for an unreadable one. -/
def secondsUntil (timestamp : Option String) (now : Datetime) : Except PyError Timedelta :=
  (parseDeadline timestamp).map fun parsed =>
    match parsed with
    | none => 0
    | some parsed => max 0 (parsed.sub now)

/-! ### Owners -/

/-- The persisted owner, when its identity is complete. -/
def attemptOwner (attempt : RotationAttempt) : Option RefreshOwner :=
  match attempt.ownerBootId, attempt.ownerPid, attempt.ownerStartTicks with
  | some bootId, some pid, some startTicks => some ⟨bootId, pid, startTicks⟩
  | _, _, _ => none

def withoutOwner (attempt : RotationAttempt) : RotationAttempt :=
  { attempt with ownerBootId := none, ownerPid := none, ownerStartTicks := none }

/-! ### Continuations -/

def RotationAttempt.laneCount (attempt : RotationAttempt) : RecoveryLane → Int
  | .safeRetry => attempt.safeRetryCount
  | .validationRecovery => attempt.validationRetryCount
  | .ambiguityReplay => attempt.ambiguityReplayCount

/-- Whether the budget has room for a lane. -/
def continuationAvailable (attempt : RotationAttempt) (continuation : RecoveryLane) : Bool :=
  if attempt.totalDispatchCap ≤ attempt.dispatchCount then false
  else decide (attempt.laneCount continuation < continuation.limit)

def stoppedAttempt (attempt : RotationAttempt) (deadline reason : String) : RotationAttempt :=
  { withoutOwner attempt with
    recoveryDeadline := some deadline
    continuation := some .stop
    nextAttemptAt := none
    stopReason := some reason }

/-- The attempt scheduled for a lane, or stopped when the budget or the deadline is exhausted. -/
def withContinuation (attempt : RotationAttempt) (continuation : RecoveryLane)
    (deadline : String) (now : Datetime) : Except PyError RotationAttempt :=
  let parsedDeadline := match attempt.recoveryDeadline with
    | some own => if own = "" then deadline else own
    | none => deadline
  if !continuationAvailable attempt continuation then
    .ok (stoppedAttempt attempt parsedDeadline "recovery-budget-exhausted")
  else
    match now.add? continuation.delay with
    | none => .error .overflowError
    | some nextAttempt =>
      (parseDeadline (some parsedDeadline)).map fun absolute =>
        match absolute with
        | none => stoppedAttempt attempt parsedDeadline "recovery-deadline-exhausted"
        | some absolute =>
          if absolute ≤ now ∨ absolute < nextAttempt then
            stoppedAttempt attempt parsedDeadline "recovery-deadline-exhausted"
          else
            { withoutOwner attempt with
              recoveryDeadline := some parsedDeadline
              continuation := some (.lane continuation)
              nextAttemptAt := some (isoformat nextAttempt)
              stopReason := none }

/-- The attempt that dispatches once more in a lane. -/
def RotationAttempt.advance (attempt : RotationAttempt) (lane : RecoveryLane) : RotationAttempt :=
  { rotationId := attempt.rotationId
    attemptKind := .recovery lane
    dispatchCount := attempt.dispatchCount + 1
    safeRetryCount := attempt.safeRetryCount + if lane = .safeRetry then 1 else 0
    validationRetryCount :=
      attempt.validationRetryCount + if lane = .validationRecovery then 1 else 0
    ambiguityReplayCount :=
      attempt.ambiguityReplayCount + if lane = .ambiguityReplay then 1 else 0
    recoveryDeadline := attempt.recoveryDeadline
    continuation := some (.lane lane)
    nextAttemptAt := attempt.nextAttemptAt
    totalDispatchCap := attempt.totalDispatchCap }

/-- Whether an attempt may go on, without looking at the clock. -/
def RotationAttempt.resumable (attempt : RotationAttempt) : Option RecoveryLane :=
  match attempt.continuation with
  | some (.lane lane) =>
    if attempt.totalDispatchCap ≤ attempt.dispatchCount then none else some lane
  | _ => none

/-- The next recovery dispatch at a clock reading, when the budget allows one. -/
def nextRecoveryAttemptAt (attempt : RotationAttempt) (now : Datetime) :
    Except PyError (Option RotationAttempt) :=
  match attempt.resumable with
  | none => .ok none
  | some lane =>
    (deadlinePassed attempt.recoveryDeadline now).map fun passed =>
      if passed then none
      else if attempt.laneCount lane < lane.limit then some (attempt.advance lane) else none

/-- The next recovery dispatch; the clock is read only when the rest allows one. -/
def nextRecoveryAttempt (env : Env) (attempt : RotationAttempt) :
    Auth (Option RotationAttempt) := do
  match attempt.resumable with
  | none => return none
  | some _ =>
    let now ← nowFn env
    ofExcept (nextRecoveryAttemptAt attempt now)

/-- The attempt as the process that dispatches it persists it. -/
def ownedAttempt (attempt : RotationAttempt) (owner : RefreshOwner) : RotationAttempt :=
  { attempt with
    continuation := none
    ownerBootId := some owner.bootId
    ownerPid := some owner.pid
    ownerStartTicks := some owner.startTicks
    nextAttemptAt := none
    stopReason := none }

/-- The text of the deadline a rotation that starts now has. -/
def recoveryDeadline (env : Env) : Auth String := do
  let now ← nowFn env
  ofExcept (isoformatAfter now recoveryWindow)

/-! ### What the budget functions keep -/

@[simp] lemma attemptOwner_ownedAttempt (attempt : RotationAttempt) (owner : RefreshOwner) :
    attemptOwner (ownedAttempt attempt owner) = some owner := rfl

@[simp] lemma attemptOwner_withoutOwner (attempt : RotationAttempt) :
    attemptOwner (withoutOwner attempt) = none := rfl

lemma parseAware_of_fromIsoformat {value : String} {micros : Nat} {offset : Timedelta}
    {t : Datetime} (h : fromIsoformat value = some ⟨micros, some offset⟩)
    (hutc : IsoDatetime.toUtc? ⟨micros, some offset⟩ offset = some t) :
    parseAware value = .ok (some t) := by
  simp only [parseAware, h, hutc]

/-- A timestamp that was printed is read back. -/
lemma parseAware_isoformat (t : Datetime) : parseAware (isoformat t) = .ok (some t) :=
  parseAware_of_fromIsoformat (fromIsoformat_isoformat t) (toUtc?_zero t _)

/-- A timestamp with its offset removed was read with one. -/
lemma fromIsoformat_of_parseAware {value : String} {t : Datetime}
    (h : parseAware value = .ok (some t)) : ∃ micros offset,
    fromIsoformat value = some ⟨micros, some offset⟩ ∧
      IsoDatetime.toUtc? ⟨micros, some offset⟩ offset = some t := by
  rcases hparsed : fromIsoformat value with _ | ⟨micros, _ | offset⟩
  · simp [parseAware, hparsed] at h
  · simp [parseAware, hparsed] at h
  · rcases hutc : IsoDatetime.toUtc? ⟨micros, some offset⟩ offset with _ | t'
    · simp [parseAware, hparsed, hutc] at h
    · simp only [parseAware, hparsed, hutc, Except.ok.injEq, Option.some.injEq] at h
      exact ⟨micros, offset, rfl, h ▸ hutc⟩

/-- The window of two readable timestamps is valid when the first is not the later one. -/
lemma validRecoveryWindow_of_parseAware {notBefore deadline : String} {t t' : Datetime}
    (h : parseAware notBefore = .ok (some t)) (h' : parseAware deadline = .ok (some t')) :
    validRecoveryWindow (some notBefore) (some deadline) = .ok (decide (t ≤ t')) := by
  obtain ⟨micros, offset, hparsed, hutc⟩ := fromIsoformat_of_parseAware h
  obtain ⟨micros', offset', hparsed', hutc'⟩ := fromIsoformat_of_parseAware h'
  simp only [validRecoveryWindow, hparsed, hparsed', hutc, hutc']

/-- The counts, the identity and the cap of two attempts agree. -/
structure RotationAttempt.SameBudget (a b : RotationAttempt) : Prop where
  rotationId : b.rotationId = a.rotationId
  attemptKind : b.attemptKind = a.attemptKind
  dispatchCount : b.dispatchCount = a.dispatchCount
  safeRetryCount : b.safeRetryCount = a.safeRetryCount
  validationRetryCount : b.validationRetryCount = a.validationRetryCount
  ambiguityReplayCount : b.ambiguityReplayCount = a.ambiguityReplayCount
  totalDispatchCap : b.totalDispatchCap = a.totalDispatchCap

def scheduledAttempt (attempt : RotationAttempt) (lane : RecoveryLane) (deadline : String)
    (retry : Datetime) : RotationAttempt :=
  { withoutOwner attempt with
    recoveryDeadline := some deadline
    continuation := some (.lane lane)
    nextAttemptAt := some (isoformat retry)
    stopReason := none }

/-- Scheduling a continuation stops the attempt or schedules it within its budget and deadline. -/
inductive Continued (attempt : RotationAttempt) (lane : RecoveryLane) (deadline : String)
    (now : Datetime) : RotationAttempt → Prop
  | stopped (reason : String) (hreason : reason ≠ "") :
      Continued attempt lane deadline now (stoppedAttempt attempt deadline reason)
  | scheduled {retry absolute : Datetime} (havailable : continuationAvailable attempt lane = true)
      (hretry : now.add? lane.delay = some retry)
      (hdeadline : parseAware deadline = .ok (some absolute)) (hnow : now < absolute)
      (hle : retry ≤ absolute) :
      Continued attempt lane deadline now (scheduledAttempt attempt lane deadline retry)

/-- What scheduling a continuation makes; a deadline that is there is kept. -/
lemma withContinuation_cases {attempt attempt' : RotationAttempt} {lane : RecoveryLane}
    {deadline : String} {now : Datetime}
    (h : withContinuation attempt lane deadline now = .ok attempt') :
    ∃ text, (attempt.recoveryDeadline.getD "" ≠ "" → some text = attempt.recoveryDeadline) ∧
      (attempt.recoveryDeadline.getD "" = "" → text = deadline) ∧
      Continued attempt lane text now attempt' := by
  obtain ⟨text, htext⟩ : ∃ text, text = (match attempt.recoveryDeadline with
      | some own => if own = "" then deadline else own
      | none => deadline) := ⟨_, rfl⟩
  refine ⟨text, ?_, ?_, ?_⟩
  · intro hne
    rcases hown : attempt.recoveryDeadline with _ | own
    · simp [hown] at hne
    · rw [hown] at hne
      simp only [htext, hown]
      rw [if_neg (by simpa using hne)]
  · intro hempty
    rcases hown : attempt.recoveryDeadline with _ | own
    · simp only [htext, hown]
    · rw [hown] at hempty
      simp only [htext, hown]
      rw [if_pos (by simpa using hempty)]
  · simp only [withContinuation, ← htext] at h
    split_ifs at h with havailable
    · cases h
      exact .stopped _ (by simp)
    · rcases hadd : now.add? lane.delay with _ | retry <;> rw [hadd] at h
      · cases h
      · rcases hparse : parseDeadline (some text) with e | ⟨_ | absolute⟩ <;> rw [hparse] at h
        · cases h
        · cases h
          exact .stopped _ (by simp)
        · simp only [Except.map, Except.ok.injEq] at h
          by_cases hlate : absolute ≤ now ∨ absolute < retry
          · rw [if_pos hlate] at h
            subst h
            exact .stopped _ (by simp)
          · rw [if_neg hlate] at h
            subst h
            rw [not_or, Datetime.not_le, Datetime.not_lt] at hlate
            exact .scheduled (by simpa using havailable) hadd hparse hlate.1 hlate.2

/-- Scheduling a continuation keeps the budget and its deadline, and drops the owner. -/
lemma withContinuation_spec {attempt attempt' : RotationAttempt} {lane : RecoveryLane}
    {deadline : String} {now : Datetime}
    (h : withContinuation attempt lane deadline now = .ok attempt') :
    attempt.SameBudget attempt' ∧ attemptOwner attempt' = none ∧
      (attempt.recoveryDeadline.getD "" ≠ "" →
        attempt'.recoveryDeadline = attempt.recoveryDeadline) ∧
      attempt'.responseClass = attempt.responseClass := by
  obtain ⟨text, hkeep, -, hcontinued⟩ := withContinuation_cases h
  cases hcontinued with
  | stopped => exact ⟨⟨rfl, rfl, rfl, rfl, rfl, rfl, rfl⟩, rfl, hkeep, rfl⟩
  | scheduled => exact ⟨⟨rfl, rfl, rfl, rfl, rfl, rfl, rfl⟩, rfl, hkeep, rfl⟩

/-! ### Valid budgets -/

/-- A budget that keeps to the policy. -/
structure RotationAttempt.InBudget (attempt : RotationAttempt) : Prop where
  named : attempt.rotationId ≠ ""
  cap : attempt.totalDispatchCap = AuthSession.totalDispatchCap
  dispatches : 0 ≤ attempt.dispatchCount ∧ attempt.dispatchCount ≤ AuthSession.totalDispatchCap
  lanes : ∀ lane, 0 ≤ attempt.laneCount lane ∧ attempt.laneCount lane ≤ lane.limit
  sum : attempt.dispatchCount = attempt.safeRetryCount + attempt.validationRetryCount +
      attempt.ambiguityReplayCount ∨
    attempt.dispatchCount = 1 + (attempt.safeRetryCount + attempt.validationRetryCount +
      attempt.ambiguityReplayCount)

/-- The owner fields of an attempt are empty. -/
def RotationAttempt.Ownerless (attempt : RotationAttempt) : Prop :=
  attempt.ownerBootId = none ∧ attempt.ownerPid = none ∧ attempt.ownerStartTicks = none

/-- A process that can tell who it is. -/
def RefreshOwner.Identified (owner : RefreshOwner) : Prop :=
  owner.bootId ≠ "" ∧ 0 < owner.pid ∧ owner.startTicks ≠ ""

variable {attempt attempt' next : RotationAttempt}

/-- An attempt is valid when it is in budget and names its owner fully or not at all. -/
lemma rotationAttemptIsValid_iff :
    rotationAttemptIsValid attempt = true ↔ attempt.InBudget ∧
      (attempt.Ownerless ∨ attempt.ownerBootId.getD "" ≠ "" ∧ 0 < attempt.ownerPid.getD 0 ∧
        attempt.ownerStartTicks.getD "" ≠ "") := by
  rw [rotationAttemptIsValid, decide_eq_true_iff]
  constructor
  · intro ⟨hnamed, hzero, hsafe, hvalidation, hambiguity, hcap, hle, hsum, howner⟩
    refine ⟨⟨hnamed, hcap, ⟨hzero, hcap ▸ hle⟩, ?_, hsum⟩, howner⟩
    intro lane
    cases lane
    · exact hsafe
    · exact hvalidation
    · exact hambiguity
  · intro ⟨h, howner⟩
    exact ⟨h.named, h.dispatches.1, h.lanes .safeRetry, h.lanes .validationRecovery,
      h.lanes .ambiguityReplay, h.cap, h.cap ▸ h.dispatches.2, h.sum, howner⟩

lemma RotationAttempt.InBudget.congr (h : attempt.InBudget) (hsame : attempt.SameBudget attempt') :
    attempt'.InBudget := by
  obtain ⟨hid, -, hcount, hsafe, hvalidation, hambiguity, hcap⟩ := hsame
  constructor
  case named => exact hid ▸ h.named
  case cap => exact hcap.trans h.cap
  case dispatches => exact hcount ▸ h.dispatches
  case lanes =>
    intro lane
    have hlane : attempt'.laneCount lane = attempt.laneCount lane := by
      cases lane <;> simpa [RotationAttempt.laneCount]
    exact hlane ▸ h.lanes lane
  case sum =>
    rw [hcount, hsafe, hvalidation, hambiguity]
    exact h.sum

/-- An attempt without an owner is valid when it is in budget. -/
lemma valid_of_ownerless (h : attempt.InBudget) (howner : attempt.Ownerless) :
    rotationAttemptIsValid attempt = true := rotationAttemptIsValid_iff.2 ⟨h, .inl howner⟩

/-- The budget of a dispatch is valid under the name of its process. -/
lemma valid_ownedAttempt {owner : RefreshOwner} (h : attempt.InBudget)
    (howner : owner.Identified) : rotationAttemptIsValid (ownedAttempt attempt owner) = true :=
  rotationAttemptIsValid_iff.2 ⟨h.congr ⟨rfl, rfl, rfl, rfl, rfl, rfl, rfl⟩, .inr howner⟩

/-- A lane that dispatches once more stays in budget when its new count does. -/
lemma RotationAttempt.InBudget.advance {lane : RecoveryLane} (h : attempt.InBudget)
    (hcount : attempt.dispatchCount + 1 ≤ AuthSession.totalDispatchCap)
    (hlimit : attempt.laneCount lane + 1 ≤ lane.limit) : (attempt.advance lane).InBudget := by
  have hlanes := h.lanes
  obtain ⟨hzero, -⟩ := h.dispatches
  constructor
  case named => exact h.named
  case cap => exact h.cap
  case dispatches =>
    simp only [RotationAttempt.advance]
    omega
  case lanes =>
    intro other
    obtain ⟨hother, hother'⟩ := hlanes other
    cases lane <;> cases other <;> simp [RotationAttempt.advance, RotationAttempt.laneCount] at *
    all_goals omega
  case sum =>
    have := h.sum
    cases lane <;> simp [RotationAttempt.advance] <;> omega

/-! ### The next dispatch -/

/-- A scheduled attempt with room in its budget goes on until its deadline. -/
lemma nextRecoveryAttemptAt_of_available {lane : RecoveryLane} {now : Datetime}
    (hlane : attempt.continuation = some (.lane lane))
    (havailable : continuationAvailable attempt lane = true) :
    nextRecoveryAttemptAt attempt now = (deadlinePassed attempt.recoveryDeadline now).map
      fun passed => if passed then none else some (attempt.advance lane) := by
  unfold continuationAvailable at havailable
  split_ifs at havailable with hcap
  simp [nextRecoveryAttemptAt, RotationAttempt.resumable, hlane, hcap,
    of_decide_eq_true havailable]

/-- An attempt that goes on is scheduled, has room and lies before its deadline. -/
lemma nextRecoveryAttemptAt_eq_some {now : Datetime}
    (h : nextRecoveryAttemptAt attempt now = .ok (some next)) :
    ∃ lane, attempt.continuation = some (.lane lane) ∧
      continuationAvailable attempt lane = true ∧
      deadlinePassed attempt.recoveryDeadline now = .ok false ∧ next = attempt.advance lane := by
  rcases hcontinuation : attempt.continuation with _ | lane | _
  · simp [nextRecoveryAttemptAt, RotationAttempt.resumable, hcontinuation] at h
  · by_cases hcap : attempt.totalDispatchCap ≤ attempt.dispatchCount
    · simp [nextRecoveryAttemptAt, RotationAttempt.resumable, hcontinuation, hcap] at h
    · rcases hpassed : deadlinePassed attempt.recoveryDeadline now with e | _ | _
      · simp [nextRecoveryAttemptAt, RotationAttempt.resumable, hcontinuation, hcap, hpassed,
          Except.map] at h
      · simp only [nextRecoveryAttemptAt, RotationAttempt.resumable, hcontinuation, hcap, hpassed,
          Except.map, if_false, Except.ok.injEq, Bool.false_eq_true] at h
        by_cases hlimit : attempt.laneCount lane < lane.limit
        · rw [if_pos hlimit, Option.some.injEq] at h
          exact ⟨lane, rfl, by simp [continuationAvailable, hcap, hlimit], rfl, h.symm⟩
        · simp [hlimit] at h
      · simp [nextRecoveryAttemptAt, RotationAttempt.resumable, hcontinuation, hcap, hpassed,
          Except.map] at h
  · simp [nextRecoveryAttemptAt, RotationAttempt.resumable, hcontinuation] at h

/-- The next dispatch stays in budget. -/
lemma RotationAttempt.InBudget.of_next {now : Datetime} (h : attempt.InBudget)
    (hnext : nextRecoveryAttemptAt attempt now = .ok (some next)) : next.InBudget := by
  obtain ⟨lane, -, havailable, -, rfl⟩ := nextRecoveryAttemptAt_eq_some hnext
  have hcap := h.cap
  unfold continuationAvailable at havailable
  split_ifs at havailable with hcount
  have hlimit := of_decide_eq_true havailable
  exact h.advance (by omega) (by omega)

/-! ### Scheduling -/

lemma isoformatAfter_eq_ok {now t : Datetime} {span : Timedelta} (h : now.add? span = some t) :
    isoformatAfter now span = .ok (isoformat t) := by
  simp only [isoformatAfter, h]

lemma isoformatAfter_eq_error {now : Datetime} {span : Timedelta} (h : now.add? span = none) :
    isoformatAfter now span = .error .overflowError := by
  simp only [isoformatAfter, h]

/-- The deadline that counts: the one of the attempt, or a fresh one. -/
def RotationAttempt.deadlineOr (attempt : RotationAttempt) (fresh : String) : String :=
  match attempt.recoveryDeadline with
  | some own => if own = "" then fresh else own
  | none => fresh

/-- The lane, the cap or the deadline leaves no room for another dispatch. -/
def Exhausted (attempt : RotationAttempt) (lane : RecoveryLane) (deadline : String)
    (now : Datetime) : Prop :=
  continuationAvailable attempt lane = false ∨
    ∀ absolute retry, parseDeadline (some deadline) = .ok (some absolute) →
      now.add? lane.delay = some retry → absolute ≤ now ∨ absolute < retry

/-- The times a schedule needs are representable. -/
def Reckonable (attempt : RotationAttempt) (lane : RecoveryLane) (deadline : String)
    (now : Datetime) : Prop :=
  continuationAvailable attempt lane = true → (∃ retry, now.add? lane.delay = some retry) ∧
    ∃ parsed, parseDeadline (some deadline) = .ok parsed

section

variable {attempt attempt' : RotationAttempt} {lane : RecoveryLane} {fresh : String}
  {now : Datetime}

lemma withContinuation_of_unavailable (h : continuationAvailable attempt lane = false) :
    withContinuation attempt lane fresh now =
      .ok (stoppedAttempt attempt (attempt.deadlineOr fresh) "recovery-budget-exhausted") := by
  simp only [withContinuation, h, Bool.not_false, if_true]
  rfl

lemma withContinuation_of_available (h : continuationAvailable attempt lane = true) :
    withContinuation attempt lane fresh now =
      match now.add? lane.delay with
      | none => .error .overflowError
      | some retry => (parseDeadline (some (attempt.deadlineOr fresh))).map fun absolute =>
        match absolute with
        | none => stoppedAttempt attempt (attempt.deadlineOr fresh) "recovery-deadline-exhausted"
        | some absolute =>
          if absolute ≤ now ∨ absolute < retry then
            stoppedAttempt attempt (attempt.deadlineOr fresh) "recovery-deadline-exhausted"
          else scheduledAttempt attempt lane (attempt.deadlineOr fresh) retry := by
  simp only [withContinuation, h, Bool.not_true, Bool.false_eq_true, if_false]
  rfl

/-- Scheduling fails exactly when a time it needs is not representable. -/
lemma withContinuation_ok_iff :
    (∃ attempt', withContinuation attempt lane fresh now = .ok attempt') ↔
      Reckonable attempt lane (attempt.deadlineOr fresh) now := by
  cases havailable : continuationAvailable attempt lane with
  | false =>
    rw [withContinuation_of_unavailable havailable]
    simp [Reckonable, havailable]
  | true =>
    rw [withContinuation_of_available havailable]
    rcases hretry : now.add? lane.delay with _ | retry
    · simp [Reckonable, havailable, hretry]
    · rcases hparsed : parseDeadline (some (attempt.deadlineOr fresh)) with e | absolute
      · simp [Reckonable, hparsed, havailable, Except.map]
      · simp [Reckonable, hparsed, hretry, Except.map]

/-- A schedule stops when the budget or the deadline is exhausted, and only then. -/
lemma continuation_of_withContinuation
    (h : withContinuation attempt lane fresh now = .ok attempt') :
    (Exhausted attempt lane (attempt.deadlineOr fresh) now → attempt'.continuation = some .stop) ∧
      (¬ Exhausted attempt lane (attempt.deadlineOr fresh) now →
        attempt'.continuation = some (.lane lane)) := by
  cases havailable : continuationAvailable attempt lane with
  | false =>
    rw [withContinuation_of_unavailable havailable] at h
    cases h
    exact ⟨fun _ => rfl, fun hroom => absurd (.inl havailable) hroom⟩
  | true =>
    rw [withContinuation_of_available havailable] at h
    unfold Exhausted
    rw [havailable]
    rcases hretry : now.add? lane.delay with _ | retry <;> rw [hretry] at h
    · cases h
    · rcases hparsed : parseDeadline (some (attempt.deadlineOr fresh)) with e | _ | absolute <;>
        rw [hparsed] at h
      · cases h
      · cases h
        exact ⟨fun _ => rfl, fun hroom => absurd (.inr (by simp)) hroom⟩
      · simp only [Except.map, Except.ok.injEq] at h
        by_cases hlate : absolute ≤ now ∨ absolute < retry
        · rw [if_pos hlate] at h
          subst h
          refine ⟨fun _ => rfl, fun hroom => absurd (.inr ?_) hroom⟩
          rintro _ _ ⟨⟩ ⟨⟩
          exact hlate
        · rw [if_neg hlate] at h
          subst h
          refine ⟨fun hexhausted => ?_, fun _ => rfl⟩
          rcases hexhausted with hfalse | hall
          · cases hfalse
          · exact absurd (hall _ _ rfl rfl) hlate

/-- Scheduling raises overflow errors only. -/
lemma overflow_of_withContinuation {e : PyError}
    (h : withContinuation attempt lane fresh now = .error e) : e = .overflowError := by
  have hparse : ∀ {text}, parseDeadline (some text) = .error e → e = .overflowError := by
    intro text hraised
    change parseAware text = .error e at hraised
    unfold parseAware at hraised
    split at hraised
    · split at hraised <;> cases hraised
      rfl
    · cases hraised
  cases havailable : continuationAvailable attempt lane with
  | false =>
    rw [withContinuation_of_unavailable havailable] at h
    cases h
  | true =>
    rw [withContinuation_of_available havailable] at h
    rcases hretry : now.add? lane.delay with _ | retry <;> rw [hretry] at h
    · cases h
      rfl
    · rcases hparsed : parseDeadline (some (attempt.deadlineOr fresh)) with e' | absolute <;>
        rw [hparsed] at h
      · cases h
        exact hparse hparsed
      · cases h

/-- The times an unknown outcome of an exchange needs are representable. -/
def Schedulable (env : Env) (k : Nat) (found : RotationAttempt) (lane : RecoveryLane) : Prop :=
  ∃ deadline, (env.now k).add? recoveryWindow = some deadline ∧
    Reckonable found lane (found.deadlineOr (isoformat deadline)) (env.now (k + 1))

end

end EnjiGuard.AuthSession
