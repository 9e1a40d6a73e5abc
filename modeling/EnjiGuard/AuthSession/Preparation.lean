import EnjiGuard.AuthSession.Coordinator.Conclusions
import EnjiGuard.AuthSession.Store.Acceptance
import EnjiGuard.AuthSession.Classification

/-!
# Preparing from an accepted journal

A preparation that starts from a journal the reader accepts ends with a typed error at worst, under
one condition: the outbox can be looked at, the times it computes are representable, and a recovery
dispatch that is due counts its first dispatch and does not reach its deadline between two readings
of the clock. Where the condition does not hold, the preparation raises an error that no caller
expects.
-/

namespace EnjiGuard.AuthSession

open Foundation Action Relation

/-! ### Verdicts -/

/-- Apart from failures of the storage, a computation ends as callers expect exactly under a
condition: it returns under it, and it raises a typed error exactly under it. -/
def Judged {α : Type} (env : Env) (K : Prop) (p : Auth α) (r : Run) : Prop :=
  Concludes env.faults p r (fun _ _ => env.Healthy → K) fun e _ => e.isTyped = true ↔ K

namespace Judged

variable {α β : Type} {env : Env} {K K' : Prop} {p : Auth α} {f : α → Auth β} {r : Run}

lemma congr (h : Judged env K p r) (hK : K ↔ K') : Judged env K' p r :=
  h.weaken (fun _ _ hk hhealthy => hK.1 (hk hhealthy)) fun _ _ he => he.trans hK

lemma pure {a : α} (h : env.Healthy → K) : Judged env K (Pure.pure a : Auth α) r :=
  Concludes.pure h

lemma raise {e : PyError} (h : e.isTyped = true ↔ K) : Judged env K (raise e : Auth α) r :=
  Concludes.raise h

/-- Whatever comes before and raises nothing of its own does not count. -/
lemma after {Q : α → Run → Prop} (hp : Concludes env.faults p r Q fun _ _ => False)
    (hf : ∀ a r', Q a r' → Judged env K (f a) r') : Judged env K (p >>= f) r :=
  Concludes.bind (hp.weaken (fun _ _ h => h) fun _ _ h => h.elim) hf

end Judged

/-- The reader of the outbox raises no typed error. -/
lemma untyped_of_outboxOf {file : Option FileText} {e : PyError} (h : outboxOf file = .error e) :
    e.isTyped = false := by
  have hmember : ∀ {raw texts}, rawMemberOf raw texts = .error e → e.isTyped = false := by
    intro raw texts hraw
    unfold rawMemberOf at hraw
    split at hraw <;> cases hraw
    rfl
  have hrecord : ∀ {raw}, parseOutboxRecord raw = .error e → e.isTyped = false := by
    intro raw hraw
    unfold parseOutboxRecord at hraw
    split at hraw
    · split at hraw
      · cases hraw
      · split_ifs at hraw
        rename_i payload _ key _ _
        rcases hknown : rawMemberOf (Json.lookup "outcome" payload)
          ["rotated", "rejected", "outcome_unknown"] with e' | known
        · simp only [hknown, bind, Except.bind, Except.error.injEq] at hraw
          subst hraw
          exact hmember hknown
        · simp only [hknown, bind, Except.bind, pure, Except.pure] at hraw
          split at hraw
          · split_ifs at hraw
          · cases hraw
    · cases hraw
  have hrecords : ∀ (raw : List Json) (done : List OutcomeOutboxRecord),
      parseOutboxRecords done raw = .error e → e.isTyped = false := by
    intro raw
    induction raw with
    | nil => rintro done ⟨⟩
    | cons value raw ih =>
      intro done hraw
      rcases hvalue : parseOutboxRecord value with e' | _ | record
      · simp only [parseOutboxRecords, hvalue, bind, Except.bind, Except.error.injEq] at hraw
        subst hraw
        exact hrecord hvalue
      · simp [parseOutboxRecords, hvalue, bind, Except.bind, pure, Except.pure] at hraw
      · simp only [parseOutboxRecords, hvalue, bind, Except.bind] at hraw
        split_ifs at hraw
        · cases hraw
        · exact ih _ hraw
  rcases file with _ | _ | detail | typeName | payload
  · cases h
  · cases h
  · cases h
  · cases h
    simp
  · change parseOutbox payload = .error e at h
    unfold parseOutbox at h
    split at h
    · split_ifs at h
      split at h
      · exact hrecords _ _ h
      · cases h
    · cases h

/-- What an outbox that is not ready raises is typed when it could be read at all. -/
lemma World.OutboxRefuses.isTyped_iff {w : World} {e : PyError} (h : w.OutboxRefuses e)
    (K : Prop) : e.isTyped = true ↔ w.OutboxParses ∧ (w.OutboxReady → K) := by
  rcases h with herror | ⟨hparses, hnot, htyped⟩
  · refine ⟨fun htyped => ?_, fun h => ?_⟩
    · rw [untyped_of_outboxOf herror] at htyped
      cases htyped
    obtain ⟨⟨loaded, hload⟩, -⟩ := h
    rw [hload] at herror
    cases herror
  · exact ⟨fun _ => ⟨hparses, fun hready => absurd hready hnot⟩, fun _ => htyped⟩

lemma World.OutboxRefuses.isTyped_iff_parses {w : World} {e : PyError} (h : w.OutboxRefuses e) :
    e.isTyped = true ↔ w.OutboxParses :=
  (h.isTyped_iff True).trans ⟨fun hk => hk.1, fun hk => ⟨hk, fun _ => trivial⟩⟩

/-- A computation that looks at the outbox first. -/
lemma Judged.after_outbox {α β : Type} {env : Env} {K : Prop} {p : Auth α} {f : α → Auth β}
    {r : Run} {Q : α → Run → Prop}
    (hp : Concludes env.faults p r Q fun e _ => r.world.OutboxRefuses e)
    (hready : ∀ a r', Q a r' → r.world.OutboxReady)
    (hf : ∀ a r', Q a r' → Judged env K (f a) r') :
    Judged env (r.world.OutboxParses ∧ (r.world.OutboxReady → K)) (p >>= f) r := by
  refine Concludes.bind (hp.weaken (fun _ _ h => h) fun e _ h => h.isTyped_iff K) fun a r' h => ?_
  have hr := hready a r' h
  exact (hf a r' h).congr ⟨fun hK => ⟨hr.parses, fun _ => hK⟩, fun hK => hK.2 hr⟩

/-! ### Dispatching -/

section Dispatch

variable {env : Env} {current : StoredAuth} {attempt held next : RotationAttempt} {r : Run}
  {source reason : String} {lane : RecoveryLane}

lemma concludes_persistDispatch (owned : RotationAttempt) {E : PyError → Run → Prop} :
    Concludes env.faults
      (do
        writeJournal env (.reserved source) false owned
        match ← transitionOrRaise (.journaled (.reserved source)) .dispatchBegun with
        | .journaled (.requested source) => do
          writeJournal env (.requested source) false owned
          return Preparation.dispatch current
        | _ => raise .assertion) r (fun preparation _ => preparation = .dispatch current) E := by
  refine concludes_writeJournal.bind fun _ r₁ _ => ?_
  refine Concludes.bind (Q := fun state _ => state = .journaled (.requested source))
    (Concludes.of_run rfl rfl) fun state r₂ h₂ => ?_
  subst h₂
  exact concludes_writeJournal.bind fun _ r₃ _ => Concludes.pure rfl

lemma concludes_ownerFn :
    Concludes env.faults (ownerFn env) r (fun _ r' => env.ownerFault = none ∧ r' = r)
      (fun e _ => env.ownerFault ≠ none ∧ e.isTyped = true) := by
  rcases howner : env.ownerFault with _ | detail <;> simp only [ownerFn, howner]
  · exact Concludes.pure ⟨trivial, rfl⟩
  · exact Concludes.raise ⟨by simp, rfl⟩

/-- The first dispatch of a revision only needs the process to be named. -/
lemma concludes_prepareDispatch_normal :
    Concludes env.faults (prepareDispatch env current attempt none) r
      (fun preparation _ => env.ownerFault = none ∧ preparation = .dispatch current)
      (fun e _ => env.ownerFault ≠ none ∧ e.isTyped = true) := by
  refine concludes_ownerFn.bind fun owner r₁ h₁ => ?_
  refine Concludes.bind (Q := fun state _ => state = .journaled (.reserved current.revision))
    (Concludes.of_run rfl rfl) fun state r₂ h₂ => ?_
  subst h₂
  exact (concludes_persistDispatch _).weaken (fun _ _ h => ⟨h₁.1, h⟩) fun _ _ h => h

/-- The first dispatch of a revision goes well. -/
lemma judged_prepareDispatch_normal :
    Judged env True (prepareDispatch env current attempt none) r :=
  concludes_prepareDispatch_normal.weaken (fun _ _ _ _ => trivial)
    fun _ _ h => ⟨fun _ => trivial, fun _ => h.2⟩

/-- The times of a scheduled attempt can be read. -/
structure RotationAttempt.Timed (attempt : RotationAttempt) (absolute retry : Datetime) : Prop where
  deadline : parseDeadline attempt.recoveryDeadline = .ok (some absolute)
  nextAttempt : parseDeadline attempt.nextAttemptAt = .ok (some retry)

lemma RotationAttempt.Timed.deadlinePassed {absolute retry now : Datetime}
    (h : attempt.Timed absolute retry) :
    deadlinePassed attempt.recoveryDeadline now = .ok (decide (absolute ≤ now)) := by
  simp [AuthSession.deadlinePassed, h.deadline, Except.map]

lemma RotationAttempt.Timed.secondsUntil {absolute retry now : Datetime}
    (h : attempt.Timed absolute retry) :
    secondsUntil attempt.nextAttemptAt now = .ok (max 0 (retry.sub now)) := by
  simp [AuthSession.secondsUntil, h.nextAttempt, Except.map]

lemma Datetime.sub_le_zero {retry now : Datetime} : max 0 (retry.sub now) ≤ 0 ↔ retry ≤ now := by
  change max (0 : Int) ((retry.micros : Int) - now.micros) ≤ 0 ↔ retry.micros ≤ now.micros
  omega

lemma Datetime.sub_eq_zero {retry now : Datetime} : max 0 (retry.sub now) = 0 ↔ retry ≤ now := by
  change max (0 : Int) ((retry.micros : Int) - now.micros) = 0 ↔ retry.micros ≤ now.micros
  omega

lemma Datetime.sub_pos {retry now : Datetime} : 0 < max 0 (retry.sub now) ↔ now < retry := by
  change (0 : Int) < max (0 : Int) ((retry.micros : Int) - now.micros) ↔ now.micros < retry.micros
  omega

/-- A recovery dispatch goes well when its process can be named and it is authorized. -/
lemma judged_prepareDispatch_recovery {absolute retry : Datetime}
    (hkind : next.attemptKind = .recovery lane) (htimed : next.Timed absolute retry) :
    Judged env (env.ownerFault = none → recoveryDispatchIsAuthorized (authorization lane next
        (!decide (absolute ≤ env.now r.cursor.now))
        (decide (retry ≤ env.now (r.cursor.now + 1)))) = true)
      (prepareDispatch env current next (some (.outcomeUnknown source reason))) r := by
  refine Concludes.bind (concludes_ownerFn.weaken (fun _ _ h => h) fun e _ h => ?_)
    fun owner r₁ h₁ => ?_
  · exact ⟨fun _ hnone => absurd hnone h.1, fun _ => h.2⟩
  obtain ⟨hnone, rfl⟩ := h₁
  simp only [hnone, forall_const]
  refine Concludes.bind (Q := fun state _ => recoveryDispatchIsAuthorized (authorization lane next
      (!decide (absolute ≤ env.now r₁.cursor.now))
      (decide (retry ≤ env.now (r₁.cursor.now + 1)))) = true ∧
    state = .journaled (.reserved source)) ?_ fun state r₂ h₂ => ?_
  · simp only [authorizeDispatch, hkind]
    refine (concludes_nowFn env).bind fun now r₂ h₂ => ?_
    obtain ⟨rfl, -, hnow₂⟩ := h₂
    refine Concludes.of_ok htimed.deadlinePassed ((concludes_nowFn env).bind fun now r₃ h₃ => ?_)
    obtain ⟨rfl, -, -⟩ := h₃
    refine Concludes.of_ok htimed.secondsUntil ?_
    rw [hnow₂]
    simp only [Datetime.sub_le_zero]
    cases hauthorized : recoveryDispatchIsAuthorized (authorization lane next
        (!decide (absolute ≤ env.now r₁.cursor.now))
        (decide (retry ≤ env.now (r₁.cursor.now + 1)))) with
    | true =>
      simp only [transitionOrRaise, transition, terminalTransition, hauthorized, if_true]
      exact Concludes.pure ⟨trivial, rfl⟩
    | false =>
      simp only [transitionOrRaise, transition, terminalTransition, hauthorized,
        Bool.false_eq_true, if_false]
      exact Concludes.raise ⟨by rintro ⟨⟩, by rintro ⟨⟩⟩
  · obtain ⟨hauthorized, rfl⟩ := h₂
    exact (concludes_persistDispatch _).weaken (fun _ _ _ _ => hauthorized) fun _ _ h => h

/-- A recovery dispatch that is due, from a clock reading on, counts its first dispatch and does
not reach its deadline before it is authorized. -/
def Resumes (env : Env) (held : RotationAttempt) (n : Nat) : Prop :=
  env.ownerFault = none → ∀ lane, held.continuation = some (.lane lane) →
    continuationAvailable held lane = true →
    deadlinePassed held.recoveryDeadline (env.now n) = .ok false →
    secondsUntil held.nextAttemptAt (env.now (n + 1)) = .ok 0 →
    held.dispatchCount =
        1 + held.safeRetryCount + held.validationRetryCount + held.ambiguityReplayCount ∧
      deadlinePassed held.recoveryDeadline (env.now (n + 2)) = .ok false

/-- A scheduled attempt is in budget and its times can be read. -/
def RotationAttempt.Timely (attempt : RotationAttempt) : Prop :=
  ∀ lane, attempt.continuation = some (.lane lane) →
    attempt.InBudget ∧ ∃ absolute retry, attempt.Timed absolute retry

/-- Within a budget the next dispatch of a lane is authorized when the first one is counted. -/
lemma recoveryDispatchIsAuthorized_advance {isOpen isCool : Bool} (hbudget : held.InBudget)
    (havailable : continuationAvailable held lane = true) :
    recoveryDispatchIsAuthorized (authorization lane (held.advance lane) isOpen isCool) = true ↔
      isOpen = true ∧ isCool = true ∧ held.dispatchCount =
        1 + held.safeRetryCount + held.validationRetryCount + held.ambiguityReplayCount := by
  have hcap := hbudget.cap
  have hlane := (hbudget.lanes lane).1
  unfold continuationAvailable at havailable
  split_ifs at havailable with hcount
  have hlimit := of_decide_eq_true havailable
  rw [hcap] at hcount
  cases lane
  all_goals
    simp [recoveryDispatchIsAuthorized, authorization, RotationAttempt.advance,
      AuthorizeRecoveryDispatch.laneCount, RotationAttempt.laneCount, RecoveryLane.limit, hcap]
      at hlane hlimit ⊢
    constructor
    · rintro ⟨⟨⟨⟨⟨hopen, hcool⟩, -⟩, hsum⟩, -⟩, -⟩
      exact ⟨hopen, hcool, by omega⟩
    · rintro ⟨hopen, hcool, hsum⟩
      exact ⟨⟨⟨⟨⟨hopen, hcool⟩, by omega⟩, by omega⟩, by omega⟩, by omega⟩

/-- Continuing an unknown outcome goes well exactly when the due dispatch does. -/
lemma judged_recoverUnknown (hmono : ∀ m n, m ≤ n → env.now m ≤ env.now n)
    (htimely : held.Timely) :
    Judged env (Resumes env held r.cursor.now)
      (recoverUnknown env current (.outcomeUnknown source reason) held) r := by
  have hstop : ∀ {K : Prop} (attempt : RotationAttempt) (r' : Run), K →
      Judged env K (do
        writeJournal env (.terminal (.outcomeUnknown source reason)) false attempt
        return Preparation.waitForRevision source) r' := by
    intro K attempt r' hK
    exact Judged.after concludes_writeJournal fun _ _ _ => Judged.pure fun _ => hK
  rcases hresumable : held.resumable with _ | lane
  · -- nothing can be resumed: the outcome is journaled once more and waited for
    unfold recoverUnknown nextRecoveryAttempt
    simp only [hresumable]
    refine hstop _ _ fun _ lane hlane havailable => ?_
    simp only [RotationAttempt.resumable, hlane] at hresumable
    split_ifs at hresumable with hcap
    simp [continuationAvailable, hcap] at havailable
  · obtain ⟨hcontinuation, hcap⟩ : held.continuation = some (.lane lane) ∧
        ¬ held.totalDispatchCap ≤ held.dispatchCount := by
      unfold RotationAttempt.resumable at hresumable
      split at hresumable
      · split_ifs at hresumable with hcap
        cases hresumable
        exact ⟨‹_›, hcap⟩
      · cases hresumable
    obtain ⟨hbudget, absolute, retry, htimed⟩ := htimely lane hcontinuation
    unfold recoverUnknown nextRecoveryAttempt
    simp only [hresumable]
    refine Judged.after (Q := fun next r' => r'.cursor.now = r.cursor.now + 1 ∧
      next = if absolute ≤ env.now r.cursor.now then none
        else if held.laneCount lane < lane.limit then some (held.advance lane) else none) ?_
      fun next r₁ h₁ => ?_
    · refine (concludes_nowFn env).bind fun now r₁ h₁ => ?_
      obtain ⟨rfl, -, hnow⟩ := h₁
      refine Concludes.ofExcept (fun next hnext => ⟨hnow, ?_⟩) fun e herror => ?_
      · simpa [nextRecoveryAttemptAt, hresumable, htimed.deadlinePassed, Except.map]
          using hnext.symm
      · simp [nextRecoveryAttemptAt, hresumable, htimed.deadlinePassed, Except.map] at herror
    obtain ⟨hnow₁, rfl⟩ := h₁
    have hlanes : ∀ {other}, held.continuation = some (.lane other) → other = lane := by
      intro other hother
      rw [hcontinuation] at hother
      cases hother
      rfl
    by_cases hpassed : absolute ≤ env.now r.cursor.now
    · -- no dispatch is left after the deadline
      rw [if_pos hpassed]
      refine hstop _ _ fun _ other hother _ hopen => ?_
      rw [htimed.deadlinePassed] at hopen
      simp [hpassed] at hopen
    rw [if_neg hpassed]
    by_cases hlimit : held.laneCount lane < lane.limit
    · have havailable : continuationAvailable held lane = true := by
        simp [continuationAvailable, hcap, hlimit]
      have hnext : (held.advance lane).Timed absolute retry := ⟨htimed.deadline, htimed.nextAttempt⟩
      rw [if_pos hlimit]
      dsimp only
      refine Judged.after (concludes_nowFn env) fun now r₂ h₂ => ?_
      obtain ⟨rfl, -, hnow₂⟩ := h₂
      rw [hnow₁] at hnow₂ ⊢
      refine Concludes.of_ok hnext.secondsUntil ?_
      by_cases hwait : env.now (r.cursor.now + 1) < retry
      · -- the cooldown is not over, which callers expect
        rw [if_pos (Datetime.sub_pos.2 hwait)]
        refine Judged.raise ⟨fun _ _ other hother _ _ hdue => ?_, fun _ => rfl⟩
        rw [htimed.secondsUntil, Except.ok.injEq, Datetime.sub_eq_zero] at hdue
        exact absurd hwait (Datetime.not_lt.2 hdue)
      · rw [if_neg (mt Datetime.sub_pos.1 hwait)]
        have hcool : retry ≤ env.now (r.cursor.now + 1) := Datetime.not_lt.1 hwait
        have hcool' : retry ≤ env.now (r₂.cursor.now + 1) := by
          rw [hnow₂]
          exact hcool.trans (hmono _ _ (by omega))
        have hdue : secondsUntil held.nextAttemptAt (env.now (r.cursor.now + 1)) = .ok 0 := by
          rw [htimed.secondsUntil, Datetime.sub_eq_zero.2 hcool]
        have hkind : (held.advance lane).attemptKind = .recovery lane := rfl
        have hdispatch : Judged env _ (prepareDispatch env current (held.advance lane)
            (some (.outcomeUnknown source reason))) r₂ :=
          judged_prepareDispatch_recovery hkind hnext
        refine hdispatch.congr ?_
        rw [recoveryDispatchIsAuthorized_advance hbudget havailable, hnow₂]
        constructor
        · intro hauthorized howner other hother _ _ _
          obtain ⟨hopen, -, hcount⟩ := hauthorized howner
          refine ⟨hcount, ?_⟩
          rw [htimed.deadlinePassed]
          simpa using hopen
        · intro hresumes howner
          obtain ⟨hcount, hopen⟩ := hresumes howner lane hcontinuation havailable
            (by rw [htimed.deadlinePassed]; simpa using hpassed) hdue
          rw [htimed.deadlinePassed] at hopen
          refine ⟨by simpa using hopen, ?_, hcount⟩
          rw [hnow₂] at hcool'
          simpa using hcool'
    · -- the lane has used up its dispatches
      rw [if_neg hlimit]
      refine hstop _ _ fun _ other hother havailable => ?_
      rw [hlanes hother] at havailable
      simp [continuationAvailable, hcap, hlimit] at havailable

end Dispatch

/-! ### Taking over an exchange -/

section Takeover

variable {env : Env} {current : StoredAuth} {attempt held : RotationAttempt} {r : Run}
  {source reason : String}

/-- A pure computation on a reading of the clock. -/
lemma concludes_ofReading {α : Type} (f : Datetime → Except PyError α) :
    Concludes env.faults (do let now ← nowFn env; ofExcept (f now)) r
      (fun a r' => r'.world = r.world ∧ r'.cursor.now = r.cursor.now + 1 ∧
        f (env.now r.cursor.now) = .ok a)
      (fun e _ => f (env.now r.cursor.now) = .error e) := by
  refine (concludes_nowFn env).bind fun now r₁ h₁ => ?_
  obtain ⟨rfl, hworld, hnow⟩ := h₁
  exact Concludes.ofExcept (fun _ hok => ⟨hworld, hnow, hok⟩) fun _ herror => herror

lemma concludes_recoveryDeadline :
    Concludes env.faults (recoveryDeadline env) r
      (fun text r' => r'.world = r.world ∧ r'.cursor.now = r.cursor.now + 1 ∧
        ∃ deadline, (env.now r.cursor.now).add? recoveryWindow = some deadline ∧
          text = isoformat deadline)
      (fun e _ => (env.now r.cursor.now).add? recoveryWindow = none ∧ e = .overflowError) := by
  refine (concludes_ofReading fun now => isoformatAfter now recoveryWindow).weaken ?_ ?_
  · rintro text r' ⟨hworld, hnow, htext⟩
    rcases hadd : (env.now r.cursor.now).add? recoveryWindow with _ | deadline
    · rw [isoformatAfter_eq_error hadd] at htext
      cases htext
    · rw [isoformatAfter_eq_ok hadd] at htext
      exact ⟨hworld, hnow, deadline, rfl, (Except.ok.inj htext).symm⟩
  · rintro e r' herror
    rcases hadd : (env.now r.cursor.now).add? recoveryWindow with _ | deadline
    · rw [isoformatAfter_eq_error hadd] at herror
      exact ⟨rfl, (Except.error.inj herror).symm⟩
    · rw [isoformatAfter_eq_ok hadd] at herror
      cases herror

lemma RotationAttempt.Timed.scheduled {lane : RecoveryLane} {deadline : String}
    {absolute retry : Datetime} (h : parseAware deadline = .ok (some absolute)) :
    (scheduledAttempt attempt lane deadline retry).Timed absolute retry := by
  refine ⟨h, ?_⟩
  rw [scheduledAttempt]
  exact parseAware_isoformat retry

/-- A scheduled attempt is timely. -/
lemma RotationAttempt.InBudget.timely_of_withContinuation {lane : RecoveryLane} {fresh : String}
    {now : Datetime} (h : attempt.InBudget)
    (hheld : withContinuation attempt lane fresh now = .ok held) : held.Timely := by
  intro other hlane
  refine ⟨h.congr (withContinuation_spec hheld).1, ?_⟩
  obtain ⟨text, -, -, hcontinued⟩ := withContinuation_cases hheld
  cases hcontinued with
  | stopped => cases hlane
  | scheduled havailable hretry hdeadline hnow hle =>
    exact ⟨_, _, .scheduled hdeadline⟩

lemma World.outboxReady_congr {w w' : World} (h : w'.outbox = w.outbox) :
    w'.OutboxReady ↔ w.OutboxReady := by
  simp only [World.OutboxReady, World.OutboxHolds, h]

lemma World.outboxParses_congr {w w' : World} (h : w'.outbox = w.outbox) :
    w'.OutboxParses ↔ w.OutboxParses := by
  simp only [World.OutboxParses, h]

lemma World.outboxRefuses_congr {w w' : World} {e : PyError} (h : w'.outbox = w.outbox) :
    w'.OutboxRefuses e ↔ w.OutboxRefuses e := by
  simp only [World.OutboxRefuses, World.outboxParses_congr h, World.outboxReady_congr h, h]

/-- What an exchange is abandoned as. -/
def AbandonedAs (env : Env) (attempt : RotationAttempt) (n : Nat) (held : RotationAttempt) : Prop :=
  ∃ deadline, (env.now n).add? recoveryWindow = some deadline ∧
    withContinuation attempt .ambiguityReplay (isoformat deadline) (env.now (n + 1)) = .ok held

/-- Abandoning an exchange journals it as unknown before it looks at the outbox. -/
lemma concludes_abandonRequested (hsink : env.SinkContained) :
    Concludes env.faults (abandonRequested env source attempt reason) r
      (fun result r' => result.1 = .outcomeUnknown source reason ∧ r.world.OutboxReady ∧
        r'.cursor.now = r.cursor.now + 2 ∧ AbandonedAs env attempt r.cursor.now result.2)
      (fun e _ => ¬ Schedulable env r.cursor.now attempt .ambiguityReplay ∧ e = .overflowError ∨
        Schedulable env r.cursor.now attempt .ambiguityReplay ∧ r.world.OutboxRefuses e) := by
  refine Concludes.bind (Q := fun state r' => state =
    .journaled (.terminal (.outcomeUnknown source reason)) ∧ r' = r)
    (Concludes.of_run rfl ⟨rfl, rfl⟩) fun state r₁ h₁ => ?_
  obtain ⟨rfl, rfl⟩ := h₁
  dsimp only
  have hnot : (env.now r₁.cursor.now).add? recoveryWindow = none →
      ¬ Schedulable env r₁.cursor.now attempt .ambiguityReplay := by
    rintro hnone ⟨deadline, hadd, -⟩
    rw [hnone] at hadd
    cases hadd
  refine (concludes_recoveryDeadline.weaken (fun _ _ h => h) fun e _ h =>
    .inl ⟨hnot h.1, h.2⟩).bind fun text r₂ h₂ => ?_
  obtain ⟨hworld₂, hnow₂, deadline, hadd, rfl⟩ := h₂
  refine (concludes_nowFn env).bind fun now r₃ h₃ => ?_
  obtain ⟨rfl, hworld₃, hnow₃⟩ := h₃
  rw [hnow₂] at hnow₃ ⊢
  rcases hheld : withContinuation attempt .ambiguityReplay (isoformat deadline)
    (env.now (r₁.cursor.now + 1)) with e | held
  · refine Concludes.of_error rfl (.inl ⟨?_, overflow_of_withContinuation hheld⟩)
    rintro ⟨deadline', hadd', hreckonable⟩
    rw [hadd] at hadd'
    cases hadd'
    obtain ⟨held, hok⟩ := withContinuation_ok_iff.2 hreckonable
    rw [hheld] at hok
    cases hok
  · have hschedulable : Schedulable env r₁.cursor.now attempt .ambiguityReplay :=
      ⟨deadline, hadd, withContinuation_ok_iff.1 ⟨held, hheld⟩⟩
    refine Concludes.of_ok rfl (concludes_writeJournal.bind fun _ r₄ h₄ => ?_)
    have houtbox : r₄.world.outbox = r₁.world.outbox := by
      rw [h₄.world, ← hworld₂, ← hworld₃]
      rfl
    refine ((concludes_recordTerminalOutcome hsink).weaken (fun _ _ h => h) fun e _ h =>
      .inr ⟨hschedulable, (World.outboxRefuses_congr houtbox).1 h⟩).bind fun _ r₅ h₅ =>
        Concludes.pure ⟨rfl, ?_, ?_, deadline, hadd, hheld⟩
    · exact (World.outboxReady_congr houtbox).1 h₅.before
    · rw [h₅.now, h₄.now, hnow₃]

/-- An exchange in flight whose process is gone can be taken over. -/
def TakenOver (env : Env) (w : World) (attempt : RotationAttempt) (n : Nat) : Prop :=
  Schedulable env n attempt .ambiguityReplay ∧ w.OutboxParses ∧
    (w.OutboxReady → ∀ held, AbandonedAs env attempt n held → Resumes env held (n + 2))

/-- Taking an exchange over goes well exactly when it can be. -/
lemma judged_recoverRequested (hsink : env.SinkContained)
    (hmono : ∀ m n, m ≤ n → env.now m ≤ env.now n) (hbudget : attempt.InBudget) :
    Judged env (ownerIsAlive env attempt = true ∨ TakenOver env r.world attempt r.cursor.now)
      (recoverRequested env current source attempt) r := by
  unfold recoverRequested
  cases halive : ownerIsAlive env attempt with
  | true => exact Judged.pure fun _ => .inl rfl
  | false =>
    simp only [Bool.false_eq_true, if_false, false_or]
    refine Concludes.bind ((concludes_abandonRequested hsink).weaken (fun _ _ h => h)
      fun e _ h => ?_) fun result r₁ h₁ => ?_
    · rcases h with ⟨hnot, rfl⟩ | ⟨hschedulable, hrefuses⟩
      · exact ⟨by rintro ⟨⟩, fun htaken => absurd htaken.1 hnot⟩
      · exact (hrefuses.isTyped_iff _).trans
          ⟨fun h => ⟨hschedulable, h⟩, fun htaken => htaken.2⟩
    · obtain ⟨t, held⟩ := result
      obtain ⟨ht, hready, hnow, hheld⟩ := h₁
      dsimp only at ht hheld
      subst ht
      obtain ⟨deadline, hadd, hok⟩ := hheld
      refine (judged_recoverUnknown hmono (hbudget.timely_of_withContinuation hok)).congr ?_
      rw [hnow]
      constructor
      · intro hresumes
        refine ⟨⟨deadline, hadd, withContinuation_ok_iff.1 ⟨held, hok⟩⟩, hready.parses,
          fun _ held' hheld' => ?_⟩
        obtain ⟨deadline', hadd', hok'⟩ := hheld'
        rw [hadd] at hadd'
        cases hadd'
        rw [hok] at hok'
        cases hok'
        exact hresumes
      · exact fun htaken => htaken.2.2 hready held ⟨deadline, hadd, hok⟩

end Takeover

/-! ### Recovering -/

/-- A dispatch can begin: the outbox can be looked at, and the deadline of a revision that is still
the expected one is representable. -/
def Begins (env : Env) (expected : Option StoredAuth) (current : StoredAuth) (w : World)
    (n : Nat) : Prop :=
  w.OutboxParses ∧ (w.OutboxReady →
    (expected.map StoredAuth.revision).getD current.revision = current.revision →
    ∃ deadline, (env.now n).add? recoveryWindow = some deadline)

/-- What a preparation needs of the surroundings to go on from a journal that was read. -/
def Prepares (env : Env) (expected : Option StoredAuth) (current : StoredAuth) (w : World)
    (n : Nat) : JournalLoadResult → Prop
  | .absent => Begins env expected current w n
  | .corrupt _ => True
  | .ioFailure _ _ => True
  | .loaded journal _ attempt _ =>
    if journal.successor? = some current.revision then w.OutboxParses
    else if journal.sourceRevision ≠ current.revision then Begins env expected current w n
    else
      match journal with
      | .reserved _ => Begins env expected current w n
      | .requested _ => ownerIsAlive env attempt = true ∨ TakenOver env w attempt n
      | .terminal (.rotated ..) => w.OutboxParses
      | .terminal (.rejected ..) => w.OutboxParses
      | .terminal (.outcomeUnknown ..) =>
        w.OutboxParses ∧ (w.OutboxReady → Resumes env attempt n)

section Recovery

variable {env : Env} {expected : Option StoredAuth} {current : StoredAuth}
  {attempt : RotationAttempt} {r : Run} {header : String}

lemma Begins.congr {w w' : World} {n n' : Nat} (houtbox : w'.outbox = w.outbox) (hn : n' = n) :
    Begins env expected current w' n' ↔ Begins env expected current w n := by
  simp only [Begins, World.outboxParses_congr houtbox, World.outboxReady_congr houtbox, hn]

/-- Dealing with a journaled outcome does not change whether a dispatch can begin. -/
lemma Run.Passed.begins {r' : Run} (h : r.Passed r') :
    Begins env expected current r'.world r'.cursor.now ↔
      Begins env expected current r.world r.cursor.now := by
  rw [h.now]
  exact ⟨fun hb => ⟨h.before.parses, fun _ => hb.2 h.after⟩,
    fun hb => ⟨h.after.parses, fun _ => hb.2 h.before⟩⟩

/-- Beginning a rotation goes well exactly when it can begin. -/
lemma judged_begin (hsink : env.SinkContained) :
    Judged env (Begins env expected current r.world r.cursor.now)
      (do
        drainOutbox env
        if (expected.map StoredAuth.revision).getD current.revision ≠ current.revision then
          return .returnAuth current
        else
          let deadline ← recoveryDeadline env
          prepareDispatch env current
            { rotationId := current.revision, attemptKind := .normal, dispatchCount := 1,
              recoveryDeadline := some deadline } none) r := by
  refine Judged.after_outbox (Q := fun _ r' => r.Delivered r') (concludes_drainOutbox hsink)
    (fun _ _ h => h.before) fun _ r₁ h₁ => ?_
  by_cases hexpected : (expected.map StoredAuth.revision).getD current.revision = current.revision
  · rw [if_neg (not_not_intro hexpected)]
    refine Concludes.bind (concludes_recoveryDeadline.weaken (fun _ _ h => h) fun e _ h => ?_)
      fun text r₂ h₂ => ?_
    · obtain ⟨hnone, rfl⟩ := h
      rw [h₁.quiet.now] at hnone
      refine ⟨by rintro ⟨⟩, fun hbegins => ?_⟩
      obtain ⟨deadline, hadd⟩ := hbegins hexpected
      rw [hnone] at hadd
      cases hadd
    · obtain ⟨-, -, deadline, hadd, -⟩ := h₂
      rw [h₁.quiet.now] at hadd
      exact judged_prepareDispatch_normal.congr ⟨fun _ _ => ⟨deadline, hadd⟩, fun _ => trivial⟩
  · rw [if_pos hexpected]
    exact Judged.pure fun _ h => absurd h hexpected

/-- Projecting a journaled successor raises only what a look at the outbox raises. -/
lemma judged_recoverRotated (hsink : env.SinkContained) (hfinds : env.Finds r.world current)
    (hcookie : current.credential = .cookie header) {t : TerminalState}
    {replacement successor : String} {enqueued : Bool} :
    Judged env r.world.OutboxParses
      (recoverRotated env t current.revision replacement successor attempt enqueued) r := by
  refine Judged.after (concludes_casReplaceCookie hfinds hcookie replacement successor)
    fun result r₁ h₁ => ?_
  obtain ⟨written, rfl, -, -, hleft⟩ | ⟨hnot, hleft, other, rfl⟩ := h₁
  · have houtbox : r₁.world.outbox = r.world.outbox := by rw [hleft.world]; rfl
    rw [← World.outboxParses_congr houtbox]
    exact Concludes.bind ((concludes_recordTerminalOutcome hsink).weaken (fun _ _ h => h)
      fun _ _ h => h.isTyped_iff_parses) fun _ _ h => Judged.pure fun _ => h.before.parses
  · -- only a failed read hides the credential that is found
    have hfinds₁ : env.Finds r₁.world current := hfinds.congr (by rw [hleft.world])
    refine Judged.after (concludes_loadAuth_of_finds hfinds₁) fun loaded r₂ h₂ => ?_
    obtain ⟨-, rfl | ⟨-, operation, error, rfl⟩⟩ := h₂
    · exact Judged.pure fun hhealthy => absurd hhealthy hnot
    · exact Concludes.excused ⟨hnot, rfl⟩

/-- What a recovery hands on: a preparation, or the question whether a dispatch can begin. -/
def Hands (env : Env) (expected : Option StoredAuth) (current : StoredAuth) (K : Prop) :
    Option Preparation → Run → Prop
  | some _, _ => env.Healthy → K
  | none, r' => Begins env expected current r'.world r'.cursor.now ↔ K

lemma Judged.hands {K : Prop} {p : Auth Preparation} (h : Judged env K p r) :
    Concludes env.faults (do let preparation ← p; return some preparation) r
      (Hands env expected current K) fun e _ => e.isTyped = true ↔ K :=
  Concludes.bind h fun _ _ hk => Concludes.pure hk

/-- A journal that does not matter any more leaves the question whether a dispatch can begin. -/
lemma hands_of_left {w : World} {p : Auth Unit}
    (hp : Concludes env.faults p r (fun _ => r.Left w) fun _ _ => False)
    (houtbox : w.outbox = r.world.outbox) :
    Concludes env.faults (do p; return none) r
      (Hands env expected current (Begins env expected current r.world r.cursor.now))
      fun e _ => e.isTyped = true ↔ Begins env expected current r.world r.cursor.now :=
  Concludes.bind (hp.weaken (fun _ _ h => h) fun _ _ h => h.elim) fun _ r₁ h₁ =>
    Concludes.pure (Begins.congr (by rw [h₁.world, houtbox]) h₁.now)

/-- Recovering a journal about the stored revision. -/
lemma concludes_recoverMatchingState (hsink : env.SinkContained)
    (hmono : ∀ m n, m ≤ n → env.now m ≤ env.now n) (hfinds : env.Finds r.world current)
    (hcookie : current.credential = .cookie header) {journal : JournalState} {enqueued : Bool}
    {migrated : Option Nat} (hbudget : ∀ source, journal = .requested source → attempt.InBudget)
    (htimely : attempt.Timely)
    (hmatching : journal.sourceRevision = current.revision)
    (hother : journal.successor? ≠ some current.revision) :
    Concludes env.faults (recoverMatchingState env current journal attempt enqueued) r
      (Hands env expected current (Prepares env expected current r.world r.cursor.now
        (.loaded journal enqueued attempt migrated)))
      fun e _ => e.isTyped = true ↔ Prepares env expected current r.world r.cursor.now
        (.loaded journal enqueued attempt migrated) := by
  simp only [Prepares, if_neg hother, hmatching, ne_eq, not_true_eq_false, if_false]
  rcases journal with source | source | ⟨source, replacement, successor⟩ | ⟨source, reason⟩ |
    ⟨source, reason⟩
  · exact hands_of_left concludes_deleteJournal rfl
  · exact (judged_recoverRequested hsink hmono (hbudget source rfl)).hands
  · have hsource : source = current.revision := hmatching
    subst hsource
    have hrotated : Judged env r.world.OutboxParses (recoverRotated env
        (.rotated current.revision replacement successor) current.revision replacement successor
        attempt enqueued) r := judged_recoverRotated hsink hfinds hcookie
    exact Concludes.bind hrotated fun _ _ hk => Concludes.pure hk
  · exact Concludes.bind ((concludes_recordTerminalOutcome hsink).weaken (fun _ _ h => h)
      fun _ _ h => h.isTyped_iff_parses) fun _ _ h => Concludes.pure fun _ => h.before.parses
  · have hsource : source = current.revision := hmatching
    subst hsource
    refine Concludes.bind ((concludes_recordTerminalOutcome hsink).weaken (fun _ _ h => h)
      fun _ _ h => h.isTyped_iff _) fun _ r₁ h₁ => ?_
    have hunknown : Judged env (Resumes env attempt r.cursor.now) (recoverUnknown env current
        (.outcomeUnknown current.revision reason) attempt) r₁ := by
      rw [← h₁.now]
      exact judged_recoverUnknown hmono htimely
    exact (hunknown.congr ⟨fun hk => ⟨h₁.before.parses, fun _ => hk⟩,
      fun hk => hk.2 h₁.before⟩).hands

/-- Recovering whatever the journal holds. -/
lemma concludes_recoverOrWait (hsink : env.SinkContained)
    (hmono : ∀ m n, m ≤ n → env.now m ≤ env.now n) (hfinds : env.Finds r.world current)
    (hcookie : current.credential = .cookie header) {loaded : JournalLoadResult}
    (hjournal : journalOf r.world.journal = .ok loaded)
    (haccepted : ∀ journal enqueued attempt migrated,
      loaded = .loaded journal enqueued attempt migrated →
      (∀ source, journal = .requested source → attempt.InBudget) ∧ attempt.Timely) :
    Concludes env.faults (recoverOrWait env current) r
      (Hands env expected current (Prepares env expected current r.world r.cursor.now loaded))
      fun e _ => e.isTyped = true ↔ Prepares env expected current r.world r.cursor.now loaded := by
  refine ((concludes_loadJournal env).weaken (fun _ _ h => h) ?_).bind fun found r₁ h₁ => ?_
  · rintro e r' ⟨-, herror⟩
    rw [hjournal] at herror
    cases herror
  obtain ⟨hleft, hload | ⟨hnot, operation, error, rfl⟩⟩ := h₁
  · rw [hjournal] at hload
    cases hload
    rw [← hleft.world, ← hleft.now]
    cases loaded with
    | absent => exact Concludes.pure Iff.rfl
    | corrupt detail => exact Concludes.raise ⟨fun _ => trivial, fun _ => rfl⟩
    | ioFailure operation error => exact Concludes.raise ⟨fun _ => trivial, fun _ => rfl⟩
    | loaded journal enqueued attempt migrated =>
      obtain ⟨hbudget, htimely⟩ := haccepted _ _ _ _ rfl
      have hfinds₁ : env.Finds r₁.world current := hfinds.congr (by rw [hleft.world])
      have hother : journal.successor? ≠ some current.revision →
          Concludes env.faults
            (if journal.sourceRevision ≠ current.revision then do
              discardRotationState env journal enqueued
              return none
            else recoverMatchingState env current journal attempt enqueued) r₁
            (Hands env expected current (Prepares env expected current r₁.world r₁.cursor.now
              (.loaded journal enqueued attempt migrated)))
            fun e _ => e.isTyped = true ↔ Prepares env expected current r₁.world r₁.cursor.now
              (.loaded journal enqueued attempt migrated) := by
        intro hsuccessor
        by_cases hsource : journal.sourceRevision ≠ current.revision
        · simp only [Prepares, if_neg hsuccessor, if_pos hsource]
          refine Concludes.bind (concludes_discardRotationState.weaken (fun _ _ h => h)
            fun _ _ h => h.isTyped_iff _) fun _ r₂ h₂ => Concludes.pure ?_
          rcases h₂ with ⟨hnow, -, houtbox⟩ | hpassed
          · exact Begins.congr houtbox hnow
          · exact hpassed.begins
        · rw [if_neg hsource]
          exact concludes_recoverMatchingState hsink hmono hfinds₁ hcookie hbudget htimely
            (not_not.1 hsource) hsuccessor
      rcases hsuccessor : journal.successor? with _ | successor <;> simp only [hsuccessor]
      · exact hother (by rw [hsuccessor]; rintro ⟨⟩)
      · by_cases hcurrent : successor = current.revision
        · rw [if_pos hcurrent]
          rcases journal with source | source | t
          · cases hsuccessor
          · cases hsuccessor
          · simp only [Prepares, hsuccessor, hcurrent, if_true]
            exact Concludes.bind ((concludes_recordTerminalOutcome hsink).weaken (fun _ _ h => h)
              fun _ _ h => h.isTyped_iff_parses)
              fun _ _ h => Concludes.pure fun _ => h.before.parses
        · rw [if_neg hcurrent]
          refine hother ?_
          rw [hsuccessor]
          exact fun hsame => hcurrent (Option.some.inj hsame)
  · exact Concludes.excused ⟨hnot, rfl⟩

end Recovery

/-! ### Accepted journals -/

section Accepted

variable {attempt : RotationAttempt}

lemma exists_timed_of_validRecoveryWindow
    (h : validRecoveryWindow attempt.nextAttemptAt attempt.recoveryDeadline = .ok true) :
    ∃ absolute retry, attempt.Timed absolute retry := by
  rcases hretry : attempt.nextAttemptAt with _ | notBefore <;> rw [hretry] at h
  · cases h
  rcases hdeadline : attempt.recoveryDeadline with _ | deadline <;> rw [hdeadline] at h
  · cases h
  unfold validRecoveryWindow at h
  dsimp only at h
  rcases hfrom : fromIsoformat notBefore with _ | ⟨a, _ | offsetA⟩ <;> rw [hfrom] at h
  · cases h
  · cases h
  rcases huntil : fromIsoformat deadline with _ | ⟨b, _ | offsetB⟩ <;> rw [huntil] at h
  · cases h
  · cases h
  dsimp only at h
  rcases hstart : IsoDatetime.toUtc? ⟨a, some offsetA⟩ offsetA with _ | retry <;> rw [hstart] at h
  · cases h
  rcases hend : IsoDatetime.toUtc? ⟨b, some offsetB⟩ offsetB with _ | absolute <;> rw [hend] at h
  · cases h
  refine ⟨absolute, retry, ?_, ?_⟩
  · rw [hdeadline]
    simp only [parseDeadline, parseAware, huntil, hend]
  · rw [hretry]
    simp only [parseDeadline, parseAware, hfrom, hstart]

/-- The attempt of a journal that is read is timely, and in budget while its exchange is in
flight. -/
lemma timely_of_journalOf {file : Option FileText} {journal : JournalState} {enqueued : Bool}
    {migrated : Option Nat} (h : journalOf file = .ok (.loaded journal enqueued attempt migrated)) :
    (∀ source, journal = .requested source → attempt.InBudget) ∧ attempt.Timely := by
  rcases file with _ | _ | detail | typeName | payload
  · cases h
  · cases h
  · cases h
  · cases h
  rcases accepted_of_parseJournal h with ⟨-, haccepted⟩ | ⟨-, -, hmigrated⟩
  · have hbudget := (rotationAttemptIsValid_iff.1 haccepted.valid).1
    refine ⟨fun _ _ => hbudget, fun lane hlane => ⟨hbudget, ?_⟩⟩
    exact exists_timed_of_validRecoveryWindow (haccepted.consistent.scheduled lane hlane).2.1
  · constructor
    · rintro source rfl
      cases hmigrated
    · intro lane hlane
      cases hmigrated <;> simp only [v2Attempt] at hlane <;> split_ifs at hlane <;> cases hlane

end Accepted

/-! ### The preparation -/

section Prepare

variable {env : Env} {expected : Option StoredAuth} {current : StoredAuth} {w : World}
  {header : String} {loaded : JournalLoadResult}

/-- Whichever operations of the storage fail, a preparation raises only typed errors. -/
def EndsTyped (env : Env) (expected : Option StoredAuth) (w : World) : Prop :=
  ∀ fault readFault e, (prepare { env with fault := fault, readFault := readFault } expected
    (Run.start w)).1 = .raised e → e.isTyped = true

/-- A preparation from a journal that is read goes well exactly when it can. -/
lemma judged_prepare (hsink : env.SinkContained) (hmono : ∀ m n, m ≤ n → env.now m ≤ env.now n)
    (hfinds : env.Finds w current) (hcookie : current.credential = .cookie header)
    (hjournal : journalOf w.journal = .ok loaded) :
    Judged env (Prepares env expected current w 0 loaded) (prepare env expected) (Run.start w) := by
  refine concludes_withAuthFileLock (fun r hsame => ?_) (fun _ _ _ h _ => h) fun _ _ _ h _ => h
  have hworld : r.world = w := hsame.world
  have hnow : r.cursor.now = 0 := hsame.now
  rw [← hworld] at hfinds hjournal ⊢
  refine Judged.after (concludes_loadAuth_of_finds hfinds) fun result r₁ h₁ => ?_
  obtain ⟨hleft, rfl | ⟨hnot, operation, error, rfl⟩⟩ := h₁
  · refine Concludes.of_ok rfl ?_
    rw [← hleft.world] at hfinds hjournal ⊢
    rw [← hnow, ← hleft.now]
    simp only [hcookie]
    refine (concludes_recoverOrWait hsink hmono hfinds hcookie hjournal ?_).bind
      fun result r₂ h₂ => ?_
    · rintro journal enqueued attempt migrated rfl
      exact timely_of_journalOf hjournal
    · cases result with
      | some preparation => exact Judged.pure h₂
      | none => exact (judged_begin hsink).congr h₂
  · exact Concludes.of_excused rfl ⟨hnot, rfl⟩

/-- A preparation from an accepted journal raises only typed errors, whatever fails, exactly when
it can go on. -/
theorem endsTyped_iff (hsink : env.SinkContained) (hmono : ∀ m n, m ≤ n → env.now m ≤ env.now n)
    (hfinds : env.Finds w current) (hcookie : current.credential = .cookie header)
    (hjournal : journalOf w.journal = .ok loaded) :
    EndsTyped env expected w ↔ Prepares env expected current w 0 loaded := by
  constructor
  · intro htyped
    let calm : Env := { env with fault := fun _ _ => .none, readFault := fun _ _ => none }
    have hhealthy : calm.Healthy := ⟨fun _ _ => rfl, fun _ _ => rfl⟩
    have hends : Ends (prepare calm expected) (Run.start w)
        (fun _ _ => calm.Healthy → Prepares env expected current w 0 loaded)
        (fun e _ => e.isTyped = true ↔ Prepares env expected current w 0 loaded) :=
      Concludes.ends (@judged_prepare calm _ _ _ _ _ hsink hmono hfinds hcookie hjournal)
        (not_not_intro hhealthy)
    have hraised := htyped (fun _ _ => .none) (fun _ _ => none)
    rcases hrun : (prepare calm expected (Run.start w)).1 with preparation | e | _
    · exact hends.returned hrun hhealthy
    · exact (hends.raised hrun).1 (hraised e hrun)
    · exact absurd hrun hends.not_crashed
  · intro hprepares fault readFault e hraised
    have hjudged := @judged_prepare { env with fault := fault, readFault := readFault } expected
      _ _ _ _ hsink hmono hfinds hcookie hjournal
    rcases hjudged.raises e hraised with hiff | ⟨-, htyped⟩
    · exact hiff.2 hprepares
    · exact htyped

end Prepare

/-! ### A deadline between two readings -/

/-- An attempt that awaits its replay. -/
def firstUnknown : RotationAttempt :=
  { firstAttempt "r0" (isoformat (launchAfter 600)) with
    continuation := some (.lane .ambiguityReplay)
    nextAttemptAt := some (isoformat (launchAfter 30)) }

/-- The files of a calm run whose first exchange has no known outcome. -/
def firstAwaiting : World :=
  (Sys.installed firstAuth).world.setJournal (.terminal (.outcomeUnknown "r0" "no response")) true
    firstUnknown (some launch)

/-- A calm environment with other readings of the clock. -/
def Env.reading (now : Nat → Datetime) : Env := { Env.calm (worker 1) launch "r1" with now := now }

lemma journalOf_firstAwaiting : journalOf firstAwaiting.journal =
    .ok (.loaded (.terminal (.outcomeUnknown "r0" "no response")) true firstUnknown none) := by
  decide +kernel

lemma Env.sinkContained_reading (now : Nat → Datetime) : (Env.reading now).SinkContained := by
  rintro _ ⟨⟩ n typeName ⟨⟩

lemma Env.finds_reading (now : Nat → Datetime) : (Env.reading now).Finds firstAwaiting firstAuth :=
  fun _ => authOf_firstAuth

theorem endsTyped_iff_awaiting :
    EndsTyped (.reading fun _ => launchAfter 100) none firstAwaiting := by
  have hopen : deadlinePassed firstUnknown.recoveryDeadline
      ((Env.reading fun _ => launchAfter 100).now (0 + 2)) = .ok false := by
    decide +kernel
  have hcount : firstUnknown.dispatchCount = 1 + firstUnknown.safeRetryCount +
      firstUnknown.validationRetryCount + firstUnknown.ambiguityReplayCount := by
    decide +kernel
  have hresumes : Resumes (.reading fun _ => launchAfter 100) firstUnknown 0 :=
    fun _ _ _ _ _ _ => ⟨hcount, hopen⟩
  have hparses : firstAwaiting.OutboxParses := ⟨.absent, rfl⟩
  have hprepares : Prepares (.reading fun _ => launchAfter 100) none firstAuth firstAwaiting 0
      (.loaded (.terminal (.outcomeUnknown "r0" "no response")) true firstUnknown none) := by
    simp only [Prepares, JournalState.successor?, JournalState.sourceRevision]
    exact ⟨hparses, fun _ => hresumes⟩
  exact (endsTyped_iff (Env.sinkContained_reading _) (fun _ _ _ => le_refl _)
    (Env.finds_reading _) rfl journalOf_firstAwaiting).2 hprepares

/-- Readings of the clock around the deadline of the attempt. -/
def lapse (n : Nat) : Datetime := launchAfter (if n < 2 then 599 else 600)

lemma lapse_mono {m n : Nat} (h : m ≤ n) : lapse m ≤ lapse n := by
  have hle : launchAfter 599 ≤ launchAfter 600 := by decide +kernel
  unfold lapse
  split_ifs with hm hn hn
  · exact le_refl _
  · exact hle
  · omega
  · exact le_refl _

/-- A preparation can reach the deadline of a dispatch between two readings of the clock. -/
theorem not_endsTyped_lapse :
    ¬ ∀ (env : Env) (w : World) (current : StoredAuth) (header : String)
      (loaded : JournalLoadResult), env.SinkContained → (∀ m n, m ≤ n → env.now m ≤ env.now n) →
      env.Finds w current → current.credential = .cookie header →
      journalOf w.journal = .ok loaded → EndsTyped env none w := by
  intro h
  have hraised : (prepare (.reading lapse) none (Run.start firstAwaiting)).1 =
      .raised .invalidTransition := by rfl
  have htyped := h (.reading lapse) firstAwaiting firstAuth _ _ (Env.sinkContained_reading _)
    (fun _ _ => lapse_mono) (Env.finds_reading _) rfl journalOf_firstAwaiting
    (fun _ _ => .none) (fun _ _ => none)
  have hfalse := htyped _ hraised
  cases hfalse

end EnjiGuard.AuthSession
