import EnjiGuard.AuthSession.AutoRefresh
import Mathlib.Algebra.Order.Ring.Rat

/-!
# Retained successors

After a commit that could not be stored, the loop keeps the successor in memory and tries to
project it until the storage works again. Each failure is followed by a wait, whose length is
doubled up to a maximum. The doubling is computed before it is cut off, and the power of two
that the failure after 1024 others asks for is no float. A wait watches for a change of the source,
so it ends at once when the failed attempt has stored the successor.
-/

namespace EnjiGuard.AuthSession

open Foundation

/-! ### The buffer and the calls of a turn -/

/-- Forgets a successor, when it is the one in the buffer. -/
def clearRetained (buffer : Option RetainedRefreshSuccessor)
    (retained : RetainedRefreshSuccessor) : Option RetainedRefreshSuccessor :=
  match buffer with
  | none => none
  | some current =>
    if current.sourceRevision = retained.sourceRevision ∧
        current.auth.revision = retained.auth.revision then none
    else some current

/-- What the loop calls outside of its waits. -/
inductive LoopCall
  | refreshCookieAuth (auth : StoredAuth)
  | projectRetainedSuccessor (retained : RetainedRefreshSuccessor)

/-- The settings as their constructor checks them. -/
structure AutoRefreshSettings.Valid (settings : AutoRefreshSettings) : Prop where
  initial_pos : 0 < settings.preDispatchRetryInitialSeconds
  max_pos : 0 < settings.preDispatchRetryMaxSeconds
  jitter_nonneg : 0 ≤ settings.preDispatchRetryJitterSeconds
  initial_le_max : settings.preDispatchRetryInitialSeconds ≤ settings.preDispatchRetryMaxSeconds

variable (codec : CookieCodec) (settings : AutoRefreshSettings)

def turnCalls (s : LoopState) (x : Turn) : List LoopCall :=
  match s.retainedSuccessor with
  | some retained => [.projectRetainedSuccessor retained]
  | none =>
    match scheduledCookieAuth codec settings x with
    | .ok (some auth) => [.refreshCookieAuth auth]
    | _ => []

/-- The loop comes to retain a successor in a turn. -/
structure Retains (s : LoopState) (x : Turn) (retained : RetainedRefreshSuccessor)
    (s' : LoopState) : Prop where
  before : s.retainedSuccessor = none
  turn_eq : turn codec settings s x = .ok s'
  after : s'.retainedSuccessor = some retained

/-- A turn whose projection fails with a storage error, and whose wait comes to its end. -/
structure FailedAttempt (retained : RetainedRefreshSuccessor) (x : Turn) : Prop where
  failed : ∃ e, x.projected = .error e ∧ e.isOsError = true
  random_nonneg : 0 ≤ x.random
  waited : ∀ delay, delay ≤ settings.preDispatchRetryMaxSeconds →
    ∃ changed, waitForCredentialChange (some retained.sourceRevision) delay x.handlerWait =
      .ok changed

/-- A wait finds the source of a successor stored when it begins, so it does not end at once. -/
def Wait.Entered (wait : Wait) (retained : RetainedRefreshSuccessor) : Prop :=
  ∃ poll polls, wait.polls = poll :: polls ∧
    currentRevision poll.stored = some retained.sourceRevision

/-- A wait is entered, and it lasts until its delay is over or the credential changes meanwhile. -/
structure Lasts (retained : RetainedRefreshSuccessor) (delay : Rat) (wait : Wait) : Prop where
  entered : wait.Entered retained
  ended : (∃ poll ∈ wait.polls, wait.start + delay ≤ poll.clock) ∨
    ∃ poll ∈ wait.polls, currentRevision poll.stored ≠ some retained.sourceRevision ∨
      poll.wake = .watcherChanged

/-- The attempt in a turn is made, and the next one comes after a delay within the maximum. -/
structure Attempted (retained : RetainedRefreshSuccessor) (s : LoopState) (x : Turn)
    (delay : Rat) : Prop where
  calls : turnCalls codec settings s x = [.projectRetainedSuccessor retained]
  delay_eq : preDispatchRetrySeconds settings (s.projectionRetryCount + 1) x.random = .ok delay
  delay_pos : 0 < delay
  delay_le : delay ≤ settings.preDispatchRetryMaxSeconds
  lasts : Lasts retained delay x.handlerWait

/-- A turn settles a successor: it is cleared, and the loop schedules refreshes again. -/
structure Settles (retained : RetainedRefreshSuccessor) (s : LoopState) (x : Turn)
    (s' : LoopState) : Prop where
  calls : turnCalls codec settings s x = [.projectRetainedSuccessor retained]
  turn_eq : turn codec settings s x = .ok s'
  cleared : s'.retainedSuccessor = clearRetained s.retainedSuccessor retained
  retryCounts : s'.retryCount = 0 ∧ s'.projectionRetryCount = 0
  resumes : ∀ x', turn codec settings s' x' = refreshTurn codec settings s' x'

/-- A successor outlives failed attempts: each of them is made and waited after, and then one that
is answered settles the successor. -/
structure Outlives (retained : RetainedRefreshSuccessor) (s : LoopState) (xs : List Turn) :
    Prop where
  attempted : ∀ ys x zs, xs = ys ++ x :: zs → ∃ s' delay,
    autoRefreshLoop codec settings s ys = .ok s' ∧ Attempted codec settings retained s' x delay
  settled : ∃ s', autoRefreshLoop codec settings s xs = .ok s' ∧
    ∀ x projection, x.projected = .ok projection →
      ∃ s'', Settles codec settings retained s' x s''

/-- The state after some failed attempts. -/
def afterFailures (s : LoopState) (n : Nat) : LoopState :=
  { s with projectionRetryCount := s.projectionRetryCount + n, waits := s.waits + n }

variable {codec settings} {s s' : LoopState} {x : Turn} {retained : RetainedRefreshSuccessor}

@[simp] lemma clearRetained_self : clearRetained (some retained) retained = none := by
  simp [clearRetained]

/-! ### One attempt -/

/-- Up to the exponents of a float, the backoff is positive and within the maximum. -/
lemma preDispatchRetrySeconds_of_lt {retryCount : Nat} {random : Rat} (h : settings.Valid)
    (hrandom : 0 ≤ random) (hcount : retryCount < floatExponentLimit) :
    ∃ delay, preDispatchRetrySeconds settings (retryCount + 1) random = .ok delay ∧
      0 < delay ∧ delay ≤ settings.preDispatchRetryMaxSeconds := by
  rw [preDispatchRetrySeconds, Nat.add_sub_cancel, if_neg (Nat.not_le.2 hcount)]
  have hexponential : 0 < settings.preDispatchRetryInitialSeconds * 2 ^ retryCount :=
    mul_pos h.initial_pos (pow_pos (by decide) _)
  have hjitter : 0 ≤ settings.preDispatchRetryJitterSeconds * random :=
    mul_nonneg h.jitter_nonneg hrandom
  refine ⟨_, rfl, ?_⟩
  rw [Rat.min_def]
  split_ifs with hle
  · exact ⟨h.max_pos, le_refl _⟩
  · exact ⟨add_pos_of_pos_of_nonneg hexponential hjitter, (not_le.1 hle).le⟩

/-- Beyond them, there is no backoff. -/
lemma preDispatchRetrySeconds_of_le {retryCount : Nat} {random : Rat}
    (hcount : floatExponentLimit ≤ retryCount) :
    preDispatchRetrySeconds settings (retryCount + 1) random = .error .overflowError := by
  rw [preDispatchRetrySeconds, Nat.add_sub_cancel, if_pos hcount]

/-- Polls that end, end at the deadline or with a change. -/
lemma ended_of_poll {expectedRevision : Option String} {deadline : Rat} {watching changed : Bool}
    {polls : List Poll}
    (h : pollForCredentialChange expectedRevision deadline watching polls = .ok changed) :
    (∃ poll ∈ polls, deadline ≤ poll.clock) ∨
      ∃ poll ∈ polls, currentRevision poll.stored ≠ expectedRevision ∨
        poll.wake = .watcherChanged := by
  induction polls generalizing watching with
  | nil => cases h
  | cons poll polls ih =>
    have hlater : ∀ watching,
        pollForCredentialChange expectedRevision deadline watching polls = .ok changed →
        (∃ poll' ∈ poll :: polls, deadline ≤ poll'.clock) ∨
          ∃ poll' ∈ poll :: polls, currentRevision poll'.stored ≠ expectedRevision ∨
            poll'.wake = .watcherChanged := by
      intro watching hpolls
      rcases ih hpolls with ⟨poll', hpoll', hclock⟩ | ⟨poll', hpoll', hchange⟩
      · exact .inl ⟨poll', List.mem_cons_of_mem _ hpoll', hclock⟩
      · exact .inr ⟨poll', List.mem_cons_of_mem _ hpoll', hchange⟩
    by_cases hrevision : currentRevision poll.stored ≠ expectedRevision
    · exact .inr ⟨poll, List.mem_cons_self, .inl hrevision⟩
    · by_cases hover : deadline - poll.clock ≤ 0
      · exact .inl ⟨poll, List.mem_cons_self, sub_nonpos.1 hover⟩
      · rw [pollForCredentialChange, if_neg hrevision, if_neg hover] at h
        cases hwake : poll.wake with
        | watcherChanged => exact .inr ⟨poll, List.mem_cons_self, .inr hwake⟩
        | slept =>
          rw [hwake] at h
          exact hlater _ h
        | watcherFailed =>
          rw [hwake] at h
          exact hlater _ h
        | cancelled =>
          rw [hwake] at h
          cases h

lemma turn_of_retained (hretained : s.retainedSuccessor = some retained) :
    turn codec settings s x = projectionTurn settings s retained x := by
  rw [turn, hretained]

lemma turnCalls_of_retained (hretained : s.retainedSuccessor = some retained) :
    turnCalls codec settings s x = [.projectRetainedSuccessor retained] := by
  rw [turnCalls, hretained]

/-- A storage error is answered by the backoff and a wait. -/
lemma projectRetained_of_failed {retryCount : Nat} {delay : Rat} {changed : Bool}
    (hfailed : ∃ e, x.projected = .error e ∧ e.isOsError = true)
    (hdelay : preDispatchRetrySeconds settings (retryCount + 1) x.random = .ok delay)
    (hwait : waitForCredentialChange (some retained.sourceRevision) delay x.handlerWait =
      .ok changed) :
    projectRetained settings retained retryCount x = .ok false := by
  obtain ⟨e, hprojected, hos⟩ := hfailed
  cases e <;> cases hos <;>
    simp [projectRetained, hprojected, PyError.isOsError, hdelay, hwait, bind, Except.bind, pure,
      Except.pure]

/-- A failed attempt is made, and the successor is kept for the next one. -/
lemma attempted_of_failed (h : settings.Valid) (hretained : s.retainedSuccessor = some retained)
    (hfailed : FailedAttempt settings retained x)
    (hcount : s.projectionRetryCount < floatExponentLimit) :
    (x.handlerWait.Entered retained → ∃ delay, Attempted codec settings retained s x delay) ∧
      turn codec settings s x = .ok (afterFailures s 1) := by
  obtain ⟨delay, hdelay, hpos, hle⟩ :=
    preDispatchRetrySeconds_of_lt h hfailed.random_nonneg hcount
  obtain ⟨changed, hwait⟩ := hfailed.waited delay hle
  constructor
  · intro hentered
    exact ⟨delay, turnCalls_of_retained hretained, hdelay, hpos, hle, hentered,
      ended_of_poll hwait⟩
  · rw [turn_of_retained hretained, projectionTurn,
      projectRetained_of_failed hfailed.failed hdelay hwait]
    rfl

/-- An attempt that is answered settles the successor, whatever the answer says. -/
lemma settles_of_answered (hretained : s.retainedSuccessor = some retained)
    {projection : RetainedSuccessorProjection} (hprojected : x.projected = .ok projection) :
    ∃ s', Settles codec settings retained s x s' := by
  have hproject : projectRetained settings retained s.projectionRetryCount x = .ok true := by
    cases projection <;> rw [projectRetained, hprojected]
  refine ⟨{ waits := s.waits }, turnCalls_of_retained hretained, ?_, ?_, ⟨rfl, rfl⟩, ?_⟩
  · rw [turn_of_retained hretained, projectionTurn, hproject]
    rfl
  · rw [hretained, clearRetained_self]
  · intro x'
    rfl

/-! ### Runs of failed attempts -/

/-- As long as the exponents of a float go, failed attempts are counted. -/
lemma autoRefreshLoop_of_failed (h : settings.Valid) {xs : List Turn}
    (hretained : s.retainedSuccessor = some retained)
    (hfailed : ∀ x ∈ xs, FailedAttempt settings retained x)
    (hcount : s.projectionRetryCount + xs.length ≤ floatExponentLimit) :
    autoRefreshLoop codec settings s xs = .ok (afterFailures s xs.length) := by
  induction xs generalizing s with
  | nil => rfl
  | cons x xs ih =>
    have hlength : (x :: xs).length = xs.length + 1 := rfl
    have hturn : turn codec settings s x = .ok (afterFailures s 1) :=
      (attempted_of_failed h hretained (hfailed x List.mem_cons_self) (by omega)).2
    rw [autoRefreshLoop, hturn]
    have hrest := ih (s := afterFailures s 1) hretained
      (fun y hy => hfailed y (List.mem_cons_of_mem _ hy)) (by simp only [afterFailures]; omega)
    refine hrest.trans ?_
    simp only [afterFailures, hlength]
    congr 2 <;> omega

/-- A successor that was just retained has no failed attempt yet. -/
lemma Retains.projectionRetryCount_eq {s₀ : LoopState} {x₀ : Turn}
    (h : Retains codec settings s₀ x₀ retained s) : s.projectionRetryCount = 0 := by
  have hturn := h.turn_eq
  simp only [turn, h.before] at hturn
  obtain ⟨scheduled, -, hturn⟩ := exists_of_bind_eq_ok hturn
  have hnone : ∀ s' : LoopState, Except.ok s' = (.ok s : Except LoopExit LoopState) →
      s'.retainedSuccessor = s₀.retainedSuccessor → s.projectionRetryCount = 0 := by
    intro s' heq hbuffer
    cases heq
    have hafter := h.after
    rw [hbuffer, h.before] at hafter
    cases hafter
  rcases scheduled with _ | auth
  · exact hnone _ hturn rfl
  · rcases hrefreshed : x₀.refreshed with (successor | e) | current <;>
      simp only [hrefreshed] at hturn
    · cases hturn
      rfl
    · cases e with
      | preDispatchLocal detail =>
        obtain ⟨retryCount, -, hturn⟩ := exists_of_bind_eq_ok hturn
        exact hnone _ hturn rfl
      | recoveryRequired source lane retryAfter =>
        obtain ⟨changed, -, hturn⟩ := exists_of_bind_eq_ok hturn
        exact hnone _ hturn rfl
      | terminalRevisionRequired source message =>
        obtain ⟨changed, -, hturn⟩ := exists_of_bind_eq_ok hturn
        exact hnone _ hturn rfl
      | _ => cases hturn
    · exact hnone _ hturn rfl

/-- Failed attempts after the successor was retained, as long as the exponents go. -/
lemma Retains.autoRefreshLoop_eq {s₀ : LoopState} {x₀ : Turn} {ys : List Turn}
    (hretains : Retains codec settings s₀ x₀ retained s) (h : settings.Valid)
    (hfailed : ∀ y ∈ ys, FailedAttempt settings retained y)
    (hlength : ys.length ≤ floatExponentLimit) :
    autoRefreshLoop codec settings s ys = .ok (afterFailures s ys.length) := by
  have hzero := hretains.projectionRetryCount_eq
  exact autoRefreshLoop_of_failed h hretains.after hfailed (by omega)

/-- The attempt after as many failures as there are exponents is not waited after. -/
lemma Retains.not_outlives {s₀ : LoopState} {x₀ : Turn} {xs : List Turn}
    (hretains : Retains codec settings s₀ x₀ retained s) (h : settings.Valid)
    (hfailed : ∀ x ∈ xs, FailedAttempt settings retained x)
    (hlength : floatExponentLimit < xs.length) : ¬ Outlives codec settings retained s xs := by
  intro houtlives
  obtain ⟨ys, zs, hsplit, hys⟩ : ∃ ys zs, xs = ys ++ zs ∧ ys.length = floatExponentLimit :=
    ⟨xs.take floatExponentLimit, xs.drop floatExponentLimit,
      (List.take_append_drop _ _).symm, by rw [List.length_take]; omega⟩
  rcases zs with _ | ⟨x, zs⟩
  · rw [List.append_nil] at hsplit
    rw [hsplit, hys] at hlength
    exact lt_irrefl _ hlength
  · obtain ⟨s', delay, hs', hattempted⟩ := houtlives.attempted ys x zs hsplit
    have hrun := hretains.autoRefreshLoop_eq h
      (fun y hy => hfailed y (by rw [hsplit]; exact List.mem_append_left _ hy)) hys.le
    rw [hrun] at hs'
    cases hs'
    have hcount : floatExponentLimit ≤ (afterFailures s ys.length).projectionRetryCount := by
      simp [afterFailures, hys]
    have hdelay := hattempted.delay_eq
    rw [preDispatchRetrySeconds_of_le hcount] at hdelay
    cases hdelay

/-- **A retained successor outlives an outage** exactly when the backoff of the last failed attempt
is a float, and the wait after each of them finds the source of the successor stored. -/
theorem outlives_iff {s₀ : LoopState} {x₀ : Turn} {xs : List Turn} (h : settings.Valid)
    (hretains : Retains codec settings s₀ x₀ retained s)
    (hfailed : ∀ x ∈ xs, FailedAttempt settings retained x) :
    Outlives codec settings retained s xs ↔
      xs.length ≤ floatExponentLimit ∧ ∀ x ∈ xs, x.handlerWait.Entered retained := by
  constructor
  · intro houtlives
    constructor
    · by_contra hlength
      exact hretains.not_outlives h hfailed (not_le.1 hlength) houtlives
    · intro x hx
      obtain ⟨ys, zs, hsplit⟩ := List.append_of_mem hx
      obtain ⟨s', delay, -, hattempted⟩ := houtlives.attempted ys x zs hsplit
      exact hattempted.lasts.entered
  · rintro ⟨hlength, hentered⟩
    have hzero := hretains.projectionRetryCount_eq
    constructor
    · intro ys x zs hsplit
      have hys : ys.length + 1 ≤ xs.length := by
        rw [hsplit]
        simp
      have hrun := hretains.autoRefreshLoop_eq h
        (fun y hy => hfailed y (by rw [hsplit]; exact List.mem_append_left _ hy))
        (show ys.length ≤ floatExponentLimit by omega)
      have hx : FailedAttempt settings retained x := hfailed x (by rw [hsplit]; simp)
      obtain ⟨delay, hattempted⟩ : ∃ delay, Attempted codec settings retained
          (afterFailures s ys.length) x delay :=
        (attempted_of_failed (s := afterFailures s ys.length) h hretains.after hx
          (by simp only [afterFailures]; omega)).1 (hentered x (by rw [hsplit]; simp))
      exact ⟨_, delay, hrun, hattempted⟩
    · refine ⟨_, hretains.autoRefreshLoop_eq h hfailed hlength, ?_⟩
      intro x projection hprojected
      exact settles_of_answered (s := afterFailures s xs.length) hretains.after hprojected

/-! ### An outage of the default loop -/

/-- The successor of the first credential. -/
def heldSuccessor : RetainedRefreshSuccessor :=
  ⟨firstAuth.revision, { firstAuth with revision := "r2" }⟩

/-- A turn whose commit could not be stored. -/
def retainingTurn : Turn :=
  { garbledTurn with refreshed := .error (.postDispatchPersistence heldSuccessor) }

/-- A turn whose projection finds the storage mounted read-only. -/
def outageTurn : Turn :=
  { garbledTurn with
    projected := .error (.osError "read-only auth mount")
    handlerWait := ⟨0, [⟨.loaded firstAuth, 10, .slept⟩]⟩ }

lemma defaultAutoRefresh_valid : defaultAutoRefresh.Valid where
  initial_pos := by decide
  max_pos := by decide
  jitter_nonneg := by decide +kernel
  initial_le_max := by decide

lemma retains_retainingTurn : Retains plainCodec defaultAutoRefresh {} retainingTurn heldSuccessor
    { retainedSuccessor := some heldSuccessor, waits := 1 } where
  before := rfl
  after := rfl
  turn_eq := by
    have hscheduled : scheduledCookieAuth plainCodec defaultAutoRefresh retainingTurn =
        .ok (some firstAuth) := scheduledCookieAuth_garbledTurn
    rw [turn, refreshTurn, hscheduled]
    rfl

lemma failedAttempt_outageTurn : FailedAttempt defaultAutoRefresh heldSuccessor outageTurn where
  failed := ⟨_, rfl, rfl⟩
  random_nonneg := le_refl _
  waited := by
    intro delay hdelay
    have hover : delay ≤ 10 := by
      have hmax : defaultAutoRefresh.preDispatchRetryMaxSeconds = 10 := rfl
      rwa [hmax] at hdelay
    refine ⟨false, ?_⟩
    simp [waitForCredentialChange, pollForCredentialChange, outageTurn, currentRevision,
      heldSuccessor, hover]

/-- Three failures in a row leave the successor to a fourth attempt. -/
theorem outlives_iff_three : Outlives plainCodec defaultAutoRefresh heldSuccessor
    { retainedSuccessor := some heldSuccessor, waits := 1 } (List.replicate 3 outageTurn) := by
  refine (outlives_iff defaultAutoRefresh_valid retains_retainingTurn ?_).2 ⟨by decide, ?_⟩ <;>
    intro x hx <;> rw [List.eq_of_mem_replicate hx]
  · exact failedAttempt_outageTurn
  · exact ⟨_, _, rfl, rfl⟩

/-- After 1025 failures in a row, the loop ends with the successor. -/
theorem not_outlives_of_outage :
    ¬ ∀ codec settings s₀ x₀ retained s xs, settings.Valid →
      Retains codec settings s₀ x₀ retained s →
      (∀ x ∈ xs, FailedAttempt settings retained x) → Outlives codec settings retained s xs := by
  intro h
  have hfailed : ∀ x ∈ List.replicate 1025 outageTurn,
      FailedAttempt defaultAutoRefresh heldSuccessor x := by
    intro x hx
    rw [List.eq_of_mem_replicate hx]
    exact failedAttempt_outageTurn
  have hlength : floatExponentLimit < (List.replicate 1025 outageTurn).length := by
    rw [List.length_replicate]
    decide
  exact retains_retainingTurn.not_outlives defaultAutoRefresh_valid hfailed hlength
    (h plainCodec defaultAutoRefresh {} retainingTurn heldSuccessor _ _ defaultAutoRefresh_valid
      retains_retainingTurn hfailed)

end EnjiGuard.AuthSession
