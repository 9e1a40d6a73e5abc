import EnjiGuard.Audit.Status
import EnjiGuard.Foundation.Double

/-!
# Waiting for audits

The wait command reads the status until every audit is complete, one has failed or is missing, or
the time is up. The status that is read and the time that passes between two readings of the clock
are anything.
-/

namespace EnjiGuard.Audit

open Foundation

/-! ### The status of a repository -/

structure AuditStatus where
  repoId : String
  currentHeadSha : Option String
  items : List AuditStatusItem
  deriving DecidableEq, Repr

/-- The audits with a task that is queued or running. -/
def AuditStatus.active (status : AuditStatus) : List String :=
  (status.items.filter fun item =>
    item.taskLifecycle = .queued || item.taskLifecycle = .running).map AuditStatusItem.auditKey

/-- The audits without a report to read. -/
def AuditStatus.missing (status : AuditStatus) : List String :=
  (status.items.filter fun item => !item.canRead).map AuditStatusItem.auditKey

def AuditStatus.failed (status : AuditStatus) : List String :=
  (status.items.filter fun item => item.taskLifecycle = .failed).map AuditStatusItem.auditKey

/-- No audit is active, missing or failed. -/
def AuditStatus.complete (status : AuditStatus) : Bool :=
  decide (status.active = []) && decide (status.missing = []) && decide (status.failed = [])

/-! ### The wait -/

/-- How long to wait, and how often to read the status and to report progress. -/
structure AuditWaitOptions where
  pollSeconds : ℚ
  timeoutSeconds : ℚ
  heartbeatSeconds : ℚ
  deriving DecidableEq

/-- Why a result is what it is. -/
inductive WaitReason
  | complete
  | waiting
  | failed
  | missing
  | timeout
  deriving DecidableEq, Repr

/-- What a status means for a wait. -/
structure AuditWaitResult where
  repoId : String
  status : AuditStatus
  complete : Bool
  timedOut : Bool
  reason : WaitReason
  elapsedSeconds : ℤ
  deriving DecidableEq

/-- Intervals have to be positive, and a timeout not negative. -/
def validateWaitOptions (options : AuditWaitOptions) : Except String Unit :=
  if options.pollSeconds ≤ 0 then .error "poll interval must be positive"
  else if options.timeoutSeconds < 0 then .error "timeout must not be negative"
  else if options.heartbeatSeconds ≤ 0 then .error "heartbeat interval must be positive"
  else .ok ()

/-- The result of a read. -/
def waitResult (repoId : String) (status : AuditStatus) (startedAt : ℚ) (timedOut : Bool)
    (now : ℚ) : AuditWaitResult where
  repoId := repoId
  status := status
  complete := status.complete && !timedOut
  timedOut := timedOut
  reason :=
    if status.failed ≠ [] then .failed
    else if timedOut then .timeout
    else if status.active ≠ [] then .waiting
    else if status.missing ≠ [] then .missing
    else .complete
  elapsedSeconds := roundHalfEven (now - startedAt)

/-- A clock that never goes back: it starts somewhere, and before the `n`-th read of the status is
back, some time passes beyond the sleep that was asked for. -/
structure Clock where
  start : ℚ
  delay : Nat → ℚ
  delay_nonneg : ∀ n, 0 ≤ delay n

/-- What a wait does, with the clock as it read it last. -/
inductive WaitEvent
  | read (now : ℚ) (status : AuditStatus)
  | heartbeat (now : ℚ) (result : AuditWaitResult)
  | sleep (now : ℚ) (seconds : ℚ)
  deriving DecidableEq

section

variable (repoId : String) (options : AuditWaitOptions) (heartbeat : Bool) (clock : Clock)
variable (reads : Nat → AuditStatus)

/-- The time at which the wait gives up. -/
def Clock.deadline : ℚ := clock.start + options.timeoutSeconds

/-- The loop from the `n`-th read on, which is not back before a time. Without fuel it has not
ended. -/
def waitLoop : Nat → Nat → ℚ → ℚ → Option (List WaitEvent × AuditWaitResult)
  | 0, _, _, _ => none
  | fuel + 1, n, before, nextHeartbeatAt =>
    let status := reads n
    let now := before + clock.delay n
    let timedOut := decide (clock.deadline options ≤ now)
    let result := waitResult repoId status clock.start timedOut now
    if result.complete ∨ result.reason ∈ [.failed, .missing] ∨ timedOut then
      some ([.read now status], result)
    else
      let beats := heartbeat && decide (nextHeartbeatAt ≤ now)
      let seconds := min options.pollSeconds (clock.deadline options - now)
      match waitLoop fuel (n + 1) (now + seconds)
        (if beats then nextHeartbeatAt + options.heartbeatSeconds else nextHeartbeatAt) with
      | none => none
      | some (log, final) =>
        some (.read now status :: (if beats then [.heartbeat now result] else []) ++
          .sleep now seconds :: log, final)

/-- Waits until the audits are complete, one has failed or is missing, or the time is up. -/
def waitForCompletion (fuel : Nat) :
    Except String (Option (List WaitEvent × AuditWaitResult)) := do
  validateWaitOptions options
  return waitLoop repoId options heartbeat clock reads fuel 0 clock.start clock.start

/-! ### What a wait does -/

def WaitEvent.asRead : WaitEvent → Option (ℚ × AuditStatus)
  | .read now status => some (now, status)
  | _ => none

def WaitEvent.asHeartbeat : WaitEvent → Option (ℚ × AuditWaitResult)
  | .heartbeat now result => some (now, result)
  | _ => none

/-- The reads of a log, with the clock as it was read after each. -/
def readsOf (log : List WaitEvent) : List (ℚ × AuditStatus) := log.filterMap WaitEvent.asRead

def heartbeatsOf (log : List WaitEvent) : List (ℚ × AuditWaitResult) :=
  log.filterMap WaitEvent.asHeartbeat

/-- A status that ends a wait before the deadline: it is complete, an audit has failed, or one is
missing while none is active. -/
def AuditStatus.Settles (status : AuditStatus) : Prop :=
  status.complete = true ∨ status.failed ≠ [] ∨ status.missing ≠ [] ∧ status.active = []

/-- A log from the `n`-th read on ends with the first read that settles the wait or is not back
before the deadline, and its result is the result of that read. -/
structure EndsWith (n : Nat) (earlier : List WaitEvent) (now : ℚ) (log : List WaitEvent)
    (result : AuditWaitResult) : Prop where
  log_eq : log = earlier ++ [.read now (reads (n + (readsOf earlier).length))]
  reads_eq : (readsOf earlier).map Prod.snd =
    (List.range' n (readsOf earlier).length).map reads
  unsettled : ∀ read ∈ readsOf earlier, ¬ read.2.Settles ∧ read.1 < clock.deadline options
  last : (reads (n + (readsOf earlier).length)).Settles ∨ clock.deadline options ≤ now
  result_eq : result = waitResult repoId (reads (n + (readsOf earlier).length)) clock.start
    (decide (clock.deadline options ≤ now)) now

/-- What a wait does until it returns: every sleep is positive and ends by the deadline; the first
read that settles it or is not back before the deadline is returned, as complete only when it is
back before; and until any time there are at most as many heartbeats as intervals have begun. -/
structure Waited (log : List WaitEvent) (result : AuditWaitResult) : Prop where
  sleeps : ∀ now seconds, .sleep now seconds ∈ log →
    0 < seconds ∧ now + seconds ≤ clock.deadline options
  returns : ∃ earlier now, EndsWith repoId options clock reads 0 earlier now log result ∧
    (result.complete = true → now < clock.deadline options)
  heartbeats : ∀ t, ((heartbeatsOf log).filter fun beat => beat.1 ≤ t).length ≤
    (⌊(t - clock.start) / options.heartbeatSeconds⌋ + 1).toNat

end

variable {repoId : String} {options : AuditWaitOptions} {heartbeat : Bool} {clock : Clock}
variable {reads : Nat → AuditStatus} {fuel n : Nat} {before nextHeartbeatAt : ℚ}
variable {log : List WaitEvent} {result : AuditWaitResult}

lemma validateWaitOptions_eq_ok_iff : validateWaitOptions options = .ok () ↔
    0 < options.pollSeconds ∧ 0 ≤ options.timeoutSeconds ∧ 0 < options.heartbeatSeconds := by
  simp only [validateWaitOptions]
  split_ifs with hpoll htimeout hheartbeat
  · simp [hpoll]
  · simp [htimeout]
  · simp [hheartbeat]
  · simp [not_le.1 hpoll, not_lt.1 htimeout, not_le.1 hheartbeat]

/-- A result ends the wait exactly when its status settles it or the time is up. -/
lemma ends_iff {status : AuditStatus} {startedAt now deadline : ℚ} :
    ((waitResult repoId status startedAt (decide (deadline ≤ now)) now).complete = true ∨
      (waitResult repoId status startedAt (decide (deadline ≤ now)) now).reason ∈
        [WaitReason.failed, WaitReason.missing] ∨ decide (deadline ≤ now) = true) ↔
      status.Settles ∨ deadline ≤ now := by
  by_cases htimedOut : deadline ≤ now
  · simp [htimedOut]
  · simp only [waitResult, AuditStatus.Settles, htimedOut, decide_false, Bool.not_false,
      Bool.and_true, or_false, Bool.false_eq_true, if_false]
    refine or_congr_right ?_
    by_cases hfailed : status.failed = []
    · by_cases hactive : status.active = []
      · by_cases hmissing : status.missing = [] <;> simp [hfailed, hactive, hmissing]
      · simp [hfailed, hactive]
    · simp [hfailed]

/-- One turn of the loop: it returns the read, or it sleeps and goes on. -/
lemma waitLoop_cases
    (h : waitLoop repoId options heartbeat clock reads (fuel + 1) n before nextHeartbeatAt =
      some (log, result)) :
    let now := before + clock.delay n
    let timedOut := decide (clock.deadline options ≤ now)
    let beats := heartbeat && decide (nextHeartbeatAt ≤ now)
    let seconds := min options.pollSeconds (clock.deadline options - now)
    ((reads n).Settles ∨ clock.deadline options ≤ now) ∧ log = [.read now (reads n)] ∧
        result = waitResult repoId (reads n) clock.start timedOut now ∨
      ¬ (reads n).Settles ∧ now < clock.deadline options ∧
        ∃ rest, waitLoop repoId options heartbeat clock reads fuel (n + 1) (now + seconds)
            (if beats then nextHeartbeatAt + options.heartbeatSeconds else nextHeartbeatAt) =
              some (rest, result) ∧
          log = .read now (reads n) :: (if beats then
            [.heartbeat now (waitResult repoId (reads n) clock.start timedOut now)] else []) ++
              .sleep now seconds :: rest := by
  intro now timedOut beats seconds
  rw [waitLoop] at h
  by_cases hends : (reads n).Settles ∨ clock.deadline options ≤ now
  · rw [if_pos (ends_iff.2 hends)] at h
    cases h
    exact .inl ⟨hends, rfl, rfl⟩
  · rw [if_neg (mt ends_iff.1 hends)] at h
    obtain ⟨hsettles, hdeadline⟩ := not_or.1 hends
    refine .inr ⟨hsettles, not_le.1 hdeadline, ?_⟩
    rcases hrest : waitLoop repoId options heartbeat clock reads fuel (n + 1) (now + seconds)
      (if beats then nextHeartbeatAt + options.heartbeatSeconds else nextHeartbeatAt)
      with _ | ⟨rest, final⟩
    · simp only [now, seconds, beats] at hrest
      simp only [hrest] at h
      cases h
    · simp only [now, seconds, beats] at hrest
      simp only [hrest] at h
      cases h
      exact ⟨rest, rfl, rfl⟩

/-! ### Runs of the loop -/

/-- The loop ends: every sleep takes a whole poll interval off what is left, or all of it. -/
lemma exists_of_waitLoop (hpoll : 0 < options.pollSeconds)
    (hfuel : clock.deadline options - before ≤ fuel * options.pollSeconds) :
    ∃ run, waitLoop repoId options heartbeat clock reads (fuel + 1) n before nextHeartbeatAt =
      some run := by
  induction fuel generalizing n before nextHeartbeatAt with
  | zero =>
    have hlate : clock.deadline options ≤ before + clock.delay n := by
      have hdelay := clock.delay_nonneg n
      simp only [Nat.cast_zero, zero_mul] at hfuel
      linarith
    rw [waitLoop, if_pos (ends_iff.2 (.inr hlate))]
    exact ⟨_, rfl⟩
  | succ fuel ih =>
    rw [waitLoop]
    by_cases hends : (reads n).Settles ∨ clock.deadline options ≤ before + clock.delay n
    · rw [if_pos (ends_iff.2 hends)]
      exact ⟨_, rfl⟩
    · rw [if_neg (mt ends_iff.1 hends)]
      have hleft : clock.deadline options - (before + clock.delay n + min options.pollSeconds
          (clock.deadline options - (before + clock.delay n))) ≤ fuel * options.pollSeconds := by
        have hdelay := clock.delay_nonneg n
        push_cast at hfuel
        rcases min_cases options.pollSeconds (clock.deadline options - (before + clock.delay n))
          with ⟨heq, -⟩ | ⟨heq, -⟩
        · rw [heq]
          linarith
        · rw [heq]
          have hnonneg : 0 ≤ fuel * options.pollSeconds := by positivity
          linarith
      obtain ⟨⟨log, final⟩, hrest⟩ := @ih (n + 1) _
        (if heartbeat && decide (nextHeartbeatAt ≤ before + clock.delay n)
          then nextHeartbeatAt + options.heartbeatSeconds else nextHeartbeatAt) hleft
      simp only [hrest]
      exact ⟨_, rfl⟩

/-- Every sleep is positive and ends by the deadline. -/
lemma sleeps_of_waitLoop (hpoll : 0 < options.pollSeconds)
    (h : waitLoop repoId options heartbeat clock reads fuel n before nextHeartbeatAt =
      some (log, result)) {now seconds : ℚ} (hmem : .sleep now seconds ∈ log) :
    0 < seconds ∧ now + seconds ≤ clock.deadline options := by
  induction fuel generalizing n before nextHeartbeatAt log with
  | zero => cases h
  | succ fuel ih =>
    rcases waitLoop_cases h with ⟨-, rfl, -⟩ | ⟨-, hdeadline, rest, hrest, rfl⟩
    · simp at hmem
    · have hcases : .sleep now seconds = WaitEvent.sleep (before + clock.delay n)
          (min options.pollSeconds (clock.deadline options - (before + clock.delay n))) ∨
          .sleep now seconds ∈ rest := by
        split_ifs at hmem <;> simpa using hmem
      rcases hcases with heq | hmem
      · cases heq
        refine ⟨lt_min hpoll (sub_pos.2 hdeadline), ?_⟩
        have hle := min_le_right options.pollSeconds
          (clock.deadline options - (before + clock.delay n))
        linarith
      · exact ih hrest hmem

/-- The reads of a turn of the loop that goes on. -/
lemma readsOf_turn (now seconds : ℚ) (status : AuditStatus) (beats : Bool)
    (result : AuditWaitResult) (log : List WaitEvent) :
    readsOf (.read now status :: (if beats then [.heartbeat now result] else []) ++
      .sleep now seconds :: log) = (now, status) :: readsOf log := by
  cases beats <;> rfl

/-- The loop returns the first read that settles the wait or is not back before the deadline. -/
lemma exists_endsWith_of_waitLoop
    (h : waitLoop repoId options heartbeat clock reads fuel n before nextHeartbeatAt =
      some (log, result)) :
    ∃ earlier now, EndsWith repoId options clock reads n earlier now log result := by
  induction fuel generalizing n before nextHeartbeatAt log with
  | zero => cases h
  | succ fuel ih =>
    rcases waitLoop_cases h with ⟨hends, rfl, rfl⟩ | ⟨hsettles, hdeadline, rest, hrest, rfl⟩
    · exact ⟨[], before + clock.delay n, rfl, rfl, List.forall_mem_nil _, hends, rfl⟩
    · obtain ⟨earlier, now, hearlier⟩ := ih hrest
      -- The turn comes before what the rest of the run did earlier.
      have hlength : ∀ event : ℚ × AuditStatus, n + (event :: readsOf earlier).length =
          n + 1 + (readsOf earlier).length := fun event => by
        rw [List.length_cons]
        omega
      refine ⟨.read (before + clock.delay n) (reads n) ::
        (if heartbeat && decide (nextHeartbeatAt ≤ before + clock.delay n) then
          [.heartbeat (before + clock.delay n) (waitResult repoId (reads n) clock.start
            (decide (clock.deadline options ≤ before + clock.delay n)) (before + clock.delay n))]
        else []) ++ .sleep (before + clock.delay n) (min options.pollSeconds
          (clock.deadline options - (before + clock.delay n))) :: earlier, now, ?_, ?_, ?_, ?_, ?_⟩
      · rw [readsOf_turn, hlength, hearlier.log_eq]
        simp
      · rw [readsOf_turn, List.map_cons, hearlier.reads_eq, List.length_cons, List.range'_succ]
        simp
      · rw [readsOf_turn, List.forall_mem_cons]
        exact ⟨⟨hsettles, hdeadline⟩, hearlier.unsettled⟩
      · rw [readsOf_turn, hlength]
        exact hearlier.last
      · rw [readsOf_turn, hlength]
        exact hearlier.result_eq

/-- The heartbeats of a turn of the loop that goes on. -/
lemma heartbeatsOf_turn (now seconds : ℚ) (status : AuditStatus) (beats : Bool)
    (result : AuditWaitResult) (log : List WaitEvent) :
    heartbeatsOf (.read now status :: (if beats then [.heartbeat now result] else []) ++
      .sleep now seconds :: log) =
        (if beats then [(now, result)] else []) ++ heartbeatsOf log := by
  cases beats <;> rfl

/-- Until any time there are at most as many heartbeats as intervals have begun. -/
lemma heartbeats_of_waitLoop (hinterval : 0 < options.heartbeatSeconds)
    (h : waitLoop repoId options heartbeat clock reads fuel n before nextHeartbeatAt =
      some (log, result)) (t : ℚ) :
    ((heartbeatsOf log).filter fun beat => beat.1 ≤ t).length ≤
      (⌊(t - nextHeartbeatAt) / options.heartbeatSeconds⌋ + 1).toNat := by
  induction fuel generalizing n before nextHeartbeatAt log with
  | zero => cases h
  | succ fuel ih =>
    rcases waitLoop_cases h with ⟨-, rfl, -⟩ | ⟨-, -, rest, hrest, rfl⟩
    · exact Nat.zero_le _
    · have hcount := ih hrest
      rw [heartbeatsOf_turn, List.filter_append, List.length_append]
      rcases hbeats : heartbeat && decide (nextHeartbeatAt ≤ before + clock.delay n) with _ | _
      · simp only [hbeats, Bool.false_eq_true, if_false] at hcount ⊢
        simpa using hcount
      · simp only [hbeats, if_true] at hcount ⊢
        have hdue : nextHeartbeatAt ≤ before + clock.delay n := by
          simp only [Bool.and_eq_true, decide_eq_true_eq] at hbeats
          exact hbeats.2
        have hfloor : ⌊(t - (nextHeartbeatAt + options.heartbeatSeconds)) /
            options.heartbeatSeconds⌋ =
            ⌊(t - nextHeartbeatAt) / options.heartbeatSeconds⌋ - 1 := by
          rw [← Int.floor_sub_one, ← sub_sub, sub_div, div_self hinterval.ne']
        rw [hfloor] at hcount
        by_cases hearly : before + clock.delay n ≤ t
        · have hnonneg : 0 ≤ ⌊(t - nextHeartbeatAt) / options.heartbeatSeconds⌋ :=
            Int.floor_nonneg.2 (div_nonneg (by linarith) hinterval.le)
          simp only [List.filter_cons, hearly, decide_true, if_true, List.filter_nil,
            List.length_singleton]
          omega
        · simp only [List.filter_cons, hearly, decide_false, Bool.false_eq_true, if_false,
            List.filter_nil, List.length_nil]
          omega

/-- A clock on which nothing but sleeping takes time. -/
def idleClock : Clock := ⟨0, fun _ => 0, fun _ => le_rfl⟩

def statusOfOne (lifecycle : AuditTaskLifecycle) : AuditStatus :=
  ⟨"repo", none, [⟨"audit.security", "Security", compareHeads none none, true, lifecycle, none,
    none, none, none, none, ⟨.unknown, .resolveUnknownHead, none, none, none, none, none⟩⟩]⟩

end EnjiGuard.Audit
