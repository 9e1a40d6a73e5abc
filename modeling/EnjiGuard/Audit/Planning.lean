import EnjiGuard.Audit.Scheduling
import EnjiGuard.Foundation.Traversing

/-!
# What a plan keeps

A schedule and an improvement job are planned from the setting that is there and an update that
names some of its fields. A second plan of the same update changes nothing more. A field that is not
named is kept, but for the time that was left to the service: it goes back to a default.
-/

namespace EnjiGuard.Audit

open Foundation

section

variable {text : PlanText} {requested existingTime existingSource : Option String}
variable {autoDefaultTime auditKey : String} {time : ScheduleTimeSelection}

/-! ### What is planned -/

/-- What the plan of a schedule is made of. -/
lemma planScheduleUpdate_eq_some_iff {existing : Option AuditSchedule}
    {update : AuditScheduleUpdate} {planned : AuditSchedule} :
    planScheduleUpdate text existing auditKey update = .ok (some planned) ↔
      validateScheduleUpdate text update = .ok () ∧ isAuditKey auditKey = true ∧
        (existing ≠ none ∨ update.enabled = some true) ∧
        ∃ time, selectScheduleTime text update.scheduleTime
          (existing.bind AuditSchedule.scheduleTime)
          (existing.bind AuditSchedule.scheduleTimeSource) "00:00" = .ok time ∧
          planned = scheduleWith existing auditKey update time := by
  unfold planScheduleUpdate
  rcases validateScheduleUpdate text update with e | ⟨⟩
  · simp [bind, Except.bind]
  · simp only [bind, Except.bind]
    by_cases hkey : isAuditKey auditKey = true
    · simp only [hkey, not_true, if_false]
      by_cases habsent : existing = none ∧ update.enabled ≠ some true
      · simp only [habsent]
        simp [pure, Except.pure, habsent]
      · have hpresent : existing ≠ none ∨ update.enabled = some true := by
          rcases not_and_or.1 habsent with hpresent | henabled
          · exact .inl hpresent
          · exact .inr (not_not.1 henabled)
        rw [if_neg habsent]
        rcases selectScheduleTime text update.scheduleTime
          (existing.bind AuditSchedule.scheduleTime)
          (existing.bind AuditSchedule.scheduleTimeSource) "00:00" with e | time
        · simp
        · simp only [pure, Except.pure, Except.ok.injEq, Option.some.injEq, true_and, hpresent,
            exists_eq_left']
          exact eq_comm
    · simp [hkey, throw, throwThe, MonadExceptOf.throw]

/-- What the plan of a job is made of. -/
lemma desiredJob_eq_some_iff {existing : Option ImprovementJob}
    {definition : ImprovementDefinition} {update : ImprovementJobUpdate}
    {desired : ImprovementJob} :
    desiredJob text existing definition update = .ok (some desired) ↔
      validateImprovementJobUpdate text update = .ok () ∧
        (existing ≠ none ∨ update.enabled = some true) ∧
        ∃ timezone timing,
          (nonempty update.timezone).or (existing.bind ImprovementJob.timezone) = some timezone ∧
          selectPreservedAutoTime text update.scheduleTime
            (existing.bind ImprovementJob.scheduleTime) (jobSource existing) "09:00" =
              .ok timing ∧
          desired = jobWith existing definition update timezone timing := by
  unfold desiredJob
  rcases validateImprovementJobUpdate text update with e | ⟨⟩
  · simp [bind, Except.bind]
  · simp only [bind, Except.bind]
    by_cases habsent : existing = none ∧ update.enabled ≠ some true
    · rw [if_pos habsent]
      simp [pure, Except.pure, habsent]
    · have hpresent : existing ≠ none ∨ update.enabled = some true := by
        rcases not_and_or.1 habsent with hpresent | henabled
        · exact .inl hpresent
        · exact .inr (not_not.1 henabled)
      rw [if_neg habsent]
      rcases (nonempty update.timezone).or (existing.bind ImprovementJob.timezone)
        with _ | timezone
      · simp [throw, throwThe, MonadExceptOf.throw]
      · simp only [pure, Except.pure]
        rcases selectPreservedAutoTime text update.scheduleTime
          (existing.bind ImprovementJob.scheduleTime) (jobSource existing) "09:00" with e | timing
        · simp
        · simp only [Except.ok.injEq, Option.some.injEq, true_and, hpresent]
          constructor
          · rintro rfl
            exact ⟨timezone, timing, rfl, rfl, rfl⟩
          · rintro ⟨_, _, rfl, rfl, rfl⟩
            rfl

/-! ### A second plan -/

lemma nonempty_of_ne {value : String} (h : value ≠ "") : nonempty (some value) = some value := by
  simp [nonempty, h]

lemma nonempty_getD_ne (value : Option String) {fallback : String} (h : fallback ≠ "") :
    (nonempty value).getD fallback ≠ "" := by
  rcases hvalue : nonempty value with _ | filled
  · exact h
  · exact of_decide_eq_true (Option.filter_eq_some_iff.1 hvalue).2

/-- A text that is filled in is filled in the same way again. -/
lemma nonempty_getD_again (value : Option String) (fallback : String) :
    (nonempty (some ((nonempty value).getD fallback))).getD fallback =
      (nonempty value).getD fallback := by
  by_cases hempty : (nonempty value).getD fallback = ""
  · rcases hvalue : nonempty value with _ | filled
    · obtain rfl : fallback = "" := by simpa [hvalue] using hempty
      rfl
    · rw [hvalue] at hempty
      exact absurd hempty (of_decide_eq_true (Option.filter_eq_some_iff.1 hvalue).2)
  · rw [nonempty_of_ne hempty, Option.getD_some]

/-- What is named, or else filled in, stays when it is planned again. -/
lemma getD_again (named : Option String) (other : String) {filled : String} (h : filled ≠ "") :
    named.getD ((nonempty (some (named.getD filled))).getD other) = named.getD filled := by
  cases named with
  | none => simp [nonempty_of_ne h]
  | some value => rfl

lemma getD_getD {α : Type} (named : Option α) (a : α) :
    named.getD (named.getD a) = named.getD a := by
  cases named <;> rfl

/-- A time that is selected comes from the service or from a user. -/
lemma source_of_selectScheduleTime
    (h : selectScheduleTime text requested existingTime existingSource autoDefaultTime = .ok time) :
    time.scheduleTimeSource = "auto" ∨ time.scheduleTimeSource = "user" := by
  rw [selectScheduleTime.eq_def] at h
  split at h
  · split_ifs at h
    · cases h
      exact .inl rfl
    · obtain ⟨value, -, hvalue⟩ := bind_eq_ok_iff.1 h
      cases hvalue
      exact .inr rfl
  · split_ifs at h <;> cases h
    · exact .inr rfl
    · exact .inl rfl

/-- A time that is selected is selected again. -/
lemma selectScheduleTime_again
    (h : selectScheduleTime text requested existingTime existingSource autoDefaultTime = .ok time) :
    selectScheduleTime text requested (some time.scheduleTime) (some time.scheduleTimeSource)
      autoDefaultTime = .ok time := by
  cases requested with
  | some requested => exact h
  | none =>
    rw [selectScheduleTime] at h ⊢
    split_ifs at h with huser <;> cases h
    · rw [if_pos rfl, nonempty_getD_again]
    · exact if_neg (show ¬ some "auto" = some "user" by decide)

lemma source_of_selectPreservedAutoTime
    (h : selectPreservedAutoTime text requested existingTime existingSource autoDefaultTime =
      .ok time) : time.scheduleTimeSource = "auto" ∨ time.scheduleTimeSource = "user" := by
  rw [selectPreservedAutoTime] at h
  split_ifs at h
  · cases h
    exact .inl rfl
  · exact source_of_selectScheduleTime h

lemma selectPreservedAutoTime_again
    (h : selectPreservedAutoTime text requested existingTime existingSource autoDefaultTime =
      .ok time) :
    selectPreservedAutoTime text requested (some time.scheduleTime)
      (some time.scheduleTimeSource) autoDefaultTime = .ok time := by
  rw [selectPreservedAutoTime] at h ⊢
  split_ifs at h ⊢ with hauto
  · cases h
    rw [nonempty_getD_again]
  · exact selectScheduleTime_again h

lemma scheduleWith_again (existing : Option AuditSchedule) (auditKey : String)
    (update : AuditScheduleUpdate) (time : ScheduleTimeSelection) :
    scheduleWith (some (scheduleWith existing auditKey update time)) auditKey update time =
      scheduleWith existing auditKey update time := by
  have hcadence := getD_again (nonempty update.cadence) "workdays"
    (nonempty_getD_ne (existing.bind AuditSchedule.cadence) (show "workdays" ≠ "" by decide))
  have htimezone := getD_again (nonempty update.timezone) "UTC"
    (nonempty_getD_ne (existing.bind AuditSchedule.timezone) (show "UTC" ≠ "" by decide))
  simp only [scheduleWith, Option.map_some, Option.bind_some, Option.getD_some, hcadence,
    htimezone, getD_getD]

/-- A planned schedule is planned again. -/
lemma planScheduleUpdate_again {existing : Option AuditSchedule} {update : AuditScheduleUpdate}
    {planned : AuditSchedule}
    (h : planScheduleUpdate text existing auditKey update = .ok (some planned)) :
    planScheduleUpdate text (some planned) auditKey update = .ok (some planned) := by
  obtain ⟨hvalid, hkey, -, time, htime, rfl⟩ := planScheduleUpdate_eq_some_iff.1 h
  exact planScheduleUpdate_eq_some_iff.2 ⟨hvalid, hkey, .inl (by simp), time,
    selectScheduleTime_again htime,
    (scheduleWith_again existing auditKey update time).symm⟩

/-- Two jobs are configured alike when they differ in the names they go by at most. -/
lemma effective_iff {job other : ImprovementJob} : job.effective other = true ↔
    job = { other with actionKey := job.actionKey, kind := job.kind } := by
  cases job
  cases other
  simp only [ImprovementJob.effective, Bool.and_eq_true, decide_eq_true_eq,
    ImprovementJob.mk.injEq, true_and]
  tauto

lemma jobWith_again (existing : Option ImprovementJob) (definition : ImprovementDefinition)
    (update : ImprovementJobUpdate) (timezone : String) (timing : ScheduleTimeSelection)
    (actionKey : String) (kind : Option String) :
    jobWith (some { jobWith existing definition update timezone timing with
        actionKey := actionKey, kind := kind }) definition update timezone timing =
      { jobWith existing definition update timezone timing with kind := kind } := by
  have hfrequency := getD_again (nonempty update.frequency) "workdays"
    (nonempty_getD_ne (existing.bind ImprovementJob.frequency) (show "workdays" ≠ "" by decide))
  simp only [jobWith, Option.bind_some, hfrequency, nonempty_getD_again, ImprovementJob.mk.injEq,
    true_and, and_true]
  refine ⟨?_, ?_, ?_⟩
  · cases update.enabled <;> rfl
  · cases update.automaticExecution <;> rfl
  · cases update.daysOfWeek with
    | some days => rfl
    | none =>
      -- the days that are filled in are not empty
      cases existing with
      | none => exact if_neg (show ¬ defaultWorkdays = [] by decide)
      | some existing =>
        by_cases hdays : existing.daysOfWeek = []
        · simp only [hdays, if_true]
          exact if_neg (show ¬ defaultWorkdays = [] by decide)
        · simp only [hdays, if_false]

/-- A planned job is planned again, whatever name the service returns it under. -/
lemma desiredJob_again {existing : Option ImprovementJob} {definition : ImprovementDefinition}
    {update : ImprovementJobUpdate} {desired returned : ImprovementJob}
    (h : desiredJob text existing definition update = .ok (some desired))
    (hreturned : returned.effective desired = true) :
    ∃ again, desiredJob text (some returned) definition update = .ok (some again) ∧
      returned.effective again = true := by
  obtain ⟨hvalid, -, timezone, timing, htimezone, htiming, rfl⟩ := desiredJob_eq_some_iff.1 h
  rw [effective_iff] at hreturned
  have hsource : jobSource (some returned) = some timing.scheduleTimeSource := by
    rw [hreturned]
    rcases source_of_selectPreservedAutoTime htiming with hauto | huser
    · simp [jobSource, jobWith, hauto]
    · simp [jobSource, jobWith, huser]
  refine ⟨_, desiredJob_eq_some_iff.2 ⟨hvalid, .inl (by simp), timezone, timing, ?_, ?_, rfl⟩, ?_⟩
  · have hkept : (some returned).bind ImprovementJob.timezone = some timezone := by
      rw [hreturned]
      rfl
    rw [hkept]
    rcases hnamed : nonempty update.timezone with _ | named
    · rfl
    · rw [hnamed] at htimezone
      exact htimezone
  · have hkept : (some returned).bind ImprovementJob.scheduleTime = some timing.scheduleTime := by
      rw [hreturned]
      rfl
    rw [hkept, hsource]
    exact selectPreservedAutoTime_again htiming
  · rw [hreturned, jobWith_again, effective_iff]

/-! ### What an update does not name -/

/-- A text that is there and not empty. -/
def Filled (value : Option String) : Prop := ∃ filled, value = some filled ∧ filled ≠ ""

/-- The time source of a setting that has one. -/
def HasSource (source : Option String) : Prop := source = some "auto" ∨ source = some "user"

/-- A schedule whose fields with a default are all there. -/
structure AuditSchedule.Populated (schedule : AuditSchedule) : Prop where
  cadence : Filled schedule.cadence
  scheduleTime : Filled schedule.scheduleTime
  scheduleTimeSource : HasSource schedule.scheduleTimeSource
  timezone : Filled schedule.timezone

/-- A job whose fields with a default are all there. -/
structure ImprovementJob.Populated (job : ImprovementJob) : Prop where
  providerVariantKey : Filled job.providerVariantKey
  frequency : Filled job.frequency
  daysOfWeek : job.daysOfWeek ≠ []
  scheduleTime : Filled job.scheduleTime
  scheduleTimeSource : HasSource job.scheduleTimeSource
  timezone : Filled job.timezone
  pentestMode : Filled job.pentestMode

/-- The fields of a schedule that an update does not name are those that were there. A requested
time names the time and its source. -/
structure AuditSchedule.Keeps (existing : AuditSchedule) (update : AuditScheduleUpdate)
    (planned : AuditSchedule) : Prop where
  enabled : update.enabled = none → planned.enabled = existing.enabled
  cadence : update.cadence = none → planned.cadence = existing.cadence
  windowDays : update.windowDays = none → planned.windowDays = existing.windowDays
  scheduleTime : update.scheduleTime = none → planned.scheduleTime = existing.scheduleTime ∧
    planned.scheduleTimeSource = existing.scheduleTimeSource
  timezone : update.timezone = none → planned.timezone = existing.timezone
  scheduleDay : planned.scheduleDay = existing.scheduleDay
  scheduleDayOfMonth : planned.scheduleDayOfMonth = existing.scheduleDayOfMonth
  windowStartTime : planned.windowStartTime = existing.windowStartTime
  windowEndTime : planned.windowEndTime = existing.windowEndTime
  windowMode : planned.windowMode = existing.windowMode

/-- The fields of a job that an update does not name are those that were there. A time that is left
to the service names the source only. -/
structure ImprovementJob.Keeps (existing : ImprovementJob) (update : ImprovementJobUpdate)
    (planned : ImprovementJob) : Prop where
  enabled : update.enabled = none → planned.enabled = existing.enabled
  automaticExecution : update.automaticExecution = none →
    planned.automaticExecution = existing.automaticExecution
  frequency : update.frequency = none → planned.frequency = existing.frequency
  daysOfWeek : update.daysOfWeek = none → planned.daysOfWeek = existing.daysOfWeek
  scheduleTime : update.scheduleTime = none ∨ update.scheduleTime = some "auto" →
    planned.scheduleTime = existing.scheduleTime
  scheduleTimeSource : update.scheduleTime = none →
    planned.scheduleTimeSource = existing.scheduleTimeSource
  timezone : update.timezone = none → planned.timezone = existing.timezone
  kind : planned.kind = existing.kind
  providerVariantKey : planned.providerVariantKey = existing.providerVariantKey
  pentestMode : planned.pentestMode = existing.pentestMode

/-- The time of a setting is not reset: the update names it, a user chose it, or it is what the
service gets by default. -/
def TimeStays (requested existingTime existingSource : Option String) (autoDefaultTime : String) :
    Prop :=
  requested ≠ none ∨ existingSource = some "user" ∨ existingTime = some autoDefaultTime

lemma Filled.nonempty_getD {value : Option String} (h : Filled value) (fallback : String) :
    some ((nonempty value).getD fallback) = value := by
  obtain ⟨filled, rfl, hfilled⟩ := h
  rw [nonempty_of_ne hfilled, Option.getD_some]

/-- The time that is selected when none is requested. -/
lemma exists_selectScheduleTime_none (htime : Filled existingTime)
    (hsource : HasSource existingSource) :
    ∃ time, selectScheduleTime text none existingTime existingSource autoDefaultTime = .ok time ∧
      (some time.scheduleTime = existingTime ∧ some time.scheduleTimeSource = existingSource ↔
        existingSource = some "user" ∨ existingTime = some autoDefaultTime) := by
  rw [selectScheduleTime]
  rcases hsource with rfl | rfl
  · rw [if_neg (by decide)]
    exact ⟨_, rfl, by simp [eq_comm]⟩
  · rw [if_pos rfl]
    exact ⟨_, rfl, by simp [htime.nonempty_getD]⟩

/-- A requested time of a valid update can be selected. -/
lemma exists_selectScheduleTime (hrequested : requested ≠ none)
    (hvalid : validateTimeUpdate text requested = .ok ()) :
    ∃ time, selectScheduleTime text requested existingTime existingSource autoDefaultTime =
      .ok time := by
  cases requested with
  | none => exact absurd rfl hrequested
  | some value =>
    rw [selectScheduleTime]
    split_ifs with hauto
    · exact ⟨_, rfl⟩
    · rw [validateTimeUpdate, if_neg hauto] at hvalid
      rcases htime : validateScheduleTime text value with e | time
      · rw [htime] at hvalid
        cases hvalid
      · exact ⟨⟨time, "user"⟩, rfl⟩

lemma validateTimeUpdate_of_schedule {update : AuditScheduleUpdate}
    (h : validateScheduleUpdate text update = .ok ()) :
    validateTimeUpdate text update.scheduleTime = .ok () := by
  have hrest : (do
      validateCadence update.cadence "schedule"
      validateTimeUpdate text update.scheduleTime
      validateTimezone text update.timezone) = .ok () := by
    unfold validateScheduleUpdate at h
    -- an update of nothing and days without a frequency are refused
    split_ifs at h
    all_goals first
      | cases h
      | exact h
      | exact (bind_eq_ok_iff.1 h).choose_spec.2
  obtain ⟨-, -, hrest⟩ := bind_eq_ok_iff.1 hrest
  exact (bind_eq_ok_iff.1 hrest).choose_spec.1

lemma validateTimeUpdate_of_job {update : ImprovementJobUpdate}
    (h : validateImprovementJobUpdate text update = .ok ()) :
    validateTimeUpdate text update.scheduleTime = .ok () := by
  unfold validateImprovementJobUpdate at h
  split_ifs at h
  · cases h
  · obtain ⟨-, -, h⟩ := bind_eq_ok_iff.1 h
    obtain ⟨-, -, h⟩ := bind_eq_ok_iff.1 h
    exact (bind_eq_ok_iff.1 h).choose_spec.1

/-- A time that is selected is the one that was there when none is requested. -/
def ScheduleTimeSelection.Stays (requested existingTime existingSource : Option String)
    (time : ScheduleTimeSelection) : Prop :=
  requested = none →
    some time.scheduleTime = existingTime ∧ some time.scheduleTimeSource = existingSource

/-- The time of a valid update can be selected, and it stays unless it is reset. -/
lemma selectScheduleTime_stays_iff (htime : Filled existingTime)
    (hsource : HasSource existingSource) (hvalid : validateTimeUpdate text requested = .ok ()) :
    (∃ time, selectScheduleTime text requested existingTime existingSource autoDefaultTime =
        .ok time ∧ time.Stays requested existingTime existingSource) ↔
      TimeStays requested existingTime existingSource autoDefaultTime := by
  by_cases hnamed : requested = none
  · subst hnamed
    obtain ⟨time, hselected, hiff⟩ := @exists_selectScheduleTime_none text _ _ autoDefaultTime
      htime hsource
    rw [TimeStays, ← hiff]
    constructor
    · rintro ⟨time', hselected', hstays⟩
      cases hselected.symm.trans hselected'
      exact .inr (hstays rfl)
    · intro hstays
      exact ⟨time, hselected, fun _ => hstays.resolve_left (not_not.2 rfl)⟩
  · obtain ⟨time, hselected⟩ := exists_selectScheduleTime hnamed hvalid
    exact iff_of_true ⟨time, hselected, fun h => absurd h hnamed⟩ (.inl hnamed)

/-- The time of a job that is selected is the one that was there when only its source is named. -/
def ScheduleTimeSelection.StaysSet (requested existingTime existingSource : Option String)
    (time : ScheduleTimeSelection) : Prop :=
  time.Stays requested existingTime existingSource ∧
    (requested = some "auto" → some time.scheduleTime = existingTime)

lemma selectPreservedAutoTime_staysSet_iff (htime : Filled existingTime)
    (hsource : HasSource existingSource) (hvalid : validateTimeUpdate text requested = .ok ()) :
    (∃ time, selectPreservedAutoTime text requested existingTime existingSource autoDefaultTime =
        .ok time ∧ time.StaysSet requested existingTime existingSource) ↔
      TimeStays requested existingTime existingSource autoDefaultTime := by
  rw [selectPreservedAutoTime]
  split_ifs with hauto
  · subst hauto
    refine iff_of_true ⟨_, rfl, fun h => ?_, fun _ => ?_⟩ (.inl (by simp))
    · cases h
    · exact htime.nonempty_getD autoDefaultTime
  · rw [← selectScheduleTime_stays_iff htime hsource hvalid]
    refine exists_congr fun time => and_congr_right fun _ => and_iff_left ?_
    exact fun h => absurd h hauto

lemma keeps_scheduleWith_iff {existing : AuditSchedule} {update : AuditScheduleUpdate}
    (hpopulated : existing.Populated) :
    existing.Keeps update (scheduleWith (some existing) auditKey update time) ↔
      time.Stays update.scheduleTime existing.scheduleTime existing.scheduleTimeSource := by
  refine ⟨fun hkeeps => hkeeps.scheduleTime, fun hstays => ?_⟩
  exact
    { enabled := fun h => by simp [scheduleWith, h]
      cadence := fun h => by
        simpa [scheduleWith, h, nonempty] using hpopulated.cadence.nonempty_getD "workdays"
      windowDays := fun h => by simp [scheduleWith, h]
      scheduleTime := hstays
      timezone := fun h => by
        simpa [scheduleWith, h, nonempty] using hpopulated.timezone.nonempty_getD "UTC"
      scheduleDay := rfl
      scheduleDayOfMonth := rfl
      windowStartTime := rfl
      windowEndTime := rfl
      windowMode := rfl }

/-- The plan of a schedule that is there keeps what the update does not name exactly when the time
stays. -/
lemma keeps_schedule_iff {existing : AuditSchedule} {update : AuditScheduleUpdate}
    (hpopulated : existing.Populated) (hkey : isAuditKey auditKey = true)
    (hvalid : validateScheduleUpdate text update = .ok ()) :
    (∃ planned, planScheduleUpdate text (some existing) auditKey update = .ok (some planned) ∧
        existing.Keeps update planned) ↔
      TimeStays update.scheduleTime existing.scheduleTime existing.scheduleTimeSource "00:00" := by
  rw [← selectScheduleTime_stays_iff hpopulated.scheduleTime hpopulated.scheduleTimeSource
    (validateTimeUpdate_of_schedule hvalid)]
  constructor
  · rintro ⟨planned, hplanned, hkeeps⟩
    obtain ⟨-, -, -, time, htime, rfl⟩ := planScheduleUpdate_eq_some_iff.1 hplanned
    exact ⟨time, htime, (keeps_scheduleWith_iff hpopulated).1 hkeeps⟩
  · rintro ⟨time, htime, hstays⟩
    exact ⟨_, planScheduleUpdate_eq_some_iff.2 ⟨hvalid, hkey, .inl (by simp), time, htime, rfl⟩,
      (keeps_scheduleWith_iff hpopulated).2 hstays⟩

lemma keeps_jobWith_iff {existing : ImprovementJob} {definition : ImprovementDefinition}
    {update : ImprovementJobUpdate} {timezone : String} (hpopulated : existing.Populated)
    (htimezone : (nonempty update.timezone).or existing.timezone = some timezone) :
    existing.Keeps update (jobWith (some existing) definition update timezone time) ↔
      time.StaysSet update.scheduleTime existing.scheduleTime existing.scheduleTimeSource := by
  refine ⟨fun hkeeps => ⟨fun h => ⟨hkeeps.scheduleTime (.inl h), hkeeps.scheduleTimeSource h⟩,
    fun h => hkeeps.scheduleTime (.inr h)⟩, fun hstays => ?_⟩
  exact
    { enabled := fun h => by simp [jobWith, h]
      automaticExecution := fun h => by simp [jobWith, h]
      frequency := fun h => by
        simpa [jobWith, h, nonempty] using hpopulated.frequency.nonempty_getD "workdays"
      daysOfWeek := fun h => by simp [jobWith, h, hpopulated.daysOfWeek]
      scheduleTime := fun h => h.elim (fun h => (hstays.1 h).1) hstays.2
      scheduleTimeSource := fun h => (hstays.1 h).2
      timezone := fun h => by
        rw [h] at htimezone
        exact htimezone.symm
      kind := rfl
      providerVariantKey := hpopulated.providerVariantKey.nonempty_getD definition.variantKey
      pentestMode := hpopulated.pentestMode.nonempty_getD "off" }

/-- The plan of a job that is there keeps what the update does not name exactly when the time
stays. -/
lemma keeps_job_iff {existing : ImprovementJob} (definition : ImprovementDefinition)
    {update : ImprovementJobUpdate} (hpopulated : existing.Populated)
    (hvalid : validateImprovementJobUpdate text update = .ok ()) :
    (∃ planned, desiredJob text (some existing) definition update = .ok (some planned) ∧
        existing.Keeps update planned) ↔
      TimeStays update.scheduleTime existing.scheduleTime existing.scheduleTimeSource "09:00" := by
  have hsource : jobSource (some existing) = existing.scheduleTimeSource := by
    rcases hpopulated.scheduleTimeSource with hauto | huser
    · simp [jobSource, hauto]
    · simp [jobSource, huser]
  have hzone : ∃ timezone, (nonempty update.timezone).or existing.timezone = some timezone := by
    obtain ⟨filled, hfilled, -⟩ := hpopulated.timezone
    rw [hfilled]
    cases nonempty update.timezone with
    | none => exact ⟨filled, rfl⟩
    | some named => exact ⟨named, rfl⟩
  rw [← selectPreservedAutoTime_staysSet_iff hpopulated.scheduleTime hpopulated.scheduleTimeSource
    (validateTimeUpdate_of_job hvalid), ← hsource]
  constructor
  · rintro ⟨planned, hplanned, hkeeps⟩
    obtain ⟨-, -, timezone, time, htimezone, htime, rfl⟩ := desiredJob_eq_some_iff.1 hplanned
    exact ⟨time, htime, hsource ▸ (keeps_jobWith_iff hpopulated htimezone).1 hkeeps⟩
  · rintro ⟨time, htime, hstays⟩
    obtain ⟨timezone, htimezone⟩ := hzone
    rw [hsource] at hstays
    exact ⟨_, desiredJob_eq_some_iff.2
        ⟨hvalid, .inl (by simp), timezone, time, htimezone, htime, rfl⟩,
      (keeps_jobWith_iff hpopulated htimezone).2 hstays⟩

end

/-- A valid update of a setting that is there keeps what it does not name exactly when the time
stays. -/
theorem keepsUnnamed_iff (text : PlanText) :
    (∀ (existing : AuditSchedule) (auditKey : String) (update : AuditScheduleUpdate),
      existing.Populated → isAuditKey auditKey = true →
      validateScheduleUpdate text update = .ok () →
      ((∃ planned, planScheduleUpdate text (some existing) auditKey update = .ok (some planned) ∧
          existing.Keeps update planned) ↔
        TimeStays update.scheduleTime existing.scheduleTime existing.scheduleTimeSource "00:00")) ∧
    ∀ (existing : ImprovementJob) (definition : ImprovementDefinition)
      (update : ImprovementJobUpdate), existing.Populated →
      validateImprovementJobUpdate text update = .ok () →
      ((∃ planned, desiredJob text (some existing) definition update = .ok (some planned) ∧
          existing.Keeps update planned) ↔
        TimeStays update.scheduleTime existing.scheduleTime existing.scheduleTimeSource "09:00") :=
  ⟨fun _ _ _ hpopulated hkey hvalid => keeps_schedule_iff hpopulated hkey hvalid,
    fun _ definition _ hpopulated hvalid => keeps_job_iff definition hpopulated hvalid⟩

def exampleJob (scheduleTime scheduleTimeSource : String) : ImprovementJob where
  actionKey := "vuln-fix"
  variantKey := "default"
  kind := some "vuln-fix"
  enabled := some true
  automaticExecution := some true
  providerVariantKey := some "default"
  frequency := some "weekly"
  daysOfWeek := ["mon"]
  scheduleTime := some scheduleTime
  scheduleTimeSource := some scheduleTimeSource
  timezone := some "UTC"
  pentestMode := some "off"

def exampleDefinition : ImprovementDefinition where
  actionKey := "improvement.vuln-fix"
  variantKey := "default"
  title := none
  description := none
  sourceAudit := some "audit.security"
  kind := some "vuln-fix"
  supported := true

lemma populated_exampleJob {scheduleTime scheduleTimeSource : String} (htime : scheduleTime ≠ "")
    (hsource : HasSource (some scheduleTimeSource)) :
    (exampleJob scheduleTime scheduleTimeSource).Populated where
  providerVariantKey := ⟨"default", rfl, by decide⟩
  frequency := ⟨"weekly", rfl, by decide⟩
  daysOfWeek := List.cons_ne_nil _ _
  scheduleTime := ⟨scheduleTime, rfl, htime⟩
  scheduleTimeSource := hsource
  timezone := ⟨"UTC", rfl, by decide⟩
  pentestMode := ⟨"off", rfl, by decide⟩

theorem keepsUnnamed_iff_user :
    (∃ planned, planScheduleUpdate plainPlanText
        (some ⟨"audit.security", true, some "daily", none, some 1, some "08:30", some "user",
          some "UTC", [], none, none, some "anytime"⟩) "audit.security" { enabled := some false } =
          .ok (some planned) ∧
        AuditSchedule.Keeps ⟨"audit.security", true, some "daily", none, some 1, some "08:30",
          some "user", some "UTC", [], none, none, some "anytime"⟩ { enabled := some false }
          planned) ∧
      (∃ planned, desiredJob plainPlanText (some (exampleJob "11:15" "user")) exampleDefinition
          { enabled := some false } = .ok (some planned) ∧
        (exampleJob "11:15" "user").Keeps { enabled := some false } planned) ∧
      ∃ planned, desiredJob plainPlanText (some (exampleJob "11:15" "user")) exampleDefinition
          { scheduleTime := some "auto" } = .ok (some planned) ∧
        (exampleJob "11:15" "user").Keeps { scheduleTime := some "auto" } planned :=
  ⟨((keepsUnnamed_iff plainPlanText).1 _ _ _
      ⟨⟨"daily", rfl, by decide⟩, ⟨"08:30", rfl, by decide⟩, .inr rfl, ⟨"UTC", rfl, by decide⟩⟩
      (by decide) rfl).2 (.inr (.inl rfl)),
    ((keepsUnnamed_iff plainPlanText).2 _ _ _ (populated_exampleJob (by decide) (.inr rfl)) rfl).2
      (.inr (.inl rfl)),
    ((keepsUnnamed_iff plainPlanText).2 _ _ _ (populated_exampleJob (by decide) (.inr rfl)) rfl).2
      (.inl (by decide))⟩

/-- Disabling a job whose time was left to the service moves its time. -/
theorem not_keeps_autoJob :
    (exampleJob "11:15" "auto").Populated ∧
    validateImprovementJobUpdate plainPlanText { enabled := some false } = .ok () ∧
    ¬ ∃ planned, desiredJob plainPlanText (some (exampleJob "11:15" "auto")) exampleDefinition
        { enabled := some false } = .ok (some planned) ∧
      (exampleJob "11:15" "auto").Keeps { enabled := some false } planned := by
  refine ⟨populated_exampleJob (by decide) (.inl rfl), rfl, ?_⟩
  rintro ⟨planned, hplanned, hkeeps⟩
  have hdesired : desiredJob plainPlanText (some (exampleJob "11:15" "auto")) exampleDefinition
      { enabled := some false } =
        .ok (some { exampleJob "09:00" "auto" with
          actionKey := "improvement.vuln-fix", enabled := some false }) := by
    decide +kernel
  cases hdesired.symm.trans hplanned
  exact absurd (hkeeps.scheduleTime (.inl rfl)) (by decide)

end EnjiGuard.Audit
