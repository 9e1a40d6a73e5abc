import EnjiGuard.Audit.Reducing
import EnjiGuard.Audit.Scheduling

/-!
# Reports and the runs that supersede them

A report is read from a history that the service keeps newest first, and beside it stands the
newest active run that supersedes it, if there is one. Of a report without an instant of its
completion nothing is known to be newer.
-/

namespace EnjiGuard.Audit

open Foundation

/-- The standard library's part, and texts without the blanks around them. -/
structure ReportCodec extends StatusCodec where
  strip : String → String

/-- An entry of the history of reports. -/
structure AuditReportRef where
  taskId : Option String
  completedAt : Option String
  collectedAt : Option String
  hasReport : Bool
  deriving DecidableEq, Repr

/-- An active run that is newer than a report. -/
structure AuditNewerRun where
  taskId : String
  status : Option String
  createdAt : Option String
  startedAt : Option String
  state : AuditTaskLifecycle
  deriving DecidableEq, Repr

section

variable (codec : ReportCodec)

/-- Whether a text is there and not blank. -/
def nonblank (value : Option String) : Bool :=
  value.elim false fun value => codec.strip value ≠ ""

/-- The instant a text stands for. -/
def parseTime (value : Option String) : Option Rat :=
  if nonblank codec value then value.bind fun value => codec.timestamp (codec.strip value) else none

/-- The first report of a history that can be read. -/
def chooseReportRef (refs : List AuditReportRef) : Option AuditReportRef :=
  refs.find? fun ref => ref.hasReport && nonblank codec ref.taskId && nonblank codec ref.completedAt

/-! ### Runs that supersede a report -/

/-- The key that runs newer than a report are compared by; no instant is before every instant. -/
structure NewerKey where
  started : Option Rat
  priority : Nat
  taskId : String
  status : String
  deriving DecidableEq

/-- The lexicographic order of keys. -/
def NewerKey.lt (a b : NewerKey) : Bool :=
  newestLt a.started b.started || (decide (a.started = b.started) &&
    (decide (a.priority < b.priority) || (decide (a.priority = b.priority) &&
      (decide (a.taskId < b.taskId) || (decide (a.taskId = b.taskId) &&
        decide (a.status < b.status))))))

/-- The text that says when a run began. -/
def AuditRun.begun (run : AuditRun) : Option String :=
  match nonempty run.startedAt with
  | some started => some started
  | none => run.createdAt

/-- A run with its key and its lifecycle. -/
structure NewerCandidate where
  key : NewerKey
  run : AuditRun
  state : AuditTaskLifecycle

/-- What a run that supersedes a report, which was completed at an instant, is compared by. Of a
stale report every active run counts, and an instant of zero counts as none. -/
def newerCandidate (ref : AuditReportRef) (completed : Rat) (actionKey : Option String)
    (reportIsStale : Bool) (run : AuditRun) : Option NewerCandidate :=
  let state := run.lifecycle codec.toStatusCodec
  match run.taskId with
  | none => none
  | some taskId =>
    if state ≠ .queued ∧ state ≠ .running then none
    else if actionKey ≠ none ∧ run.actionKey ≠ actionKey then none
    else if reportIsStale then
      some ⟨⟨(parseTime codec run.begun).filter (· ≠ 0), state.priority, taskId,
        run.status.getD ""⟩, run, state⟩
    else if run.taskId = ref.taskId then none
    else
      match parseTime codec run.begun with
      | none => none
      | some started =>
        if started ≤ completed then none
        else some ⟨⟨some started, state.priority, taskId, run.status.getD ""⟩, run, state⟩

/-- A run as it is shown beside a report. -/
def NewerCandidate.newerRun (candidate : NewerCandidate) : AuditNewerRun where
  taskId := candidate.run.taskId.getD ""
  status := candidate.run.status
  createdAt := candidate.run.createdAt
  startedAt := candidate.run.startedAt
  state := candidate.state

/-- The active run that is newer than a report, when there is an instant to compare with. -/
def newerRunForReport (ref : AuditReportRef) (runs : List AuditRun) (actionKey : Option String)
    (reportIsStale : Bool) : Option AuditNewerRun :=
  if nonempty ref.taskId = none then none
  else
    match parseTime codec ref.completedAt with
    | none => none
    | some completed =>
      (maxOf? (fun a b => a.key.lt b.key)
        (runs.filterMap (newerCandidate codec ref completed actionKey reportIsStale))).map
          NewerCandidate.newerRun

end

/-! ### The run that supersedes a report -/

section

variable {codec : ReportCodec} {ref : AuditReportRef} {runs runs' : List AuditRun}
variable {actionKey : Option String} {reportIsStale : Bool} {run : AuditRun} {completed : Rat}

/-- An active run of the action supersedes a report: a stale report by being active, another one
by being of another task and having begun after the report was completed. -/
structure Supersedes (codec : ReportCodec) (ref : AuditReportRef) (actionKey : Option String)
    (reportIsStale : Bool) (run : AuditRun) : Prop where
  named : run.taskId ≠ none
  active : isActiveRun codec.toStatusCodec run = true
  action : actionKey = none ∨ run.actionKey = actionKey
  newer : reportIsStale = true ∨ run.taskId ≠ ref.taskId ∧ ∃ completed started,
    parseTime codec ref.completedAt = some completed ∧
      parseTime codec run.begun = some started ∧ completed < started

/-- A report with a task and an instant of its completion. -/
def Dated (codec : ReportCodec) (ref : AuditReportRef) : Prop :=
  nonempty ref.taskId ≠ none ∧ parseTime codec ref.completedAt ≠ none

/-- What a run is compared by. -/
def newerKey (codec : ReportCodec) (reportIsStale : Bool) (run : AuditRun) : NewerKey where
  started := if reportIsStale then (parseTime codec run.begun).filter (· ≠ 0)
    else parseTime codec run.begun
  priority := (run.lifecycle codec.toStatusCodec).priority
  taskId := run.taskId.getD ""
  status := run.status.getD ""

/-- A run with its key and its lifecycle. -/
def candidateOf (codec : ReportCodec) (reportIsStale : Bool) (run : AuditRun) : NewerCandidate :=
  ⟨newerKey codec reportIsStale run, run, run.lifecycle codec.toStatusCodec⟩

/-- The candidates are the runs that supersede the report. -/
lemma newerCandidate_eq_some_iff {candidate : NewerCandidate}
    (hcompleted : parseTime codec ref.completedAt = some completed) :
    newerCandidate codec ref completed actionKey reportIsStale run = some candidate ↔
      Supersedes codec ref actionKey reportIsStale run ∧
        candidate = candidateOf codec reportIsStale run := by
  unfold newerCandidate
  rcases htask : run.taskId with _ | taskId
  · exact iff_of_false nofun fun h => h.1.named htask
  · have hkey : newerKey codec reportIsStale run =
        ⟨if reportIsStale then (parseTime codec run.begun).filter (· ≠ 0)
          else parseTime codec run.begun, (run.lifecycle codec.toStatusCodec).priority, taskId,
          run.status.getD ""⟩ := by
      rw [newerKey, htask, Option.getD_some]
    have hnamed : run.taskId ≠ none := by simp [htask]
    simp only [candidateOf, hkey]
    by_cases hidle : run.lifecycle codec.toStatusCodec ≠ .queued ∧
        run.lifecycle codec.toStatusCodec ≠ .running
    · rw [if_pos hidle]
      refine iff_of_false nofun fun h => ?_
      rcases isActiveRun_iff.1 h.1.active with hactive | hactive
      · exact hidle.1 hactive
      · exact hidle.2 hactive
    have hactive := isActiveRun_iff.2 (Decidable.or_iff_not_not_and_not.2 hidle)
    rw [if_neg hidle]
    by_cases hother : actionKey ≠ none ∧ run.actionKey ≠ actionKey
    · rw [if_pos hother]
      exact iff_of_false nofun fun h => not_or.2 hother h.1.action
    have haction := Decidable.or_iff_not_not_and_not.2 hother
    rw [if_neg hother]
    by_cases hstale : reportIsStale = true
    · rw [if_pos hstale, if_pos hstale, Option.some.injEq, eq_comm]
      exact (and_iff_right ⟨hnamed, hactive, haction, .inl hstale⟩).symm
    rw [if_neg hstale, if_neg hstale]
    by_cases hsame : some taskId = ref.taskId
    · rw [if_pos hsame]
      exact iff_of_false nofun fun h => (h.1.newer.resolve_left hstale).1 (htask.trans hsame)
    rw [if_neg hsame]
    rcases hbegun : parseTime codec run.begun with _ | started
    · refine iff_of_false nofun fun h => ?_
      obtain ⟨_, _, _, hstarted, _⟩ := (h.1.newer.resolve_left hstale).2
      rw [hbegun] at hstarted
      cases hstarted
    · simp only
      split_ifs with hbefore
      · refine iff_of_false nofun fun h => ?_
        obtain ⟨_, _, hfinished, hstarted, hlt⟩ := (h.1.newer.resolve_left hstale).2
        rw [hcompleted] at hfinished
        rw [hbegun] at hstarted
        cases hfinished
        cases hstarted
        exact absurd hlt (not_lt.2 hbefore)
      · rw [Option.some.injEq, eq_comm]
        refine (and_iff_right ⟨hnamed, hactive, haction, .inr ⟨?_, ?_⟩⟩).symm
        · rwa [htask]
        · exact ⟨completed, started, hcompleted, hbegun, not_le.1 hbefore⟩

lemma totalRanking_newerKey : TotalRanking NewerKey.lt where
  toRanking := by
    have hstatus : Ranking fun a b : NewerKey => decide (a.status < b.status) :=
      totalRanking_lt.toRanking.comap NewerKey.status
    have htask := Ranking.lexicographic totalRanking_lt NewerKey.taskId hstatus
    have hpriority := Ranking.lexicographic totalRanking_lt NewerKey.priority htask
    exact Ranking.lexicographic totalRanking_newestLt NewerKey.started hpriority
  eq {a b} hab hba := by
    simp only [NewerKey.lt, Bool.or_eq_false_iff, Bool.and_eq_false_iff, decide_eq_false_iff_not,
      not_lt] at hab hba
    have hstarted : a.started = b.started := totalRanking_newestLt.eq hab.1 hba.1
    simp only [hstarted, not_true_eq_false, false_or] at hab hba
    have hpriority : a.priority = b.priority := le_antisymm hba.2.1 hab.2.1
    simp only [hpriority, not_true_eq_false, false_or] at hab hba
    have htask : a.taskId = b.taskId := le_antisymm hba.2.2.1 hab.2.2.1
    simp only [htask, not_true_eq_false, false_or] at hab hba
    have hstatus : a.status = b.status := le_antisymm hba.2.2.2 hab.2.2.2
    cases a
    cases b
    simp_all

/-- What tells one shown run from another: its task, its status and its lifecycle. -/
def AuditNewerRun.identity (newer : AuditNewerRun) : String × String × AuditTaskLifecycle :=
  (newer.taskId, newer.status.getD "", newer.state)

/-- What is shown beside a report. -/
structure ShowsNewest (codec : ReportCodec) (ref : AuditReportRef) (actionKey : Option String)
    (reportIsStale : Bool) (runs : List AuditRun) : Prop where
  /-- Nothing is shown exactly when the report has no date or no run supersedes it. -/
  absent : newerRunForReport codec ref runs actionKey reportIsStale = none ↔
    ¬ Dated codec ref ∨ ∀ run ∈ runs, ¬ Supersedes codec ref actionKey reportIsStale run
  /-- A run that is shown supersedes the report, and none that does exceeds it. -/
  newest : ∀ newer, newerRunForReport codec ref runs actionKey reportIsStale = some newer →
    ∃ run ∈ runs, Supersedes codec ref actionKey reportIsStale run ∧
      newer = (candidateOf codec reportIsStale run).newerRun ∧
      ∀ other ∈ runs, Supersedes codec ref actionKey reportIsStale other →
        (newerKey codec reportIsStale run).lt (newerKey codec reportIsStale other) = false
  /-- The order in which the service lists the runs does not matter. -/
  orderFree : ∀ runs' : List AuditRun, runs'.Perm runs →
    (newerRunForReport codec ref runs' actionKey reportIsStale).map AuditNewerRun.identity =
      (newerRunForReport codec ref runs actionKey reportIsStale).map AuditNewerRun.identity

/-- A report with a date shows a greatest one among the runs that supersede it. -/
lemma newerRunForReport_cases (hdated : Dated codec ref) (runs : List AuditRun) :
    newerRunForReport codec ref runs actionKey reportIsStale = none ∧
      (∀ run ∈ runs, ¬ Supersedes codec ref actionKey reportIsStale run) ∨
    ∃ run ∈ runs, Supersedes codec ref actionKey reportIsStale run ∧
      newerRunForReport codec ref runs actionKey reportIsStale =
        some (candidateOf codec reportIsStale run).newerRun ∧
      ∀ other ∈ runs, Supersedes codec ref actionKey reportIsStale other →
        (newerKey codec reportIsStale run).lt (newerKey codec reportIsStale other) = false := by
  obtain ⟨completed, hcompleted⟩ := Option.ne_none_iff_exists'.1 hdated.2
  have hmem : ∀ candidate, candidate ∈ runs.filterMap
      (newerCandidate codec ref completed actionKey reportIsStale) ↔ ∃ run ∈ runs,
        Supersedes codec ref actionKey reportIsStale run ∧
          candidate = candidateOf codec reportIsStale run := by
    intro candidate
    rw [List.mem_filterMap]
    exact exists_congr fun run => and_congr_right fun _ => newerCandidate_eq_some_iff hcompleted
  simp only [newerRunForReport, if_neg hdated.1, hcompleted]
  rcases hmax : maxOf? (fun a b : NewerCandidate => a.key.lt b.key) (runs.filterMap
    (newerCandidate codec ref completed actionKey reportIsStale)) with _ | candidate
  · refine .inl ⟨rfl, fun run hrun hsupersedes => ?_⟩
    have hcandidate := (hmem _).2 ⟨run, hrun, hsupersedes, rfl⟩
    rw [maxOf?_eq_none.1 hmax] at hcandidate
    exact List.not_mem_nil hcandidate
  · have hgreatest := greatest_maxOf?
      (totalRanking_newerKey.toRanking.comap NewerCandidate.key) hmax
    obtain ⟨run, hrun, hsupersedes, rfl⟩ := (hmem _).1 hgreatest.1
    refine .inr ⟨run, hrun, hsupersedes, rfl, fun other hother hnewer => ?_⟩
    exact hgreatest.2 _ ((hmem _).2 ⟨other, hother, hnewer, rfl⟩)

/-- Active runs of one key are shown as the same. -/
lemma identity_eq_of_newerKey {run run' : AuditRun}
    (hactive : isActiveRun codec.toStatusCodec run = true)
    (hactive' : isActiveRun codec.toStatusCodec run' = true)
    (hkey : newerKey codec reportIsStale run = newerKey codec reportIsStale run') :
    (candidateOf codec reportIsStale run).newerRun.identity =
      (candidateOf codec reportIsStale run').newerRun.identity := by
  have hpriority := congrArg NewerKey.priority hkey
  have htask : run.taskId.getD "" = run'.taskId.getD "" := congrArg NewerKey.taskId hkey
  have hstatus : run.status.getD "" = run'.status.getD "" := congrArg NewerKey.status hkey
  have hstate : run.lifecycle codec.toStatusCodec = run'.lifecycle codec.toStatusCodec := by
    simp only [newerKey] at hpriority
    rcases isActiveRun_iff.1 hactive with h | h <;>
      rcases isActiveRun_iff.1 hactive' with h' | h' <;>
      rw [h, h'] at hpriority ⊢ <;> cases hpriority
  simp only [AuditNewerRun.identity, NewerCandidate.newerRun, candidateOf, htask, hstatus, hstate]

/-- **The newest superseding run**: beside a report stands a run exactly when the report has a date
and a run supersedes it, it is one that no other exceeds, and which task, status and lifecycle are
shown does not depend on the order of the runs. -/
theorem showsNewest (codec : ReportCodec) (ref : AuditReportRef) (actionKey : Option String)
    (reportIsStale : Bool) (runs : List AuditRun) :
    ShowsNewest codec ref actionKey reportIsStale runs := by
  by_cases hdated : Dated codec ref
  · have hcases := @newerRunForReport_cases codec ref actionKey reportIsStale hdated
    constructor
    · rw [or_iff_right (not_not.2 hdated)]
      rcases hcases runs with ⟨hnone, hall⟩ | ⟨run, hrun, hsupersedes, hsome, -⟩
      · exact iff_of_true hnone hall
      · exact iff_of_false (by simp [hsome]) fun hall => hall run hrun hsupersedes
    · intro newer hnewer
      rcases hcases runs with ⟨hnone, -⟩ | ⟨run, hrun, hsupersedes, hsome, hgreatest⟩
      · rw [hnone] at hnewer
        cases hnewer
      · rw [hsome] at hnewer
        cases hnewer
        exact ⟨run, hrun, hsupersedes, rfl, hgreatest⟩
    · intro runs' hperm
      rcases hcases runs with ⟨hnone, hall⟩ | ⟨run, hrun, hsupersedes, hsome, hgreatest⟩ <;>
        rcases hcases runs' with ⟨hnone', hall'⟩ | ⟨run', hrun', hsupersedes', hsome', hgreatest'⟩
      · rw [hnone, hnone']
      · exact absurd hsupersedes' (hall run' (hperm.subset hrun'))
      · exact absurd hsupersedes (hall' run (hperm.symm.subset hrun))
      · rw [hsome, hsome', Option.map_some, Option.map_some, identity_eq_of_newerKey
          hsupersedes'.active hsupersedes.active]
        exact totalRanking_newerKey.eq
          (hgreatest' run (hperm.symm.subset hrun) hsupersedes)
          (hgreatest run' (hperm.subset hrun') hsupersedes')
  · have hnone : ∀ runs', newerRunForReport codec ref runs' actionKey reportIsStale = none := by
      intro runs'
      rw [newerRunForReport]
      split_ifs with htask
      · rfl
      · rcases hcompleted : parseTime codec ref.completedAt with _ | completed
        · rfl
        · exact absurd ⟨htask, by simp [hcompleted]⟩ hdated
    refine ⟨iff_of_true (hnone runs) (.inl hdated), fun newer hnewer => ?_, fun runs' _ => ?_⟩
    · rw [hnone] at hnewer
      cases hnewer
    · rw [hnone, hnone]

end

end EnjiGuard.Audit
