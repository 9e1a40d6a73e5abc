import EnjiGuard.Audit.Answering
import EnjiGuard.Foundation.Grouping

/-!
# One reconciliation

A reconciliation of a repository without another writer: it looks up the tasks of the ledger, drops
the entries that are over, and reports the runs of the entries it keeps and of the upstream rows,
one for each run.
-/

namespace EnjiGuard.Audit

open Foundation

section

variable (codec : StatusCodec) (settings : LedgerSettings)

/-- The lookups of a round. -/
def resolveLookups (taskLookup : String → TaskReply) :
    List String → List (String × TaskLookupResult) →
      Except AuditError (List (String × TaskLookupResult)) :=
  resolveEach id .error taskLookup .ok

/-- The rounds of lookups on a file that no one else writes. -/
def lookupRounds (file : Option FileText) (repoId : String) (taskLookup : String → TaskReply)
    (now : Datetime) : Nat → List (String × TaskLookupResult) →
      Except AuditError (List (String × TaskLookupResult)) :=
  resolveRounds codec (fun next => readLedger file >>= next)
    (fun next pending cache => resolveLookups taskLookup pending cache >>= next) repoId now .ok

/-- The active runs of a repository, and the file that is left. -/
def reconcile (file : Option FileText) (repoId : String) (upstream : List AuditRun)
    (taskLookup : String → TaskReply) (now : Datetime) :
    Except AuditError (List AuditRun × Option FileText) := do
  let cache ← lookupRounds codec file repoId taskLookup now maxLookupRounds []
  let (file, commit) ← commitTransaction codec settings file repoId upstream cache now
  return (reconciledRuns codec upstream commit, file)

/-! ### What task-by-id reports -/

/-- Task-by-id reported that a task is over. -/
def ReportedInactive (taskLookup : String → TaskReply) (taskId : String) : Prop :=
  ∃ detail, taskDetail taskId (taskLookup taskId) = .ok detail ∧ detail.isActive codec = false

/-- An entry of a repository that is neither expired nor over as far as the ledger knows. -/
structure Open (repoId : String) (now : Datetime) (entry : AuditLedgerEntry) : Prop where
  repository : entry.repoId = repoId
  unexpired : expired entry now = false
  unfinished : isTerminalStatus codec entry.taskStatus = false

/-- An open entry of a task that task-by-id neither reported over nor, past its grace, as not
found. -/
structure Live (repoId : String) (taskLookup : String → TaskReply) (now : Datetime)
    (entry : AuditLedgerEntry) (taskId : String) : Prop extends Open codec repoId now entry where
  task : entry.taskId = some taskId
  active : ¬ ReportedInactive codec taskLookup taskId
  found : taskLookup taskId = .notFound →
    now.sub entry.observedAt ≤ Timedelta.seconds settings.lookupGraceSeconds

/-! ### Looking tasks up -/

variable {codec settings} {file file' : Option FileText} {repoId taskId : String}
variable {upstream runs : List AuditRun} {taskLookup : String → TaskReply} {now : Datetime}
variable {cache cache' : List (String × TaskLookupResult)} {entry : AuditLedgerEntry}
variable {entries : List AuditLedgerEntry}

/-- A resolved cache holds the answer about every task that was asked for. -/
lemma lookup_of_resolveLookups {taskIds : List String}
    (h : resolveLookups taskLookup taskIds cache = .ok cache') (taskId : String) :
    cache'.lookup taskId =
      if taskId ∈ taskIds then some (taskDetail taskId (taskLookup taskId))
      else cache.lookup taskId := by
  induction taskIds generalizing cache with
  | nil =>
    cases h
    simp
  | cons head taskIds ih =>
    have hnext : ∀ result, taskDetail head (taskLookup head) = result →
        resolveLookups taskLookup taskIds ((head, result) :: cache) = .ok cache' →
        cache'.lookup taskId = if taskId ∈ head :: taskIds
          then some (taskDetail taskId (taskLookup taskId)) else cache.lookup taskId := by
      intro result hresult hrest
      rw [ih hrest]
      by_cases hmem : taskId ∈ taskIds
      · simp [hmem]
      · by_cases hhead : taskId = head
        · simp [hhead, hresult]
        · simp [hmem, hhead, List.lookup_cons, beq_eq_false_iff_ne.2 hhead]
    rw [resolveLookups, resolveEach, id] at h
    rcases hresult : taskDetail head (taskLookup head) with e | detail <;> simp only [hresult] at h
    · split_ifs at h
      exact hnext _ hresult h
    · exact hnext _ hresult h

lemma mem_pendingLookups : taskId ∈ pendingLookups codec repoId now cache entries ↔
    cache.lookup taskId = none ∧
      ∃ entry ∈ entries, Open codec repoId now entry ∧ entry.taskId = some taskId := by
  rw [pendingLookups, List.mem_eraseDups, List.mem_filterMap]
  constructor
  · rintro ⟨entry, hentry, hpending⟩
    rcases htask : entry.taskId with _ | id
    · simp [htask] at hpending
    · simp only [htask] at hpending
      split_ifs at hpending with hskip
      cases hpending
      simp only [Bool.or_eq_true, decide_eq_true_eq, not_or, Bool.not_eq_true,
        Option.isSome_eq_false_iff, Option.isNone_iff_eq_none, not_not] at hskip
      obtain ⟨⟨⟨hcache, hrepo⟩, hexpired⟩, hterminal⟩ := hskip
      exact ⟨hcache, entry, hentry, ⟨by simpa using hrepo, hexpired, hterminal⟩, htask⟩
  · rintro ⟨hcache, entry, hentry, hopen, htask⟩
    refine ⟨entry, hentry, ?_⟩
    simp [htask, hcache, hopen.repository, hopen.unexpired, hopen.unfinished]

/-- One round of lookups, and the rounds that are left. -/
lemma lookupRounds_succ (rounds : Nat) :
    lookupRounds codec file repoId taskLookup now (rounds + 1) cache = (do
      let entries ← readLedger file
      if pendingLookups codec repoId now cache entries = [] then .ok cache
      else
        let pending := pendingLookups codec repoId now cache entries
        let cache ← resolveLookups taskLookup pending cache
        lookupRounds codec file repoId taskLookup now rounds cache) := rfl

/-- A cache that holds every answer needs no further round. -/
lemma lookupRounds_of_resolved (hread : readLedger file = .ok entries)
    (hcache : ∀ taskId ∈ pendingLookups codec repoId now [] entries,
      (cache.lookup taskId).isSome) (rounds : Nat) :
    lookupRounds codec file repoId taskLookup now rounds cache = .ok cache := by
  have hnone : pendingLookups codec repoId now cache entries = [] := by
    refine List.eq_nil_iff_forall_not_mem.2 fun taskId htaskId => ?_
    obtain ⟨hlookup, hentry⟩ := mem_pendingLookups.1 htaskId
    have hsome := hcache taskId (mem_pendingLookups.2 ⟨rfl, hentry⟩)
    simp [hlookup] at hsome
  cases rounds with
  | zero => rfl
  | succ rounds =>
    simp only [lookupRounds_succ, hread, bind, Except.bind, hnone]
    rfl

/-- Without another writer the first round asks for everything. -/
lemma lookup_of_lookupRounds (hread : readLedger file = .ok entries) {rounds : Nat}
    (h : lookupRounds codec file repoId taskLookup now (rounds + 1) [] = .ok cache)
    (taskId : String) :
    cache.lookup taskId =
      if taskId ∈ pendingLookups codec repoId now [] entries
      then some (taskDetail taskId (taskLookup taskId)) else none := by
  simp only [lookupRounds_succ, hread, bind, Except.bind] at h
  split_ifs at h with hnone
  · cases h
    simp [hnone]
  · rcases hresolve : resolveLookups taskLookup (pendingLookups codec repoId now [] entries) []
      with e | resolved <;> simp only [hresolve, reduceCtorEq] at h
    have hlookup := lookup_of_resolveLookups hresolve
    rw [lookupRounds_of_resolved hread fun id hid => by simp [hlookup, hid]] at h
    cases h
    simp [hlookup]

/-! ### What becomes of an entry -/

/-- A task is active unless it has completed or its status is an end. -/
lemma taskLifecycle_active_iff {status startedAt completedAt : Option String} :
    (taskLifecycle codec status startedAt completedAt = .queued ∨
      taskLifecycle codec status startedAt completedAt = .running) ↔
      completedAt = none ∧ isTerminalStatus codec status = false := by
  by_cases hterminal : codec.normalize (status.getD "") ∈ terminalStatuses
  · have hfalse : isTerminalStatus codec status ≠ false := by simp [isTerminalStatus, hterminal]
    refine iff_of_false ?_ fun h => hfalse h.2
    by_cases hfailure : codec.normalize (status.getD "") ∈ failureStatuses
    · simp [taskLifecycle, hfailure]
    · simp [taskLifecycle, hfailure, hterminal]
  · have hfailure : codec.normalize (status.getD "") ∉ failureStatuses :=
      fun hmem => hterminal (List.mem_append.2 (.inr hmem))
    cases completedAt with
    | some time => simp [taskLifecycle, hfailure]
    | none =>
      refine iff_of_true ?_ ⟨rfl, by simp [isTerminalStatus, hterminal]⟩
      simp only [taskLifecycle, hfailure, hterminal, if_false, ne_eq, not_true_eq_false, or_self]
      split_ifs <;> simp

lemma isActiveRun_eq_true_iff {run : AuditRun} : isActiveRun codec run = true ↔
    run.completedAt = none ∧ isTerminalStatus codec run.status = false :=
  isActiveRun_iff.trans taskLifecycle_active_iff

/-- The detail of an active task projects an open entry as active. -/
lemma isActiveRun_project_some {detail : AuditTaskDetail}
    (h : isTerminalStatus codec entry.taskStatus = false) (hactive : detail.isActive codec = true) :
    isActiveRun codec (project entry (some detail)) = true := by
  have hdetail : detail.completedAt = none ∧ isTerminalStatus codec detail.status = false := by
    rw [← taskLifecycle_active_iff]
    simpa [AuditTaskDetail.isActive] using hactive
  refine isActiveRun_eq_true_iff.2 ⟨hdetail.1, ?_⟩
  by_cases hempty : detail.status.getD "" = ""
  · have hstatus : (project entry (some detail)).status = entry.taskStatus := if_pos hempty
    rwa [hstatus]
  · have hstatus : (project entry (some detail)).status = detail.status := if_neg hempty
    rw [hstatus]
    exact hdetail.2

/-- What a reconciliation knows about the tasks of its open entries. -/
def Resolved (codec : StatusCodec) (repoId : String) (taskLookup : String → TaskReply)
    (now : Datetime) (entries : List AuditLedgerEntry)
    (cache : List (String × TaskLookupResult)) : Prop :=
  ∀ taskId, cache.lookup taskId =
    if taskId ∈ pendingLookups codec repoId now [] entries
    then some (taskDetail taskId (taskLookup taskId)) else none

lemma ownDetails_of_resolved (h : Resolved codec repoId taskLookup now entries cache) :
    OwnDetails cache := by
  intro taskId detail hlookup
  rw [h taskId] at hlookup
  split_ifs at hlookup
  exact Sys.taskDetail_ok (Option.some.inj hlookup)

/-- The answer about the task of an open entry. -/
lemma lookup_of_open (h : Resolved codec repoId taskLookup now entries cache)
    (hentry : entry ∈ entries) (hopen : Open codec repoId now entry)
    (htask : entry.taskId = some taskId) :
    cache.lookup taskId = some (taskDetail taskId (taskLookup taskId)) := by
  rw [h taskId, if_pos (mem_pendingLookups.2 ⟨rfl, entry, hentry, hopen, htask⟩)]

lemma taskDetail_eq_notFound {text : String} {reply : TaskReply}
    (h : taskDetail taskId reply = .error (.notFound text)) : reply = .notFound := by
  cases reply with
  | notFound => rfl
  | task id status createdAt startedAt completedAt =>
    simp only [taskDetail] at h
    split_ifs at h
    cases h
  | malformed => cases h
  | refused => cases h
  | failed typeName => cases h

/-- The ledger keeps a live entry. -/
lemma keeps_of_live (h : Resolved codec repoId taskLookup now entries cache)
    (hentry : entry ∈ entries) (hlive : Live codec settings repoId taskLookup now entry taskId) :
    keeps codec settings repoId cache now entry = true := by
  have hlookup := lookup_of_open h hentry hlive.toOpen hlive.task
  have hretained : (reconcileEntry codec settings entry
      (some (taskDetail taskId (taskLookup taskId))) now false).retained = true := by
    simp only [reconcileEntry, hlive.task]
    rcases hresult : taskDetail taskId (taskLookup taskId) with e | detail
    · cases e with
      | notFound text =>
        have hgrace := hlive.found (taskDetail_eq_notFound hresult)
        simp [Int.not_lt.2 hgrace]
      | _ => rfl
    · have hactive : detail.isActive codec = true := by
        by_contra hinactive
        exact hlive.active ⟨detail, hresult, Bool.eq_false_iff.2 hinactive⟩
      simp [isActiveRun_project_some hlive.unfinished hactive]
  simp [keeps, hlive.repository, hlive.unexpired, hlive.unfinished, hlive.task, hlookup, hretained]

/-- The rows of a task are suppressed on behalf of an open entry. -/
lemma exists_open_of_suppressed (hsuppress : taskId ∈
    (commitReconciliation codec settings repoId upstream cache now entries).suppressTaskIds) :
    ∃ entry ∈ entries, Open codec repoId now entry ∧
      (outcome codec settings upstream cache now entry).suppressTaskId = some taskId := by
  induction entries with
  | nil => simp [commitReconciliation] at hsuppress
  | cons other entries ih =>
    rw [List.exists_mem_cons_iff]
    rw [commitReconciliation] at hsuppress
    by_cases hrepo : other.repoId = repoId
    · by_cases hgone : expired other now = true ∨ isTerminalStatus codec other.taskStatus = true
      · simp only [hrepo, hgone, ne_eq, not_true_eq_false, if_false, Bool.or_eq_true,
          if_true] at hsuppress
        exact .inr (ih hsuppress)
      · have hgone' := not_or.1 hgone
        have hmem : taskId ∈ (outcome codec settings upstream cache now other).suppressTaskId.toList
            ++ (commitReconciliation codec settings repoId upstream cache now
              entries).suppressTaskIds := by
          rcases hretained : (outcome codec settings upstream cache now other).retained <;>
            simpa [hrepo, hgone'.1, hgone'.2, hretained] using hsuppress
        rcases List.mem_append.1 hmem with hmem | hmem
        · exact .inl ⟨⟨hrepo, Bool.eq_false_iff.2 hgone'.1, Bool.eq_false_iff.2 hgone'.2⟩,
            Option.mem_toList.1 hmem⟩
        · exact .inr (ih hmem)
    · simp only [hrepo, ne_eq, not_false_eq_true, if_true] at hsuppress
      exact .inr (ih hsuppress)

/-- An entry suppresses the rows of its own task, and it is kept unless that task is over. -/
lemma reconcileEntry_suppressTaskId {result : Option TaskLookupResult} {hasUpstream : Bool}
    (h : (reconcileEntry codec settings entry result now hasUpstream).suppressTaskId =
      some taskId) :
    entry.taskId = some taskId ∧
      ((reconcileEntry codec settings entry result now hasUpstream).retained = true ∨
        ∃ detail, result = some (.ok detail) ∧
          isActiveRun codec (project entry (some detail)) = false) := by
  unfold reconcileEntry at h ⊢
  rcases htask : entry.taskId with _ | id
  · simp [htask] at h
  · simp only [htask] at h
    rcases result with _ | (e | detail)
    · cases h
      exact ⟨rfl, .inl rfl⟩
    · cases e with
      | notFound text =>
        simp only at h ⊢
        split_ifs at h ⊢
        cases h
        exact ⟨rfl, .inl rfl⟩
      | _ =>
        cases h
        exact ⟨rfl, .inl rfl⟩
    · simp only at h ⊢
      split_ifs at h ⊢ with hactive
      · cases h
        exact ⟨rfl, .inl rfl⟩
      · cases h
        exact ⟨rfl, .inr ⟨detail, rfl, Bool.eq_false_iff.2 hactive⟩⟩

/-- The rows of a task are suppressed by an entry of it that is kept, unless the task is over. -/
lemma kept_of_suppressed (h : Resolved codec repoId taskLookup now entries cache)
    (hsuppress : taskId ∈
      (commitReconciliation codec settings repoId upstream cache now entries).suppressTaskIds) :
    (∃ entry ∈ entries, entry.repoId = repoId ∧ entry.taskId = some taskId ∧
      keeps codec settings repoId cache now entry = true) ∨
      (taskId ∈ pendingLookups codec repoId now [] entries ∧
        ReportedInactive codec taskLookup taskId) := by
  obtain ⟨entry, hentry, hopen, houtcome⟩ := exists_open_of_suppressed hsuppress
  obtain ⟨htask, hkept | ⟨detail, hresult, hinactive⟩⟩ := reconcileEntry_suppressTaskId houtcome
  · refine .inl ⟨entry, hentry, hopen.repository, htask, ?_⟩
    rw [reconcileEntry_retained] at hkept
    simp [keeps, hopen.repository, hopen.unexpired, hopen.unfinished, hkept]
  · rw [htask, Option.bind_some, lookup_of_open h hentry hopen htask] at hresult
    refine .inr ⟨mem_pendingLookups.2 ⟨rfl, entry, hentry, hopen, htask⟩, detail,
      Option.some.inj hresult, ?_⟩
    by_contra hactive
    rw [Bool.not_eq_false] at hactive
    rw [isActiveRun_project_some hopen.unfinished hactive] at hinactive
    cases hinactive

/-! ### What is reported -/

lemma chooses_representativeProjection : Chooses (representativeProjection codec) where
  mem := representativeProjection_mem
  some := representativeProjection_eq_none.1

/-- The reduction of rows is to one representative for each identity. -/
lemma dedupeRuns_eq (rows : List AuditRun) :
    dedupeRuns codec rows = representatives runIdentity (representativeProjection codec) rows :=
  rfl

/-- A row that is reduced is represented, actively if it is active. -/
lemma exists_mem_dedupeRuns {rows : List AuditRun} {row : AuditRun} (hrow : row ∈ rows)
    (hactive : isActiveRun codec row = true) :
    ∃ run ∈ dedupeRuns codec rows, runIdentity run = runIdentity row ∧
      isActiveRun codec run = true := by
  rw [dedupeRuns_eq]
  obtain ⟨run, hrun, hidentity, hchosen⟩ : ∃ run ∈ representatives runIdentity
      (representativeProjection codec) rows, runIdentity run = runIdentity row ∧
        representativeProjection codec (withKey runIdentity (runIdentity row) rows) = some run :=
    exists_representative chooses_representativeProjection hrow
  refine ⟨run, hrun, hidentity, isActiveRun_representative hchosen ?_ hactive⟩
  exact mem_withKey.2 ⟨hrow, rfl⟩

/-- A kept entry of a task is reported as an active run of that task. -/
lemma exists_run_of_keeps (h : Resolved codec repoId taskLookup now entries cache)
    (hentry : entry ∈ entries) (hrepo : entry.repoId = repoId) (htask : entry.taskId = some taskId)
    (hkeeps : keeps codec settings repoId cache now entry = true) :
    ∃ run ∈ reconciledRuns codec upstream
      (commitReconciliation codec settings repoId upstream cache now entries),
      run.taskId = some taskId ∧ isActiveRun codec run = true := by
  obtain ⟨⟨row, hrow⟩, -⟩ := projected_of_task upstream htask hrepo hkeeps
  obtain ⟨-, -, hrowTask, hactive⟩ := projected_spec (ownDetails_of_resolved h)
    (not_terminal_of_keeps hrepo hkeeps) hrow
  have hmem := mem_projected.2 ⟨entry, hentry, hrepo, hkeeps, hrow⟩
  obtain ⟨run, hrun, hidentity, hrunActive⟩ :=
    exists_mem_dedupeRuns (List.mem_append_left _ hmem) hactive
  refine ⟨run, hrun, ?_, hrunActive⟩
  rw [(runIdentity_eq hidentity).1, hrowTask, htask]

/-- An active row is reported as an active run of its identity, unless its task was reported
over. -/
lemma exists_run_of_row (h : Resolved codec repoId taskLookup now entries cache) {row : AuditRun}
    (hrow : row ∈ upstream) (hactive : isActiveRun codec row = true) :
    (∃ run ∈ reconciledRuns codec upstream
      (commitReconciliation codec settings repoId upstream cache now entries),
      runIdentity run = runIdentity row ∧ isActiveRun codec run = true) ∨
      ∃ taskId, row.taskId = some taskId ∧
        taskId ∈ pendingLookups codec repoId now [] entries ∧
        ReportedInactive codec taskLookup taskId := by
  by_cases hkept : row ∈ unsuppressed upstream
    (commitReconciliation codec settings repoId upstream cache now entries).suppressTaskIds
  · exact .inl (exists_mem_dedupeRuns (List.mem_append_right _ hkept) hactive)
  · obtain ⟨taskId, htask, hsuppress⟩ : ∃ taskId, row.taskId = some taskId ∧ taskId ∈
        (commitReconciliation codec settings repoId upstream cache now
          entries).suppressTaskIds := by
      rcases htask : row.taskId with _ | taskId
      · exact absurd (List.mem_filter.2 ⟨hrow, by simp [htask]⟩) hkept
      · refine ⟨taskId, rfl, ?_⟩
        by_contra hfree
        exact hkept (List.mem_filter.2 ⟨hrow, by simp [htask, hfree]⟩)
    rcases kept_of_suppressed h hsuppress with ⟨entry, hentry, hrepo, hentryTask, hkeeps⟩ | hover
    · obtain ⟨run, hrun, hrunTask, hrunActive⟩ :=
        exists_run_of_keeps h hentry hrepo hentryTask hkeeps
      refine .inl ⟨run, hrun, ?_, hrunActive⟩
      rw [runIdentity, runIdentity, hrunTask, htask]
    · exact .inr ⟨taskId, htask, hover⟩

/-- What a reconciliation that returns has read, looked up and reported. -/
lemma exists_resolved_of_reconcile
    (h : reconcile codec settings file repoId upstream taskLookup now = .ok (runs, file')) :
    ∃ entries cache, readLedger file = .ok entries ∧
      Resolved codec repoId taskLookup now entries cache ∧
      runs = reconciledRuns codec upstream
        (commitReconciliation codec settings repoId upstream cache now entries) := by
  rcases hcache : lookupRounds codec file repoId taskLookup now maxLookupRounds [] with e | cache
  · simp [reconcile, hcache, bind, Except.bind] at h
  · rcases hread : readLedger file with e | entries
    · simp [reconcile, commitTransaction, hcache, hread, bind, Except.bind] at h
    · refine ⟨entries, cache, rfl, lookup_of_lookupRounds hread hcache, ?_⟩
      simp only [reconcile, commitTransaction, hcache, hread, bind, Except.bind, pure,
        Except.pure, Except.ok.injEq, Prod.mk.injEq] at h
      exact h.1.symm

/-- A reconciliation reports every live run once: each live entry of the ledger has an active run
of its task, no two runs have one identity, and an active row of the upstream service has an active
run of its identity unless its task was looked up and reported over. -/
theorem reconcile_reports
    (h : reconcile codec settings file repoId upstream taskLookup now = .ok (runs, file')) :
    ∃ entries, readLedger file = .ok entries ∧
      (∀ entry ∈ entries, ∀ taskId, Live codec settings repoId taskLookup now entry taskId →
        ∃ run ∈ runs, run.taskId = some taskId ∧ isActiveRun codec run = true) ∧
      (runs.map runIdentity).Nodup ∧
      ∀ row ∈ upstream, isActiveRun codec row = true →
        (∃ run ∈ runs, runIdentity run = runIdentity row ∧ isActiveRun codec run = true) ∨
        ∃ taskId, row.taskId = some taskId ∧
          taskId ∈ pendingLookups codec repoId now [] entries ∧
          ReportedInactive codec taskLookup taskId := by
  obtain ⟨entries, cache, hread, hresolved, rfl⟩ := exists_resolved_of_reconcile h
  refine ⟨entries, hread, ?_, ?_, ?_⟩
  · intro entry hentry taskId hlive
    exact exists_run_of_keeps hresolved hentry hlive.repository hlive.task
      (keeps_of_live hresolved hentry hlive)
  · rw [reconciledRuns, dedupeRuns_eq]
    exact nodup_representatives chooses_representativeProjection
  · intro row hrow hactive
    exact exists_run_of_row hresolved hrow hactive

end

theorem reconcile_reports_sample :
    ∃ runs file', reconcile plainStatusCodec {} (Sys.written [Sys.sampleEntry]) "repo"
        [Sys.sampleRow "other" "newer"]
        (fun taskId => .task (some taskId) (some "running") none none none) Sys.dawn =
          .ok (runs, file') ∧
      (∃ run ∈ runs, run.taskId = some "task" ∧ isActiveRun plainStatusCodec run = true) ∧
      (runs.map runIdentity).Nodup := by
  have hread : readLedger (Sys.written [Sys.sampleEntry]) = .ok [Sys.sampleEntry] :=
    readLedger_of_named (by decide)
  have hpending : pendingLookups plainStatusCodec "repo" Sys.dawn [] [Sys.sampleEntry] =
      ["task"] := by decide +kernel
  have hrun : ∃ runs file', reconcile plainStatusCodec {} (Sys.written [Sys.sampleEntry]) "repo"
      [Sys.sampleRow "other" "newer"]
      (fun taskId => .task (some taskId) (some "running") none none none) Sys.dawn =
        .ok (runs, file') := by
    simp only [reconcile, maxLookupRounds, lookupRounds_succ, commitTransaction, hread, hpending,
      bind, Except.bind]
    exact ⟨_, _, rfl⟩
  obtain ⟨runs, file', hrun⟩ := hrun
  obtain ⟨entries, hentries, hlive, hnodup, -⟩ := reconcile_reports hrun
  rw [hread] at hentries
  cases hentries
  refine ⟨runs, file', hrun, hlive Sys.sampleEntry (List.mem_singleton_self _) "task" ?_, hnodup⟩
  refine ⟨⟨rfl, by decide +kernel, by decide⟩, rfl, ?_, fun h => by cases h⟩
  rintro ⟨detail, hdetail, hinactive⟩
  cases hdetail
  revert hinactive
  decide

end EnjiGuard.Audit
