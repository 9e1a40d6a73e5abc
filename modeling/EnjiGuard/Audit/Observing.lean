import EnjiGuard.Application.Fanout
import EnjiGuard.Audit.Reconciling
import EnjiGuard.Audit.Status

/-!
# Observing a repository

The status of a repository needs three things at once: the task links, the active runs reconciled
with the ledger, and the rerun state. They are read by a pool of threads, and only the
reconciliation works on the ledger, in several transactions with lookups between them. Whatever the
threads do, the ledger is reconciled as if nothing ran beside it.
-/

namespace EnjiGuard.Audit

open Foundation Application

/-- What the gateway answers about a repository while it is observed. -/
structure RepositoryAnswers where
  taskLinks : Except AuditError (List AuditTaskLink)
  activeRuns : Except AuditError (List AuditRun)
  rerunState : Except AuditError AuditRerunState
  taskLookup : String → TaskReply

/-- The projections the status of a repository is built from. -/
structure AuditRepositoryObservation where
  taskLinks : List AuditTaskLink
  activeRuns : List AuditRun
  rerunState : AuditRerunState

/-- What one of the reads returns. -/
inductive RepositoryRead
  | taskLinks (links : List AuditTaskLink)
  | activeRuns (runs : List AuditRun)
  | rerunState (state : AuditRerunState)

def AuditRepositoryObservation.reads (observation : AuditRepositoryObservation) :
    List RepositoryRead :=
  [.taskLinks observation.taskLinks, .activeRuns observation.activeRuns,
    .rerunState observation.rerunState]

/-- A status with the runs that are active. -/
structure PortfolioAuditStatus where
  repoId : String
  currentHeadSha : Option String
  items : List AuditStatusItem
  activeRuns : List AuditRun
  deriving DecidableEq, Repr

/-! ### The programs -/

abbrev LedgerProgram := Program (Option FileText) AuditError RepositoryRead

/-- Fetches task details, each in a step of its own that leaves the ledger unlocked. -/
def resolvingLookups (taskLookup : String → TaskReply)
    (next : List (String × TaskLookupResult) → LedgerProgram) :
    List String → List (String × TaskLookupResult) → LedgerProgram :=
  resolveEach (fun program => .step id fun _ => program) (fun e => .done (.error e)) taskLookup next

section

variable (codec : StatusCodec) (settings : LedgerSettings) (repoId : String)
variable (upstream : List AuditRun) (taskLookup : String → TaskReply) (now : Datetime)

/-- Applies the lookups to the ledger in one transaction. -/
def committing (cache : List (String × TaskLookupResult)) : LedgerProgram :=
  .access fun file =>
    match commitTransaction codec settings file repoId upstream cache now with
    | .error e => (.error e, file)
    | .ok (file', commit) => (.ok (.activeRuns (reconciledRuns codec upstream commit)), file')

def readingLedger (next : List AuditLedgerEntry → LedgerProgram) : LedgerProgram :=
  .step id fun file =>
    match readLedger file with
    | .error e => .done (.error e)
    | .ok entries => next entries

/-- The rounds of a reconciliation, and the commit. -/
def reconciling : Nat → List (String × TaskLookupResult) → LedgerProgram :=
  resolveRounds codec readingLedger (resolvingLookups taskLookup) repoId now
    (committing codec settings repoId upstream now)

end

/-- The status that is built from an observation; no status is a failed assertion. -/
def portfolioAuditStatus (codec : StatusCodec) (repoId : String) (catalog : AuditCatalog)
    (observation : AuditRepositoryObservation) : Option PortfolioAuditStatus :=
  (buildStatus codec catalog observation.taskLinks observation.activeRuns
    (some observation.rerunState)).map fun items =>
      { repoId := repoId
        currentHeadSha := observation.rerunState.currentHeadSha
        items := items
        activeRuns := observation.activeRuns.filter (isActiveRun codec) }

namespace RepositoryAnswers

variable (answers : RepositoryAnswers)

section

variable (codec : StatusCodec) (settings : LedgerSettings) (repoId : String) (now : Datetime)

def activeRunsRead : LedgerProgram :=
  .step id fun _ =>
    match answers.activeRuns with
    | .error e => .done (.error e)
    | .ok upstream =>
      reconciling codec settings repoId upstream answers.taskLookup now maxLookupRounds []

/-- The reads of an observation, in the order of declaration. -/
def reads : List LedgerProgram :=
  [.call (answers.taskLinks.map .taskLinks), answers.activeRunsRead codec settings repoId now,
    .call (answers.rerunState.map .rerunState)]

/-- What observing a repository can return, and the ledger it leaves. -/
def Observes (fanout : BoundedFanout) (file : Option FileText)
    (result : Except AuditError AuditRepositoryObservation) (file' : Option FileText) : Prop :=
  fanout.Runs (answers.reads codec settings repoId now) file
    (result.map AuditRepositoryObservation.reads) file'

/-- What the status of a repository can be. -/
def ReportsStatus (catalog : AuditCatalog) (fanout : BoundedFanout) (file : Option FileText)
    (result : Except AuditError (Option PortfolioAuditStatus)) (file' : Option FileText) : Prop :=
  ∃ observed, answers.Observes codec settings repoId now fanout file observed file' ∧
    result = observed.map (portfolioAuditStatus codec repoId catalog)

/-- The active runs when nothing runs beside their reconciliation, and the ledger it leaves. -/
def activeRunsAlone (file : Option FileText) :
    Except AuditError (List AuditRun) × Option FileText :=
  match answers.activeRuns with
  | .error e => (.error e, file)
  | .ok upstream =>
    match reconcile codec settings file repoId upstream answers.taskLookup now with
    | .error e => (.error e, file)
    | .ok (runs, file') => (.ok runs, file')

/-- An observation that reads one thing after the other; the first failure is that of the first
read that fails. -/
def observation (file : Option FileText) : Except AuditError AuditRepositoryObservation := do
  let links ← answers.taskLinks
  let runs ← (answers.activeRunsAlone codec settings repoId now file).1
  let state ← answers.rerunState
  return ⟨links, runs, state⟩

end

end RepositoryAnswers

/-! ### A reconciliation is the program of its steps -/

section

variable {codec : StatusCodec} {settings : LedgerSettings} {repoId : String}
variable {upstream : List AuditRun} {taskLookup : String → TaskReply} {now : Datetime}
variable {file : Option FileText} {cache : List (String × TaskLookupResult)}

lemma eval_resolvingLookups {next : List (String × TaskLookupResult) → LedgerProgram}
    {taskIds : List String} : (resolvingLookups taskLookup next taskIds cache).eval file =
      match resolveLookups taskLookup taskIds cache with
      | .error e => (.error e, file)
      | .ok cache' => (next cache').eval file := by
  induction taskIds generalizing cache with
  | nil => rfl
  | cons taskId taskIds ih =>
    rw [resolvingLookups, resolveLookups, resolveEach, resolveEach, Program.eval]
    rcases taskDetail taskId (taskLookup taskId) with e | detail
    · by_cases hkept : e.isLookupError = true
      · simp only [hkept, if_true, id]
        exact ih
      · simp only [hkept, Bool.false_eq_true, if_false, id]
        rfl
    · exact ih

lemma eval_reconciling {rounds : Nat} :
    (reconciling codec settings repoId upstream taskLookup now rounds cache).eval file =
      match lookupRounds codec file repoId taskLookup now rounds cache with
      | .error e => (.error e, file)
      | .ok cache' => (committing codec settings repoId upstream now cache').eval file := by
  induction rounds generalizing cache with
  | zero => rfl
  | succ rounds ih =>
    rw [reconciling, lookupRounds_succ, resolveRounds, readingLedger, Program.eval, id]
    rcases readLedger file with e | entries
    · rfl
    · simp only [bind, Except.bind]
      split_ifs with hnone
      · rfl
      · rw [eval_resolvingLookups]
        rcases resolveLookups taskLookup (pendingLookups codec repoId now cache entries) cache
          with e | cache'
        · rfl
        · exact ih

/-- The program of the active runs does what their reconciliation does. -/
lemma eval_activeRunsRead (answers : RepositoryAnswers) :
    (answers.activeRunsRead codec settings repoId now).eval file =
      ((answers.activeRunsAlone codec settings repoId now file).1.map .activeRuns,
        (answers.activeRunsAlone codec settings repoId now file).2) := by
  rw [RepositoryAnswers.activeRunsRead, RepositoryAnswers.activeRunsAlone, Program.eval, id]
  rcases answers.activeRuns with e | upstream
  · rfl
  · simp only [eval_reconciling, reconcile, bind, Except.bind]
    rcases lookupRounds codec file repoId answers.taskLookup now maxLookupRounds [] with e | cache
    · rfl
    · simp only [committing, Program.access, Program.eval]
      rcases commitTransaction codec settings file repoId upstream cache now
        with e | ⟨file', commit⟩ <;> rfl

end

/-! ### What is observed -/

namespace RepositoryAnswers

variable {answers : RepositoryAnswers} {codec : StatusCodec} {settings : LedgerSettings}
variable {repoId : String} {now : Datetime} {fanout : BoundedFanout} {file file' : Option FileText}

lemma map_reads_injective {result result' : Except AuditError AuditRepositoryObservation}
    (h : result.map AuditRepositoryObservation.reads =
      result'.map AuditRepositoryObservation.reads) : result = result' := by
  rcases result with e | ⟨links, runs, state⟩ <;> rcases result' with e' | ⟨links', runs', state'⟩
  · cases h
    rfl
  · cases h
  · cases h
  · cases h
    rfl

/-- The results of the three reads are those of an observation. -/
lemma mapM_reads : ((answers.reads codec settings repoId now).mapM fun read => (read.eval file).1) =
    (answers.observation codec settings repoId now file).map AuditRepositoryObservation.reads := by
  simp only [reads, observation, List.mapM_cons, List.mapM_nil, eval_activeRunsRead, Program.call,
    Program.eval]
  rcases answers.taskLinks with e | links
  · rfl
  · rcases (answers.activeRunsAlone codec settings repoId now file).1 with e | runs
    · rfl
    · rcases answers.rerunState with e | state <;> rfl

/-- Observing returns what reading in order returns, and reconciles the ledger. -/
lemma observes_iff {result : Except AuditError AuditRepositoryObservation} :
    answers.Observes codec settings repoId now fanout file result file' ↔
      result = answers.observation codec settings repoId now file ∧
        file' = (answers.activeRunsAlone codec settings repoId now file).2 := by
  have hothers : ∀ i read, i ≠ 1 → (answers.reads codec settings repoId now)[i]? = some read →
      ∃ result, read.Ignores result := by
    intro i read hi hget
    rcases i with _ | _ | _ | i
    · cases hget
      exact ⟨_, Program.ignores_call _⟩
    · exact absurd rfl hi
    · cases hget
      exact ⟨_, Program.ignores_call _⟩
    · cases hget
  have hmany : 1 < (answers.reads codec settings repoId now).length := Nat.one_lt_succ_succ 1
  rw [Observes, BoundedFanout.runs_iff_of_ignores hmany rfl hothers, mapM_reads,
    eval_activeRunsRead]
  exact and_congr_left' ⟨map_reads_injective, congrArg _⟩

/-- The status of what was observed fails no assertion. -/
lemma exists_portfolioAuditStatus (codec : StatusCodec) (repoId : String) (catalog : AuditCatalog)
    (observation : AuditRepositoryObservation) :
    ∃ status, portfolioAuditStatus codec repoId catalog observation = some status := by
  have hitems : ∃ items, buildStatus codec catalog observation.taskLinks observation.activeRuns
      (some observation.rerunState) = some items ∧
        List.Forall₂ (fun _ _ => True) catalog.publishedAudits items := by
    refine exists_mapM_iff.2 fun audit _ => ?_
    obtain ⟨item, hitem⟩ := exists_statusItem codec observation.activeRuns
      (linkOfAction codec observation.taskLinks audit.actionKey) audit
      observation.rerunState.currentHeadSha (observation.rerunState.auditedHeadSha audit.actionKey)
    exact ⟨item, hitem, True.intro⟩
  obtain ⟨items, hitems, -⟩ := hitems
  rw [portfolioAuditStatus, hitems]
  exact ⟨_, rfl⟩

/-- **The status of a repository does not depend on the threads**: whatever their number and the
order of their steps, the ledger is reconciled as if nothing ran beside it, also when another read
fails; the status is built from the runs of that reconciliation, the first failure is that of the
first read that fails, and no assertion is. -/
theorem reportsStatus_iff {catalog : AuditCatalog}
    {result : Except AuditError (Option PortfolioAuditStatus)} :
    answers.ReportsStatus codec settings repoId now catalog fanout file result file' ↔
      file' = (answers.activeRunsAlone codec settings repoId now file).2 ∧
        match answers.observation codec settings repoId now file with
        | .error e => result = .error e
        | .ok observation => ∃ status,
          portfolioAuditStatus codec repoId catalog observation = some status ∧
            result = .ok (some status) := by
  have hreports : answers.ReportsStatus codec settings repoId now catalog fanout file result file' ↔
      file' = (answers.activeRunsAlone codec settings repoId now file).2 ∧
        result = (answers.observation codec settings repoId now file).map
          (portfolioAuditStatus codec repoId catalog) := by
    simp only [ReportsStatus, observes_iff, and_assoc, exists_eq_left]
  rw [hreports]
  refine and_congr_right' ?_
  rcases answers.observation codec settings repoId now file with e | observation
  · exact Iff.rfl
  · obtain ⟨status, hstatus⟩ := exists_portfolioAuditStatus codec repoId catalog observation
    simp only [Except.map, hstatus, Option.some.injEq, exists_eq_left']

end RepositoryAnswers

end EnjiGuard.Audit
