import EnjiGuard.Audit.Lifecycle

/-!
# Starting audits

What the start workflow decides about one audit: an active run of the current head answers it, an
audited head needs no run, and anything else asks the upstream service for a new run and records it
in the ledger.
-/

namespace EnjiGuard.Audit

/-! ### Inputs -/

/-- One audit action of the upstream catalog. -/
structure AuditDefinition where
  actionKey : String
  title : String
  runbookId : Option String := none
  deriving DecidableEq, Repr

/-- The published audits; the recon action is separate. -/
structure AuditCatalog where
  publishedAudits : List AuditDefinition
  recon : AuditDefinition

/-- The heads of a repository. -/
structure AuditRerunState where
  currentHeadSha : Option String
  auditedHeadShas : List (String × String) := []

def AuditRerunState.auditedHeadSha (state : AuditRerunState) (actionKey : String) :
    Option String := state.auditedHeadShas.lookup actionKey

/-- A failure of a gateway or of the catalog. -/
inductive AuditError
  | notFound (detail : String)
  | upstream (detail : String)
  | malformed (detail : String)
  | repositoryUnusable (detail : String)
  | actionUnusable (detail : String)
  | other (typeName : String)
  deriving DecidableEq, Repr

/-- The task identity the upstream service returns for a new run. -/
structure AuditRunResult where
  taskId : Option String
  status : Option String
  deriving DecidableEq, Repr

/-! ### Answers -/

/-- The outcome of one requested run; only `started` means that this call created a run. -/
inductive AuditRunState
  | started
  | alreadyQueued
  | alreadyRunning
  | upToDate
  | failed
  deriving DecidableEq, Repr

/-- The answer about one audit. -/
structure AuditRunBatchResultItem where
  actionKey : String
  state : AuditRunState
  currentHeadSha : Option String
  lastAuditedHeadSha : Option String
  taskId : Option String := none
  taskStatus : Option String := none
  reason : Option String := none
  deriving DecidableEq, Repr

structure AuditRunStart where
  repoId : String
  projectId : String
  actionKey : String
  taskId : Option String
  taskStatus : Option String
  currentHeadSha : Option String
  lastAuditedHeadSha : Option String
  deriving DecidableEq, Repr

/-! ### The duplicate guard -/

variable (codec : StatusCodec)

/-- Whether an audited head is not the current one, when both are known. -/
def outOfDate (current audited : Option String) : Option Bool :=
  match current, audited with
  | some current, some audited => some (current ≠ audited)
  | _, _ => none

/-- The active runs that are not known to be of another head. -/
def currentHeadActiveRuns (activeRuns : List AuditRun) (currentSha : Option String) :
    List AuditRun :=
  match currentSha with
  | none => activeRuns
  | some sha => activeRuns.filter fun run =>
      run.currentHeadSha = none || run.currentHeadSha = some sha

/-- The runs that keep an action from being started again. -/
def matchingRuns (activeRuns : List AuditRun) (actionKey : String) (currentSha : Option String) :
    List AuditRun :=
  currentHeadActiveRuns (activeRunsForAction codec activeRuns actionKey) currentSha

/-- What the guard decides about one audit. -/
inductive StartPlan
  | answer (item : AuditRunBatchResultItem)
  | create
  deriving DecidableEq, Repr

/-- The answer when there is a run already. -/
def activeRunItem (actionKey : String) (currentSha lastSha : Option String) (run : AuditRun) :
    AuditRunBatchResultItem where
  actionKey := actionKey
  state := if run.lifecycle codec = .running then .alreadyRunning else .alreadyQueued
  currentHeadSha := currentSha
  lastAuditedHeadSha := lastSha
  taskId := run.taskId
  taskStatus := run.status

/-- Decides about one audit before anything is created. -/
def startPlan (audit : AuditDefinition) (rerunState : AuditRerunState)
    (activeRuns : List AuditRun) : StartPlan :=
  let currentSha := rerunState.currentHeadSha
  let lastSha := rerunState.auditedHeadSha audit.actionKey
  match representativeProjection codec
      (matchingRuns codec activeRuns audit.actionKey currentSha) with
  | some representative =>
    .answer (activeRunItem codec audit.actionKey currentSha lastSha representative)
  | none =>
    if outOfDate currentSha lastSha = some false then
      .answer { actionKey := audit.actionKey, state := .upToDate, currentHeadSha := currentSha,
                lastAuditedHeadSha := lastSha }
    else .create

/-- The answer when a run could not be started. -/
def failedItem (audit : AuditDefinition) (rerunState : AuditRerunState) (reason : String) :
    AuditRunBatchResultItem where
  actionKey := audit.actionKey
  state := .failed
  currentHeadSha := rerunState.currentHeadSha
  lastAuditedHeadSha := rerunState.auditedHeadSha audit.actionKey
  reason := some reason

/-- The answer when a run was started. -/
def startedItem (audit : AuditDefinition) (rerunState : AuditRerunState)
    (result : AuditRunResult) : AuditRunBatchResultItem where
  actionKey := audit.actionKey
  state := .started
  currentHeadSha := rerunState.currentHeadSha
  lastAuditedHeadSha := rerunState.auditedHeadSha audit.actionKey
  taskId := result.taskId
  taskStatus := result.status

/-- What is recorded about a run that was started. -/
def auditRunStart (repoId projectId : String) (audit : AuditDefinition)
    (rerunState : AuditRerunState) (result : AuditRunResult) : AuditRunStart where
  repoId := repoId
  projectId := projectId
  actionKey := audit.actionKey
  taskId := result.taskId
  taskStatus := result.status
  currentHeadSha := rerunState.currentHeadSha
  lastAuditedHeadSha := rerunState.auditedHeadSha audit.actionKey

/-- How one audit is started: the answer, and what the ledger has to record. The errors of the task
body and of the create request that concern this audit alone become an answer, others propagate. -/
def startOneAudit (repoId projectId : String) (audit : AuditDefinition)
    (rerunState : AuditRerunState) (activeRuns : List AuditRun) (body : Except AuditError Unit)
    (created : Except AuditError AuditRunResult) :
    Except AuditError (AuditRunBatchResultItem × Option AuditRunStart) :=
  match startPlan codec audit rerunState activeRuns with
  | .answer item => .ok (item, none)
  | .create =>
    match body with
    | .error (.actionUnusable reason) => .ok (failedItem audit rerunState reason, none)
    | .error e => .error e
    | .ok () =>
      match created with
      | .error (.upstream reason) => .ok (failedItem audit rerunState reason, none)
      | .error (.malformed reason) => .ok (failedItem audit rerunState reason, none)
      | .error e => .error e
      | .ok result =>
        .ok (startedItem audit rerunState result,
          some (auditRunStart repoId projectId audit rerunState result))

/-- Whether an answer says that there is a run already. -/
def AuditRunState.already (state : AuditRunState) : Bool :=
  state = .alreadyQueued || state = .alreadyRunning

/-! ### What the guard lets through -/

variable {codec} {run : AuditRun} {activeRuns : List AuditRun} {actionKey : String}
variable {audit : AuditDefinition} {rerunState : AuditRerunState}

lemma mem_matchingRuns {currentSha : Option String} :
    run ∈ matchingRuns codec activeRuns actionKey currentSha ↔
      run ∈ activeRuns ∧ run.actionKey = some actionKey ∧ isActiveRun codec run = true ∧
        (currentSha = none ∨ run.currentHeadSha = none ∨ run.currentHeadSha = currentSha) := by
  cases currentSha with
  | none => simp [matchingRuns, currentHeadActiveRuns, mem_activeRunsForAction]
  | some sha => simp [matchingRuns, currentHeadActiveRuns, mem_activeRunsForAction, and_assoc]

@[simp] lemma activeRunItem_already (actionKey : String) (currentSha lastSha : Option String) :
    (activeRunItem codec actionKey currentSha lastSha run).state.already = true := by
  by_cases h : run.lifecycle codec = .running <;> simp [activeRunItem, AuditRunState.already, h]

/-- The plan answers that there is a run already exactly when there is a matching one. -/
lemma startPlan_already_iff :
    (∃ item, startPlan codec audit rerunState activeRuns = .answer item ∧
      item.state.already = true) ↔
      matchingRuns codec activeRuns audit.actionKey rerunState.currentHeadSha ≠ [] := by
  rcases hrep : representativeProjection codec
    (matchingRuns codec activeRuns audit.actionKey rerunState.currentHeadSha) with _ | run
  · rw [representativeProjection_eq_none] at hrep
    refine iff_of_false ?_ (by simp [hrep])
    rintro ⟨item, hplan, halready⟩
    simp only [startPlan, hrep, representativeProjection_eq_none.2] at hplan
    split_ifs at hplan
    cases hplan
    simp [AuditRunState.already] at halready
  · have hplan : startPlan codec audit rerunState activeRuns =
        .answer (activeRunItem codec audit.actionKey rerunState.currentHeadSha
          (rerunState.auditedHeadSha audit.actionKey) run) := by simp only [startPlan, hrep]
    refine iff_of_true ⟨_, hplan, activeRunItem_already _ _ _⟩ ?_
    intro hnil
    simp [hnil, representativeProjection, Foundation.maxOf?] at hrep

/-- A start answers that there is a run already exactly when there is a matching one. -/
lemma startOneAudit_already_iff {repoId projectId : String} {body : Except AuditError Unit}
    {created : Except AuditError AuditRunResult} :
    (∃ item recorded, startOneAudit codec repoId projectId audit rerunState activeRuns body
      created = .ok (item, recorded) ∧ item.state.already = true) ↔
      matchingRuns codec activeRuns audit.actionKey rerunState.currentHeadSha ≠ [] := by
  rw [← startPlan_already_iff]
  rcases hplan : startPlan codec audit rerunState activeRuns with item | _
  · simp [startOneAudit, hplan]
  · refine iff_of_false ?_ (by simp)
    rintro ⟨item, recorded, hstart, halready⟩
    simp only [startOneAudit, hplan] at hstart
    rcases body with e | _
    · cases e <;> cases hstart
      simp [failedItem, AuditRunState.already] at halready
    · rcases created with e | result
      · cases e <;> cases hstart <;> simp [failedItem, AuditRunState.already] at halready
      · cases hstart
        simp [startedItem, AuditRunState.already] at halready

end EnjiGuard.Audit
