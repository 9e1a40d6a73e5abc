import EnjiGuard.Audit.Runs

/-!
# The status of audits

What the status command recommends about each published audit, and when its recommendation agrees
with the duplicate guard of the start workflow.
-/

namespace EnjiGuard.Audit

open Foundation

/-! ### The status -/

/-- Whether a completed artifact applies to the current source. -/
inductive AuditFreshnessState
  | fresh
  | stale
  | unknown
  deriving DecidableEq, Repr

/-- The heads a freshness is about. -/
structure AuditFreshness where
  currentHeadSha : Option String
  auditedHeadSha : Option String
  state : AuditFreshnessState
  deriving DecidableEq, Repr

def compareHeads (currentHeadSha auditedHeadSha : Option String) : AuditFreshness where
  currentHeadSha := currentHeadSha
  auditedHeadSha := auditedHeadSha
  state := if currentHeadSha = none ∨ auditedHeadSha = none then .unknown
    else if currentHeadSha = auditedHeadSha then .fresh else .stale

inductive AuditCurrentHeadState
  | ready
  | queued
  | running
  | unverified
  | missing
  | blocked
  | unknown
  deriving DecidableEq, Repr

/-- What the operator should do about the current head. -/
inductive AuditCurrentHeadAction
  | none
  | waitForCurrentHeadRun
  | startCurrentHeadRun
  | inspectUnverifiedRun
  | resolveUnknownHead
  deriving DecidableEq, Repr

structure AuditCurrentHeadStatus where
  state : AuditCurrentHeadState
  actionRequired : AuditCurrentHeadAction
  taskId : Option String := Option.none
  taskStatus : Option String := Option.none
  taskCurrentHeadSha : Option String := Option.none
  staleActiveTaskId : Option String := Option.none
  staleActiveCurrentHeadSha : Option String := Option.none
  deriving DecidableEq, Repr

structure AuditStatusItem where
  auditKey : String
  title : String
  freshness : AuditFreshness
  canRead : Bool
  taskLifecycle : AuditTaskLifecycle
  taskId : Option String
  taskStatus : Option String
  createdAt : Option String
  startedAt : Option String
  completedAt : Option String
  currentHead : AuditCurrentHeadStatus
  deriving DecidableEq, Repr

variable (codec : StatusCodec)

/-- How much a run says about the current head. -/
def headEvidencePriority (run : AuditRun) (currentSha : Option String) : Nat :=
  if currentSha ≠ none ∧ run.currentHeadSha = currentSha then 2
  else if run.currentHeadSha ≠ none then 1
  else 0

/-- The order in which status chooses among the active runs of an action. -/
def headEvidenceLt (currentSha : Option String) (a b : AuditRun) : Bool :=
  headEvidencePriority a currentSha < headEvidencePriority b currentSha ||
    (headEvidencePriority a currentSha = headEvidencePriority b currentSha &&
      (projectionSortKey codec a.projection).lt (projectionSortKey codec b.projection))

/-- The run that status shows for an action. -/
def runOfAction (runs : List AuditRun) (currentSha : Option String) (actionKey : String) :
    Option AuditRun :=
  maxOf? (headEvidenceLt codec currentSha) (activeRunsForAction codec runs actionKey)

/-- The link that status shows for an action: a completed one if there is one, else a failed one. -/
def linkOfAction (links : List AuditTaskLink) (actionKey : String) : Option AuditTaskLink :=
  let items := links.filter fun link => link.actionKey = some actionKey
  let terminal := items.filter fun link =>
    link.lifecycle codec = .completed || link.lifecycle codec = .failed
  let readable := terminal.filter fun link => link.lifecycle codec = .completed
  maxOf? (fun a b => (projectionSortKey codec a.projection).lt
    (projectionSortKey codec b.projection)) (if readable = [] then terminal else readable)

/-- The readiness an active run stands for; `none` is the assertion that the run is active. -/
def activeCurrentHeadStatus (currentSha : Option String) (activeRun : AuditRun)
    (runLifecycle : AuditTaskLifecycle) : Option AuditCurrentHeadStatus :=
  if currentSha ≠ none ∧ activeRun.currentHeadSha ≠ none ∧
      activeRun.currentHeadSha ≠ currentSha then
    some { state := .blocked, actionRequired := .startCurrentHeadRun,
           staleActiveTaskId := activeRun.taskId,
           staleActiveCurrentHeadSha := activeRun.currentHeadSha }
  else if activeRun.currentHeadSha = none then
    some { state := .unverified, actionRequired := .inspectUnverifiedRun,
           taskId := activeRun.taskId, taskStatus := activeRun.status }
  else
    match runLifecycle with
    | .queued =>
      some { state := .queued, actionRequired := .waitForCurrentHeadRun,
             taskId := activeRun.taskId, taskStatus := activeRun.status,
             taskCurrentHeadSha := activeRun.currentHeadSha }
    | .running =>
      some { state := .running, actionRequired := .waitForCurrentHeadRun,
             taskId := activeRun.taskId, taskStatus := activeRun.status,
             taskCurrentHeadSha := activeRun.currentHeadSha }
    | _ => none

def currentHeadStatus (freshness : AuditFreshnessState) (currentSha : Option String)
    (activeRun : Option AuditRun) (runLifecycle : AuditTaskLifecycle) :
    Option AuditCurrentHeadStatus :=
  match freshness with
  | .fresh => some { state := .ready, actionRequired := .none }
  | .unknown => some { state := .unknown, actionRequired := .resolveUnknownHead }
  | .stale =>
    match activeRun with
    | none => some { state := .missing, actionRequired := .startCurrentHeadRun }
    | some run => activeCurrentHeadStatus currentSha run runLifecycle

/-- The projection that status takes the task from, with its lifecycle. -/
def statusSource (link : Option AuditTaskLink) (activeRun : Option AuditRun) :
    Option Projection × AuditTaskLifecycle :=
  match activeRun, link with
  | some run, _ => (some run.projection, run.lifecycle codec)
  | none, some link =>
    if link.lifecycle codec = .failed ∨ link.lifecycle codec = .completed then
      (some link.projection, link.lifecycle codec)
    else (none, .none)
  | none, none => (none, .none)

/-- The lifecycle of the run of an action, if it has one. -/
def runLifecycle : Option AuditRun → AuditTaskLifecycle
  | some run => run.lifecycle codec
  | none => .none

def statusItem (audit : AuditDefinition) (link : Option AuditTaskLink)
    (activeRun : Option AuditRun) (currentSha auditedSha : Option String) :
    Option AuditStatusItem := do
  let (source, lifecycle) := statusSource codec link activeRun
  let freshness := compareHeads currentSha auditedSha
  let currentHead ← currentHeadStatus freshness.state currentSha activeRun
    (runLifecycle codec activeRun)
  return { auditKey := audit.actionKey
           title := audit.title
           freshness := freshness
           canRead := auditedSha ≠ none || lifecycle = .completed
           taskLifecycle := lifecycle
           taskId := source.bind Projection.taskId
           taskStatus := source.bind Projection.status
           createdAt := source.bind Projection.createdAt
           startedAt := source.bind Projection.startedAt
           completedAt := source.bind Projection.completedAt
           currentHead := currentHead }

/-- The status of the published audits; `none` is a failed assertion. -/
def buildStatus (catalog : AuditCatalog) (links : List AuditTaskLink) (activeRuns : List AuditRun)
    (rerunState : Option AuditRerunState) : Option (List AuditStatusItem) :=
  let currentSha := rerunState.bind AuditRerunState.currentHeadSha
  catalog.publishedAudits.mapM fun audit =>
    statusItem codec audit (linkOfAction codec links audit.actionKey)
      (runOfAction codec activeRuns currentSha audit.actionKey) currentSha
      (rerunState.bind fun state => state.auditedHeadSha audit.actionKey)

/-! ### What status recommends -/

variable {codec} {runs : List AuditRun} {run : AuditRun} {actionKey current audited : String}

lemma headEvidencePriority_le_runOfAction {currentSha : Option String}
    (h : runOfAction codec runs currentSha actionKey = some run) :
    ∀ other ∈ activeRunsForAction codec runs actionKey,
      headEvidencePriority other currentSha ≤ headEvidencePriority run currentSha := by
  refine rank_le_maxOf? ?_ ?_ h
  · intro a b hab
    simp [headEvidenceLt, hab]
  · intro a b hab
    simp only [headEvidenceLt, Bool.or_eq_true, Bool.and_eq_true, decide_eq_true_eq] at hab
    rcases hab with hlt | ⟨heq, -⟩
    · exact hlt.le
    · exact heq.le

lemma headEvidencePriority_some :
    headEvidencePriority run (some current) = if run.currentHeadSha = some current then 2
      else if run.currentHeadSha = none then 0 else 1 := by
  simp only [headEvidencePriority]
  split_ifs <;> simp_all

/-- The recommendation for a run that status shows. -/
def recommended (current : String) (run : AuditRun) : AuditCurrentHeadAction :=
  if run.currentHeadSha = some current then .waitForCurrentHeadRun
  else if run.currentHeadSha = none then .inspectUnverifiedRun
  else .startCurrentHeadRun

/-- What status recommends for an active run of an action whose audited head is behind; a run to
wait for or to inspect is named. -/
lemma actionRequired_of_active (current : String) (hactive : isActiveRun codec run = true) :
    ∃ status, activeCurrentHeadStatus (some current) run (run.lifecycle codec) = some status ∧
      status.actionRequired = recommended current run ∧
      (status.actionRequired ≠ .startCurrentHeadRun →
        status.taskId = run.taskId ∧ status.taskStatus = run.status) := by
  rcases hhead : run.currentHeadSha with _ | sha
  · simp [activeCurrentHeadStatus, recommended, hhead]
  · by_cases hcurrent : sha = current
    · rcases isActiveRun_iff.1 hactive with hlifecycle | hlifecycle <;>
        simp [activeCurrentHeadStatus, recommended, hhead, hcurrent, hlifecycle]
    · simp [activeCurrentHeadStatus, recommended, hhead, hcurrent]

/-! ### Status and start -/

/-- The current head and the audited head of an action are known, and differ. -/
def AuditRerunState.Behind (state : AuditRerunState) (actionKey : String) : Prop :=
  ∃ current audited, state.currentHeadSha = some current ∧
    state.auditedHeadSha actionKey = some audited ∧ audited ≠ current

/-- An active run without a head is hidden from status by one of another head, while no active run
is of the current head. -/
def Obscured (codec : StatusCodec) (runs : List AuditRun) (actionKey : String)
    (currentSha : Option String) : Prop :=
  (∃ run ∈ activeRunsForAction codec runs actionKey, run.currentHeadSha = none) ∧
  (∃ run ∈ activeRunsForAction codec runs actionKey, run.currentHeadSha ≠ none) ∧
  ∀ run ∈ activeRunsForAction codec runs actionKey, run.currentHeadSha ≠ currentSha

/-- A status item recommends a start exactly when the guard finds no matching run, and a wait or an
inspection exactly when a start would answer that there is a run already. The run it names then is
one that the guard finds. -/
structure ItemAgrees (codec : StatusCodec) (runs : List AuditRun) (rerunState : AuditRerunState)
    (audit : AuditDefinition) (item : AuditStatusItem) : Prop where
  start : item.currentHead.actionRequired = .startCurrentHeadRun ↔
    matchingRuns codec runs audit.actionKey rerunState.currentHeadSha = []
  wait : ∀ repoId projectId body created,
    (item.currentHead.actionRequired = .waitForCurrentHeadRun ∨
      item.currentHead.actionRequired = .inspectUnverifiedRun) ↔
    ∃ answer recorded, startOneAudit codec repoId projectId audit rerunState runs body created =
      .ok (answer, recorded) ∧ answer.state.already = true
  named : item.currentHead.actionRequired = .waitForCurrentHeadRun ∨
      item.currentHead.actionRequired = .inspectUnverifiedRun →
    ∃ run ∈ matchingRuns codec runs audit.actionKey rerunState.currentHeadSha,
      item.currentHead.taskId = run.taskId ∧ item.currentHead.taskStatus = run.status

/-- Status has an item for every published audit, and the items of audits that are behind agree with
the start workflow. -/
def StatusAgrees (codec : StatusCodec) (catalog : AuditCatalog) (links : List AuditTaskLink)
    (runs : List AuditRun) (rerunState : AuditRerunState) : Prop :=
  ∃ items, buildStatus codec catalog links runs (some rerunState) = some items ∧
    List.Forall₂ (fun audit item => rerunState.Behind audit.actionKey →
      ItemAgrees codec runs rerunState audit item) catalog.publishedAudits items

variable {rerunState : AuditRerunState} {audit : AuditDefinition} {item : AuditStatusItem}
variable {link : Option AuditTaskLink}

/-- The readiness of an audit that is behind. -/
lemma currentHead_of_behind (hne : audited ≠ current)
    (hitem : statusItem codec audit link (runOfAction codec runs (some current) audit.actionKey)
      (some current) (some audited) = some item) :
    match runOfAction codec runs (some current) audit.actionKey with
    | none => item.currentHead.actionRequired = .startCurrentHeadRun
    | some run => item.currentHead.actionRequired = recommended current run ∧
        (item.currentHead.actionRequired ≠ .startCurrentHeadRun →
          item.currentHead.taskId = run.taskId ∧ item.currentHead.taskStatus = run.status) := by
  have hstale : (compareHeads (some current) (some audited)).state = .stale := by
    simp [compareHeads, hne.symm]
  rcases hrun : runOfAction codec runs (some current) audit.actionKey with _ | run
  · simp only [statusItem, hrun, hstale, currentHeadStatus, Option.bind_eq_bind,
      Option.bind_some, Option.pure_def, Option.some.injEq] at hitem
    rw [← hitem]
  · have hactive := (mem_activeRunsForAction.1 (maxOf?_mem hrun)).2.2
    obtain ⟨status, hstatus, hrecommended⟩ := actionRequired_of_active current hactive
    simp only [statusItem, hrun, hstale, currentHeadStatus, runLifecycle, hstatus,
      Option.bind_eq_bind, Option.bind_some, Option.pure_def, Option.some.injEq] at hitem
    rw [← hitem]
    exact hrecommended

/-- A run that is named to wait for or to inspect is one that the guard finds. -/
lemma named_of_behind (hne : audited ≠ current)
    (hitem : statusItem codec audit link (runOfAction codec runs (some current) audit.actionKey)
      (some current) (some audited) = some item)
    (hwait : item.currentHead.actionRequired = .waitForCurrentHeadRun ∨
      item.currentHead.actionRequired = .inspectUnverifiedRun) :
    ∃ run ∈ matchingRuns codec runs audit.actionKey (some current),
      item.currentHead.taskId = run.taskId ∧ item.currentHead.taskStatus = run.status := by
  have hbehind := currentHead_of_behind hne hitem
  have hstart : item.currentHead.actionRequired ≠ .startCurrentHeadRun := by
    rcases hwait with h | h <;> simp [h]
  rcases hrun : runOfAction codec runs (some current) audit.actionKey with _ | run <;>
    rw [hrun] at hbehind
  · exact absurd hbehind hstart
  · obtain ⟨hrequired, hnamed⟩ := hbehind
    refine ⟨run, ?_, hnamed hstart⟩
    rw [hrequired, recommended] at hstart
    simp only [matchingRuns, currentHeadActiveRuns, List.mem_filter]
    refine ⟨maxOf?_mem hrun, ?_⟩
    split_ifs at hstart with hcurrent hnone
    · simp [hcurrent]
    · simp [hnone]
    · exact absurd rfl hstart

/-- The status of one audit never fails. -/
lemma exists_statusItem (codec : StatusCodec) (runs : List AuditRun)
    (link : Option AuditTaskLink) (audit : AuditDefinition)
    (currentSha auditedSha : Option String) :
    ∃ item, statusItem codec audit link (runOfAction codec runs currentSha audit.actionKey)
      currentSha auditedSha = some item := by
  suffices h : ∃ status, currentHeadStatus (compareHeads currentSha auditedSha).state currentSha
      (runOfAction codec runs currentSha audit.actionKey)
      (runLifecycle codec (runOfAction codec runs currentSha audit.actionKey)) = some status by
    obtain ⟨status, hstatus⟩ := h
    simp only [statusItem, hstatus, Option.bind_eq_bind, Option.bind_some, Option.pure_def]
    exact ⟨_, rfl⟩
  rcases hfresh : (compareHeads currentSha auditedSha).state with _ | _ | _
  · exact ⟨_, rfl⟩
  · rcases hrun : runOfAction codec runs currentSha audit.actionKey with _ | run
    · exact ⟨_, rfl⟩
    · have hactive := (mem_activeRunsForAction.1 (maxOf?_mem hrun)).2.2
      rcases currentSha with _ | current
      · simp [compareHeads] at hfresh
      · obtain ⟨status, hstatus, -⟩ := actionRequired_of_active current hactive
        exact ⟨status, hstatus⟩
  · exact ⟨_, rfl⟩

/-- A property of the values of a list, when there are any. -/
lemma exists_mapM_iff {α β : Type} {f : α → Option β} {P : α → β → Prop} {as : List α} :
    (∃ bs, as.mapM f = some bs ∧ List.Forall₂ P as bs) ↔ ∀ a ∈ as, ∃ b, f a = some b ∧ P a b := by
  induction as with
  | nil => simp
  | cons a as ih =>
    rw [List.forall_mem_cons, ← ih]
    constructor
    · rintro ⟨bs, hbs, hP⟩
      rw [List.mapM_cons] at hbs
      rcases ha : f a with _ | b <;> rw [ha] at hbs
      · cases hbs
      · rcases has : as.mapM f with _ | bs' <;> rw [has] at hbs
        · cases hbs
        · cases hbs
          cases hP with
          | cons hb hbs' => exact ⟨⟨b, rfl, hb⟩, bs', rfl, hbs'⟩
    · rintro ⟨⟨b, ha, hb⟩, bs, has, hbs⟩
      refine ⟨b :: bs, ?_, .cons hb hbs⟩
      rw [List.mapM_cons, ha, has]
      rfl

/-! ### When the two agree -/

/-- The guard finds no matching run exactly when no active run is without a head or of the current
one. -/
lemma matchingRuns_eq_nil_iff :
    matchingRuns codec runs actionKey (some current) = [] ↔
      ∀ run ∈ activeRunsForAction codec runs actionKey,
        run.currentHeadSha ≠ none ∧ run.currentHeadSha ≠ some current := by
  simp only [matchingRuns, currentHeadActiveRuns, List.filter_eq_nil_iff]
  refine forall₂_congr fun run _ => ?_
  simp [not_or]

/-- An item of an audit that is behind agrees with the guard exactly when nothing is obscured. -/
lemma itemAgrees_iff (hcurrent : rerunState.currentHeadSha = some current)
    (hne : audited ≠ current)
    (hitem : statusItem codec audit link (runOfAction codec runs (some current) audit.actionKey)
      (some current) (some audited) = some item) :
    ItemAgrees codec runs rerunState audit item ↔
      ¬ Obscured codec runs audit.actionKey (some current) := by
  have hbehind := currentHead_of_behind hne hitem
  have hagrees : ItemAgrees codec runs rerunState audit item ↔
      ((item.currentHead.actionRequired = .startCurrentHeadRun ↔
          matchingRuns codec runs audit.actionKey (some current) = []) ∧
        ((item.currentHead.actionRequired = .waitForCurrentHeadRun ∨
            item.currentHead.actionRequired = .inspectUnverifiedRun) ↔
          matchingRuns codec runs audit.actionKey (some current) ≠ [])) := by
    constructor
    · intro h
      have hwait := h.wait "" "" (.ok ()) (.ok ⟨none, none⟩)
      rw [startOneAudit_already_iff, hcurrent] at hwait
      exact ⟨hcurrent ▸ h.start, hwait⟩
    · intro h
      refine ⟨by rw [hcurrent]; exact h.1, fun repoId projectId body created => ?_, ?_⟩
      · rw [startOneAudit_already_iff, hcurrent]
        exact h.2
      · rw [hcurrent]
        exact named_of_behind hne hitem
  rw [hagrees]
  rcases hrun : runOfAction codec runs (some current) audit.actionKey with _ | run <;>
    rw [hrun] at hbehind
  · rw [hbehind]
    -- no active run: status recommends a start and the guard finds nothing
    have hnil := maxOf?_eq_none.1 hrun
    simp [matchingRuns_eq_nil_iff, Obscured, hnil]
  · rw [hbehind.1]
    have hmem := maxOf?_mem hrun
    have hmax := headEvidencePriority_le_runOfAction hrun
    simp only [headEvidencePriority_some] at hmax
    rcases hhead : run.currentHeadSha with _ | sha
    · -- the best active run has no head, so none has one
      simp only [hhead, reduceCtorEq, if_false, if_true] at hmax
      have hmatching : matchingRuns codec runs audit.actionKey (some current) ≠ [] := by
        rw [ne_eq, matchingRuns_eq_nil_iff]
        intro h
        exact (h run hmem).1 hhead
      have hclear : ¬ Obscured codec runs audit.actionKey (some current) := by
        rintro ⟨-, ⟨other, hother, hknown⟩, -⟩
        have := hmax other hother
        rw [if_neg hknown] at this
        split_ifs at this <;> omega
      simp [recommended, hhead, hmatching, hclear]
    · by_cases hsha : sha = current
      · -- the best active run is of the current head
        have hmatching : matchingRuns codec runs audit.actionKey (some current) ≠ [] := by
          rw [ne_eq, matchingRuns_eq_nil_iff]
          intro h
          exact (h run hmem).2 (by rw [hhead, hsha])
        have hclear : ¬ Obscured codec runs audit.actionKey (some current) := by
          rintro ⟨-, -, hother⟩
          exact hother run hmem (by rw [hhead, hsha])
        simp [recommended, hhead, hsha, hmatching, hclear]
      · -- the best active run is of another head, so none is of the current one
        have hnot : run.currentHeadSha ≠ some current := by simpa [hhead] using hsha
        have hothers : ∀ other ∈ activeRunsForAction codec runs audit.actionKey,
            other.currentHeadSha ≠ some current := by
          intro other hother hcurrent'
          have := hmax other hother
          rw [if_pos hcurrent', if_neg hnot, if_neg (by simp [hhead])] at this
          omega
        have hmatching : matchingRuns codec runs audit.actionKey (some current) = [] ↔
            ¬ Obscured codec runs audit.actionKey (some current) := by
          rw [matchingRuns_eq_nil_iff]
          constructor
          · rintro h ⟨⟨other, hother, hnone⟩, -, -⟩
            exact (h other hother).1 hnone
          · intro h other hother
            refine ⟨fun hnone => h ⟨⟨other, hother, hnone⟩, ⟨run, hmem, by simp [hhead]⟩, hothers⟩,
              hothers other hother⟩
        simp [recommended, hhead, hsha, hmatching]

/-- Status and start agree exactly when no active run without a head is hidden by one of another
head. -/
theorem statusAgrees_iff {catalog : AuditCatalog} {links : List AuditTaskLink} :
    StatusAgrees codec catalog links runs rerunState ↔
      ∀ audit ∈ catalog.publishedAudits, rerunState.Behind audit.actionKey →
        ¬ Obscured codec runs audit.actionKey rerunState.currentHeadSha := by
  rw [StatusAgrees, buildStatus, exists_mapM_iff]
  refine forall₂_congr fun audit _ => ?_
  obtain ⟨item, hitem⟩ := exists_statusItem codec runs
    (linkOfAction codec links audit.actionKey) audit rerunState.currentHeadSha
    (rerunState.auditedHeadSha audit.actionKey)
  simp only [Option.bind_some, hitem, Option.some.injEq, exists_eq_left']
  refine forall_congr' fun hbehind => ?_
  obtain ⟨current, audited, hcurrent, haudited, hne⟩ := hbehind
  rw [hcurrent, haudited] at hitem
  rw [itemAgrees_iff hcurrent hne hitem, hcurrent]

def queuedRun (taskId : String) (head : Option String) : AuditRun :=
  { taskId := some taskId, actionKey := some "audit.security", status := some "queued",
    createdAt := none, startedAt := none, completedAt := none, currentHeadSha := head }

/-- A run of an old head hides one without a head: status recommends a start that the guard would
answer with the run that is there. -/
theorem not_statusAgrees_obscured :
    ¬ ∀ codec catalog links runs rerunState,
      StatusAgrees codec catalog links runs rerunState := by
  intro h
  have hagrees := h plainStatusCodec ⟨[⟨"audit.security", "Security", none⟩],
    ⟨"audit.recon", "Recon", none⟩⟩ [] [queuedRun "old" (some "h0"), queuedRun "new" none]
    ⟨some "h2", [("audit.security", "h1")]⟩
  rw [StatusAgrees, buildStatus, exists_mapM_iff] at hagrees
  obtain ⟨item, hitem, hagrees⟩ := hagrees _ List.mem_cons_self
  have hclear :=
    (itemAgrees_iff rfl (by decide) hitem).1 (hagrees ⟨"h2", "h1", rfl, rfl, by decide⟩)
  refine hclear ⟨⟨queuedRun "new" none, ?_, rfl⟩, ⟨queuedRun "old" (some "h0"), ?_, by decide⟩, ?_⟩
  · rw [mem_activeRunsForAction]
    exact ⟨by simp, rfl, by decide⟩
  · rw [mem_activeRunsForAction]
    exact ⟨by simp, rfl, by decide⟩
  · intro run hrun
    rcases List.mem_cons.1 (mem_activeRunsForAction.1 hrun).1 with rfl | hrun
    · decide
    · rw [List.mem_singleton.1 hrun]
      decide

end EnjiGuard.Audit
