import EnjiGuard.Audit.Reconciling
import EnjiGuard.Audit.Status
import Mathlib.Algebra.Order.Ring.Unbundled.Rat
import Mathlib.Data.List.Lex
import Mathlib.Data.String.Basic

/-!
# The order of the rows

Upstream rows and links come in any order. Rows of one run are reduced to one of the greatest key,
and the key neither tells a missing text from an empty one nor how a status is spelt: what is
reported depends on the order where rows that tie are not the same.
-/

namespace EnjiGuard.Audit

open Foundation

/-! ### The ranking of keys -/

lemma totalRanking_newestLt : TotalRanking newestLt where
  asymm {a b} h := by
    rcases a with _ | a <;> rcases b with _ | b <;> simp only [newestLt, reduceCtorEq] at h ⊢
    exact (totalRanking_lt (α := Rat)).asymm h
  cotrans {a b c} h := by
    rcases a with _ | a <;> rcases b with _ | b <;> rcases c with _ | c <;>
      simp only [newestLt, reduceCtorEq, or_true, true_or] at h ⊢
    exact (totalRanking_lt (α := Rat)).cotrans h
  eq {a b} hab hba := by
    rcases a with _ | a <;> rcases b with _ | b <;> simp only [newestLt, reduceCtorEq] at hab hba ⊢
    rw [(totalRanking_lt (α := Rat)).eq hab hba]

lemma totalRanking_texts : TotalRanking fun a b : List String => decide (a < b) := by
  convert totalRanking_lt (α := List String)

lemma SortKey.ext_iff {a b : SortKey} :
    a = b ↔ a.priority = b.priority ∧ a.newest = b.newest ∧ a.texts = b.texts := by
  cases a
  cases b
  simp

lemma totalRanking_sortKey : TotalRanking SortKey.lt where
  toRanking := by
    have htexts : Ranking fun a b : SortKey => decide (a.texts < b.texts) :=
      totalRanking_texts.toRanking.comap SortKey.texts
    have hnewest := Ranking.lexicographic totalRanking_newestLt SortKey.newest htexts
    exact Ranking.lexicographic totalRanking_lt SortKey.priority hnewest
  eq {a b} hab hba := by
    simp only [SortKey.lt, Bool.or_eq_false_iff, decide_eq_false_iff_not, Bool.and_eq_false_iff,
      not_lt] at hab hba
    have hpriority : a.priority = b.priority := le_antisymm hba.1 hab.1
    simp only [hpriority, not_true_eq_false, false_or] at hab hba
    have hnewest : a.newest = b.newest := totalRanking_newestLt.eq hab.2.1 hba.2.1
    simp only [hnewest, not_true_eq_false, false_or] at hab hba
    exact SortKey.ext_iff.2 ⟨hpriority, hnewest, le_antisymm hba.2.2 hab.2.2⟩

/-! ### What is chosen from -/

section

variable (codec : StatusCodec) (settings : LedgerSettings)

/-- The order of the runs of one identity. -/
def runLt (a b : AuditRun) : Bool :=
  (projectionSortKey codec a.projection).lt (projectionSortKey codec b.projection)

/-- The order of the links of an action. -/
def linkLt (a b : AuditTaskLink) : Bool :=
  (projectionSortKey codec a.projection).lt (projectionSortKey codec b.projection)

/-- The links that status chooses from. -/
def candidateLinks (links : List AuditTaskLink) (actionKey : String) : List AuditTaskLink :=
  let items := links.filter fun link => link.actionKey = some actionKey
  let terminal := items.filter fun link =>
    link.lifecycle codec = .completed || link.lifecycle codec = .failed
  let readable := terminal.filter fun link => link.lifecycle codec = .completed
  if readable = [] then terminal else readable

/-- The active runs reported for the identities of the ledger's rows. -/
def heldRuns (ledgerRows rows : List AuditRun) (actionKey : String) : List AuditRun :=
  activeRunsForAction codec ((ledgerRows.map runIdentity).eraseDups.filterMap fun identity =>
    representativeProjection codec (withKey runIdentity identity (ledgerRows ++ rows))) actionKey

/-- The active runs reported for the other identities. -/
def otherRuns (ledgerRows rows : List AuditRun) (actionKey : String) : List AuditRun :=
  activeRunsForAction codec
    (((rows.map runIdentity).removeAll (ledgerRows.map runIdentity)).eraseDups.filterMap
      fun identity => representativeProjection codec
        (withKey runIdentity identity (ledgerRows ++ rows))) actionKey

/-- What status shows of the task of a projection. -/
def Projection.task (p : Projection) : List (Option String) :=
  [p.taskId, p.status, p.createdAt, p.startedAt, p.completedAt]

def AuditStatusItem.task (item : AuditStatusItem) : List (Option String) :=
  [item.taskId, item.taskStatus, item.createdAt, item.startedAt, item.completedAt]

/-- What is chosen and reported does not depend on the order of the rows and of the links: neither
the representative of an identity, nor the runs a reconciliation reports, nor the status that is
built from them. -/
def OrderFree (file : Option FileText) (repoId : String) (upstream : List AuditRun)
    (links : List AuditTaskLink) (taskLookup : String → TaskReply) (now : Datetime)
    (catalog : AuditCatalog) (rerunState : Option AuditRerunState) : Prop :=
  ∀ upstream' links', upstream'.Perm upstream → links'.Perm links →
    (∀ identity, representativeProjection codec (withKey runIdentity identity upstream') =
      representativeProjection codec (withKey runIdentity identity upstream)) ∧
    (∀ e, reconcile codec settings file repoId upstream taskLookup now = .error e →
      reconcile codec settings file repoId upstream' taskLookup now = .error e) ∧
    ∀ runs file', reconcile codec settings file repoId upstream taskLookup now = .ok (runs, file') →
      ∃ runs', reconcile codec settings file repoId upstream' taskLookup now = .ok (runs', file') ∧
        (∀ run, run ∈ runs' ↔ run ∈ runs) ∧
        buildStatus codec catalog links' runs' rerunState =
          buildStatus codec catalog links runs rerunState

/-- The rows of one identity that none exceeds are the same. -/
def RowsAgree (upstream : List AuditRun) : Prop :=
  ∀ identity a b, Greatest (runLt codec) (withKey runIdentity identity upstream) a →
    Greatest (runLt codec) (withKey runIdentity identity upstream) b → a = b

/-- What status chooses from shows one task: among the active runs of an audit that none exceeds
one is of the ledger's rows, or all show the same task; and where no run is active, all links that
none exceeds show the same task. -/
structure ChoicesAgree (ledgerRows rows : List AuditRun) (links : List AuditTaskLink)
    (currentSha : Option String) (actionKey : String) : Prop where
  runs : Settled (headEvidenceLt codec currentSha) (fun run => run.projection.task)
    (heldRuns codec ledgerRows rows actionKey) (otherRuns codec ledgerRows rows actionKey)
  links : activeRunsForAction codec (dedupeRuns codec (ledgerRows ++ rows)) actionKey = [] →
    ∀ a b, Greatest (linkLt codec) (candidateLinks codec links actionKey) a →
      Greatest (linkLt codec) (candidateLinks codec links actionKey) b →
      a.projection.task = b.projection.task

/-- Rows that tie are the same, and choices that tie show the same. -/
structure TiesAgree (file : Option FileText) (repoId : String) (upstream : List AuditRun)
    (links : List AuditTaskLink) (taskLookup : String → TaskReply) (now : Datetime)
    (catalog : AuditCatalog) (rerunState : Option AuditRerunState) : Prop where
  rows : RowsAgree codec upstream
  choices : ∀ entries cache, readLedger file = .ok entries →
    lookupRounds codec file repoId taskLookup now maxLookupRounds [] = .ok cache →
    let commit := commitReconciliation codec settings repoId upstream cache now entries
    ∀ audit ∈ catalog.publishedAudits, ChoicesAgree codec commit.projected
      (unsuppressed upstream commit.suppressTaskIds) links
      (rerunState.bind AuditRerunState.currentHeadSha) audit.actionKey

end

variable {codec : StatusCodec} {settings : LedgerSettings} {upstream ledgerRows : List AuditRun}
variable {links : List AuditTaskLink} {actionKey : String} {currentSha : Option String}

lemma ranking_runLt : Ranking (runLt codec) :=
  totalRanking_sortKey.toRanking.comap fun run : AuditRun => projectionSortKey codec run.projection

lemma ranking_linkLt : Ranking (linkLt codec) :=
  totalRanking_sortKey.toRanking.comap
    fun link : AuditTaskLink => projectionSortKey codec link.projection

lemma ranking_headEvidenceLt : Ranking (headEvidenceLt codec currentSha) :=
  Ranking.lexicographic totalRanking_lt (fun run => headEvidencePriority run currentSha)
    (@ranking_runLt codec)

/-! ### The representatives -/

/-- The orders of rows that are filtered. -/
lemma reorders_unsuppressed (upstream : List AuditRun) (suppressTaskIds : List String) :
    Reorders (fun order : Orders upstream => unsuppressed order.1 suppressTaskIds)
      ⟨upstream, .refl upstream⟩ :=
  (reorders_orders upstream).filter _

/-- The representatives do not depend on the order exactly when the rows agree. -/
lemma rowsAgree_iff : RowsAgree codec upstream ↔ ∀ order : Orders upstream, ∀ identity,
    representativeProjection codec (withKey runIdentity identity order.1) =
      representativeProjection codec (withKey runIdentity identity upstream) := by
  have hsettled := fun identity => settled_iff (@ranking_runLt codec) id []
    ((reorders_orders upstream).filter fun run => runIdentity run = identity)
  simp only [settled_nil, List.nil_append, Option.map_id, id_eq] at hsettled
  rw [forall_comm]
  exact forall_congr' fun identity => (hsettled identity).symm

/-- The rows of one identity are suppressed together. -/
lemma mem_unsuppressed_congr {suppressTaskIds : List String} {a b : AuditRun}
    (ha : a ∈ unsuppressed upstream suppressTaskIds) (hb : b ∈ upstream)
    (hidentity : runIdentity b = runIdentity a) : b ∈ unsuppressed upstream suppressTaskIds := by
  refine List.mem_filter.2 ⟨hb, ?_⟩
  rw [(runIdentity_eq hidentity).1]
  exact (List.mem_filter.1 ha).2

/-- Where the rows agree, what is reported of an identity does not depend on the order. -/
lemma representative_of_rowsAgree (h : RowsAgree codec upstream) (ledgerRows : List AuditRun)
    (suppressTaskIds : List String) (order : Orders upstream)
    (identity : Option String × Option String) :
    representativeProjection codec
        (withKey runIdentity identity (ledgerRows ++ unsuppressed order.1 suppressTaskIds)) =
      representativeProjection codec
        (withKey runIdentity identity (ledgerRows ++ unsuppressed upstream suppressTaskIds)) := by
  have hreorders := (reorders_unsuppressed upstream suppressTaskIds).filter
    fun run => runIdentity run = identity
  have hsettled : Settled (runLt codec) id (withKey runIdentity identity ledgerRows)
      (withKey runIdentity identity (unsuppressed upstream suppressTaskIds)) := by
    by_cases hfixed : ∃ a ∈ withKey runIdentity identity ledgerRows, Greatest (runLt codec)
        (withKey runIdentity identity ledgerRows ++
          withKey runIdentity identity (unsuppressed upstream suppressTaskIds)) a
    · exact .inl hfixed
    · have hgreatest : ∀ a, Greatest (runLt codec) (withKey runIdentity identity ledgerRows ++
          withKey runIdentity identity (unsuppressed upstream suppressTaskIds)) a →
          Greatest (runLt codec) (withKey runIdentity identity upstream) a := by
        intro a ha
        have hmem := (List.mem_append.1 ha.1).resolve_left fun hmem => hfixed ⟨a, hmem, ha⟩
        obtain ⟨hmem, hidentity⟩ := mem_withKey.1 hmem
        refine ⟨mem_withKey.2 ⟨List.mem_of_mem_filter hmem, hidentity⟩, fun b hb => ha.2 b ?_⟩
        obtain ⟨hb, hbIdentity⟩ := mem_withKey.1 hb
        exact List.mem_append_right _ (mem_withKey.2
          ⟨mem_unsuppressed_congr hmem hb (hbIdentity.trans hidentity.symm), hbIdentity⟩)
      exact .inr fun a b ha hb => h identity a b (hgreatest a ha) (hgreatest b hb)
  have hchoice := (settled_iff ranking_runLt id _ hreorders).2 hsettled order
  simp only [Option.map_id, id_eq] at hchoice
  rw [withKey, withKey, List.filter_append, List.filter_append]
  exact hchoice

/-! ### The choices of status -/

/-- The active runs of an action, those of the ledger's identities first. -/
lemma activeRuns_dedupeRuns (ledgerRows rows : List AuditRun) (actionKey : String) :
    activeRunsForAction codec (dedupeRuns codec (ledgerRows ++ rows)) actionKey =
      heldRuns codec ledgerRows rows actionKey ++ otherRuns codec ledgerRows rows actionKey := by
  rw [dedupeRuns_eq, representatives_append, activeRunsForAction, List.filter_append]
  rfl

lemma heldRuns_of_rowsAgree (h : RowsAgree codec upstream) (suppressTaskIds : List String)
    (order : Orders upstream) :
    heldRuns codec ledgerRows (unsuppressed order.1 suppressTaskIds) actionKey =
      heldRuns codec ledgerRows (unsuppressed upstream suppressTaskIds) actionKey := by
  rw [heldRuns, funext (representative_of_rowsAgree h ledgerRows suppressTaskIds order)]
  rfl

lemma reorders_otherRuns (h : RowsAgree codec upstream) (suppressTaskIds : List String) :
    Reorders (fun order : Orders upstream =>
      otherRuns codec ledgerRows (unsuppressed order.1 suppressTaskIds) actionKey)
      ⟨upstream, .refl upstream⟩ := by
  have hidentities := ((reorders_unsuppressed upstream suppressTaskIds).map runIdentity).filter
    fun identity => !(ledgerRows.map runIdentity).elem identity
  have hruns := (hidentities.eraseDups.filterMap fun identity =>
    representativeProjection codec (withKey runIdentity identity
      (ledgerRows ++ unsuppressed upstream suppressTaskIds))).filter
    fun run => run.actionKey = some actionKey && isActiveRun codec run
  have heq : (fun order : Orders upstream =>
      otherRuns codec ledgerRows (unsuppressed order.1 suppressTaskIds) actionKey) = _ :=
    funext fun order => by
      rw [otherRuns, funext (representative_of_rowsAgree h ledgerRows suppressTaskIds order)]
  rw [heq]
  exact hruns

/-- The task of the run that status chooses does not depend on the order exactly when the choice
is settled. -/
lemma runOfAction_settled_iff (h : RowsAgree codec upstream) (suppressTaskIds : List String) :
    (∀ order : Orders upstream,
      (runOfAction codec (dedupeRuns codec
        (ledgerRows ++ unsuppressed order.1 suppressTaskIds)) currentSha actionKey).map
          (fun run => run.projection.task) =
      (runOfAction codec (dedupeRuns codec
        (ledgerRows ++ unsuppressed upstream suppressTaskIds)) currentSha actionKey).map
          fun run => run.projection.task) ↔
      Settled (headEvidenceLt codec currentSha) (fun run => run.projection.task)
        (heldRuns codec ledgerRows (unsuppressed upstream suppressTaskIds) actionKey)
        (otherRuns codec ledgerRows (unsuppressed upstream suppressTaskIds) actionKey) := by
  rw [← settled_iff (@ranking_headEvidenceLt codec currentSha) _ _
    (reorders_otherRuns h suppressTaskIds)]
  refine forall_congr' fun order => ?_
  rw [runOfAction, runOfAction, activeRuns_dedupeRuns, activeRuns_dedupeRuns,
    heldRuns_of_rowsAgree h suppressTaskIds order]

lemma linkOfAction_eq_none :
    linkOfAction codec links actionKey = none ↔ candidateLinks codec links actionKey = [] :=
  maxOf?_eq_none

/-- The links that status chooses from in any order of the links. -/
lemma reorders_candidateLinks (links : List AuditTaskLink) (actionKey : String) :
    Reorders (fun order : Orders links => candidateLinks codec order.1 actionKey)
      ⟨links, .refl links⟩ := by
  have hterminal := ((reorders_orders links).filter
    fun link => link.actionKey = some actionKey).filter
      fun link => link.lifecycle codec = .completed || link.lifecycle codec = .failed
  have hreadable := hterminal.filter fun link => link.lifecycle codec = .completed
  -- Whether there is a completed link does not depend on the order.
  have hnil := hreadable.eq_nil_iff
  by_cases hempty : ((links.filter fun link => link.actionKey = some actionKey).filter fun link =>
      link.lifecycle codec = .completed || link.lifecycle codec = .failed).filter
      (fun link => link.lifecycle codec = .completed) = []
  · have heq : (fun order : Orders links => candidateLinks codec order.1 actionKey) = _ :=
      funext fun order => if_pos ((hnil order).2 hempty)
    rw [heq]
    exact hterminal
  · have heq : (fun order : Orders links => candidateLinks codec order.1 actionKey) = _ :=
      funext fun order => if_neg fun h => hempty ((hnil order).1 h)
    rw [heq]
    exact hreadable

/-- The task of the link that status chooses does not depend on the order exactly when the links
that none exceeds show the same task. -/
lemma linkOfAction_settled_iff :
    (∀ order : Orders links,
      (linkOfAction codec order.1 actionKey).map (fun link => link.projection.task) =
      (linkOfAction codec links actionKey).map fun link => link.projection.task) ↔
      ∀ a b, Greatest (linkLt codec) (candidateLinks codec links actionKey) a →
        Greatest (linkLt codec) (candidateLinks codec links actionKey) b →
        a.projection.task = b.projection.task := by
  rw [← settled_nil, ← settled_iff (@ranking_linkLt codec) _ _
    (reorders_candidateLinks links actionKey)]
  rfl

/-! ### The items of status -/

variable {audit : AuditDefinition} {link : Option AuditTaskLink} {run : Option AuditRun}
variable {auditedSha : Option String} {item : AuditStatusItem} {p : Projection}

lemma task_of_statusItem (hsource : (statusSource codec link run).1 = some p)
    (hitem : statusItem codec audit link run currentSha auditedSha = some item) :
    item.task = p.task := by
  rcases hs : statusSource codec link run with ⟨source, lifecycle⟩
  rw [hs] at hsource
  cases hsource
  simp only [statusItem, hs, Option.bind_eq_bind, Option.pure_def] at hitem
  obtain ⟨status, -, hitem⟩ := Option.bind_eq_some_iff.1 hitem
  cases hitem
  rfl

/-- Runs that tie for status are of the same head. -/
lemma currentHeadSha_of_tie {a b : AuditRun} (hab : headEvidenceLt codec currentSha a b = false)
    (hba : headEvidenceLt codec currentSha b a = false) : a.currentHeadSha = b.currentHeadSha := by
  simp only [headEvidenceLt, Bool.or_eq_false_iff, decide_eq_false_iff_not, Bool.and_eq_false_iff,
    not_lt] at hab hba
  have hpriority := le_antisymm hba.1 hab.1
  simp only [hpriority, not_true_eq_false, false_or] at hab hba
  have hkey := totalRanking_sortKey.eq hab.2 hba.2
  have htext : a.currentHeadSha.getD "" = b.currentHeadSha.getD "" := by
    have htexts := congrArg (fun key => key.texts[9]?) hkey
    simpa [projectionSortKey, AuditRun.projection] using htexts
  -- A run without a head has the least evidence, one of an empty head has more.
  rcases ha : a.currentHeadSha with _ | sha <;> rcases hb : b.currentHeadSha with _ | sha'
  · rfl
  · simp only [headEvidencePriority, ha, hb] at hpriority
    split_ifs at hpriority <;> simp_all
  · simp only [headEvidencePriority, ha, hb] at hpriority
    split_ifs at hpriority <;> simp_all
  · simpa [ha, hb] using htext

/-- Runs that tie and show the same task give the same item. -/
lemma statusItem_of_tie {link' : Option AuditTaskLink} {a b : AuditRun}
    (hab : headEvidenceLt codec currentSha a b = false)
    (hba : headEvidenceLt codec currentSha b a = false)
    (htask : a.projection.task = b.projection.task) :
    statusItem codec audit link (some a) currentSha auditedSha =
      statusItem codec audit link' (some b) currentSha auditedSha := by
  have hhead := currentHeadSha_of_tie hab hba
  simp only [Projection.task, AuditRun.projection, List.cons.injEq, and_true] at htask
  obtain ⟨htaskId, hstatus, hcreated, hstarted, hcompleted⟩ := htask
  have hlifecycle : a.lifecycle codec = b.lifecycle codec := by
    rw [AuditRun.lifecycle, AuditRun.lifecycle, hstatus, hstarted, hcompleted]
  simp only [statusItem, statusSource, runLifecycle, currentHeadStatus, activeCurrentHeadStatus,
    hlifecycle, hhead, htaskId, hstatus, AuditRun.projection, Option.bind_some, hcreated, hstarted,
    hcompleted]
  rfl

/-- Links that show the same task give the same item. -/
lemma statusItem_of_task_eq {a b : AuditTaskLink} (htask : a.projection.task = b.projection.task) :
    statusItem codec audit (some a) none currentSha auditedSha =
      statusItem codec audit (some b) none currentSha auditedSha := by
  simp only [Projection.task, AuditTaskLink.projection, List.cons.injEq, and_true] at htask
  obtain ⟨htaskId, hstatus, hcreated, hstarted, hcompleted⟩ := htask
  have hlifecycle : a.lifecycle codec = b.lifecycle codec := by
    rw [AuditTaskLink.lifecycle, AuditTaskLink.lifecycle, hstatus, hstarted, hcompleted]
  simp only [statusItem, statusSource, hlifecycle]
  split_ifs <;> simp only [AuditTaskLink.projection, Option.bind_some, htaskId, hstatus, hcreated,
    hstarted, hcompleted]

/-- The link that status chooses is over. -/
lemma statusSource_linkOfAction {chosen : AuditTaskLink}
    (h : linkOfAction codec links actionKey = some chosen) :
    (statusSource codec (some chosen) none).1 = some chosen.projection := by
  have hmem := maxOf?_mem h
  have hover : chosen.lifecycle codec = .failed ∨ chosen.lifecycle codec = .completed := by
    split_ifs at hmem
    · simp only [List.mem_filter, Bool.or_eq_true, decide_eq_true_eq] at hmem
      exact hmem.2.symm
    · simp only [List.mem_filter, decide_eq_true_eq] at hmem
      exact .inr hmem.2
  simp [statusSource, hover]

/-- In any order the same runs are active. -/
lemma activeRuns_perm (h : RowsAgree codec upstream) (suppressTaskIds : List String)
    (order : Orders upstream) :
    (activeRunsForAction codec
      (dedupeRuns codec (ledgerRows ++ unsuppressed order.1 suppressTaskIds)) actionKey).Perm
    (activeRunsForAction codec
      (dedupeRuns codec (ledgerRows ++ unsuppressed upstream suppressTaskIds)) actionKey) := by
  rw [activeRuns_dedupeRuns, activeRuns_dedupeRuns, heldRuns_of_rowsAgree h suppressTaskIds order]
  exact ((reorders_otherRuns h suppressTaskIds).perm order).append_left _

/-- Whether status shows a run of an action does not depend on the order. -/
lemma runOfAction_eq_none_congr (h : RowsAgree codec upstream) (suppressTaskIds : List String)
    (order : Orders upstream) :
    runOfAction codec (dedupeRuns codec (ledgerRows ++ unsuppressed order.1 suppressTaskIds))
        currentSha actionKey = none ↔
      runOfAction codec (dedupeRuns codec (ledgerRows ++ unsuppressed upstream suppressTaskIds))
        currentSha actionKey = none := by
  rw [runOfAction, runOfAction, maxOf?_eq_none, maxOf?_eq_none, ← List.length_eq_zero_iff,
    (activeRuns_perm h suppressTaskIds order).length_eq, List.length_eq_zero_iff]

/-- The item of an audit does not depend on the order exactly when its choices agree. -/
lemma choicesAgree_iff (h : RowsAgree codec upstream) (suppressTaskIds : List String)
    (auditedSha : Option String) :
    (∀ (order : Orders upstream) (linkOrder : Orders links),
      statusItem codec audit (linkOfAction codec linkOrder.1 audit.actionKey)
        (runOfAction codec (dedupeRuns codec
          (ledgerRows ++ unsuppressed order.1 suppressTaskIds)) currentSha audit.actionKey)
        currentSha auditedSha =
      statusItem codec audit (linkOfAction codec links audit.actionKey)
        (runOfAction codec (dedupeRuns codec
          (ledgerRows ++ unsuppressed upstream suppressTaskIds)) currentSha audit.actionKey)
        currentSha auditedSha) ↔
      ChoicesAgree codec ledgerRows (unsuppressed upstream suppressTaskIds) links currentSha
        audit.actionKey := by
  constructor
  · intro hall
    obtain ⟨item, hitem⟩ := exists_statusItem codec
      (dedupeRuns codec (ledgerRows ++ unsuppressed upstream suppressTaskIds))
      (linkOfAction codec links audit.actionKey) audit currentSha auditedSha
    refine ⟨(runOfAction_settled_iff h suppressTaskIds).1 fun order => ?_, fun hnone =>
      linkOfAction_settled_iff.1 fun linkOrder => ?_⟩
    · have hsame := (hall order ⟨links, .refl links⟩).trans hitem
      have hnone := @runOfAction_eq_none_congr codec upstream ledgerRows audit.actionKey currentSha
        h suppressTaskIds order
      rcases horder : runOfAction codec (dedupeRuns codec
        (ledgerRows ++ unsuppressed order.1 suppressTaskIds)) currentSha audit.actionKey with _ | a
      · rw [hnone.1 horder]
      · rcases hself : runOfAction codec (dedupeRuns codec
          (ledgerRows ++ unsuppressed upstream suppressTaskIds)) currentSha audit.actionKey
            with _ | b
        · rw [hnone.2 hself] at horder
          cases horder
        · rw [horder] at hsame
          rw [hself] at hitem
          have ha := task_of_statusItem (p := a.projection) rfl hsame
          have hb := task_of_statusItem (p := b.projection) rfl hitem
          exact congrArg some (ha.symm.trans hb)
    · have hself : runOfAction codec (dedupeRuns codec
          (ledgerRows ++ unsuppressed upstream suppressTaskIds)) currentSha audit.actionKey =
            none :=
        maxOf?_eq_none.2 hnone
      have hsame := (hall ⟨upstream, .refl upstream⟩ linkOrder).trans hitem
      have hnil := (@reorders_candidateLinks codec links audit.actionKey).eq_nil_iff linkOrder
      rw [hself] at hitem hsame
      rcases horder : linkOfAction codec linkOrder.1 audit.actionKey with _ | a
      · rw [linkOfAction_eq_none.2 (hnil.1 (linkOfAction_eq_none.1 horder))]
      · rcases hlink : linkOfAction codec links audit.actionKey with _ | b
        · rw [linkOfAction_eq_none.2 (hnil.2 (linkOfAction_eq_none.1 hlink))] at horder
          cases horder
        · rw [horder] at hsame
          rw [hlink] at hitem
          have ha := task_of_statusItem (statusSource_linkOfAction horder) hsame
          have hb := task_of_statusItem (statusSource_linkOfAction hlink) hitem
          exact congrArg some (ha.symm.trans hb)
  · rintro ⟨hruns, hlinks⟩ order linkOrder
    have hrun := (runOfAction_settled_iff h suppressTaskIds).2 hruns order
    rcases hself : runOfAction codec (dedupeRuns codec
        (ledgerRows ++ unsuppressed upstream suppressTaskIds)) currentSha audit.actionKey with _ | b
    · rw [(runOfAction_eq_none_congr h suppressTaskIds order).2 hself]
      have hlink := linkOfAction_settled_iff.2 (hlinks (maxOf?_eq_none.1 hself)) linkOrder
      rcases horder : linkOfAction codec linkOrder.1 audit.actionKey with _ | a <;>
        rcases hchosen : linkOfAction codec links audit.actionKey with _ | c
      · rfl
      · rw [horder, hchosen] at hlink
        cases hlink
      · rw [horder, hchosen] at hlink
        cases hlink
      · rw [horder, hchosen] at hlink
        exact statusItem_of_task_eq (Option.some.inj hlink)
    · rcases horder : runOfAction codec (dedupeRuns codec
          (ledgerRows ++ unsuppressed order.1 suppressTaskIds)) currentSha audit.actionKey
            with _ | a
      · rw [horder, hself] at hrun
        cases hrun
      · rw [horder, hself] at hrun
        -- Neither exceeds the other, for both are chosen from the same runs.
        have ha := (greatest_maxOf? ranking_headEvidenceLt horder).congr
          fun c => (activeRuns_perm h suppressTaskIds order).mem_iff
        have hb := greatest_maxOf? ranking_headEvidenceLt hself
        exact statusItem_of_tie (ha.2 b hb.1) (hb.2 a ha.1) (Option.some.inj hrun)

/-! ### Reconciling in any order -/

variable {file file' : Option FileText} {repoId : String} {taskLookup : String → TaskReply}
variable {now : Datetime} {entries : List AuditLedgerEntry} {catalog : AuditCatalog}
variable {cache : List (String × TaskLookupResult)} {rerunState : Option AuditRerunState}

/-- What becomes of the entries does not depend on the order of the rows. -/
lemma commitReconciliation_perm (order : Orders upstream) :
    commitReconciliation codec settings repoId order.1 cache now entries =
      commitReconciliation codec settings repoId upstream cache now entries := by
  have hupstream : hasUpstream codec order.1 = hasUpstream codec upstream := by
    funext actionKey
    rw [hasUpstream, hasUpstream, Bool.eq_iff_iff, List.any_eq_true, List.any_eq_true]
    simp only [order.2.mem_iff]
  induction entries with
  | nil => rfl
  | cons entry entries ih => rw [commitReconciliation, commitReconciliation, ih, hupstream]

/-- What a reconciliation returns that has looked its tasks up. -/
lemma reconcile_of_order (order : Orders upstream) (hread : readLedger file = .ok entries)
    (hcache : lookupRounds codec file repoId taskLookup now maxLookupRounds [] = .ok cache) :
    let commit := commitReconciliation codec settings repoId upstream cache now entries
    reconcile codec settings file repoId order.1 taskLookup now =
      .ok (reconciledRuns codec order.1 commit,
        if commit.changed then some (.json (ledgerPayload commit.retained)) else file) := by
  simp only [reconcile, commitTransaction, hcache, hread, bind, Except.bind, pure, Except.pure,
    commitReconciliation_perm order]

lemma reconcile_eq_error {e : AuditError} (order : Orders upstream)
    (h : reconcile codec settings file repoId upstream taskLookup now = .error e) :
    reconcile codec settings file repoId order.1 taskLookup now = .error e := by
  rcases hcache : lookupRounds codec file repoId taskLookup now maxLookupRounds [] with e' | cache
  · simp only [reconcile, hcache, bind, Except.bind] at h ⊢
    exact h
  · rcases hread : readLedger file with e' | entries
    · simp only [reconcile, commitTransaction, hcache, hread, bind, Except.bind] at h ⊢
      exact h
    · rw [reconcile_of_order ⟨upstream, .refl upstream⟩ hread hcache] at h
      cases h

/-- Calls that do not fail return the same exactly when each does. -/
lemma mapM_eq_mapM_iff {α β : Type} {f g : α → Option β} {as : List α}
    (hf : ∀ a, (f a).isSome) (hg : ∀ a, (g a).isSome) :
    as.mapM f = as.mapM g ↔ ∀ a ∈ as, f a = g a := by
  have hmap : ∀ {f : α → Option β} (hf : ∀ a, (f a).isSome),
      as.mapM f = some (as.map fun a => (f a).get (hf a)) := by
    intro f hf
    induction as with
    | nil => rfl
    | cons a as ih =>
      obtain ⟨b, hb⟩ := Option.isSome_iff_exists.1 (hf a)
      rw [List.mapM_cons, ih, hb]
      simp [hb]
  rw [hmap hf, hmap hg, Option.some.injEq, List.map_inj_left]
  refine forall₂_congr fun a _ => ?_
  rw [← Option.some_inj, Option.some_get, Option.some_get]

lemma isSome_statusItem (runs : List AuditRun) (audit : AuditDefinition) :
    (statusItem codec audit link (runOfAction codec runs currentSha audit.actionKey) currentSha
      auditedSha).isSome := by
  obtain ⟨item, hitem⟩ := exists_statusItem codec runs link audit currentSha auditedSha
  rw [hitem]
  rfl

/-- The status does not depend on the order exactly when the items of the audits do not. -/
lemma buildStatus_eq_iff {runs runs' : List AuditRun} {links' : List AuditTaskLink} :
    buildStatus codec catalog links' runs' rerunState =
        buildStatus codec catalog links runs rerunState ↔
      ∀ audit ∈ catalog.publishedAudits,
        statusItem codec audit (linkOfAction codec links' audit.actionKey)
          (runOfAction codec runs' (rerunState.bind AuditRerunState.currentHeadSha)
            audit.actionKey) (rerunState.bind AuditRerunState.currentHeadSha)
          (rerunState.bind fun state => state.auditedHeadSha audit.actionKey) =
        statusItem codec audit (linkOfAction codec links audit.actionKey)
          (runOfAction codec runs (rerunState.bind AuditRerunState.currentHeadSha)
            audit.actionKey) (rerunState.bind AuditRerunState.currentHeadSha)
          (rerunState.bind fun state => state.auditedHeadSha audit.actionKey) :=
  mapM_eq_mapM_iff (fun audit => isSome_statusItem runs' audit)
    fun audit => isSome_statusItem runs audit

/-- What is chosen and reported does not depend on the order of rows and links exactly when the rows
that tie are the same and the choices that tie show the same. -/
theorem orderFree_iff :
    OrderFree codec settings file repoId upstream links taskLookup now catalog rerunState ↔
      TiesAgree codec settings file repoId upstream links taskLookup now catalog rerunState := by
  constructor
  · intro hfree
    have hrows : RowsAgree codec upstream := rowsAgree_iff.2 fun order identity =>
      (hfree order.1 links order.2 (.refl links)).1 identity
    refine ⟨hrows, ?_⟩
    intro entries cache hread hcache commit audit haudit
    refine (choicesAgree_iff hrows commit.suppressTaskIds
      (rerunState.bind fun state => state.auditedHeadSha audit.actionKey)).1
        fun order linkOrder => ?_
    obtain ⟨runs', hruns', -, hstatus⟩ :=
      (hfree order.1 linkOrder.1 order.2 linkOrder.2).2.2 _ _
        (reconcile_of_order ⟨upstream, .refl upstream⟩ hread hcache)
    rw [reconcile_of_order order hread hcache] at hruns'
    cases hruns'
    exact buildStatus_eq_iff.1 hstatus audit haudit
  · rintro ⟨hrows, hchoices⟩ upstream' links' hupstream hlinks
    refine ⟨rowsAgree_iff.1 hrows ⟨upstream', hupstream⟩,
      fun e he => reconcile_eq_error ⟨upstream', hupstream⟩ he, fun runs file' hruns => ?_⟩
    rcases hcache : lookupRounds codec file repoId taskLookup now maxLookupRounds [] with e | cache
    · simp [reconcile, hcache, bind, Except.bind] at hruns
    · rcases hread : readLedger file with e | entries
      · simp [reconcile, commitTransaction, hcache, hread, bind, Except.bind] at hruns
      · rw [reconcile_of_order ⟨upstream, .refl upstream⟩ hread hcache] at hruns
        cases hruns
        refine ⟨_, reconcile_of_order ⟨upstream', hupstream⟩ hread hcache, fun run => ?_, ?_⟩
        · exact mem_representatives_congr chooses_representativeProjection
            (representative_of_rowsAgree hrows _ _ ⟨upstream', hupstream⟩)
        · exact buildStatus_eq_iff.2 fun audit haudit =>
            (choicesAgree_iff hrows _ _).2 (hchoices entries cache hread hcache audit haudit)
              ⟨upstream', hupstream⟩ ⟨links', hlinks⟩

def capitalsCodec : StatusCodec :=
  ⟨fun status => if status = "RUNNING" then "running" else status, fun _ => none⟩

/-- A row of a task that runs, with its status as it is spelt. -/
def spelledRow (status : String) : AuditRun :=
  { taskId := some "task", actionKey := some "audit.security", status := some status,
    createdAt := none, startedAt := none, completedAt := none, currentHeadSha := some "head" }

/-- Two rows of one task that differ in how their status is spelt: the one that comes first is
shown. -/
theorem not_orderFree_spelled :
    ¬ ∀ codec settings file repoId upstream links taskLookup now catalog rerunState,
      OrderFree codec settings file repoId upstream links taskLookup now catalog rerunState := by
  intro h
  have hfree := h capitalsCodec {} none "repo" [spelledRow "RUNNING", spelledRow "running"] []
    (fun _ => .notFound) Sys.dawn ⟨[], ⟨"audit.recon", "Recon", none⟩⟩ none
  have hchosen := (hfree [spelledRow "running", spelledRow "RUNNING"] []
    (.swap _ _ []) (.refl [])).1 (some "task", none)
  revert hchosen
  decide

end EnjiGuard.Audit
