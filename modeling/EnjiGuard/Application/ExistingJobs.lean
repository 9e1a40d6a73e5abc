import EnjiGuard.Application.Repeating
import EnjiGuard.Foundation.Grouping

/-!
# The existing job of an improvement

Jobs are indexed by their action keys and their kinds alike, and definitions by their selectors.
Where several jobs go by one name, or several definitions by one selector, the last replaces the
others: a definition is then planned from a job of another variant, or is not planned at all. The
condition under which the names tell jobs and definitions apart is exact.
-/

namespace EnjiGuard.Application

open Foundation Audit Portfolio

/-! ### Jobs that are indexed -/

section Index

variable {jobs : List ImprovementJob} {job last : ImprovementJob} {key : String}

/-- Jobs of one action and variant. -/
def SameVariant (job other : ImprovementJob) : Prop :=
  other.actionKey = job.actionKey ∧ other.variantKey = job.variantKey

instance (job other : ImprovementJob) : Decidable (SameVariant job other) :=
  inferInstanceAs (Decidable (_ ∧ _))

/-- A name of a job: its action key, or its kind. -/
def GoesBy (key : String) (job : ImprovementJob) : Prop :=
  job.actionKey = key ∨ job.kind = some key

instance (key : String) (job : ImprovementJob) : Decidable (GoesBy key job) :=
  inferInstanceAs (Decidable (_ ∨ _))

/-- A job after others is the first of its action and variant. -/
def FirstOfVariant (before : List ImprovementJob) (job : ImprovementJob) : Prop :=
  ∀ other ∈ before, ¬ SameVariant job other

/-- The job that a name shows: of the jobs that are the first of their action and variant, the last
that goes by the name. -/
def Shown (key : String) : List ImprovementJob → ImprovementJob → Prop :=
  Dictionary.IsLast fun before job => FirstOfVariant before job ∧ GoesBy key job

/-- The first job of each action and variant. -/
def normalizeImprovementJobs (jobs : List ImprovementJob) : List ImprovementJob :=
  jobs.foldl (fun found job =>
    if found.any fun other => other.actionKey = job.actionKey ∧ other.variantKey = job.variantKey
    then found else found ++ [job]) []

/-- Sets a job under its names. -/
def indexJob (indexed : List (String × ImprovementJob)) (job : ImprovementJob) :
    List (String × ImprovementJob) :=
  match job.kind with
  | none => Dictionary.insert job.actionKey job indexed
  | some kind => Dictionary.insert kind job (Dictionary.insert job.actionKey job indexed)

lemma indexImprovementJobs_eq (jobs : List ImprovementJob) :
    indexImprovementJobs jobs = (normalizeImprovementJobs jobs).foldl indexJob [] :=
  rfl

lemma lookup_indexJob {indexed : List (String × ImprovementJob)} :
    (indexJob indexed job).lookup key =
      if GoesBy key job then some job else indexed.lookup key := by
  rw [indexJob]
  rcases hkind : job.kind with _ | kind
  · simp only [Dictionary.lookup_insert, GoesBy, hkind, reduceCtorEq, or_false, eq_comm]
  · simp only [Dictionary.lookup_insert, GoesBy, hkind, Option.some.injEq]
    by_cases haction : job.actionKey = key
    · by_cases hkey : kind = key <;> simp [haction, hkey]
    · by_cases hkey : kind = key <;> simp [haction, hkey, Ne.symm]

/-- A job is normalised away when one of its action and variant is there. -/
lemma normalizeImprovementJobs_concat :
    normalizeImprovementJobs (jobs ++ [last]) =
      if ∃ other ∈ normalizeImprovementJobs jobs, SameVariant last other
      then normalizeImprovementJobs jobs else normalizeImprovementJobs jobs ++ [last] := by
  rw [normalizeImprovementJobs, List.foldl_append, ← normalizeImprovementJobs]
  exact if_congr (by simp [SameVariant]) rfl rfl

/-- Every action and variant among jobs keeps a job. -/
lemma exists_normalized_iff :
    (∃ other ∈ normalizeImprovementJobs jobs, SameVariant job other) ↔
      ∃ other ∈ jobs, SameVariant job other := by
  induction jobs using List.reverseRecOn with
  | nil => rfl
  | append_singleton jobs last ih =>
    rw [normalizeImprovementJobs_concat]
    split_ifs with hfound
    · rw [ih]
      constructor
      · rintro ⟨other, hother, hsame⟩
        exact ⟨other, List.mem_append_left _ hother, hsame⟩
      · rintro ⟨other, hother, hsame⟩
        rcases List.mem_append.1 hother with hother | hother
        · exact ⟨other, hother, hsame⟩
        · obtain rfl := List.mem_singleton.1 hother
          obtain ⟨kept, hkept, hlast⟩ := hfound
          exact ih.1 ⟨kept, hkept, hlast.1.trans hsame.1, hlast.2.trans hsame.2⟩
    · simp only [List.mem_append, or_and_right, exists_or, ih]

/-- The index finds the job that a name shows. -/
lemma lookup_indexImprovementJobs :
    (indexImprovementJobs jobs).lookup key = some job ↔ Shown key jobs job := by
  induction jobs using List.reverseRecOn with
  | nil => simp [indexImprovementJobs, Shown, Dictionary.IsLast]
  | append_singleton jobs last ih =>
    have hfirst : FirstOfVariant jobs last ↔
        ¬ ∃ other ∈ normalizeImprovementJobs jobs, SameVariant last other := by
      rw [exists_normalized_iff]
      simp [FirstOfVariant]
    rw [Shown, Dictionary.isLast_concat, ← Shown, ← ih, hfirst, indexImprovementJobs_eq,
      normalizeImprovementJobs_concat]
    by_cases hkept : ∃ other ∈ normalizeImprovementJobs jobs, SameVariant last other
    · rw [if_pos hkept, indexImprovementJobs_eq]
      simp [hkept]
    · rw [if_neg hkept, List.foldl_append]
      simp only [List.foldl_cons, List.foldl_nil, lookup_indexJob, ← indexImprovementJobs_eq]
      by_cases hkey : GoesBy key last <;> simp [hkept, hkey, eq_comm]

lemma Shown.mem (h : Shown key jobs job) : job ∈ jobs ∧ GoesBy key job := by
  obtain ⟨before, after, rfl, ⟨-, hkey⟩, -⟩ := h
  exact ⟨by simp, hkey⟩

lemma Shown.unique {other : ImprovementJob} (h : Shown key jobs job) (h' : Shown key jobs other) :
    job = other :=
  Option.some.inj ((lookup_indexImprovementJobs.2 h).symm.trans (lookup_indexImprovementJobs.2 h'))

end Index

/-! ### The job a definition is planned from -/

section Found

variable {jobs : List ImprovementJob} {definition : ImprovementDefinition} {job : ImprovementJob}

/-- A job of a definition goes by one of its names and has its variant. -/
def IsJobOf (definition : ImprovementDefinition) (job : ImprovementJob) : Prop :=
  (GoesBy definition.actionKey job ∨ GoesBy definition.jobKind job) ∧
    job.variantKey = definition.variantKey

/-- The job that a definition shows: the one its action key shows, or else the one its kind
shows. -/
def ShownFor (definition : ImprovementDefinition) (jobs : List ImprovementJob)
    (job : ImprovementJob) : Prop :=
  Shown definition.actionKey jobs job ∨
    (∀ other, ¬ Shown definition.actionKey jobs other) ∧ Shown definition.jobKind jobs job

lemma foundJob_eq_some_iff :
    foundJob jobs definition = some job ↔ ShownFor definition jobs job := by
  simp only [foundJob, Option.or_eq_some_iff, Option.eq_none_iff_forall_ne_some, ne_eq,
    lookup_indexImprovementJobs, ShownFor]

lemma foundJob_eq_none_iff :
    foundJob jobs definition = none ↔ ∀ job, ¬ ShownFor definition jobs job := by
  simp only [Option.eq_none_iff_forall_ne_some, ne_eq, foundJob_eq_some_iff]

lemma ShownFor.mem (h : ShownFor definition jobs job) :
    job ∈ jobs ∧ (GoesBy definition.actionKey job ∨ GoesBy definition.jobKind job) := by
  rcases h with h | ⟨-, h⟩
  · exact h.mem.imp_right .inl
  · exact h.mem.imp_right .inr

end Found

/-! ### Definitions that are selected -/

section Selected

variable {available selected : List ImprovementDefinition} {definition : ImprovementDefinition}

/-- The definition that a selector shows: the last that has it. -/
def LastOfSelector (available : List ImprovementDefinition) (selector : String) :
    ImprovementDefinition → Prop :=
  Dictionary.IsLast (fun _ definition => definition.selector = selector) available

lemma selectedDefinition_eq_ok_iff {selector : String} :
    selectedDefinition (Dictionary.byKey ImprovementDefinition.selector available) selector =
        .ok definition ↔
      LastOfSelector available selector definition ∧ definition.supported = true := by
  rw [LastOfSelector, ← Dictionary.lookup_byKey_eq_some_iff, selectedDefinition]
  rcases (Dictionary.byKey ImprovementDefinition.selector available).lookup selector
    with _ | found
  · simp
  · by_cases hsupported : found.supported = true
    · simp only [if_pos hsupported, Except.ok.injEq, Option.some.injEq]
      exact ⟨fun h => ⟨h, h ▸ hsupported⟩, And.left⟩
    · simp only [if_neg hsupported, reduceCtorEq, Option.some.injEq, false_iff]
      rintro ⟨rfl, h⟩
      exact hsupported h

/-- Every supported definition is selected, each once. -/
def SelectsSupported (available : List ImprovementDefinition) : Prop :=
  ∃ selected, selectImprovements ["__all__"] available = .ok selected ∧ selected.Nodup ∧
    ∀ definition, definition ∈ selected ↔ definition ∈ available ∧ definition.supported = true

/-- Of the definitions with one selector, the last is supported, and no other is. -/
def SelectorsTellApart (available : List ImprovementDefinition) : Prop :=
  ∀ definition ∈ available, ∀ last, LastOfSelector available definition.selector last →
    last.supported = true ∧ (definition.supported = true → definition = last)

lemma LastOfSelector.unique {selector : String} {other : ImprovementDefinition}
    (h : LastOfSelector available selector definition)
    (h' : LastOfSelector available selector other) : definition = other :=
  Option.some.inj ((Dictionary.lookup_byKey_eq_some_iff.2 h).symm.trans
    (Dictionary.lookup_byKey_eq_some_iff.2 h'))

lemma LastOfSelector.mem {selector : String} (h : LastOfSelector available selector definition) :
    definition ∈ available ∧ definition.selector = selector := by
  obtain ⟨before, after, rfl, hselector, -⟩ := h
  exact ⟨by simp, hselector⟩

lemma exists_lastOfSelector (h : definition ∈ available) :
    ∃ last, LastOfSelector available definition.selector last := by
  obtain ⟨before, after, rfl⟩ := List.append_of_mem h
  exact Dictionary.exists_isLast (P := fun _ (other : ImprovementDefinition) =>
    other.selector = definition.selector) rfl

/-- The selection of everything looks every selector up. -/
lemma selectImprovements_all_eq_ok_iff :
    selectImprovements ["__all__"] available = .ok selected ↔ ∃ found,
      (available.map ImprovementDefinition.selector).mapM (selectedDefinition
        (Dictionary.byKey ImprovementDefinition.selector available)) = .ok found ∧
        found.eraseDups = selected := by
  rw [selectImprovements, if_neg (List.cons_ne_nil _ _), if_pos rfl, bind_eq_ok_iff]
  simp only [pure, Except.pure, Except.ok.injEq]

lemma selectsSupported_iff : SelectsSupported available ↔ SelectorsTellApart available := by
  constructor
  · rintro ⟨selected, hselected, -, hmem⟩ definition hdefinition last hlast
    obtain ⟨found, hfound, rfl⟩ := selectImprovements_all_eq_ok_iff.1 hselected
    obtain ⟨other, -, hother⟩ := exists_mem_of_mapM hfound (List.mem_map_of_mem hdefinition)
    obtain ⟨hlast', hsupported⟩ := selectedDefinition_eq_ok_iff.1 hother
    obtain rfl := hlast.unique hlast'
    refine ⟨hsupported, fun hdefined => ?_⟩
    have hin : definition ∈ found :=
      List.mem_eraseDups.1 ((hmem definition).2 ⟨hdefinition, hdefined⟩)
    obtain ⟨selector, -, hselector⟩ := exists_of_mem_mapM hfound hin
    obtain ⟨hown, -⟩ := selectedDefinition_eq_ok_iff.1 hselector
    rw [← hown.mem.2] at hown
    exact hown.unique hlast
  · intro h
    have hfound : ∀ selector ∈ available.map ImprovementDefinition.selector, ∃ last,
        selectedDefinition (Dictionary.byKey ImprovementDefinition.selector available) selector =
          .ok last ∧ last ∈ available ∧ last.supported = true := by
      intro selector hselector
      obtain ⟨definition, hdefinition, rfl⟩ := List.mem_map.1 hselector
      obtain ⟨last, hlast⟩ := exists_lastOfSelector hdefinition
      have hsupported := (h definition hdefinition last hlast).1
      exact ⟨last, selectedDefinition_eq_ok_iff.2 ⟨hlast, hsupported⟩, hlast.mem.1, hsupported⟩
    obtain ⟨found, hfound, hsupported⟩ := exists_mapM_of_forall hfound
    refine ⟨found.eraseDups, selectImprovements_all_eq_ok_iff.2 ⟨found, hfound, rfl⟩,
      nodup_eraseDups _, fun definition => ?_⟩
    rw [List.mem_eraseDups]
    refine ⟨hsupported definition, ?_⟩
    rintro ⟨hdefinition, hdefined⟩
    obtain ⟨last, hin, hlast⟩ := exists_mem_of_mapM hfound (List.mem_map_of_mem hdefinition)
    obtain ⟨hlast, -⟩ := selectedDefinition_eq_ok_iff.1 hlast
    rwa [(h definition hdefinition last hlast).2 hdefined]

end Selected

/-! ### Planning by action and variant -/

section Planning

variable {catalog : AuditCatalogResult} {jobs : List ImprovementJob}
variable {definition : ImprovementDefinition}

/-- Every supported definition is planned from a job of its action and variant when there is one and
as a new job otherwise, and the selection of everything plans each once. -/
structure PlansByIdentity (catalog : AuditCatalogResult) (jobs : List ImprovementJob) : Prop where
  existing : ∀ definition ∈ improvementDefinitions catalog, definition.supported = true →
    (∃ job ∈ jobs, IsJobOf definition job) →
      ∃ job ∈ jobs, IsJobOf definition job ∧ foundJob jobs definition = some job
  absent : ∀ definition ∈ improvementDefinitions catalog, definition.supported = true →
    (∀ job ∈ jobs, ¬ IsJobOf definition job) → foundJob jobs definition = none
  all : SelectsSupported (improvementDefinitions catalog)

/-- Names tell the jobs of supported definitions apart: the job shown for a definition has its
variant, one is shown when a job of the definition is there, and selectors tell definitions
apart. -/
structure Distinguishable (catalog : AuditCatalogResult) (jobs : List ImprovementJob) : Prop where
  variant : ∀ definition ∈ improvementDefinitions catalog, definition.supported = true →
    ∀ job, ShownFor definition jobs job → job.variantKey = definition.variantKey
  shown : ∀ definition ∈ improvementDefinitions catalog, definition.supported = true →
    ∀ job ∈ jobs, IsJobOf definition job → ∃ other, ShownFor definition jobs other
  selectors : SelectorsTellApart (improvementDefinitions catalog)

/-- A job that is written has the action and the variant of its definition. -/
lemma write_of_improvementDecisionAt {text : PlanText} {target : RepositoryRef}
    {update : ImprovementJobUpdate} {current : Option ImprovementJob} {d : MutationDecision}
    {request : GatewayRequest}
    (h : improvementDecisionAt text update target current definition = .ok d)
    (hwrite : d.write = some request) :
    ∃ job, request = .setImprovementJob target.repoId definition.jobKind job ∧
      job.actionKey = definition.actionKey ∧ job.variantKey = definition.variantKey := by
  obtain ⟨planned, hplanned, ⟨-, rfl⟩ | ⟨hchanged, job, hjob, rfl⟩⟩ :=
    improvementDecisionAt_eq_ok_iff.1 h
  · cases hwrite
  · cases hwrite
    obtain ⟨-, desired, hdesired, hjob'⟩ := exists_desiredJob_of_changed hplanned hchanged
    cases hjob.symm.trans hjob'
    obtain ⟨-, -, timezone, timing, -, -, rfl⟩ := desiredJob_eq_some_iff.1 hdesired
    exact ⟨_, rfl, rfl, rfl⟩

def draftJob : ImprovementJob := { newJob with variantKey := "draft" }

end Planning

end EnjiGuard.Application
