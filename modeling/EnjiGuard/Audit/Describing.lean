import EnjiGuard.Audit.Runs
import EnjiGuard.Audit.Scheduling
import EnjiGuard.Foundation.Json
import EnjiGuard.Foundation.Placeholders

/-!
# The description of a task

The template of a task comes from the catalog with the placeholders of the service. They are
translated when the catalog is read, filled in when the task is built, and the last one is filled in
when the task is sent, each by a pass of its own over what the passes before it left. The result is
the template filled in at once exactly when no inserted text forms a placeholder.
-/

namespace EnjiGuard.Audit

open Foundation

/-! ### Templates -/

def placeholder (name : String) : String := "\x7b\x7b" ++ name ++ "\x7d\x7d"

/-- Replaces every occurrence of a text. -/
def replaceText (text old new : String) : String :=
  String.ofList (fill [(old.toList, new.toList)] text.toList)

/-- Replaces placeholders by their names, one after the other. -/
def replaceNames (values : List (String × String)) (template : String) : String :=
  values.foldl (fun template value => replaceText template (placeholder value.1) value.2) template

/-- The placeholders of the service and the names they have here. -/
def externalNames : List (String × String) := [
  ("recurringPrefix", "recurring_prefix"),
  ("repoFullName", "repository_locator"),
  ("repoUrl", "repository_url"),
  ("linkedSites", "linked_websites"),
  ("artifactSchemaName", "artifact_schema_name"),
  ("artifactSchemaVersion", "artifact_schema_version"),
  ("artifactContract", "artifact_contract"),
  ("constraintsSection", "constraints")]

/-- A template of the catalog under the names used here. -/
def auditDescriptionTemplate (template : Option String) : Option String :=
  template.map (replaceNames (externalNames.map fun name => (name.1, placeholder name.2)))

/-- The template of a task whose audit has none. -/
def defaultTemplate : String :=
  placeholder "recurring_prefix" ++ "\n\nRepository:\n- locator: " ++
    placeholder "repository_locator" ++ "\n- url: " ++ placeholder "repository_url" ++
    "\n\nLinked websites:\n" ++ placeholder "linked_websites" ++
    "\n\nArtifact contract for this run:\n- structured artifact metadata.schema_name=" ++
    placeholder "artifact_schema_name" ++ "\n- structured artifact metadata.schema_version=" ++
    placeholder "artifact_schema_version" ++ "\n- " ++ placeholder "artifact_contract" ++
    "\n\nConstraints:\n" ++ placeholder "constraints"

/-! ### Tasks -/

/-- A repository of a project, as tasks name it. -/
structure AuditRepository where
  repoId : String
  provider : String
  locator : String
  connected : Bool
  webUrl : Option String := none
  deriving DecidableEq, Repr

/-- A website and the repositories it is linked to. -/
structure AuditWebsite where
  url : String
  repoIds : List String
  deriving DecidableEq, Repr

/-- What a task needs of a project. -/
structure AuditProject where
  projectId : String
  repositories : List AuditRepository
  linkedWebsites : List AuditWebsite
  deriving DecidableEq, Repr

/-- What a task is built from. -/
structure AuditTaskContext where
  project : AuditProject
  audit : AuditDefinition
  suggestedFlow : Option String := none
  suggestedFlowConfig : List (String × Json) := []
  runbookId : String
  artifactSchemaName : String
  artifactSchemaVersion : String
  descriptionTemplate : Option String := none

/-- A task before it is sent. -/
structure AuditTaskBody where
  title : String
  description : String
  projectId : String
  executionFlow : String
  flowConfig : List (String × Json)
  runbookId : String
  scopeOwner : String
  repositoryProvider : String
  repositoryLocator : String
  repositoryWebUrl : Option String := none

/-- The websites linked to a repository, one a line. -/
def linkedWebsites (project : AuditProject) (repoId : String) : String :=
  let linked := (project.linkedWebsites.filter fun site => repoId ∈ site.repoIds).map
    AuditWebsite.url
  if linked = [] then "- none linked yet"
  else String.intercalate "\n" (linked.map fun url => "- " ++ url)

/-- What the placeholders of a description stand for. -/
def descriptionValues (context : AuditTaskContext) (locator repoId : String)
    (webUrl : Option String) : List (String × String) := [
  ("recurring_prefix",
    "Task created from " ++ context.audit.actionKey ++ " for " ++ locator ++ "."),
  ("repository_locator", locator),
  ("repository_url", (nonempty webUrl).getD ""),
  ("linked_websites", linkedWebsites context.project repoId),
  ("artifact_schema_name", context.artifactSchemaName),
  ("artifact_schema_version", context.artifactSchemaVersion),
  ("artifact_contract", "structured artifact metadata is machine-readable and deterministic"),
  ("constraints", "- use task title and description only")]

def description (context : AuditTaskContext) (locator repoId : String) (webUrl : Option String) :
    String :=
  replaceNames (descriptionValues context locator repoId webUrl)
    ((nonempty context.descriptionTemplate).getD defaultTemplate)

section

variable (strip repr : String → String)

/-- The task of a repository; `strip` and `repr` are the operations of the language on texts. -/
def taskForRepo (context : AuditTaskContext) (repoId : String) :
    Except AuditError AuditTaskBody := do
  match context.project.repositories.find? fun repository => repository.repoId = repoId with
  | none => throw (.repositoryUnusable ("project does not contain repo id: " ++ repoId))
  | some repository =>
    let locator := repository.locator
    if ¬ repository.connected then
      throw (.repositoryUnusable ("repo is not connected: " ++ locator))
    if strip locator = "" ∨ locator ∈ ["/", "//"] then
      throw (.repositoryUnusable ("repository has incomplete locator: " ++ repr locator))
    if strip context.artifactSchemaName = "" then
      throw (.actionUnusable "audit task is missing artifact schema name")
    if strip context.artifactSchemaVersion = "" then
      throw (.actionUnusable "audit task is missing artifact schema version")
    if strip context.runbookId = "" then
      throw (.actionUnusable "audit task is missing runbook id")
    return {
      title := context.audit.title ++ " for " ++ locator
      description := description context locator repoId repository.webUrl
      projectId := context.project.projectId
      executionFlow := (nonempty context.suggestedFlow).getD "single"
      flowConfig := context.suggestedFlowConfig
      runbookId := context.runbookId
      scopeOwner := context.project.projectId
      repositoryProvider := repository.provider
      repositoryLocator := locator
      repositoryWebUrl := repository.webUrl }

end

def reportSchema (actionKey : String) : String :=
  if actionKey = "audit.recon" then "upfront.recon.report" else "upfront.audit.report"

/-- A description as it is sent. -/
def wireDescription (actionKey description : String) : String :=
  replaceText description (placeholder "reportSchemaName") (reportSchema actionKey)

/-- A task as it is sent. -/
def fleetTaskBody (actionKey : String) (task : AuditTaskBody) : List (String × Json) := [
  ("title", .str task.title),
  ("description", .str (wireDescription actionKey task.description)),
  ("project_id", .str task.projectId),
  ("execution_flow", .str task.executionFlow),
  ("flow_config", .obj task.flowConfig),
  ("runbook_id", .str task.runbookId),
  ("scope_type", .str "project"),
  ("scope_owner", .str task.scopeOwner),
  ("origin_type", .str "manual"),
  ("repo_access_contexts", .arr [.obj [
    ("provider", .str task.repositoryProvider),
    ("repo_full_name", .str task.repositoryLocator)]])]

/-! ### Placeholders -/

section Placeholders

variable {values before : List (String × String)} {value : String × String} {template : String}

/-- What a pass looks for and what it inserts. -/
def filling (value : String × String) : List Char × List Char :=
  ((placeholder value.1).toList, value.2.toList)

/-- A template with its placeholders filled in at once. -/
def fillNames (values : List (String × String)) (template : String) : String :=
  String.ofList (fill (values.map filling) template.toList)

/-- How often a template holds a placeholder. -/
def timesHeld (name template : String) : Nat :=
  occurrences (placeholder name).toList template.toList

/-- Every pass finds the placeholders of the template, and no others. -/
def OnlyTemplate (fillIn : List (String × String) → String → String)
    (values : List (String × String)) (template : String) : Prop :=
  ∀ before value after, values = before ++ value :: after →
    timesHeld value.1 (fillIn before template) = timesHeld value.1 template

lemma replaceNames_eq :
    replaceNames values template =
      String.ofList (fillEach (values.map filling) template.toList) := by
  induction values using List.reverseRecOn with
  | nil => simp [replaceNames, fillEach]
  | append_singleton before value ih =>
    have hlast : replaceNames (before ++ [value]) template =
        replaceText (replaceNames before template) (placeholder value.1) value.2 := by
      rw [replaceNames, List.foldl_append]
      rfl
    rw [hlast, ih, replaceText, List.map_append, List.map_singleton, fillEach_concat,
      String.toList_ofList]
    rfl

lemma toList_placeholder (name : String) :
    (placeholder name).toList = '{' :: '{' :: (name.toList ++ ['}', '}']) := by
  simp [placeholder]

/-- Placeholders whose names hold no braces are separate. -/
lemma separate_placeholders {names : List String}
    (h : ∀ name ∈ names, '{' ∉ name.toList ∧ '}' ∉ name.toList) :
    Separate (names.map fun name => (placeholder name).toList) where
  nonempty := by
    intro token htoken
    obtain ⟨name, -, rfl⟩ := List.mem_map.1 htoken
    rw [toList_placeholder]
    exact List.cons_ne_nil _ _
  apart := by
    intro token htoken other hother before after rest heq hafter hstands
    obtain ⟨name, hname, rfl⟩ := List.mem_map.1 htoken
    obtain ⟨name', hname', rfl⟩ := List.mem_map.1 hother
    obtain ⟨more, hmore⟩ := hstands
    rw [toList_placeholder] at heq hmore
    have hclosed : '{' ∉ name.toList ++ ['}', '}'] := by simp [(h name hname).1]
    rcases before with _ | ⟨b, _ | ⟨b', before⟩⟩
    · rw [List.nil_append] at heq
      subst heq
      have hnames : name'.toList ++ '}' :: '}' :: more =
          name.toList ++ '}' :: '}' :: rest := by simpa using hmore
      have hsame := (append_cons_inj (h name' hname').2 (h name hname).2 hnames).1
      rw [String.toList_inj.1 hsame]
      exact ⟨rfl, rfl⟩
    · -- the second brace of the other would stand in the name or behind it
      obtain ⟨-, rfl⟩ := List.cons.inj heq
      have hbrace : '{' :: (name'.toList ++ ['}', '}'] ++ more) =
          name.toList ++ ['}', '}'] ++ rest := by simpa using hmore
      obtain ⟨c, tail, htail⟩ := List.exists_cons_of_ne_nil
        (List.append_ne_nil_of_right_ne_nil name.toList (List.cons_ne_nil '}' ['}']))
      rw [htail, List.cons_append] at hbrace
      rw [htail, ← (List.cons.inj hbrace).1] at hclosed
      exact absurd List.mem_cons_self hclosed
    · obtain ⟨c, tail, rfl⟩ := List.exists_cons_of_ne_nil hafter
      have hbrace : '{' = c := (List.cons.inj hmore).1
      have htail : name.toList ++ ['}', '}'] = before ++ c :: tail := by
        simpa using (List.cons.inj (List.cons.inj heq).2).2
      rw [htail, hbrace] at hclosed
      exact absurd (by simp) hclosed

lemma placeholder_inj {name name' : String}
    (h : (placeholder name).toList = (placeholder name').toList) : name = name' := by
  rw [toList_placeholder, toList_placeholder] at h
  exact String.toList_inj.1 (List.append_cancel_right (List.cons.inj (List.cons.inj h).2).2)

lemma independent_fillings
    (hnames : ∀ name ∈ values.map Prod.fst, '{' ∉ name.toList ∧ '}' ∉ name.toList)
    (hnodup : (values.map Prod.fst).Nodup) : Independent (values.map filling) := by
  have htokens : (values.map filling).map Prod.fst =
      (values.map Prod.fst).map fun name => (placeholder name).toList := by
    rw [List.map_map, List.map_map]
    rfl
  constructor
  · rw [htokens]
    exact separate_placeholders hnames
  · rw [htokens]
    exact hnodup.map fun _ _ h => placeholder_inj h

lemma onlyTemplate_fillNames_iff :
    OnlyTemplate fillNames values template ↔
      Uncaptured (values.map filling) template.toList := by
  rw [Uncaptured, forall_split_map]
  simp only [OnlyTemplate, timesHeld, fillNames, String.toList_ofList]
  rfl

/-- Passes give what is filled in at once, finding only the placeholders of the template, exactly
when none is formed by what is inserted. -/
lemma replaceNames_iff (h : Independent (values.map filling)) :
    (replaceNames values template = fillNames values template ∧
        OnlyTemplate replaceNames values template) ↔ OnlyTemplate fillNames values template := by
  have heach : OnlyTemplate replaceNames values template ↔
      ∀ before entry after, values.map filling = before ++ entry :: after →
        occurrences entry.1 (fillEach before template.toList) =
          occurrences entry.1 template.toList := by
    rw [forall_split_map]
    simp only [OnlyTemplate, timesHeld, replaceNames_eq, String.toList_ofList]
    rfl
  rw [heach, onlyTemplate_fillNames_iff, ← fillEach_iff h, replaceNames_eq, fillNames,
    String.ofList_inj]

end Placeholders

/-! ### Descriptions -/

section Describe

variable (actionKey : String) (context : AuditTaskContext) (locator repoId : String)
variable (webUrl : Option String)

/-- What the placeholders of a sent description stand for, in the order of the passes. -/
def taskValues : List (String × String) :=
  descriptionValues context locator repoId webUrl ++
    [("reportSchemaName", reportSchema actionKey)]

/-- What the placeholders of a template stand for, those of the service among them. -/
def templateValues : List (String × String) :=
  externalNames.map (fun name =>
    (name.1, ((taskValues actionKey context locator repoId webUrl).lookup name.2).getD "")) ++
    taskValues actionKey context locator repoId webUrl

/-- The placeholders of the service, as they are translated. -/
def translations : List (String × String) :=
  externalNames.map fun name => (name.1, placeholder name.2)

/-- The template that a description is made from. -/
def translatedTemplate (template : Option String) : String :=
  (nonempty (auditDescriptionTemplate template)).getD defaultTemplate

def sentDescription (template : Option String) : String :=
  wireDescription actionKey (description
    { context with descriptionTemplate := auditDescriptionTemplate template } locator repoId webUrl)

/-- A task that is built is sent with the description of its repository. -/
lemma lookup_fleetTaskBody {strip repr : String → String} {template : Option String}
    {task : AuditTaskBody}
    (h : taskForRepo strip repr
      { context with descriptionTemplate := auditDescriptionTemplate template } repoId =
        .ok task) :
    ∃ repository ∈ context.project.repositories, repository.repoId = repoId ∧
      (fleetTaskBody actionKey task).lookup "description" = some (.str
        (sentDescription actionKey context repository.locator repoId repository.webUrl
          template)) := by
  rw [taskForRepo] at h
  rcases hfound : context.project.repositories.find?
    (fun repository => repository.repoId = repoId) with _ | repository
  · rw [hfound] at h
    cases h
  · rw [hfound] at h
    refine ⟨repository, List.mem_of_find?_eq_some hfound, ?_, ?_⟩
    · simpa using List.find?_some hfound
    · simp only [bind, Except.bind, pure, Except.pure, throw, throwThe,
        MonadExceptOf.throw] at h
      split_ifs at h
      cases h
      rfl

/-- The description that is sent is the template filled in at once, and every pass finds only the
placeholders of the template. -/
structure CaptureFree (template : Option String) : Prop where
  filled : sentDescription actionKey context locator repoId webUrl template =
    fillNames (templateValues actionKey context locator repoId webUrl)
      ((nonempty template).getD defaultTemplate)
  only : OnlyTemplate replaceNames (taskValues actionKey context locator repoId webUrl)
    (translatedTemplate template)

lemma independent_all : Independent (translations.map filling ++
    (taskValues actionKey context locator repoId webUrl).map filling) := by
  have hnames : (translations ++ taskValues actionKey context locator repoId webUrl).map Prod.fst =
      externalNames.map Prod.fst ++ externalNames.map Prod.snd ++ ["reportSchemaName"] := rfl
  rw [← List.map_append]
  refine independent_fillings ?_ ?_
  · rw [hnames]
    decide
  · rw [hnames]
    decide

lemma independent_translations : Independent (translations.map filling) :=
  independent_fillings (by decide) (by decide)

lemma independent_taskValues :
    Independent ((taskValues actionKey context locator repoId webUrl).map filling) :=
  (independent_all actionKey context locator repoId webUrl).right

/-- Every placeholder of the service is translated to one that has a value. -/
lemma exists_taskValue {name : String × String} (h : name ∈ externalNames) :
    ∃ value, (name.2, value) ∈ taskValues actionKey context locator repoId webUrl ∧
      (taskValues actionKey context locator repoId webUrl).lookup name.2 = some value := by
  have hlookup : ∀ name ∈ externalNames, ∃ value,
      (taskValues actionKey context locator repoId webUrl).lookup name.2 = some value := by
    simp [externalNames, taskValues, descriptionValues, List.lookup_cons]
  obtain ⟨value, hvalue⟩ := hlookup name h
  exact ⟨value, Dictionary.mem_of_lookup_eq_some hvalue, hvalue⟩

/-- A translation is done at once, and finds only the placeholders of the template. -/
lemma replaceNames_translations (template : String) :
    replaceNames translations template = fillNames translations template ∧
      OnlyTemplate replaceNames translations template := by
  have hseparate : Separate ((externalNames.map Prod.fst ++ externalNames.map Prod.snd).map
      fun name => (placeholder name).toList) := separate_placeholders (by decide)
  have hnew : ∀ name ∈ externalNames, ∀ other ∈ externalNames, name.1 ≠ other.2 := by decide
  have hname : ∀ entry ∈ translations.map filling, ∃ name ∈ externalNames,
      entry = ((placeholder name.1).toList, (placeholder name.2).toList) := by
    intro entry hentry
    obtain ⟨_, htranslation, rfl⟩ := List.mem_map.1 hentry
    obtain ⟨name, hname, rfl⟩ := List.mem_map.1 htranslation
    exact ⟨name, hname, rfl⟩
  rw [replaceNames_iff independent_translations, onlyTemplate_fillNames_iff]
  refine uncaptured_of_targets hseparate independent_translations ?_ ?_ ?_ _
  · intro entry hentry
    obtain ⟨name, hname, rfl⟩ := hname entry hentry
    exact List.mem_map_of_mem (List.mem_append_left _ (List.mem_map_of_mem hname))
  · intro entry hentry
    obtain ⟨name, hname, rfl⟩ := hname entry hentry
    exact List.mem_map_of_mem (List.mem_append_right _ (List.mem_map_of_mem hname))
  · intro entry hentry other hother heq
    obtain ⟨name, hname', rfl⟩ := hname entry hentry
    obtain ⟨name', hname'', rfl⟩ := hname other hother
    exact hnew name hname' name' hname'' (placeholder_inj heq)

variable {actionKey context locator repoId webUrl}

/-- A template that is translated and filled in is filled in at once. -/
lemma fillNames_translations (template : String) :
    fillNames (taskValues actionKey context locator repoId webUrl)
        (fillNames translations template) =
      fillNames (templateValues actionKey context locator repoId webUrl) template := by
  have hall := independent_all actionKey context locator repoId webUrl
  have hvalues := independent_taskValues actionKey context locator repoId webUrl
  have htargets : ∀ entry ∈ translations.map filling, entry.2 ∈
      ((taskValues actionKey context locator repoId webUrl).map filling).map Prod.fst := by
    intro entry hentry
    obtain ⟨_, htranslation, rfl⟩ := List.mem_map.1 hentry
    obtain ⟨name, hname, rfl⟩ := List.mem_map.1 htranslation
    obtain ⟨value, hvalue, -⟩ := exists_taskValue actionKey context locator repoId webUrl hname
    exact List.mem_map.2 ⟨_, List.mem_map_of_mem hvalue, rfl⟩
  rw [fillNames, fillNames, fillNames, String.toList_ofList, fill_fill hall htargets,
    templateValues, List.map_append, List.map_map, translations, List.map_map, List.map_map]
  congr 3
  refine List.map_congr_left fun name hname => ?_
  obtain ⟨value, hvalue, hlookup⟩ := exists_taskValue actionKey context locator repoId webUrl hname
  have hfilled := @fill_entry _ _ _ _ [] hvalues (List.mem_map_of_mem hvalue)
  simp only [filling, List.append_nil, fill_nil] at hfilled
  simp [filling, hfilled, hlookup]

/-- The template of a task whose audit has none holds no placeholder of the service. -/
lemma fillNames_default : fillNames translations defaultTemplate = defaultTemplate := by
  have hfill : fill (translations.map filling) defaultTemplate.toList =
      defaultTemplate.toList := by
    simp only [defaultTemplate, String.toList_append, toList_placeholder]
    decide +kernel
  rw [fillNames, hfill, String.ofList_toList]

lemma translatedTemplate_filled (template : Option String) :
    fillNames (taskValues actionKey context locator repoId webUrl) (translatedTemplate template) =
      fillNames (templateValues actionKey context locator repoId webUrl)
        ((nonempty template).getD defaultTemplate) := by
  have hinserted : ∀ entry ∈ translations.map filling, entry.2 ≠ [] := by decide
  rw [← fillNames_translations]
  refine congrArg (fillNames _) ?_
  rw [translatedTemplate]
  by_cases hempty : nonempty template = none
  · have htranslated : nonempty (auditDescriptionTemplate template) = none := by
      rcases template with _ | raw
      · rfl
      · have hraw : raw = "" := by simpa [nonempty] using hempty
        rw [hraw]
        decide +kernel
    rw [hempty, htranslated, Option.getD_none, fillNames_default]
  · obtain ⟨raw, hraw⟩ := Option.ne_none_iff_exists'.1 hempty
    obtain ⟨rfl, hne⟩ := Option.filter_eq_some_iff.1 hraw
    have hfilled : fillNames translations raw ≠ "" := by
      intro h
      have hnil := congrArg String.toList h
      rw [fillNames, String.toList_ofList] at hnil
      refine fill_ne_nil hinserted (fun hraw => ?_) hnil
      rw [String.toList_eq_nil_iff] at hraw
      simp [hraw] at hne
    rw [hraw, auditDescriptionTemplate, Option.map_some, ← translations,
      (replaceNames_translations raw).1, nonempty, Option.filter_some]
    simp [hfilled]

lemma sentDescription_eq (template : Option String) :
    sentDescription actionKey context locator repoId webUrl template =
      replaceNames (taskValues actionKey context locator repoId webUrl)
        (translatedTemplate template) := by
  rw [taskValues, replaceNames, List.foldl_append]
  rfl

/-- A template is translated at once. The description that is sent is the template filled in at
once, with nothing taken for a placeholder that is not one of the template, exactly when the
template, filled in up to a placeholder, holds it as often as at first. -/
theorem captureFree_iff (actionKey : String) (context : AuditTaskContext)
    (locator repoId : String) (webUrl template : Option String) :
    (∀ raw, auditDescriptionTemplate (some raw) = some (fillNames translations raw) ∧
      OnlyTemplate replaceNames translations raw) ∧
    (CaptureFree actionKey context locator repoId webUrl template ↔
      OnlyTemplate fillNames (taskValues actionKey context locator repoId webUrl)
        (translatedTemplate template)) := by
  constructor
  · intro raw
    obtain ⟨heq, honly⟩ := replaceNames_translations raw
    exact ⟨congrArg some heq, honly⟩
  · rw [← replaceNames_iff (independent_taskValues actionKey context locator repoId webUrl)]
    constructor
    · rintro ⟨hfilled, honly⟩
      rw [sentDescription_eq, ← translatedTemplate_filled] at hfilled
      exact ⟨hfilled, honly⟩
    · rintro ⟨hfilled, honly⟩
      refine ⟨?_, honly⟩
      rw [sentDescription_eq, hfilled, translatedTemplate_filled]

/-- A project with a website whose address looks like a placeholder. -/
def linkedProject : AuditProject where
  projectId := "project"
  repositories := [⟨"repo", "github", "acme/app", true, none⟩]
  linkedWebsites := [⟨"https://a.io/" ++ placeholder "constraints", ["repo"]⟩]

def linkedContext : AuditTaskContext where
  project := linkedProject
  audit := ⟨"audit.security", "Security", none⟩
  runbookId := "runbook"
  artifactSchemaName := "schema"
  artifactSchemaVersion := "1"

/-- A task is built and sent in whose description the address of a website is taken for a
placeholder. -/
theorem not_captureFree_linked :
    (∃ task, taskForRepo id id { linkedContext with
        descriptionTemplate := auditDescriptionTemplate (some (placeholder "linkedSites")) }
          "repo" = .ok task ∧
      (fleetTaskBody "audit.security" task).lookup "description" =
        some (.str (sentDescription "audit.security" linkedContext "acme/app" "repo" none
          (some (placeholder "linkedSites"))))) ∧
    ¬ CaptureFree "audit.security" linkedContext "acme/app" "repo" none
      (some (placeholder "linkedSites")) := by
  constructor
  · have hbuilt : ∃ task, taskForRepo id id { linkedContext with
        descriptionTemplate := auditDescriptionTemplate (some (placeholder "linkedSites")) }
          "repo" = .ok task := ⟨_, rfl⟩
    obtain ⟨task, htask⟩ := hbuilt
    obtain ⟨repository, hrepository, -, hsent⟩ :=
      lookup_fleetTaskBody "audit.security" linkedContext "repo" htask
    cases List.mem_singleton.1 hrepository
    exact ⟨task, htask, hsent⟩
  · intro h
    have hfilled := h.filled
    revert hfilled
    decide +kernel

end Describe

end EnjiGuard.Audit
