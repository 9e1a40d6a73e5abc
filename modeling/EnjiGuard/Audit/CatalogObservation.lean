import EnjiGuard.Audit.Runs
import EnjiGuard.Foundation.Dictionary
import EnjiGuard.Foundation.Json

/-!
# The observation of the audit catalog

Every live catalog is compared with the snapshot of the published audits before it. The snapshot
is a file that outlives the process, so the comparison goes through what the file keeps of an
action; it is written again only when something changed.
-/

namespace EnjiGuard.Audit

open Foundation

/-! ### The catalog -/

@[ext]
structure AuditCatalogAction where
  actionKey : String
  title : String
  category : Option String
  status : Option String
  metricGroup : Option String
  runbookKind : Option String
  runbookId : Option String := none
  artifactSchemaName : Option String := none
  artifactSchemaVersion : Option String := none
  taskDescriptionTemplate : Option String := none
  deriving DecidableEq, Repr

structure CatalogImprovement where
  actionKey : String
  variantKey : String
  title : Option String := none
  description : Option String := none
  runbookId : Option String := none
  status : Option String := none
  sortOrder : Option Int := none
  deriving DecidableEq, Repr

/-- How an audit changed. -/
inductive ChangeKind
  | added
  | removed
  | changed
  deriving DecidableEq, Repr

structure AuditCatalogChange where
  kind : ChangeKind
  actionKey : String
  changedFields : List String := []
  deriving DecidableEq, Repr

structure AuditCatalogResult where
  actions : List AuditCatalogAction
  improvements : List CatalogImprovement := []
  changes : List AuditCatalogChange := []
  deriving DecidableEq, Repr

/-- The actions that are audits one can run. -/
def isPublishedAudit (action : AuditCatalogAction) : Bool :=
  action.actionKey ≠ "audit.recon" && action.category = some "audit" &&
    action.status = some "published"

/-! ### The difference -/

/-- The data of two actions, by the names of the fields. -/
def actionFields (old new : AuditCatalogAction) : List (String × Option String × Option String) := [
    ("title", some old.title, some new.title),
    ("category", old.category, new.category),
    ("status", old.status, new.status),
    ("metric_group", old.metricGroup, new.metricGroup),
    ("runbook_kind", old.runbookKind, new.runbookKind),
    ("runbook_id", old.runbookId, new.runbookId),
    ("artifact_schema_name", old.artifactSchemaName, new.artifactSchemaName),
    ("artifact_schema_version", old.artifactSchemaVersion, new.artifactSchemaVersion),
    ("task_description_template", old.taskDescriptionTemplate, new.taskDescriptionTemplate)]

/-- The names of the fields in which two actions differ. -/
def differingFields (old new : AuditCatalogAction) : List String :=
  ((actionFields old new).filter fun field => field.2.1 ≠ field.2.2).map Prod.fst

/-- The change of one key, given its actions before and now. -/
def changeOf (actionKey : String) : Option AuditCatalogAction → Option AuditCatalogAction →
    Option AuditCatalogChange
  | none, some _ => some { kind := .added, actionKey := actionKey }
  | some _, none => some { kind := .removed, actionKey := actionKey }
  | some old, some new =>
    if old ≠ new then
      some { kind := .changed
             actionKey := actionKey
             changedFields := differingFields old new }
    else none
  | none, none => none

/-- The order in which kinds of changes are reported. -/
def ChangeKind.order : ChangeKind → Nat
  | .added => 0
  | .removed => 1
  | .changed => 2

/-- The changes between two catalogs, by kind and then by key. -/
def diff (previous current : List AuditCatalogAction) : List AuditCatalogChange :=
  let previousByKey := Dictionary.byKey AuditCatalogAction.actionKey previous
  let currentByKey := Dictionary.byKey AuditCatalogAction.actionKey current
  let keys := (previousByKey.map Prod.fst ++ currentByKey.map Prod.fst).dedup
  let changes := (keys.insertionSort (· ≤ ·)).filterMap fun actionKey =>
    changeOf actionKey (previousByKey.lookup actionKey) (currentByKey.lookup actionKey)
  changes.insertionSort fun a b => a.kind.order < b.kind.order ∨
    a.kind.order = b.kind.order ∧ a.actionKey ≤ b.actionKey

/-! ### The snapshot -/

/-- An action as the snapshot keeps it. -/
def actionPayload (action : AuditCatalogAction) : List (String × Json) := [
    ("title", .str action.title),
    ("category", .ofOptionalStr action.category),
    ("status", .ofOptionalStr action.status),
    ("metric_group", .ofOptionalStr action.metricGroup),
    ("runbook_kind", .ofOptionalStr action.runbookKind),
    ("runbook_id", .ofOptionalStr action.runbookId),
    ("artifact_schema_name", .ofOptionalStr action.artifactSchemaName),
    ("artifact_schema_version", .ofOptionalStr action.artifactSchemaVersion),
    ("task_description_template", .ofOptionalStr action.taskDescriptionTemplate)]

/-- An action from the snapshot; a value of another type reads as none. -/
def actionFromSnapshot (actionKey : String) (payload : List (String × Json)) :
    AuditCatalogAction where
  actionKey := actionKey
  title := (Json.lookup "title" payload).str?.getD ""
  category := (Json.lookup "category" payload).str?
  status := (Json.lookup "status" payload).str?
  metricGroup := (Json.lookup "metric_group" payload).str?
  runbookKind := (Json.lookup "runbook_kind" payload).str?
  runbookId := (Json.lookup "runbook_id" payload).str?
  artifactSchemaName := (Json.lookup "artifact_schema_name" payload).str?
  artifactSchemaVersion := (Json.lookup "artifact_schema_version" payload).str?
  taskDescriptionTemplate := (Json.lookup "task_description_template" payload).str?

/-- The version of the snapshot. -/
def schemaVersion : Int := 2

/-- An item of the snapshot; one that holds no object is skipped. -/
def snapshotItem : String × Json → Option (String × List (String × Json))
  | (actionKey, .obj fields) => some (actionKey, fields)
  | _ => none

/-- The items of a snapshot; none when the file is missing or is no snapshot of this version. -/
def readSnapshot :
    Option FileText → Except AuditError (Option (List (String × List (String × Json))))
  | none => .ok none
  | some .notUtf8 => .error (.other "UnicodeDecodeError")
  | some (.notJson _) => .ok none
  | some (.refused typeName) => .error (.other typeName)
  | some (.json (.obj payload)) =>
    if (Json.lookup "schema_version" payload).equalsInt schemaVersion then
      match Json.lookup "audits" payload with
      | .obj actions => .ok (some (actions.filterMap snapshotItem))
      | _ => .ok none
    else .ok none
  | some (.json _) => .ok none

/-- The actions of the stored snapshot. -/
def loadSnapshot (file : Option FileText) :
    Except AuditError (Option (List AuditCatalogAction)) := do
  match ← readSnapshot file with
  | none => return none
  | some payload =>
    return some ((Dictionary.sortedItems payload).map fun item => actionFromSnapshot item.1 item.2)

def saveSnapshot (actions : List AuditCatalogAction) : Option FileText :=
  some (.json (.obj [
    ("schema_version", .int schemaVersion),
    ("audits", .obj (Dictionary.ofItems (actions.map fun action =>
      (action.actionKey, .obj (actionPayload action)))))]))

/-! ### Observing -/

/-- A process that observes catalogs, and the file its snapshots are in. -/
structure AuditCatalogObserver where
  stateFile : Option FileText
  changes : List AuditCatalogChange := []

/-- Compares a live catalog with the snapshot, which it replaces when something changed. -/
def AuditCatalogObserver.observe (observer : AuditCatalogObserver) (result : AuditCatalogResult) :
    Except AuditError (AuditCatalogResult × AuditCatalogObserver) := do
  let previous ← loadSnapshot observer.stateFile
  let current := result.actions.filter isPublishedAudit
  let changes := match previous with
    | some previous => diff previous current
    | none => []
  let stateFile := if previous = none ∨ changes ≠ [] then saveSnapshot current
    else observer.stateFile
  return ({ result with changes := changes }, { stateFile := stateFile, changes := changes })

/-- A catalog that was observed and the result that was returned for it. -/
structure Observation where
  observed : AuditCatalogResult
  reported : AuditCatalogResult

/-- What happens to the observers of a file, one process after the other. -/
inductive ObserverEvent
  | observe (result : AuditCatalogResult)
  | restart

def AuditCatalogObserver.run (observer : AuditCatalogObserver) :
    List ObserverEvent → Except AuditError (List Observation × AuditCatalogObserver)
  | [] => .ok ([], observer)
  | .restart :: events => AuditCatalogObserver.run { stateFile := observer.stateFile } events
  | .observe result :: events => do
    let (reported, observer) ← observer.observe result
    let (history, observer) ← observer.run events
    return ({ observed := result, reported := reported } :: history, observer)

def observedResults : List ObserverEvent → List AuditCatalogResult
  | [] => []
  | .restart :: events => observedResults events
  | .observe result :: events => result :: observedResults events

/-! ### What a difference is -/

/-- The change of a key between two catalogs. -/
inductive Differs (previous current : List AuditCatalogAction) : AuditCatalogChange → Prop
  | added {key : String} (hprevious : key ∉ previous.map AuditCatalogAction.actionKey)
      (hcurrent : key ∈ current.map AuditCatalogAction.actionKey) :
      Differs previous current { kind := .added, actionKey := key }
  | removed {key : String} (hprevious : key ∈ previous.map AuditCatalogAction.actionKey)
      (hcurrent : key ∉ current.map AuditCatalogAction.actionKey) :
      Differs previous current { kind := .removed, actionKey := key }
  | changed {old new : AuditCatalogAction} (hprevious : old ∈ previous) (hcurrent : new ∈ current)
      (hkey : old.actionKey = new.actionKey) (hne : old ≠ new) :
      Differs previous current { kind := .changed, actionKey := new.actionKey,
                                 changedFields := differingFields old new }

/-- A list of changes is the keyed difference of two catalogs. -/
structure IsDifference (previous current : List AuditCatalogAction)
    (changes : List AuditCatalogChange) : Prop where
  once : (changes.map AuditCatalogChange.actionKey).Nodup
  mem_iff : ∀ change, change ∈ changes ↔ Differs previous current change
  names : ∀ change ∈ changes, change.kind = .changed → change.changedFields ≠ []

section Difference

variable {old new : AuditCatalogAction} {previous current stored : List AuditCatalogAction}
variable {key : String} {change : AuditCatalogChange}

/-- An action is its key and its fields. -/
lemma eq_of_actionFields (hkey : old.actionKey = new.actionKey)
    (h : ∀ field ∈ actionFields old new, field.2.1 = field.2.2) : old = new := by
  simp only [actionFields, List.forall_mem_cons, Option.some.injEq] at h
  obtain ⟨htitle, hcategory, hstatus, hgroup, hkind, hid, hname, hversion, htemplate, -⟩ := h
  exact AuditCatalogAction.ext hkey htitle hcategory hstatus hgroup hkind hid hname hversion
    htemplate

lemma mem_differingFields {name : String} :
    name ∈ differingFields old new ↔
      ∃ before after, (name, before, after) ∈ actionFields old new ∧ before ≠ after := by
  simp [differingFields]

lemma differingFields_ne_nil (hkey : old.actionKey = new.actionKey) (hne : old ≠ new) :
    differingFields old new ≠ [] := by
  intro hnil
  refine hne (eq_of_actionFields hkey fun field hfield => ?_)
  by_contra hdiffers
  have hmem : field.1 ∈ differingFields old new :=
    mem_differingFields.2 ⟨field.2.1, field.2.2, hfield, hdiffers⟩
  rw [hnil] at hmem
  cases hmem

lemma actionKey_of_changeOf {old new : Option AuditCatalogAction}
    (h : changeOf key old new = some change) : change.actionKey = key := by
  rcases old with _ | old <;> rcases new with _ | new
  · cases h
  · cases h
    rfl
  · cases h
    rfl
  · simp only [changeOf] at h
    split_ifs at h
    cases h
    rfl

lemma Differs.mem (h : Differs previous current change) :
    change.actionKey ∈ previous.map AuditCatalogAction.actionKey ∨
      change.actionKey ∈ current.map AuditCatalogAction.actionKey := by
  cases h with
  | added _ hcurrent => exact .inr hcurrent
  | removed hprevious _ => exact .inl hprevious
  | changed _ hcurrent _ _ => exact .inr (List.mem_map_of_mem hcurrent)

section Distinct

variable (hprevious : (previous.map AuditCatalogAction.actionKey).Nodup)
variable (hcurrent : (current.map AuditCatalogAction.actionKey).Nodup)
include hprevious hcurrent

/-- The change that the two lookups of a key give is one between the catalogs. -/
lemma differs_of_changeOf
    (h : changeOf key ((Dictionary.byKey AuditCatalogAction.actionKey previous).lookup key)
      ((Dictionary.byKey AuditCatalogAction.actionKey current).lookup key) = some change) :
    Differs previous current change := by
  rcases hold : (Dictionary.byKey AuditCatalogAction.actionKey previous).lookup key with _ | old <;>
    rcases hnew : (Dictionary.byKey AuditCatalogAction.actionKey current).lookup key
      with _ | new <;>
    rw [hold, hnew] at h
  · cases h
  · cases h
    obtain ⟨hmem, rfl⟩ := (Dictionary.lookup_byKey_eq_some hcurrent).1 hnew
    exact .added ((Dictionary.lookup_byKey_eq_none hprevious).1 hold) (List.mem_map_of_mem hmem)
  · cases h
    obtain ⟨hmem, rfl⟩ := (Dictionary.lookup_byKey_eq_some hprevious).1 hold
    exact .removed (List.mem_map_of_mem hmem) ((Dictionary.lookup_byKey_eq_none hcurrent).1 hnew)
  · simp only [changeOf] at h
    split_ifs at h with hne
    cases h
    obtain ⟨hmem, hkey⟩ := (Dictionary.lookup_byKey_eq_some hprevious).1 hold
    obtain ⟨hmem', rfl⟩ := (Dictionary.lookup_byKey_eq_some hcurrent).1 hnew
    exact .changed hmem hmem' hkey hne

/-- A change between the catalogs is what the two lookups of its key give. -/
lemma changeOf_of_differs (h : Differs previous current change) :
    changeOf change.actionKey
      ((Dictionary.byKey AuditCatalogAction.actionKey previous).lookup change.actionKey)
      ((Dictionary.byKey AuditCatalogAction.actionKey current).lookup change.actionKey) =
        some change := by
  cases h with
  | added hnot hmem =>
    obtain ⟨new, hnew, rfl⟩ := List.mem_map.1 hmem
    rw [(Dictionary.lookup_byKey_eq_none hprevious).2 hnot,
      (Dictionary.lookup_byKey_eq_some hcurrent).2 ⟨hnew, rfl⟩]
    rfl
  | removed hmem hnot =>
    obtain ⟨old, hold, rfl⟩ := List.mem_map.1 hmem
    rw [(Dictionary.lookup_byKey_eq_none hcurrent).2 hnot,
      (Dictionary.lookup_byKey_eq_some hprevious).2 ⟨hold, rfl⟩]
    rfl
  | changed hold hnew hkey hne =>
    rw [(Dictionary.lookup_byKey_eq_some hprevious).2 ⟨hold, hkey⟩,
      (Dictionary.lookup_byKey_eq_some hcurrent).2 ⟨hnew, rfl⟩]
    exact if_pos hne

/-- The changes of catalogs with distinct keys are their keyed difference. -/
lemma isDifference_diff : IsDifference previous current (diff previous current) := by
  have hmem : ∀ change, change ∈ diff previous current ↔ Differs previous current change := by
    intro change
    simp only [diff, List.mem_insertionSort, List.mem_filterMap, List.mem_dedup, List.mem_append,
      Dictionary.keys_byKey hprevious, Dictionary.keys_byKey hcurrent]
    constructor
    · rintro ⟨key, -, hchange⟩
      exact differs_of_changeOf hprevious hcurrent hchange
    · intro h
      exact ⟨change.actionKey, h.mem, changeOf_of_differs hprevious hcurrent h⟩
  refine ⟨?_, hmem, fun change hchange hkind => ?_⟩
  · -- every key is looked at once, and its change is one of that key
    refine ((List.perm_insertionSort _ _).map _).nodup_iff.2 ?_
    refine Dictionary.nodup_map_filterMap ?_ fun _ _ h => actionKey_of_changeOf h
    exact (List.perm_insertionSort _ _).nodup_iff.2 (List.nodup_dedup _)
  · cases (hmem change).1 hchange with
    | added => cases hkind
    | removed => cases hkind
    | changed _ _ hkey hne => exact differingFields_ne_nil hkey hne

end Distinct

end Difference

/-! ### The snapshot is faithful -/

section Snapshot

variable {actions stored previous current : List AuditCatalogAction}

/-- What the snapshot keeps of an action is the action. -/
lemma actionFromSnapshot_actionPayload (action : AuditCatalogAction) :
    actionFromSnapshot action.actionKey (actionPayload action) = action := by
  have hstr : ∀ text : Option String, (Json.ofOptionalStr text).str? = text := by
    intro text
    cases text <;> rfl
  ext1 <;> simp [actionFromSnapshot, actionPayload, Json.lookup, hstr]

lemma readSnapshot_saveSnapshot (h : (actions.map AuditCatalogAction.actionKey).Nodup) :
    readSnapshot (saveSnapshot actions) =
      .ok (some (actions.map fun action => (action.actionKey, actionPayload action))) := by
  have hitems : Dictionary.ofItems (actions.map fun action =>
      (action.actionKey, Json.obj (actionPayload action))) =
      actions.map fun action => (action.actionKey, Json.obj (actionPayload action)) := by
    refine Dictionary.ofItems_of_nodup ?_
    rwa [List.map_map]
  have hfields : (actions.map fun action =>
      (action.actionKey, Json.obj (actionPayload action))).filterMap snapshotItem =
      actions.map fun action => (action.actionKey, actionPayload action) := by
    rw [List.filterMap_map]
    exact congrFun List.filterMap_eq_map actions
  have hversion : (Json.int schemaVersion).equalsInt schemaVersion = true := by decide
  simp [readSnapshot, saveSnapshot, Json.lookup, hversion, hitems, hfields]

/-- A snapshot reads back as the actions it was written for. -/
lemma loadSnapshot_saveSnapshot (h : (actions.map AuditCatalogAction.actionKey).Nodup) :
    ∃ stored, loadSnapshot (saveSnapshot actions) = .ok (some stored) ∧ stored.Perm actions := by
  refine ⟨_, by rw [loadSnapshot, readSnapshot_saveSnapshot h]; rfl, ?_⟩
  refine ((Dictionary.sortedItems_perm _).map _).trans ?_
  rw [List.map_map]
  have hread : (fun item => actionFromSnapshot item.1 item.2) ∘
      (fun action => (action.actionKey, actionPayload action)) = id :=
    funext actionFromSnapshot_actionPayload
  rw [hread, List.map_id]

lemma Differs.congr {change : AuditCatalogChange} (h : Differs stored current change)
    (hperm : stored.Perm previous) : Differs previous current change := by
  cases h with
  | added hnot hmem => exact .added (mt (hperm.map _).mem_iff.2 hnot) hmem
  | removed hmem hnot => exact .removed ((hperm.map _).mem_iff.1 hmem) hnot
  | changed hold hnew hkey hne => exact .changed (hperm.mem_iff.1 hold) hnew hkey hne

/-- A difference depends only on which actions the catalog before had. -/
lemma IsDifference.congr {changes : List AuditCatalogChange}
    (h : IsDifference stored current changes) (hperm : stored.Perm previous) :
    IsDifference previous current changes :=
  { h with
    mem_iff := fun change => (h.mem_iff change).trans
      ⟨fun hdiffers => hdiffers.congr hperm, fun hdiffers => hdiffers.congr hperm.symm⟩ }

/-- Nothing changed exactly between catalogs of the same actions. -/
lemma IsDifference.eq_nil_iff {changes : List AuditCatalogChange}
    (h : IsDifference previous current changes)
    (hprevious : (previous.map AuditCatalogAction.actionKey).Nodup)
    (hcurrent : (current.map AuditCatalogAction.actionKey).Nodup) :
    changes = [] ↔ previous.Perm current := by
  constructor
  · intro hnil
    have hnone : ∀ change, ¬ Differs previous current change := by
      intro change hdiffers
      have hmem := (h.mem_iff change).2 hdiffers
      rw [hnil] at hmem
      cases hmem
    have hkeys : ∀ key, key ∈ previous.map AuditCatalogAction.actionKey ↔
        key ∈ current.map AuditCatalogAction.actionKey := by
      intro key
      constructor
      · intro hmem
        by_contra hnot
        exact hnone _ (.removed hmem hnot)
      · intro hmem
        by_contra hnot
        exact hnone _ (.added hnot hmem)
    refine (List.perm_ext_iff_of_nodup hprevious.of_map hcurrent.of_map).2 fun action => ?_
    constructor
    · intro hold
      obtain ⟨new, hnew, hkey⟩ := List.mem_map.1 ((hkeys _).1 (List.mem_map_of_mem hold))
      by_cases heq : action = new
      · exact heq ▸ hnew
      · exact absurd (.changed hold hnew hkey.symm heq) (hnone _)
    · intro hnew
      obtain ⟨old, hold, hkey⟩ := List.mem_map.1 ((hkeys _).2 (List.mem_map_of_mem hnew))
      by_cases heq : old = action
      · exact heq ▸ hold
      · exact absurd (.changed hold hnew hkey heq) (hnone _)
  · intro hperm
    refine List.eq_nil_iff_forall_not_mem.2 fun change hmem => ?_
    -- a key has one action in both catalogs
    cases ((h.congr hperm).mem_iff change).1 hmem with
    | added hnot hkey => exact hnot hkey
    | removed hkey hnot => exact hnot hkey
    | changed hold hnew hkey hne => exact hne (List.inj_on_of_nodup_map hcurrent hold hnew hkey)

end Snapshot

/-! ### Whole runs -/

def Observation.published (observation : Observation) : List AuditCatalogAction :=
  observation.observed.actions.filter isPublishedAudit

/-- The changes reported for a catalog are the keyed difference from the one before. -/
structure Observation.Follows (before after : Observation) : Prop where
  difference : IsDifference before.published after.published after.reported.changes
  quiet : before.published.Perm after.published → after.reported.changes = []

/-- The file holds exactly the published audits of a catalog. -/
def AuditCatalogObserver.Stores (observer : AuditCatalogObserver)
    (published : List AuditCatalogAction) : Prop :=
  ∃ stored, loadSnapshot observer.stateFile = .ok (some stored) ∧ stored.Perm published

/-- A run of observers is faithful to the catalogs it observed. -/
structure Faithful (results : List AuditCatalogResult) (history : List Observation)
    (final : AuditCatalogObserver) : Prop where
  observed : history.map Observation.observed = results
  passedOn : ∀ observation ∈ history, observation.reported =
    { observation.observed with changes := observation.reported.changes }
  first : ∀ observation ∈ history.head?, observation.reported.changes = []
  follows : history.IsChain Observation.Follows
  stored : ∀ observation ∈ history.getLast?, final.Stores observation.published

section Runs

variable {observer : AuditCatalogObserver} {result : AuditCatalogResult}
variable {events : List ObserverEvent} {before : Observation}

lemma nodup_published (h : (result.actions.map AuditCatalogAction.actionKey).Nodup) :
    ((result.actions.filter isPublishedAudit).map AuditCatalogAction.actionKey).Nodup :=
  h.sublist (List.filter_sublist.map _)

/-- Observing a catalog after another one reports the difference and keeps the snapshot current. -/
lemma observe_of_stores (hstores : observer.Stores before.published)
    (hbefore : (before.observed.actions.map AuditCatalogAction.actionKey).Nodup)
    (hresult : (result.actions.map AuditCatalogAction.actionKey).Nodup) :
    ∃ reported next, observer.observe result = .ok (reported, next) ∧
      reported = { result with changes := reported.changes } ∧
      before.Follows { observed := result, reported := reported } ∧
      next.Stores (result.actions.filter isPublishedAudit) := by
  obtain ⟨stored, hload, hperm⟩ := hstores
  have hprevious := nodup_published hbefore
  have hcurrent := nodup_published hresult
  set current := result.actions.filter isPublishedAudit
  have hdifference : IsDifference before.published current (diff stored current) :=
    (isDifference_diff ((hperm.map _).nodup_iff.2 hprevious) hcurrent).congr hperm
  have hquiet := hdifference.eq_nil_iff hprevious hcurrent
  have hrun : observer.observe result = .ok ({ result with changes := diff stored current },
      { stateFile := if diff stored current ≠ [] then saveSnapshot current else observer.stateFile
        changes := diff stored current }) := by
    simp only [AuditCatalogObserver.observe, hload, bind, Except.bind, pure, Except.pure,
      reduceCtorEq, false_or]
    rfl
  refine ⟨_, _, hrun, rfl, ⟨hdifference, hquiet.2⟩, ?_⟩
  by_cases hnil : diff stored current = []
  · -- nothing changed, and the file still holds these audits
    rw [if_neg (not_not_intro hnil)]
    exact ⟨stored, hload, hperm.trans (hquiet.1 hnil)⟩
  · rw [if_pos hnil]
    exact loadSnapshot_saveSnapshot hcurrent

/-- The first catalog is reported without changes and becomes the snapshot. -/
lemma observe_of_none (hload : loadSnapshot observer.stateFile = .ok none)
    (hresult : (result.actions.map AuditCatalogAction.actionKey).Nodup) :
    ∃ next, observer.observe result = .ok ({ result with changes := [] }, next) ∧
      next.Stores (result.actions.filter isPublishedAudit) := by
  have hrun : observer.observe result = .ok ({ result with changes := [] },
      { stateFile := saveSnapshot (result.actions.filter isPublishedAudit), changes := [] }) := by
    simp only [AuditCatalogObserver.observe, hload, bind, Except.bind, pure, Except.pure,
      true_or, if_true]
  exact ⟨_, hrun, loadSnapshot_saveSnapshot (nodup_published hresult)⟩

/-- A run after a catalog that is stored goes on from that catalog. -/
lemma run_of_stores (before : Observation) (hstores : observer.Stores before.published)
    (hbefore : (before.observed.actions.map AuditCatalogAction.actionKey).Nodup)
    (hdistinct : ∀ result ∈ observedResults events,
      (result.actions.map AuditCatalogAction.actionKey).Nodup) :
    ∃ history final, observer.run events = .ok (history, final) ∧
      history.map Observation.observed = observedResults events ∧
      (∀ observation ∈ history, observation.reported =
        { observation.observed with changes := observation.reported.changes }) ∧
      (before :: history).IsChain Observation.Follows ∧
      ∀ observation ∈ (before :: history).getLast?, final.Stores observation.published := by
  induction events generalizing observer before with
  | nil =>
    refine ⟨[], observer, rfl, rfl, by simp, .singleton _, ?_⟩
    rintro _ ⟨⟩
    exact hstores
  | cons event events ih =>
    cases event with
    | restart =>
      have hrestarted : AuditCatalogObserver.Stores { stateFile := observer.stateFile }
        before.published := hstores
      exact ih before hrestarted hbefore hdistinct
    | observe result =>
      obtain ⟨hresult, hrest⟩ := List.forall_mem_cons.1 hdistinct
      obtain ⟨reported, next, hobserve, hpassed, hfollows, hnext⟩ :=
        observe_of_stores hstores hbefore hresult
      obtain ⟨history, final, hrun, hresults, hall, hchain, hlast⟩ :=
        ih { observed := result, reported := reported } hnext hresult hrest
      refine ⟨{ observed := result, reported := reported } :: history, final, ?_, ?_, ?_, ?_, ?_⟩
      · rw [AuditCatalogObserver.run, hobserve]
        simp only [bind, Except.bind, hrun]
        rfl
      · rw [List.map_cons, hresults, observedResults]
      · exact List.forall_mem_cons.2 ⟨hpassed, hall⟩
      · exact .cons_cons hfollows hchain
      · rw [List.getLast?_cons_cons]
        exact hlast

/-- The observation of the catalog is faithful over whole runs: from a file that holds no snapshot,
the first catalog is reported without changes, every further one with exactly its keyed difference
from the one before, and the file holds the published audits of the last one. -/
theorem faithful_of_run (hload : loadSnapshot observer.stateFile = .ok none)
    (hdistinct : ∀ result ∈ observedResults events,
      (result.actions.map AuditCatalogAction.actionKey).Nodup) :
    ∃ history final, observer.run events = .ok (history, final) ∧
      Faithful (observedResults events) history final := by
  induction events generalizing observer with
  | nil => exact ⟨[], observer, rfl, ⟨rfl, by simp, by simp, .nil, by simp⟩⟩
  | cons event events ih =>
    cases event with
    | restart =>
      have hrestarted : loadSnapshot ({ stateFile := observer.stateFile } :
        AuditCatalogObserver).stateFile = .ok none := hload
      exact ih hrestarted hdistinct
    | observe result =>
      obtain ⟨hresult, hrest⟩ := List.forall_mem_cons.1 hdistinct
      obtain ⟨next, hobserve, hnext⟩ := observe_of_none hload hresult
      obtain ⟨history, final, hrun, hresults, hall, hchain, hlast⟩ :=
        run_of_stores { observed := result, reported := { result with changes := [] } } hnext
          hresult hrest
      refine ⟨_ :: history, final, ?_, ?_, ?_, ?_, hchain, hlast⟩
      · rw [AuditCatalogObserver.run, hobserve]
        simp only [bind, Except.bind, hrun]
        rfl
      · rw [List.map_cons, hresults, observedResults]
      · exact List.forall_mem_cons.2 ⟨rfl, hall⟩
      · rintro _ ⟨⟩
        rfl

/-- A published audit. -/
def sampleAudit (actionKey title : String) : AuditCatalogAction where
  actionKey := actionKey
  title := title
  category := some "audit"
  status := some "published"
  metricGroup := none
  runbookKind := none

/-- A catalog whose audits are retitled, reordered, added and removed, with a restart between. -/
theorem faithful_of_run_sample :
    let events : List ObserverEvent := [
      .observe { actions := [sampleAudit "audit.tests" "Tests", sampleAudit "audit.docs" "Docs"] },
      .restart,
      .observe { actions := [sampleAudit "audit.docs" "Guides", sampleAudit "audit.deps" "Deps"] }]
    ∃ history final, AuditCatalogObserver.run { stateFile := none } events = .ok (history, final) ∧
      Faithful (observedResults events) history final :=
  faithful_of_run rfl (by decide)

end Runs

end EnjiGuard.Audit
