import EnjiGuard.Audit.Observing
import EnjiGuard.Audit.Reports
import EnjiGuard.Audit.Starting

/-!
# Reading reports

Reading observes a repository, selects items of its status and reads the latest report of each by
the pool. Without selectors an audit that has no report is shown as such or left out, with selectors
it is an error. The three modes are views of one table.
-/

namespace EnjiGuard.Audit

open Foundation Application

/-! ### Reading one audit -/

/-- An audit with the group its reports are filed under. -/
structure ReadableAudit extends AuditDefinition where
  metricGroup : Option String := none
  deriving DecidableEq, Repr

/-- A catalog of audits that can be read. -/
structure ReportCatalog where
  publishedAudits : List ReadableAudit
  recon : AuditDefinition

/-- The catalog without the groups of the reports. -/
def ReportCatalog.catalog (reports : ReportCatalog) : AuditCatalog where
  publishedAudits := reports.publishedAudits.map ReadableAudit.toAuditDefinition
  recon := reports.recon

/-- A completed report. -/
structure AuditArtifact where
  auditKey : String
  body : String
  score : Option Rat := none
  generatedAt : Option String := none
  taskId : Option String := none
  completedAt : Option String := none
  collectedAt : Option String := none
  deriving DecidableEq, Repr

/-- What reading one audit shows. -/
structure ArtifactReadItem where
  auditKey : String
  available : Bool
  artifact : Option AuditArtifact
  reason : Option String
  freshness : AuditFreshness
  newerRun : Option AuditNewerRun := none
  deriving DecidableEq, Repr

inductive ReadFailure
  | gateway (error : AuditError)
  | selecting (failure : GatewayFailure)
  | unavailable (auditKey reason message : String)
  | assertion
  deriving DecidableEq, Repr

/-- The error about an audit that cannot be read. -/
def auditArtifactUnavailable (auditKey reason : String) : ReadFailure :=
  .unavailable auditKey reason (auditKey ++ " artifact " ++ reason)

/-- What the gateway answers about the reports of a repository: the history of a group, and the
report of an audit in a group by its task. -/
structure ReportAnswers where
  listAuditReports : String → Except AuditError (List AuditReportRef)
  readAuditSnapshot : String → String → String → Except AuditError AuditArtifact

section

variable {S : Type} (codec : ReportCodec) (answers : ReportAnswers)

/-- An audit that cannot be read is an item of its own or an error. -/
def unavailable (item : AuditStatusItem) (reason : String) (tolerate : Bool) :
    Except ReadFailure ArtifactReadItem :=
  if tolerate then
    .ok { auditKey := item.auditKey, available := false, artifact := none, reason := some reason,
          freshness := item.freshness }
  else .error (auditArtifactUnavailable item.auditKey reason)

/-- What an error of the gateway makes of an audit: what is not found is unavailable. -/
def unavailableOr (item : AuditStatusItem) (tolerate : Bool) :
    AuditError → Except ReadFailure ArtifactReadItem
  | .notFound _ => unavailable item "artifact_not_found" tolerate
  | e => .error (.gateway e)

def artifactReadItem (item : AuditStatusItem) (ref : AuditReportRef) (artifact : AuditArtifact)
    (activeRuns : List AuditRun) : ArtifactReadItem where
  auditKey := item.auditKey
  available := true
  artifact := some { artifact with
    taskId := ref.taskId, completedAt := ref.completedAt, collectedAt := ref.collectedAt }
  reason := none
  freshness := item.freshness
  newerRun := newerRunForReport codec ref activeRuns (some item.auditKey)
    (item.freshness.state = .stale)

/-- Reads the latest report of an audit in two calls of the gateway. -/
def readHistoryItem (item : AuditStatusItem) (audit : Option ReadableAudit)
    (activeRuns : List AuditRun) (tolerate : Bool) : Program S ReadFailure ArtifactReadItem :=
  match audit with
  | none => .done (unavailable item "status not found" tolerate)
  | some audit =>
    let metricGroup := (nonempty audit.metricGroup).getD audit.actionKey
    .step id fun _ =>
      match answers.listAuditReports metricGroup with
      | .error e => .done (unavailableOr item tolerate e)
      | .ok refs =>
        match chooseReportRef codec refs with
        | none => .done (unavailable item "artifact_not_found" tolerate)
        | some ref =>
          match ref.taskId with
          | none => .done (unavailable item "artifact_not_found" tolerate)
          | some taskId =>
            .step id fun _ =>
              match answers.readAuditSnapshot item.auditKey metricGroup taskId with
              | .error e => .done (unavailableOr item tolerate e)
              | .ok artifact => .done (.ok (artifactReadItem codec item ref artifact activeRuns))

end

/-! ### Reading a repository -/

/-- What an operator asks to read. -/
structure ReadArguments where
  selectors : List String := []
  allAudits : Bool := false
  tolerateUnavailable : Option Bool := none
  deriving DecidableEq, Repr

/-- Whether an audit that has no report is an item of its own. -/
def ReadArguments.tolerate (args : ReadArguments) : Bool :=
  args.tolerateUnavailable.getD (decide (args.selectors = []))

/-- The items that are returned: without selectors and without all only those with a report. -/
def ReadArguments.kept (args : ReadArguments) (items : List ArtifactReadItem) :
    List ArtifactReadItem :=
  if args.selectors = [] ∧ args.allAudits = false ∧ args.tolerateUnavailable = none then
    items.filter ArtifactReadItem.available
  else items

/-- The item of a status that a selector names. -/
def selectedItem {A : Type} (bySelector : List (String × AuditDefinition))
    (byKey : List (String × A)) (selector : String) : Except ReadFailure A :=
  match (bySelector.lookup selector).bind fun audit => byKey.lookup audit.actionKey with
  | none => .error (auditArtifactUnavailable selector "status not found")
  | some item => .ok item

def selectArtifacts (status : List AuditStatusItem) (args : ReadArguments)
    (catalog : ReportCatalog) : Except ReadFailure (List AuditStatusItem) :=
  if args.allAudits ∧ args.selectors ≠ [] then
    .error (.selecting (.value "pass audit selectors or --all, not both"))
  else if args.allAudits ∨ args.selectors = [] then .ok status
  else do
    let bySelector ← (auditsBySelector catalog.catalog).mapError .selecting
    args.selectors.mapM (selectedItem bySelector (Dictionary.byKey AuditStatusItem.auditKey status))

section

variable (codec : ReportCodec) (catalog : ReportCatalog) (reports : ReportAnswers)
variable (args : ReadArguments)

def readItem {S : Type} (activeRuns : List AuditRun) (tolerate : Bool) (item : AuditStatusItem) :
    Program S ReadFailure ArtifactReadItem :=
  readHistoryItem codec reports item
    ((Dictionary.byKey (fun audit : ReadableAudit => audit.actionKey)
      catalog.publishedAudits).lookup item.auditKey) activeRuns tolerate

/-- What reading the selected items by a pool can return, and the ledger it leaves. -/
def ReadsSelected (readers : BoundedFanout) (activeRuns : List AuditRun)
    (status : List AuditStatusItem) (file : Option FileText)
    (result : Except ReadFailure (List ArtifactReadItem)) (file' : Option FileText) : Prop :=
  match selectArtifacts status args catalog with
  | .error e => result = .error e ∧ file' = file
  | .ok selected => ∃ items,
    readers.Maps selected (readItem codec catalog reports activeRuns args.tolerate) file items
        file' ∧
      result = items.map args.kept

/-- What reading a repository can return, and the ledger it leaves. -/
def RepositoryAnswers.ReadsForRepo (answers : RepositoryAnswers) (settings : LedgerSettings)
    (repoId : String) (now : Datetime) (observers readers : BoundedFanout)
    (file : Option FileText) (result : Except ReadFailure (List ArtifactReadItem))
    (file' : Option FileText) : Prop :=
  ∃ observed file₁,
    answers.Observes codec.toStatusCodec settings repoId now observers file observed file₁ ∧
      match observed with
      | .error e => result = .error (.gateway e) ∧ file' = file₁
      | .ok observation =>
        match buildStatus codec.toStatusCodec catalog.catalog observation.taskLinks
            observation.activeRuns (some observation.rerunState) with
        | none => result = .error .assertion ∧ file' = file₁
        | some status =>
          ReadsSelected codec catalog reports args readers observation.activeRuns status file₁
            result file'

/-- What reading an item with nothing beside it returns. -/
def itemAlone (activeRuns : List AuditRun) (tolerate : Bool) (item : AuditStatusItem) :
    Except ReadFailure ArtifactReadItem :=
  ((readItem codec catalog reports activeRuns tolerate item).eval ()).1

/-- Reads the selected items one after the other. -/
def readAlone (activeRuns : List AuditRun) (status : List AuditStatusItem) :
    Except ReadFailure (List ArtifactReadItem) := do
  let selected ← selectArtifacts status args catalog
  (selected.mapM (itemAlone codec catalog reports activeRuns args.tolerate)).map args.kept

end

/-- An item that has a report, or the error about it. -/
def requireAvailable (item : ArtifactReadItem) : Except ReadFailure ArtifactReadItem :=
  if item.available then .ok item
  else .error (auditArtifactUnavailable item.auditKey (item.reason.getD ""))

/-- What selectors show of a table: every selector has to name an item of it, and each of these has
to have a report. -/
def selectedItems (catalog : ReportCatalog) (selectors : List String)
    (items : List ArtifactReadItem) : Except ReadFailure (List ArtifactReadItem) := do
  let bySelector ← (auditsBySelector catalog.catalog).mapError .selecting
  let selected ← selectors.mapM
    (selectedItem bySelector (Dictionary.byKey ArtifactReadItem.auditKey items))
  selected.mapM requireAvailable

/-! ### Whatever the threads do -/

section

variable {codec : ReportCodec} {catalog : ReportCatalog} {reports : ReportAnswers}
variable {args : ReadArguments} {activeRuns : List AuditRun} {tolerate : Bool}
variable {item : AuditStatusItem} {status : List AuditStatusItem}

/-- Reading an item is two calls at most, which share nothing. -/
lemma ignores_readItem {S : Type} :
    (readItem codec catalog reports activeRuns tolerate item :
      Program S ReadFailure ArtifactReadItem).Ignores
        (itemAlone codec catalog reports activeRuns tolerate item) := by
  unfold itemAlone readItem
  rcases (Dictionary.byKey (fun audit : ReadableAudit => audit.actionKey)
    catalog.publishedAudits).lookup item.auditKey with _ | audit
  · rfl
  · simp only [readHistoryItem, Program.eval, Program.Ignores, id, true_and]
    intro _
    rcases reports.listAuditReports ((nonempty audit.metricGroup).getD audit.actionKey)
      with e | refs
    · rfl
    · rcases hchosen : chooseReportRef codec refs with _ | ref <;> simp only [hchosen]
      · rfl
      · rcases htask : ref.taskId with _ | taskId <;> simp only
        · rfl
        · simp only [Program.eval, Program.Ignores, id, true_and]
          intro _
          rcases reports.readAuditSnapshot item.auditKey
            ((nonempty audit.metricGroup).getD audit.actionKey) taskId with e | artifact <;> rfl

/-- Reading by a pool returns what reading in order returns. -/
lemma readsSelected_iff {readers : BoundedFanout} {file file' : Option FileText}
    {result : Except ReadFailure (List ArtifactReadItem)} :
    ReadsSelected codec catalog reports args readers activeRuns status file result file' ↔
      result = readAlone codec catalog reports args activeRuns status ∧ file' = file := by
  rw [ReadsSelected, readAlone]
  rcases selectArtifacts status args catalog with e | selected
  · rfl
  · have halone : ∀ item : AuditStatusItem,
        (readItem codec catalog reports activeRuns args.tolerate item).eval file =
          (itemAlone codec catalog reports activeRuns args.tolerate item, file) :=
      fun _ => Program.eval_of_ignores ignores_readItem file
    have hmaps : ∀ items, readers.Maps selected
        (readItem codec catalog reports activeRuns args.tolerate) file items file' ↔
          items = selected.mapM (itemAlone codec catalog reports activeRuns args.tolerate) ∧
            file' = file := by
      intro items
      rw [BoundedFanout.maps_iff fun _ _ => Program.looks_of_ignores ignores_readItem file]
      simp only [halone]
    simp only [hmaps, and_assoc, exists_eq_left]
    rw [and_comm]
    rfl

/-- Reading a repository fails no assertion and returns what reading in order returns. -/
lemma readsForRepo_iff {answers : RepositoryAnswers} {settings : LedgerSettings} {repoId : String}
    {now : Datetime} {observers readers : BoundedFanout} {file file' : Option FileText}
    {result : Except ReadFailure (List ArtifactReadItem)} :
    answers.ReadsForRepo codec catalog reports args settings repoId now observers readers file
        result file' ↔
      file' = (answers.activeRunsAlone codec.toStatusCodec settings repoId now file).2 ∧
        match answers.observation codec.toStatusCodec settings repoId now file with
        | .error e => result = .error (.gateway e)
        | .ok observation => ∃ status,
          buildStatus codec.toStatusCodec catalog.catalog observation.taskLinks
              observation.activeRuns (some observation.rerunState) = some status ∧
            result = readAlone codec catalog reports args observation.activeRuns status := by
  simp only [RepositoryAnswers.ReadsForRepo, RepositoryAnswers.observes_iff, and_assoc,
    exists_and_left, exists_eq_left]
  rcases answers.observation codec.toStatusCodec settings repoId now file with e | observation
  · exact and_comm
  · obtain ⟨built, hbuilt⟩ :=
      RepositoryAnswers.exists_portfolioAuditStatus codec.toStatusCodec repoId catalog.catalog
        observation
    obtain ⟨status, hstatus, -⟩ := Option.map_eq_some_iff.1 hbuilt
    simp only [hstatus, readsSelected_iff, Option.some.injEq, exists_eq_left']
    exact and_comm

/-! ### One table -/

lemma unavailableOr_cases (item : AuditStatusItem) (e : AuditError) :
    (∃ reason, ∀ tolerate, unavailableOr item tolerate e = unavailable item reason tolerate) ∨
      ∃ failure, ∀ tolerate, unavailableOr item tolerate e = .error (.gateway failure) := by
  cases e with
  | notFound detail => exact .inl ⟨_, fun _ => rfl⟩
  | _ => exact .inr ⟨_, fun _ => rfl⟩

/-- What is read of an audit: that it is unavailable, a failure, or a report. -/
lemma itemAlone_cases (codec : ReportCodec) (catalog : ReportCatalog) (reports : ReportAnswers)
    (activeRuns : List AuditRun) (item : AuditStatusItem) :
    (∃ reason, ∀ tolerate, itemAlone codec catalog reports activeRuns tolerate item =
      unavailable item reason tolerate) ∨
    (∃ failure, ∀ tolerate, itemAlone codec catalog reports activeRuns tolerate item =
      .error (.gateway failure)) ∨
    ∃ ref artifact, ∀ tolerate, itemAlone codec catalog reports activeRuns tolerate item =
      .ok (artifactReadItem codec item ref artifact activeRuns) := by
  unfold itemAlone readItem
  rcases (Dictionary.byKey (fun audit : ReadableAudit => audit.actionKey)
    catalog.publishedAudits).lookup item.auditKey with _ | audit
  · exact .inl ⟨_, fun _ => rfl⟩
  · simp only [readHistoryItem, Program.eval, id]
    rcases reports.listAuditReports ((nonempty audit.metricGroup).getD audit.actionKey)
      with e | refs
    · exact (unavailableOr_cases item e).imp_right .inl
    · rcases hchosen : chooseReportRef codec refs with _ | ref <;> simp only [hchosen]
      · exact .inl ⟨_, fun _ => rfl⟩
      · rcases htask : ref.taskId with _ | taskId <;> simp only
        · exact .inl ⟨_, fun _ => rfl⟩
        · simp only [Program.eval, id]
          rcases reports.readAuditSnapshot item.auditKey
            ((nonempty audit.metricGroup).getD audit.actionKey) taskId with e | artifact
          · exact (unavailableOr_cases item e).imp_right .inl
          · exact .inr (.inr ⟨ref, artifact, fun _ => rfl⟩)

/-- Without tolerance an item is what it is with tolerance, unless it has no report. -/
lemma itemAlone_strict :
    itemAlone codec catalog reports activeRuns false item =
      itemAlone codec catalog reports activeRuns true item >>= requireAvailable := by
  rcases itemAlone_cases codec catalog reports activeRuns item
    with ⟨reason, h⟩ | ⟨failure, h⟩ | ⟨ref, artifact, h⟩ <;> rw [h, h] <;> rfl

/-- An item is about the audit it was read for. -/
lemma auditKey_of_itemAlone {shown : ArtifactReadItem}
    (hshown : itemAlone codec catalog reports activeRuns true item = .ok shown) :
    shown.auditKey = item.auditKey := by
  rcases itemAlone_cases codec catalog reports activeRuns item
    with ⟨reason, h⟩ | ⟨failure, h⟩ | ⟨ref, artifact, h⟩ <;>
    rw [h] at hshown <;> cases hshown <;> rfl

/-- A selector names the same audit in a status as in the table that is read from it. -/
lemma alike_selectedItem {items : List ArtifactReadItem}
    (htable : List.Forall₂
      (fun item shown => itemAlone codec catalog reports activeRuns true item = .ok shown)
      status items) (bySelector : List (String × AuditDefinition)) (selector : String) :
    Alike (fun item shown => itemAlone codec catalog reports activeRuns true item = .ok shown)
      (selectedItem bySelector (Dictionary.byKey AuditStatusItem.auditKey status) selector)
      (selectedItem bySelector (Dictionary.byKey ArtifactReadItem.auditKey items) selector) := by
  unfold selectedItem
  rcases bySelector.lookup selector with _ | audit
  · exact .error _
  · have hrel := Dictionary.rel_lookup_byKey htable
      (fun _ _ h => (auditKey_of_itemAlone h).symm) audit.actionKey
    revert hrel
    simp only [Option.bind_some]
    rcases (Dictionary.byKey AuditStatusItem.auditKey status).lookup audit.actionKey with _ | item
      <;> rcases (Dictionary.byKey ArtifactReadItem.auditKey items).lookup audit.actionKey
        with _ | shown <;> intro hrel
    · exact .error _
    · cases hrel
    · cases hrel
    · cases hrel with
      | some h => exact .ok h

/-- Reading all audits shows the items of the status. -/
lemma readAlone_all :
    readAlone codec catalog reports { allAudits := true } activeRuns status =
      status.mapM (itemAlone codec catalog reports activeRuns true) := by
  show (status.mapM (itemAlone codec catalog reports activeRuns true)).map
    (ReadArguments.kept { allAudits := true }) = _
  rcases status.mapM (itemAlone codec catalog reports activeRuns true) with e | items <;> rfl

/-- Reading without arguments shows those that have a report. -/
lemma readAlone_default :
    readAlone codec catalog reports {} activeRuns status =
      (status.mapM (itemAlone codec catalog reports activeRuns true)).map
        (List.filter ArtifactReadItem.available) := rfl

/-- Reading by selectors shows the items they name in the table. -/
lemma readAlone_selectors {selectors : List String} {items : List ArtifactReadItem}
    (hsome : selectors ≠ [])
    (htable : status.mapM (itemAlone codec catalog reports activeRuns true) = .ok items) :
    readAlone codec catalog reports { selectors := selectors } activeRuns status =
      selectedItems catalog selectors items := by
  have htolerate : ReadArguments.tolerate { selectors := selectors } = false :=
    decide_eq_false hsome
  have hkept : ReadArguments.kept { selectors := selectors } = id := by
    funext items
    exact if_neg fun h => hsome h.1
  have hselect : selectArtifacts status { selectors := selectors } catalog = (do
      let bySelector ← (auditsBySelector catalog.catalog).mapError .selecting
      selectors.mapM (selectedItem bySelector
        (Dictionary.byKey AuditStatusItem.auditKey status))) := by
    rw [selectArtifacts, if_neg fun h => Bool.false_ne_true h.1,
      if_neg fun h => h.elim Bool.false_ne_true hsome]
  have hstrict : itemAlone codec catalog reports activeRuns false = fun item =>
      itemAlone codec catalog reports activeRuns true item >>= requireAvailable :=
    funext fun _ => itemAlone_strict
  rw [readAlone, hselect, htolerate, hkept, hstrict, selectedItems]
  rcases (auditsBySelector catalog.catalog).mapError ReadFailure.selecting with e | bySelector
  · rfl
  · have hselected := Alike.mapM
      (alike_selectedItem (forall₂_of_mapM htable) bySelector) selectors
    simp only [bind, Except.bind]
    revert hselected
    rcases selectors.mapM (selectedItem bySelector
        (Dictionary.byKey AuditStatusItem.auditKey status)) with e | selected <;>
      rcases selectors.mapM (selectedItem bySelector
        (Dictionary.byKey ArtifactReadItem.auditKey items)) with e' | chosen <;> intro hselected
    · cases hselected
      rfl
    · cases hselected
    · cases hselected
    · cases hselected with
      | ok h =>
        simp only [Except.map_id]
        exact mapM_bind_of_forall₂ h

end

/-- What the ways of reading show of one table. -/
structure Shows (codec : ReportCodec) (catalog : ReportCatalog) (reports : ReportAnswers)
    (answers : RepositoryAnswers) (settings : LedgerSettings) (repoId : String) (now : Datetime)
    (file : Option FileText) (items : List ArtifactReadItem) (file' : Option FileText) :
    Prop where
  /-- Without arguments the items that have a report are shown. -/
  available : ∀ observers readers result file'',
    answers.ReadsForRepo codec catalog reports {} settings repoId now observers readers file result
        file'' ↔
      result = .ok (items.filter ArtifactReadItem.available) ∧ file'' = file'
  /-- Selectors show the items they name, if each of them has a report. -/
  selected : ∀ selectors, selectors ≠ [] → ∀ observers readers result file'',
    answers.ReadsForRepo codec catalog reports { selectors := selectors } settings repoId now
        observers readers file result file'' ↔
      result = selectedItems catalog selectors items ∧ file'' = file'

/-- **One table**: when reading all audits shows a table, then whatever the threads do, reading
without arguments shows the part of it that has reports, and reading by selectors shows the items
they name, or the error about the first that names none, or else about the first without a
report. -/
theorem shows_of_readsForRepo {codec : ReportCodec} {catalog : ReportCatalog}
    {reports : ReportAnswers} {answers : RepositoryAnswers} {settings : LedgerSettings}
    {repoId : String} {now : Datetime} {observers readers : BoundedFanout}
    {file file' : Option FileText} {items : List ArtifactReadItem}
    (hall : answers.ReadsForRepo codec catalog reports { allAudits := true } settings repoId now
      observers readers file (.ok items) file') :
    Shows codec catalog reports answers settings repoId now file items file' := by
  obtain ⟨rfl, hread⟩ := readsForRepo_iff.1 hall
  rcases hobserved : answers.observation codec.toStatusCodec settings repoId now file
    with e | observation <;> simp only [hobserved] at hread
  · cases hread
  · obtain ⟨status, hstatus, htable⟩ := hread
    rw [readAlone_all] at htable
    constructor
    · intro observers readers result file''
      simp only [readsForRepo_iff, hobserved, hstatus, Option.some.injEq, exists_eq_left',
        readAlone_default, ← htable]
      exact and_comm
    · intro selectors hsome observers readers result file''
      simp only [readsForRepo_iff, hobserved, hstatus, Option.some.injEq, exists_eq_left',
        readAlone_selectors hsome htable.symm]
      exact and_comm

/-- Two audits, of which one has reports. -/
def readableCatalog : ReportCatalog where
  publishedAudits := [{ actionKey := "audit.security", title := "Security" },
    { actionKey := "audit.tests", title := "Tests", metricGroup := some "tests" }]
  recon := { actionKey := "audit.recon", title := "Recon" }

def testReports : ReportAnswers where
  listAuditReports group := if group = "tests" then
    .ok [⟨some "task-1", some "2026-01-01T00:00:00Z", none, true⟩] else .error (.notFound "history")
  readAuditSnapshot auditKey _ _ := .ok { auditKey := auditKey, body := "report" }

def quietRepository : RepositoryAnswers where
  taskLinks := .ok []
  activeRuns := .ok []
  rerunState := .ok { currentHeadSha := none }
  taskLookup _ := .notFound

/-- The report codec of texts without blanks, when no timestamp is looked at. -/
def plainReportCodec : ReportCodec := { plainStatusCodec with strip := id }

/-- What reading the audits shows. -/
def testTable : List ArtifactReadItem :=
  [{ auditKey := "audit.security", available := false, artifact := none,
     reason := some "artifact_not_found", freshness := ⟨none, none, .unknown⟩ },
   { auditKey := "audit.tests", available := true,
     artifact := some { auditKey := "audit.tests", body := "report", taskId := some "task-1",
                        completedAt := some "2026-01-01T00:00:00Z" },
     reason := none, freshness := ⟨none, none, .unknown⟩ }]

theorem shows_of_readsForRepo_tests :
    Shows plainReportCodec readableCatalog testReports quietRepository {} "repo" Sys.dawn none
      testTable none :=
  @shows_of_readsForRepo _ _ _ _ _ _ _ ⟨2, by decide⟩ ⟨1, by decide⟩ _ _ _
    (readsForRepo_iff.2 ⟨rfl, _, rfl, rfl⟩)

end EnjiGuard.Audit
