import EnjiGuard.Audit.CatalogObservation
import Mathlib.Data.Prod.Lex

/-!
# Planning recurring settings

Schedules of audits, improvement jobs and completion emails are changed one repository setting at
a time. What a change should result in is planned from the current setting and from what the
operator asked for; a plan never sends anything.
-/

namespace EnjiGuard.Audit

open Foundation

/-! ### Failures -/

/-- A failure of the gateway, of a local file or of a check. -/
inductive GatewayFailure
  | api (code message : String)
  | notFound (message : String)
  | upstream (message : String)
  | osError (message : String)
  | value (message : String)
  | runtime (message : String)
  | other (typeName : String)
  deriving DecidableEq, Repr

/-- The operations of the language and of the system on texts that plans use: stripping of blanks,
whether a text is of digits, the number it is, and whether a time zone is installed. -/
structure PlanText where
  strip : String → String
  isDigits : String → Bool
  int : String → Except String Nat
  knownTimezone : String → Bool

/-- The operations on texts without blanks whose digits are decimal, with one time zone. -/
def plainPlanText : PlanText where
  strip := id
  isDigits value := value ≠ "" && value.toList.all Char.isDigit
  int value := value.toNat?.elim (.error "invalid literal") .ok
  knownTimezone value := value = "UTC"

/-- A text unless it is empty. -/
def nonempty (value : Option String) : Option String :=
  value.filter (· ≠ "")

/-- A text without what it begins with. -/
def removeStart (start value : String) : String :=
  if start.toList.isPrefixOf value.toList then String.ofList (value.toList.drop start.length)
  else value

def isAuditKey (actionKey : String) : Bool :=
  "audit.".toList.isPrefixOf actionKey.toList && actionKey.length ≠ "audit.".length

section

variable (text : PlanText)

/-! ### The catalog -/

/-- A text that is there and not blank. -/
def requiredField (value : Option String) (message : String) : Except GatewayFailure String :=
  match value with
  | none => .error (.value message)
  | some value => if text.strip value = "" then .error (.value message) else .ok value

/-- The definition of a curated action. -/
def auditDefinition (action : AuditCatalogAction) : Except GatewayFailure AuditDefinition := do
  let actionKey ← requiredField text (some action.actionKey) "curated action is missing action key"
  let title ← requiredField text (some action.title) "curated action is missing title"
  let _ ← requiredField text action.runbookKind "curated action is missing runbook kind"
  return { actionKey := actionKey, title := title, runbookId := action.runbookId }

/-- The definition of a published audit, which has a metric group. -/
def publishedDefinition (action : AuditCatalogAction) : Except GatewayFailure AuditDefinition := do
  let _ ← requiredField text action.metricGroup "published audit action is missing metric group"
  auditDefinition text action

def auditSelector (audit : AuditDefinition) : Except GatewayFailure String :=
  if isAuditKey audit.actionKey then .ok (removeStart "audit." audit.actionKey)
  else .error (.value ("audit action key must start with audit.: " ++ audit.actionKey))

/-- The catalog of an upstream result, with the recon action separate. -/
def parseCatalogResult (result : AuditCatalogResult) : Except GatewayFailure AuditCatalog :=
  match result.actions.filter fun action => action.actionKey = "audit.recon" with
  | [action] => do
    let recon ← auditDefinition text action
    let audits ← (result.actions.filter isPublishedAudit).mapM (publishedDefinition text)
    if ¬ ((recon :: audits).map AuditDefinition.actionKey).Nodup then
      .error (.value "catalog contains duplicate audit action keys")
    else
      let selectors ← (recon :: audits).mapM auditSelector
      if ¬ selectors.Nodup then .error (.value "catalog contains duplicate audit selectors")
      else .ok { publishedAudits := audits, recon := recon }
  | _ => .error (.value "catalog must contain exactly one audit.recon action")

/-! ### Checks -/

/-- How often a setting may run. -/
def cadences : List String :=
  ["daily", "workdays", "weekly-3x", "weekly-2x", "weekly", "monthly"]

def weekDays : List String := ["mon", "tue", "wed", "thu", "fri", "sat", "sun"]

/-- The days a job runs on by default. -/
def defaultWorkdays : List String := ["mon", "tue", "wed", "thu", "fri"]

/-- A timezone has to be installed. -/
def validateTimezone (value : Option String) : Except GatewayFailure Unit :=
  match value with
  | none => .ok ()
  | some value =>
    if text.knownTimezone value then .ok ()
    else .error (.value ("unknown IANA timezone: " ++ value))

/-- A frequency has to be one of the cadences. -/
def validateCadence (value : Option String) (subject : String) : Except GatewayFailure Unit :=
  match value with
  | none => .ok ()
  | some value =>
    if value ∈ cadences then .ok ()
    else .error (.value ("unknown " ++ subject ++ " frequency: " ++ value))

/-- Days have to be days of the week, each once. -/
def validateWeekDays (days : Option (List String)) (subject : String) :
    Except GatewayFailure Unit :=
  match days with
  | none => .ok ()
  | some days =>
    if days = [] then .error (.value ("pass one or more " ++ subject ++ " days"))
    else
      let invalid := days.filter (· ∉ weekDays)
      if invalid ≠ [] then
        .error (.value ("unknown " ++ subject ++ " day(s): " ++ String.intercalate ", " invalid))
      else
        let duplicate := (days.filter (2 ≤ days.count ·)).eraseDups.insertionSort (· ≤ ·)
        if duplicate ≠ [] then
          .error (.value ("duplicate " ++ subject ++ " day(s): " ++
            String.intercalate ", " duplicate))
        else .ok ()

/-- Two digits of a number below a hundred. -/
def twoDigits (n : Nat) : String :=
  if n < 10 then "0" ++ toString n else toString n

/-- A time of day in hours and minutes. -/
def validateScheduleTime (value : String) : Except GatewayFailure String :=
  let hourText := String.ofList (value.toList.takeWhile (· ≠ ':'))
  let minuteText := String.ofList ((value.toList.dropWhile (· ≠ ':')).drop 1)
  if ':' ∉ value.toList ∨ ¬ text.isDigits hourText ∨ ¬ text.isDigits minuteText then
    .error (.value "schedule time must be auto or HH:MM")
  else do
    let hour ← (text.int hourText).mapError GatewayFailure.value
    let minute ← (text.int minuteText).mapError GatewayFailure.value
    if 23 < hour ∨ 59 < minute then .error (.value "schedule time must be auto or HH:MM")
    else .ok (twoDigits hour ++ ":" ++ twoDigits minute)

/-- A requested time is a time of day or left to the service. -/
def validateTimeUpdate (value : Option String) : Except GatewayFailure Unit :=
  match value with
  | none => .ok ()
  | some value =>
    if value = "auto" then .ok () else (fun _ => ()) <$> validateScheduleTime text value

/-- A time of day and who chose it. -/
structure ScheduleTimeSelection where
  scheduleTime : String
  scheduleTimeSource : String
  deriving DecidableEq, Repr

/-- The time that is requested, or else the one a user chose before. -/
def selectScheduleTime (requested existingTime existingSource : Option String)
    (autoDefaultTime : String) : Except GatewayFailure ScheduleTimeSelection :=
  match requested with
  | some requested =>
    if requested = "auto" then .ok ⟨autoDefaultTime, "auto"⟩
    else do return ⟨← validateScheduleTime text requested, "user"⟩
  | none =>
    if existingSource = some "user" then
      .ok ⟨(nonempty existingTime).getD autoDefaultTime, "user"⟩
    else .ok ⟨autoDefaultTime, "auto"⟩

/-- As `selectScheduleTime`, but a time that is left to the service keeps its value. -/
def selectPreservedAutoTime (requested existingTime existingSource : Option String)
    (autoDefaultTime : String) : Except GatewayFailure ScheduleTimeSelection :=
  if requested = some "auto" then .ok ⟨(nonempty existingTime).getD autoDefaultTime, "auto"⟩
  else selectScheduleTime text requested existingTime existingSource autoDefaultTime

/-! ### Schedules -/

/-- When an audit runs by itself. -/
structure AuditSchedule where
  auditKey : String
  enabled : Bool
  cadence : Option String
  scheduleDay : Option String
  scheduleDayOfMonth : Option Int
  scheduleTime : Option String
  scheduleTimeSource : Option String
  timezone : Option String
  windowDays : List String := []
  windowStartTime : Option String := none
  windowEndTime : Option String := none
  windowMode : Option String := none
  deriving DecidableEq, Repr

/-- What an operator wants of a schedule. -/
structure AuditScheduleUpdate where
  enabled : Option Bool := none
  cadence : Option String := none
  windowDays : Option (List String) := none
  scheduleTime : Option String := none
  timezone : Option String := none
  deriving DecidableEq, Repr

/-- A change of a schedule has to ask for something that can be. -/
def validateScheduleUpdate (update : AuditScheduleUpdate) : Except GatewayFailure Unit := do
  if update.enabled = none ∧ update.cadence = none ∧ update.windowDays = none ∧
      update.scheduleTime = none ∧ update.timezone = none then
    throw (.value "pass --enabled, --frequency, or --timezone")
  if update.windowDays ≠ none then
    if update.cadence = none then throw (.value "pass --frequency when overriding window days")
    validateWeekDays update.windowDays "window"
  validateCadence update.cadence "schedule"
  validateTimeUpdate text update.scheduleTime
  validateTimezone text update.timezone

/-- The schedule that is planned with a time. -/
def scheduleWith (existing : Option AuditSchedule) (auditKey : String)
    (update : AuditScheduleUpdate) (time : ScheduleTimeSelection) : AuditSchedule where
  auditKey := auditKey
  enabled := update.enabled.getD ((existing.map AuditSchedule.enabled).getD false)
  cadence := some ((nonempty update.cadence).getD
    ((nonempty (existing.bind AuditSchedule.cadence)).getD "workdays"))
  scheduleDay := existing.bind AuditSchedule.scheduleDay
  scheduleDayOfMonth := match existing with
    | some existing => existing.scheduleDayOfMonth
    | none => some 1
  scheduleTime := some time.scheduleTime
  scheduleTimeSource := some time.scheduleTimeSource
  timezone := some ((nonempty update.timezone).getD
    ((nonempty (existing.bind AuditSchedule.timezone)).getD "UTC"))
  windowDays := update.windowDays.getD ((existing.map AuditSchedule.windowDays).getD [])
  windowStartTime := existing.bind AuditSchedule.windowStartTime
  windowEndTime := existing.bind AuditSchedule.windowEndTime
  windowMode := match existing with
    | some existing => existing.windowMode
    | none => some "anytime"

/-- The schedule a change should result in; none leaves an absent schedule absent. -/
def planScheduleUpdate (existing : Option AuditSchedule) (auditKey : String)
    (update : AuditScheduleUpdate) : Except GatewayFailure (Option AuditSchedule) := do
  validateScheduleUpdate text update
  if ¬ isAuditKey auditKey then
    throw (.value ("schedule action key must be an exact audit action key: " ++ auditKey))
  if existing = none ∧ update.enabled ≠ some true then return none
  let time ← selectScheduleTime text update.scheduleTime (existing.bind AuditSchedule.scheduleTime)
    (existing.bind AuditSchedule.scheduleTimeSource) "00:00"
  return some (scheduleWith existing auditKey update time)

/-- A schedule whose time is left to the service again. -/
def autoTime (existing : AuditSchedule) : AuditSchedule :=
  { existing with scheduleTime := some "00:00", scheduleTimeSource := some "auto" }

/-! ### Improvement jobs -/

/-- An improvement of the catalog and the audit it relates to. -/
structure ImprovementDefinition where
  actionKey : String
  variantKey : String
  title : Option String
  description : Option String
  sourceAudit : Option String
  kind : Option String
  supported : Bool
  runbookId : Option String := none
  sortOrder : Option Int := none
  deriving DecidableEq, Repr

/-- How an operator names an improvement. -/
def ImprovementDefinition.selector (definition : ImprovementDefinition) : String :=
  (nonempty definition.kind).getD (removeStart "improvement." definition.actionKey)

/-- The kind under which the service keeps the jobs of an improvement. -/
def ImprovementDefinition.jobKind (definition : ImprovementDefinition) : String :=
  (nonempty definition.kind).getD definition.selector

structure ImprovementJob where
  actionKey : String
  variantKey : String
  kind : Option String := none
  enabled : Option Bool := none
  automaticExecution : Option Bool := none
  providerVariantKey : Option String := none
  frequency : Option String := none
  daysOfWeek : List String := []
  scheduleTime : Option String := none
  scheduleTimeSource : Option String := none
  timezone : Option String := none
  pentestMode : Option String := none
  deriving DecidableEq, Repr

/-- What an operator wants of an improvement job. -/
structure ImprovementJobUpdate where
  enabled : Option Bool := none
  frequency : Option String := none
  timezone : Option String := none
  daysOfWeek : Option (List String) := none
  scheduleTime : Option String := none
  automaticExecution : Option Bool := none
  deriving DecidableEq, Repr

/-- The audits improvements relate to, and the kinds of their jobs. -/
def relationships : List (String × String × String) := [
    ("improvement.vuln-fix", "audit.security", "vuln-fix"),
    ("improvement.test-writing", "audit.tests", "test-writing"),
    ("improvement.dependency-update", "audit.dependency-hygiene", "dependency-update")]

/-- The definition of an improvement, given the published audits. -/
def improvementDefinition (item : CatalogImprovement) (publishedAudits : List String) :
    ImprovementDefinition :=
  let relationship := relationships.lookup item.actionKey
  { actionKey := item.actionKey
    variantKey := item.variantKey
    title := item.title
    description := item.description
    sourceAudit := relationship.map Prod.fst
    kind := relationship.map Prod.snd
    supported := relationship.any fun relationship => relationship.1 ∈ publishedAudits
    runbookId := item.runbookId
    sortOrder := item.sortOrder }

/-- Where a definition is listed. -/
def ImprovementDefinition.rank (definition : ImprovementDefinition) :
    Nat ×ₗ Int ×ₗ String ×ₗ String :=
  toLex (if definition.sortOrder = none then 1 else 0, toLex (definition.sortOrder.getD 0,
    toLex (definition.actionKey, definition.variantKey)))

/-- The improvements that can be configured, in the order of the catalog. -/
def improvementDefinitions (catalog : AuditCatalogResult) : List ImprovementDefinition :=
  let publishedAudits := (catalog.actions.filter fun action =>
    action.category = some "audit" ∧ action.status = some "published").map
      AuditCatalogAction.actionKey
  let visible := catalog.improvements.filter fun item =>
    item.status = some "published" ∧ item.actionKey ∉ ["audit.pentest", "improvement.pentest"]
  (visible.map (improvementDefinition · publishedAudits)).insertionSort fun a b => a.rank ≤ b.rank

/-- The definition a selector names; it has to be supported. -/
def selectedDefinition (bySelector : List (String × ImprovementDefinition)) (selector : String) :
    Except GatewayFailure ImprovementDefinition :=
  match bySelector.lookup selector with
  | none => .error (.value ("unknown improvement selector: " ++ selector))
  | some definition =>
    if definition.supported then .ok definition
    else .error (.value ("improvement selector is unsupported until a relationship is defined: " ++
      selector))

/-- The definitions selectors name, each once. -/
def selectImprovements (selectors : List String) (available : List ImprovementDefinition) :
    Except GatewayFailure (List ImprovementDefinition) :=
  if selectors = [] then .error (.value "pass one or more IMPROVEMENTS or --all")
  else do
    let wanted := if selectors = ["__all__"] then available.map ImprovementDefinition.selector
      else selectors
    let found ← wanted.mapM
      (selectedDefinition (Dictionary.byKey ImprovementDefinition.selector available))
    return found.eraseDups

/-- A change of a job has to ask for something that can be. -/
def validateImprovementJobUpdate (update : ImprovementJobUpdate) : Except GatewayFailure Unit := do
  if update = {} then
    throw (.value ("pass --enabled, --automatic-execution, --frequency, --days, --time, " ++
      "or --timezone"))
  validateCadence update.frequency "improvement job"
  validateWeekDays update.daysOfWeek "improvement job"
  validateTimeUpdate text update.scheduleTime
  validateTimezone text update.timezone

/-- The job that is planned with a time and a time zone. -/
def jobWith (existing : Option ImprovementJob) (definition : ImprovementDefinition)
    (update : ImprovementJobUpdate) (timezone : String) (timing : ScheduleTimeSelection) :
    ImprovementJob where
  actionKey := definition.actionKey
  variantKey := definition.variantKey
  kind := match existing with
    | some existing => existing.kind
    | none => definition.kind
  enabled := match update.enabled, existing with
    | some enabled, _ => some enabled
    | none, some existing => existing.enabled
    | none, none => some true
  automaticExecution := match update.automaticExecution, existing with
    | some automatic, _ => some automatic
    | none, some existing => existing.automaticExecution
    | none, none => some true
  providerVariantKey := some
    ((nonempty (existing.bind ImprovementJob.providerVariantKey)).getD definition.variantKey)
  frequency := some ((nonempty update.frequency).getD
    ((nonempty (existing.bind ImprovementJob.frequency)).getD "workdays"))
  daysOfWeek := match update.daysOfWeek, existing with
    | some days, _ => days
    | none, some existing =>
      if existing.daysOfWeek = [] then defaultWorkdays else existing.daysOfWeek
    | none, none => defaultWorkdays
  scheduleTime := some timing.scheduleTime
  scheduleTimeSource := some timing.scheduleTimeSource
  timezone := some timezone
  pentestMode := some ((nonempty (existing.bind ImprovementJob.pentestMode)).getD "off")

/-- The time source of a job, when it is one. -/
def jobSource (existing : Option ImprovementJob) : Option String :=
  (existing.bind ImprovementJob.scheduleTimeSource).filter (· ∈ ["auto", "user"])

/-- The job a change should result in; none leaves an absent job absent. -/
def desiredJob (existing : Option ImprovementJob) (definition : ImprovementDefinition)
    (update : ImprovementJobUpdate) : Except GatewayFailure (Option ImprovementJob) := do
  validateImprovementJobUpdate text update
  if existing = none ∧ update.enabled ≠ some true then return none
  let timezone := (nonempty update.timezone).or (existing.bind ImprovementJob.timezone)
  match timezone with
  | none => throw (.value "pass --timezone when enabling an absent improvement job")
  | some timezone =>
    let timing ← selectPreservedAutoTime text update.scheduleTime
      (existing.bind ImprovementJob.scheduleTime) (jobSource existing) "09:00"
    return some (jobWith existing definition update timezone timing)

/-- Whether two jobs are configured alike; the names a job goes by do not count. -/
def ImprovementJob.effective (job other : ImprovementJob) : Bool :=
  job.enabled = other.enabled && job.automaticExecution = other.automaticExecution &&
    job.providerVariantKey = other.providerVariantKey && job.variantKey = other.variantKey &&
    job.frequency = other.frequency && job.daysOfWeek = other.daysOfWeek &&
    job.scheduleTime = other.scheduleTime && job.scheduleTimeSource = other.scheduleTimeSource &&
    job.timezone = other.timezone && job.pentestMode = other.pentestMode

/-- What is planned for one job: it stays, or it becomes another one. -/
structure ImprovementJobWriteResult where
  definition : ImprovementDefinition
  changed : Bool
  job : Option ImprovementJob
  deriving DecidableEq, Repr

/-- Plans the change of one job. -/
def setOne (definition : ImprovementDefinition) (existing : Option ImprovementJob)
    (update : ImprovementJobUpdate) : Except GatewayFailure ImprovementJobWriteResult := do
  if ¬ definition.supported then
    throw (.value ("improvement selector is unsupported until a relationship is defined: " ++
      definition.selector))
  validateImprovementJobUpdate text update
  if existing = none ∧ update.enabled = some false then return ⟨definition, false, none⟩
  match ← desiredJob text existing definition update with
  | none => return ⟨definition, false, none⟩
  | some desired =>
    if existing.any (ImprovementJob.effective · desired) then return ⟨definition, false, existing⟩
    else return ⟨definition, true, some desired⟩

/-- The jobs of a repository by action key and by kind, the first of each identity only. -/
def indexImprovementJobs (jobs : List ImprovementJob) : List (String × ImprovementJob) :=
  let normalized := jobs.foldl (fun found job =>
    if found.any fun other => other.actionKey = job.actionKey ∧ other.variantKey = job.variantKey
    then found else found ++ [job]) []
  normalized.foldl (fun indexed job =>
    let indexed := Dictionary.insert job.actionKey job indexed
    match job.kind with
    | none => indexed
    | some kind => Dictionary.insert kind job indexed) []

end

/-! ### Completion emails -/

/-- The choices of completion emails for an audit. -/
structure AuditEmailPreference where
  auditKey : String
  manual : Option Bool := none
  scheduled : Option Bool := none
  deriving DecidableEq, Repr

/-- What an operator wants of completion emails. -/
structure AuditEmailPreferenceUpdate where
  manual : Option Bool := none
  scheduled : Option Bool := none
  deriving DecidableEq, Repr

/-- A change of completion emails has to ask for something. -/
def validateEmailUpdate (update : AuditEmailPreferenceUpdate) :
    Except GatewayFailure AuditEmailPreferenceUpdate :=
  if update.manual = none ∧ update.scheduled = none then
    .error (.value "pass --manual or --scheduled")
  else .ok update

/-- A choice that is not asked for is effective. -/
def emailEffective (current requested : Option Bool) : Bool :=
  requested = none || current = requested

end EnjiGuard.Audit
