import EnjiGuard.Audit.Scheduling
import EnjiGuard.Foundation.Action
import EnjiGuard.Portfolio.Repositories

/-!
# Batch mutations of recurring settings

Four commands change the recurring settings of repositories. Each of them reads what it needs,
plans a decision for every setting, and only then hands the plan to one executor, which sends the
writes in order and stops at the first operational failure.
-/

namespace EnjiGuard.Application

open Foundation Audit Portfolio

/-! ### The gateway -/

/-- The scope of a write: selectors, or everything of a project or of the account. -/
structure SubscriptionWriteScope where
  allRepos : Bool := false
  allProjects : Bool := false
  deriving DecidableEq, Repr

/-- A request to a service. -/
inductive GatewayRequest
  | catalog
  | writeTargets (repo project : Option String) (scope : SubscriptionWriteScope)
  | listSchedules (repoId : String)
  | setSchedule (repoId auditKey : String) (schedule : AuditSchedule)
  | listImprovementJobs (repoId : String)
  | setImprovementJob (repoId kind : String) (job : ImprovementJob)
  | getEmailPreferences (repoId auditKey : String)
  | setEmailPreference (repoId auditKey : String) (update : AuditEmailPreferenceUpdate)
  deriving DecidableEq, Repr

/-- The requests that change a setting. -/
def GatewayRequest.isWrite : GatewayRequest → Bool
  | .setSchedule .. => true
  | .setImprovementJob .. => true
  | .setEmailPreference .. => true
  | _ => false

/-- A service: each answer may depend on everything that was requested before. The targets of a
write come resolved, in one answer: how they were found changes nothing for a batch. -/
structure Gateway where
  catalog : List GatewayRequest → Except GatewayFailure AuditCatalogResult
  writeTargets : List GatewayRequest → Option String → Option String → SubscriptionWriteScope →
    Except GatewayFailure (List RepositoryRef)
  listSchedules : List GatewayRequest → String → Except GatewayFailure (List AuditSchedule)
  listImprovementJobs : List GatewayRequest → String → Except GatewayFailure (List ImprovementJob)
  getEmailPreferences : List GatewayRequest → String → String →
    Except GatewayFailure AuditEmailPreference
  write : List GatewayRequest → GatewayRequest → Except GatewayFailure Unit

/-- A computation that talks to a service; its state is what was requested. -/
abbrev Session := Action GatewayFailure (List GatewayRequest)

/-- Sends a request and takes the answer. -/
def call {α : Type} (request : GatewayRequest)
    (answer : List GatewayRequest → Except GatewayFailure α) : Session α := fun sent =>
  match answer sent with
  | .ok a => (.ok a, sent ++ [request])
  | .error e => (.raised e, sent ++ [request])

/-! ### The executor -/

/-- Why a mutation ended as it did. -/
inductive MutationReason
  | applied
  | alreadyEffective
  | notConfigured
  | outcomeUnknown
  deriving DecidableEq, Repr

/-- One setting of a repository. -/
structure MutationTargetView where
  repository : RepositoryRef
  selector : String
  deriving DecidableEq, Repr

/-- What is known of one mutation. -/
inductive MutationStatus
  | changed
  | unchanged
  | failed
  deriving DecidableEq, Repr

/-- A mutation that is planned and not yet sent; one without a write changes nothing. -/
structure MutationDecision where
  target : MutationTargetView
  reason : MutationReason
  write : Option GatewayRequest
  deriving DecidableEq, Repr

/-- The observed result of one mutation. -/
structure MutationOutcome where
  target : MutationTargetView
  status : MutationStatus
  reason : Option MutationReason
  code : Option String := none
  message : Option String := none
  deriving DecidableEq, Repr

/-- How a batch ended. -/
inductive BatchStatus
  | completed
  | partly
  | failed
  deriving DecidableEq, Repr

structure BatchMutationResult where
  status : BatchStatus
  total : Nat
  completed : Nat
  remaining : Nat
  changed : Nat
  unchanged : Nat
  failed : Nat
  results : List MutationOutcome
  deriving DecidableEq, Repr

/-- The code and the message of a failure that may end a batch; none for any other failure. -/
def operationalFailure : GatewayFailure → Option (String × String)
  | .api code message => some (code, message)
  | .notFound message => some ("NOT_FOUND", message)
  | .upstream message => some ("UPSTREAM", message)
  | .osError message => some ("UPSTREAM", message)
  | _ => none

/-- A decision that changes nothing. -/
def unchangedDecision (target : MutationTargetView) (reason : MutationReason) :
    MutationDecision := { target := target, reason := reason, write := none }

def changedDecision (target : MutationTargetView) (write : GatewayRequest) : MutationDecision :=
  { target := target, reason := .applied, write := some write }

/-- Whether a decision changes something. -/
def MutationDecision.status (decision : MutationDecision) : MutationStatus :=
  if decision.write.isSome then .changed else .unchanged

def MutationDecision.outcome (decision : MutationDecision) : MutationOutcome where
  target := decision.target
  status := decision.status
  reason := some decision.reason

/-- The outcome of a decision whose write failed after it was sent. -/
def MutationDecision.failure (decision : MutationDecision) (code message : String) :
    MutationOutcome where
  target := decision.target
  status := .failed
  reason := some .outcomeUnknown
  code := some code
  message := some message

section

variable (gateway : Gateway)

/-- The result of a batch that was carried out. -/
def completedResult (total changed unchanged : Nat) (outcomes : List MutationOutcome) :
    BatchMutationResult where
  status := .completed
  total := total
  completed := total
  remaining := 0
  changed := changed
  unchanged := unchanged
  failed := 0
  results := outcomes

/-- The result of a batch whose last outcome is a failure. -/
def stoppedResult (total changed unchanged : Nat) (outcomes : List MutationOutcome) :
    BatchMutationResult :=
  let completed := changed + unchanged
  { status := if completed ≠ 0 then .partly else .failed
    total := total
    completed := completed
    remaining := total - completed
    changed := changed
    unchanged := unchanged
    failed := 1
    results := outcomes }

/-- Carries out planned decisions in order and stops after the first operational failure. -/
def executeFrom (total changed unchanged : Nat) (outcomes : List MutationOutcome) :
    List MutationDecision → Session BatchMutationResult
  | [] => pure (completedResult total changed unchanged outcomes)
  | decision :: decisions =>
    match decision.write with
    | none => executeFrom total changed (unchanged + 1) (outcomes ++ [decision.outcome]) decisions
    | some request => fun sent =>
      match call request (gateway.write · request) sent with
      | (.ok _, sent) =>
        executeFrom total (changed + 1) unchanged (outcomes ++ [decision.outcome]) decisions sent
      | (.crashed, sent) => (.crashed, sent)
      | (.raised e, sent) =>
        match operationalFailure e with
        | none => (.raised e, sent)
        | some (code, message) =>
          (.ok (stoppedResult total changed unchanged
            (outcomes ++ [decision.failure code message])), sent)

/-- Carries out a plan. -/
def executeBatch (decisions : List MutationDecision) : Session BatchMutationResult :=
  executeFrom gateway decisions.length 0 0 [] decisions

/-! ### The commands -/

def writeTargets (repo project : Option String) (scope : Option SubscriptionWriteScope) :
    Session (List RepositoryRef) :=
  let resolved := scope.getD {}
  call (.writeTargets repo project resolved) (gateway.writeTargets · repo project resolved)

/-- The live catalog. -/
def readCatalog : Session AuditCatalogResult :=
  call .catalog gateway.catalog

/-- Collects what a computation gives for every element. -/
def collect {α β : Type} (f : α → Session (List β)) : List α → Session (List β)
  | [] => pure []
  | a :: as => do
    let first ← f a
    let rest ← collect f as
    return first ++ rest

variable (text : PlanText)

def publishedKeys : Session (List String) := do
  let result ← readCatalog gateway
  let catalog ← Action.ofExcept (parseCatalogResult text result)
  return catalog.publishedAudits.map AuditDefinition.actionKey

/-- What an operator asks of schedules. -/
structure ScheduleWriteRequest where
  repo : Option String
  project : Option String
  enabled : Option Bool := none
  cadence : Option String := none
  timezone : Option String := none
  scope : Option SubscriptionWriteScope := none
  deriving DecidableEq, Repr

def scheduleDecision (target : RepositoryRef) (existing : List (String × AuditSchedule))
    (update : AuditScheduleUpdate) (auditKey : String) :
    Except GatewayFailure MutationDecision := do
  let current := existing.lookup auditKey
  let desired ← planScheduleUpdate text current auditKey update
  let mutationTarget : MutationTargetView := ⟨target, removeStart "audit." auditKey⟩
  match desired with
  | none => return unchangedDecision mutationTarget .notConfigured
  | some desired =>
    if current = some desired then return unchangedDecision mutationTarget .alreadyEffective
    else return changedDecision mutationTarget (.setSchedule target.repoId auditKey desired)

def planSetSchedules (request : ScheduleWriteRequest) : Session (List MutationDecision) := do
  let update : AuditScheduleUpdate :=
    { enabled := request.enabled, cadence := request.cadence, timezone := request.timezone }
  Action.ofExcept (validateScheduleUpdate text update)
  let keys ← publishedKeys gateway text
  let targets ← writeTargets gateway request.repo request.project request.scope
  collect (fun target => do
    let schedules ← call (.listSchedules target.repoId) (gateway.listSchedules · target.repoId)
    let existing := Dictionary.byKey AuditSchedule.auditKey schedules
    Action.ofExcept (keys.mapM (scheduleDecision text target existing update))) targets

/-- Changes schedules. -/
def setSchedules (request : ScheduleWriteRequest) : Session BatchMutationResult := do
  executeBatch gateway (← planSetSchedules gateway text request)

def autoTimeDecision (target : RepositoryRef) (current : AuditSchedule) : MutationDecision :=
  let desired := autoTime current
  let mutationTarget : MutationTargetView := ⟨target, removeStart "audit." current.auditKey⟩
  if desired = current then unchangedDecision mutationTarget .alreadyEffective
  else changedDecision mutationTarget (.setSchedule target.repoId current.auditKey desired)

def planScheduleAutoTime (repo project : Option String) (scope : Option SubscriptionWriteScope) :
    Session (List MutationDecision) := do
  let keys ← publishedKeys gateway text
  let targets ← writeTargets gateway repo project scope
  collect (fun target => do
    let schedules ← call (.listSchedules target.repoId) (gateway.listSchedules · target.repoId)
    return (schedules.filter (·.auditKey ∈ keys)).map (autoTimeDecision target)) targets

/-- Leaves the times of schedules to the service. -/
def scheduleAutoTime (repo project : Option String) (scope : Option SubscriptionWriteScope) :
    Session BatchMutationResult := do
  executeBatch gateway (← planScheduleAutoTime gateway text repo project scope)

/-- What an operator asks of improvement jobs. -/
structure ImprovementJobWriteRequest where
  repo : Option String
  project : Option String
  selectors : List String
  enabled : Option Bool := none
  automaticExecution : Option Bool := none
  frequency : Option String := none
  daysOfWeek : Option (List String) := none
  scheduleTime : Option String := none
  timezone : Option String := none
  scope : Option SubscriptionWriteScope := none
  deriving DecidableEq, Repr

def improvementDecision (target : RepositoryRef) (jobs : List (String × ImprovementJob))
    (update : ImprovementJobUpdate) (definition : ImprovementDefinition) :
    Except GatewayFailure MutationDecision := do
  let existing := (jobs.lookup definition.actionKey).or (jobs.lookup definition.jobKind)
  let planned ← setOne text definition existing update
  let mutationTarget : MutationTargetView := ⟨target, definition.selector⟩
  if ¬ planned.changed then
    return unchangedDecision mutationTarget
      (if existing = none then .notConfigured else .alreadyEffective)
  else match planned.job with
    | none => throw (.runtime "changed improvement-job plan has no desired job")
    | some job =>
      return changedDecision mutationTarget
        (.setImprovementJob target.repoId definition.jobKind job)

def planSetImprovementJobs (request : ImprovementJobWriteRequest) :
    Session (List MutationDecision) := do
  let update : ImprovementJobUpdate :=
    { enabled := request.enabled
      frequency := request.frequency
      timezone := request.timezone
      daysOfWeek := request.daysOfWeek
      scheduleTime := request.scheduleTime
      automaticExecution := request.automaticExecution }
  Action.ofExcept (validateImprovementJobUpdate text update)
  let catalog ← readCatalog gateway
  let selected ← Action.ofExcept
    (selectImprovements request.selectors (improvementDefinitions catalog))
  let targets ← writeTargets gateway request.repo request.project request.scope
  collect (fun target => do
    let jobs ←
      call (.listImprovementJobs target.repoId) (gateway.listImprovementJobs · target.repoId)
    Action.ofExcept
      (selected.mapM (improvementDecision text target (indexImprovementJobs jobs) update))) targets

def setImprovementJobs (request : ImprovementJobWriteRequest) : Session BatchMutationResult := do
  executeBatch gateway (← planSetImprovementJobs gateway text request)

/-- What an operator asks of completion emails. -/
structure EmailPreferencesWriteRequest where
  repo : Option String
  project : Option String
  manual : Option Bool := none
  scheduled : Option Bool := none
  scope : Option SubscriptionWriteScope := none
  deriving DecidableEq, Repr

def emailDecision (target : RepositoryRef) (current : AuditEmailPreference)
    (typed : AuditEmailPreferenceUpdate) (auditKey : String) : MutationDecision :=
  let mutationTarget : MutationTargetView := ⟨target, removeStart "audit." auditKey⟩
  if emailEffective current.manual typed.manual &&
      emailEffective current.scheduled typed.scheduled then
    unchangedDecision mutationTarget .alreadyEffective
  else changedDecision mutationTarget (.setEmailPreference target.repoId auditKey typed)

/-- The plan of changing completion emails. -/
def planSetEmailPreferences (request : EmailPreferencesWriteRequest) :
    Session (List MutationDecision) := do
  let typed ← Action.ofExcept
    (validateEmailUpdate { manual := request.manual, scheduled := request.scheduled })
  let keys ← publishedKeys gateway text
  let targets ← writeTargets gateway request.repo request.project request.scope
  collect (fun target => collect (fun auditKey => do
    let current ← call (.getEmailPreferences target.repoId auditKey)
      (gateway.getEmailPreferences · target.repoId auditKey)
    return [emailDecision target current typed auditKey]) keys) targets

/-- Changes completion emails. -/
def setEmailPreferences (request : EmailPreferencesWriteRequest) :
    Session BatchMutationResult := do
  executeBatch gateway (← planSetEmailPreferences gateway text request)

/-- The commands that change recurring settings. -/
inductive SubscriptionCommand
  | setSchedules (request : ScheduleWriteRequest)
  | scheduleAutoTime (repo project : Option String) (scope : Option SubscriptionWriteScope)
  | setImprovementJobs (request : ImprovementJobWriteRequest)
  | setEmailPreferences (request : EmailPreferencesWriteRequest)

def SubscriptionCommand.plan : SubscriptionCommand → Session (List MutationDecision)
  | .setSchedules request => planSetSchedules gateway text request
  | .scheduleAutoTime repo project scope => planScheduleAutoTime gateway text repo project scope
  | .setImprovementJobs request => planSetImprovementJobs gateway text request
  | .setEmailPreferences request => planSetEmailPreferences gateway text request

def SubscriptionCommand.run : SubscriptionCommand → Session BatchMutationResult
  | .setSchedules request => Application.setSchedules gateway text request
  | .scheduleAutoTime repo project scope =>
    Application.scheduleAutoTime gateway text repo project scope
  | .setImprovementJobs request => Application.setImprovementJobs gateway text request
  | .setEmailPreferences request => Application.setEmailPreferences gateway text request

end

/-! ### Planning only reads -/

/-- A read is requested. -/
def Reads (sent sent' : List GatewayRequest) : Prop :=
  ∃ request, request.isWrite = false ∧ sent' = sent ++ [request]

/-- A computation sends reads only. -/
def OnlyReads {α : Type} (p : Session α) : Prop :=
  ∀ sent, Action.Tracks id Reads p sent (fun _ _ => True) fun _ _ => True

section Planning

variable {α β : Type} {gateway : Gateway} {text : PlanText}

lemma OnlyReads.pure {a : α} : OnlyReads (Pure.pure a : Session α) :=
  fun _ => .pure trivial

lemma OnlyReads.bind {p : Session α} {f : α → Session β} (hp : OnlyReads p)
    (hf : ∀ a, OnlyReads (f a)) : OnlyReads (p >>= f) :=
  fun sent => (hp sent).bind fun a sent' _ _ => hf a sent'

lemma OnlyReads.ofExcept {x : Except GatewayFailure α} :
    OnlyReads (Action.ofExcept x : Session α) :=
  fun _ => .ofExcept (fun _ _ => trivial) fun _ _ => trivial

lemma onlyReads_call {request : GatewayRequest}
    {answer : List GatewayRequest → Except GatewayFailure α} (h : request.isWrite = false) :
    OnlyReads (call request answer) := by
  intro sent
  have hmoves : Reads sent (sent ++ [request]) := ⟨request, h, rfl⟩
  rcases hanswer : answer sent with e | a
  · have hrun : call request answer sent = (.raised e, sent ++ [request]) := by
      simp only [call, hanswer]
    exact .resume (p := Action.raise e) hrun (.single hmoves) (.raise trivial)
  · have hrun : call request answer sent = (.ok a, sent ++ [request]) := by
      simp only [call, hanswer]
    exact .resume (p := Action.ret a) hrun (.single hmoves) (.ret trivial)

lemma onlyReads_collect {f : α → Session (List β)} (hf : ∀ a, OnlyReads (f a)) (as : List α) :
    OnlyReads (collect f as) := by
  induction as with
  | nil => exact .pure
  | cons a as ih => exact (hf a).bind fun _ => ih.bind fun _ => .pure

lemma onlyReads_publishedKeys : OnlyReads (publishedKeys gateway text) :=
  (onlyReads_call rfl).bind fun _ => OnlyReads.ofExcept.bind fun _ => .pure

lemma onlyReads_planSetSchedules (request : ScheduleWriteRequest) :
    OnlyReads (planSetSchedules gateway text request) := by
  refine OnlyReads.ofExcept.bind fun _ => onlyReads_publishedKeys.bind fun keys => ?_
  refine (onlyReads_call rfl).bind fun targets => onlyReads_collect (fun target => ?_) targets
  exact (onlyReads_call rfl).bind fun _ => .ofExcept

lemma onlyReads_planScheduleAutoTime (repo project : Option String)
    (scope : Option SubscriptionWriteScope) :
    OnlyReads (planScheduleAutoTime gateway text repo project scope) := by
  refine onlyReads_publishedKeys.bind fun keys => (onlyReads_call rfl).bind fun targets => ?_
  exact onlyReads_collect (fun target => (onlyReads_call rfl).bind fun _ => .pure) targets

lemma onlyReads_planSetImprovementJobs (request : ImprovementJobWriteRequest) :
    OnlyReads (planSetImprovementJobs gateway text request) := by
  refine OnlyReads.ofExcept.bind fun _ => (onlyReads_call rfl).bind fun catalog => ?_
  refine OnlyReads.ofExcept.bind fun selected => (onlyReads_call rfl).bind fun targets => ?_
  exact onlyReads_collect (fun target => (onlyReads_call rfl).bind fun _ => .ofExcept) targets

lemma onlyReads_planSetEmailPreferences (request : EmailPreferencesWriteRequest) :
    OnlyReads (planSetEmailPreferences gateway text request) := by
  refine OnlyReads.ofExcept.bind fun _ => onlyReads_publishedKeys.bind fun keys => ?_
  refine (onlyReads_call rfl).bind fun targets => onlyReads_collect (fun target => ?_) targets
  exact onlyReads_collect (fun auditKey => (onlyReads_call rfl).bind fun _ => .pure) keys

/-- Planning any command sends no write. -/
lemma onlyReads_plan (command : SubscriptionCommand) : OnlyReads (command.plan gateway text) := by
  cases command with
  | setSchedules request => exact onlyReads_planSetSchedules request
  | scheduleAutoTime repo project scope => exact onlyReads_planScheduleAutoTime repo project scope
  | setImprovementJobs request => exact onlyReads_planSetImprovementJobs request
  | setEmailPreferences request => exact onlyReads_planSetEmailPreferences request

/-- What a computation that only reads has sent. -/
lemma OnlyReads.exists_reads {p : Session α} (h : OnlyReads p) (sent : List GatewayRequest) :
    ∃ reads, (∀ request ∈ reads, request.isWrite = false) ∧ (p sent).2 = sent ++ reads := by
  have hmoves := (h sent).moves
  generalize (p sent).2 = sent' at hmoves ⊢
  simp only [id_eq] at hmoves
  induction hmoves with
  | refl => exact ⟨[], by simp, by simp⟩
  | tail _ hread ih =>
    obtain ⟨reads, hreads, rfl⟩ := ih
    obtain ⟨request, hrequest, rfl⟩ := hread
    refine ⟨reads ++ [request], ?_, by simp⟩
    intro other hother
    rcases List.mem_append.1 hother with hother | hother
    · exact hreads other hother
    · rwa [List.mem_singleton.1 hother]

/-- A command carries out its plan. -/
lemma run_eq (command : SubscriptionCommand) :
    command.run gateway text = command.plan gateway text >>= executeBatch gateway := by
  cases command <;> rfl

end Planning

/-! ### The executor fails fast -/

/-- The writes decisions stand for, in order. -/
def writesOf (decisions : List MutationDecision) : List GatewayRequest :=
  decisions.filterMap MutationDecision.write

/-- Writes that were all answered well, each after those before it. -/
def Answered (gateway : Gateway) (sent writes : List GatewayRequest) : Prop :=
  ∀ before request after, writes = before ++ request :: after →
    gateway.write (sent ++ before) request = .ok ()

/-- The decisions of a list that change something, and those that do not. -/
def changes (decisions : List MutationDecision) : Nat := decisions.countP (·.write.isSome)

def unchanges (decisions : List MutationDecision) : Nat := decisions.countP (·.write.isNone)

/-- How a plan is carried out: all of it, or up to a write that fails. -/
inductive Ended (gateway : Gateway) (decisions : List MutationDecision)
    (sent : List GatewayRequest) :
    Outcome GatewayFailure BatchMutationResult × List GatewayRequest → Prop
  | completed (hanswered : Answered gateway sent (writesOf decisions)) :
      Ended gateway decisions sent
        (.ok (completedResult decisions.length (changes decisions) (unchanges decisions)
          (decisions.map MutationDecision.outcome)), sent ++ writesOf decisions)
  | stopped {done remaining : List MutationDecision} {decision : MutationDecision}
      {request : GatewayRequest} {e : GatewayFailure} {code message : String}
      (hsplit : decisions = done ++ decision :: remaining)
      (hanswered : Answered gateway sent (writesOf done)) (hwrite : decision.write = some request)
      (herror : gateway.write (sent ++ writesOf done) request = .error e)
      (hfailure : operationalFailure e = some (code, message)) :
      Ended gateway decisions sent
        (.ok (stoppedResult decisions.length (changes done) (unchanges done)
          (done.map MutationDecision.outcome ++ [decision.failure code message])),
          sent ++ writesOf done ++ [request])
  | escaped {done remaining : List MutationDecision} {decision : MutationDecision}
      {request : GatewayRequest} {e : GatewayFailure}
      (hsplit : decisions = done ++ decision :: remaining)
      (hanswered : Answered gateway sent (writesOf done)) (hwrite : decision.write = some request)
      (herror : gateway.write (sent ++ writesOf done) request = .error e)
      (hfailure : operationalFailure e = none) :
      Ended gateway decisions sent (.raised e, sent ++ writesOf done ++ [request])

section Executor

variable {gateway : Gateway} {decision : MutationDecision}
variable {decisions done rest : List MutationDecision} {sent writes : List GatewayRequest}
variable {request : GatewayRequest}

lemma Answered.concat (hwrites : Answered gateway sent writes)
    (h : gateway.write (sent ++ writes) request = .ok ()) :
    Answered gateway sent (writes ++ [request]) := by
  intro before other after heq
  rcases List.append_eq_append_iff.1 heq with
    ⟨between, hbefore, hlast⟩ | ⟨between, hwrites', hafter⟩
  · cases between with
    | nil =>
      rw [List.append_nil] at hbefore
      obtain ⟨rfl, -⟩ := List.cons_eq_cons.1 hlast
      rwa [hbefore]
    | cons first between =>
      have hlength := congrArg List.length hlast
      simp at hlength
  · cases between with
    | nil =>
      rw [List.nil_append] at hafter
      rw [List.append_nil] at hwrites'
      obtain ⟨rfl, -⟩ := List.cons_eq_cons.1 hafter
      rwa [← hwrites']
    | cons first between =>
      obtain ⟨rfl, -⟩ := List.cons_eq_cons.1 hafter
      exact hwrites before other between hwrites'

lemma writesOf_concat : writesOf (done ++ [decision]) = writesOf done ++ decision.write.toList := by
  rcases hwrite : decision.write with _ | request <;>
    simp [writesOf, List.filterMap_append, hwrite]

/-- The execution of the rest of a plan, after its first decisions were carried out. -/
lemma ended_executeFrom (hsplit : decisions = done ++ rest)
    (hanswered : Answered gateway sent (writesOf done)) :
    Ended gateway decisions sent
      (executeFrom gateway decisions.length (changes done) (unchanges done)
        (done.map MutationDecision.outcome) rest (sent ++ writesOf done)) := by
  induction rest generalizing done with
  | nil =>
    rw [List.append_nil] at hsplit
    subst hsplit
    exact .completed hanswered
  | cons decision rest ih =>
    have hnext : decisions = (done ++ [decision]) ++ rest := by
      rw [hsplit, List.append_assoc, List.singleton_append]
    rw [executeFrom]
    rcases hwrite : decision.write with _ | request
    · -- nothing is sent for a decision that changes nothing
      have hwrites : writesOf (done ++ [decision]) = writesOf done := by
        rw [writesOf_concat, hwrite, Option.toList_none, List.append_nil]
      have hended := ih hnext (hwrites.symm ▸ hanswered)
      rw [hwrites] at hended
      simpa [changes, unchanges, hwrite] using hended
    · have hwrites : writesOf (done ++ [decision]) = writesOf done ++ [request] := by
        rw [writesOf_concat, hwrite, Option.toList_some]
      rcases hanswer : gateway.write (sent ++ writesOf done) request with e | ⟨⟩
      · simp only [call, hanswer]
        rcases hfailure : operationalFailure e with _ | ⟨code, message⟩
        · exact .escaped hsplit hanswered hwrite hanswer hfailure
        · exact .stopped hsplit hanswered hwrite hanswer hfailure
      · simp only [call, hanswer]
        have hended := ih hnext (hwrites.symm ▸ hanswered.concat hanswer)
        rw [hwrites, ← List.append_assoc] at hended
        simpa [changes, unchanges, hwrite] using hended

/-- A plan is carried out in order, up to the first write that fails. -/
lemma ended_executeBatch : Ended gateway decisions sent (executeBatch gateway decisions sent) := by
  have hanswered : Answered gateway sent (writesOf []) := by
    intro before request after heq
    exact absurd heq (by simp [writesOf])
  have hended := ended_executeFrom (List.nil_append decisions).symm hanswered
  rwa [show sent ++ writesOf [] = sent from List.append_nil sent] at hended

end Executor

/-! ### What a command reports -/

/-- A report accounts for a plan: its results are those of the decisions that were carried out,
followed by what failed, and its counters count them. -/
structure Reports (decisions done : List MutationDecision) (failed : List MutationOutcome)
    (report : BatchMutationResult) : Prop where
  results : report.results = done.map MutationDecision.outcome ++ failed
  carriedOut : report.completed = done.length
  total : report.total = decisions.length
  remaining : report.total = report.completed + report.remaining
  completed : report.completed = report.changed + report.unchanged
  changed : report.changed = report.results.countP (·.status = .changed)
  unchanged : report.unchanged = report.results.countP (·.status = .unchanged)
  failed : report.failed = report.results.countP (·.status = .failed)
  finished : report.status = .completed ↔ report.failed = 0
  partly : report.status = .partly ↔ report.failed ≠ 0 ∧ report.completed ≠ 0

/-- What was sent of a plan, and how it ended: every write was answered well, and everything is
reported as carried out; or the last one was not, and what came before it is reported, together with
the failure if that is an operational one. -/
inductive Ends (gateway : Gateway) (decisions : List MutationDecision)
    (sent : List GatewayRequest) :
    List GatewayRequest → Outcome GatewayFailure BatchMutationResult → Prop
  | completed {report : BatchMutationResult}
      (hanswered : Answered gateway sent (writesOf decisions))
      (hreports : Reports decisions decisions [] report) :
      Ends gateway decisions sent (writesOf decisions) (.ok report)
  | stopped {done remaining : List MutationDecision} {decision : MutationDecision}
      {request : GatewayRequest} {e : GatewayFailure} {code message : String}
      {report : BatchMutationResult} (hsplit : decisions = done ++ decision :: remaining)
      (hanswered : Answered gateway sent (writesOf done)) (hwrite : decision.write = some request)
      (herror : gateway.write (sent ++ writesOf done) request = .error e)
      (hfailure : operationalFailure e = some (code, message))
      (hreports : Reports decisions done [decision.failure code message] report) :
      Ends gateway decisions sent (writesOf done ++ [request]) (.ok report)
  | escaped {done remaining : List MutationDecision} {decision : MutationDecision}
      {request : GatewayRequest} {e : GatewayFailure}
      (hsplit : decisions = done ++ decision :: remaining)
      (hanswered : Answered gateway sent (writesOf done)) (hwrite : decision.write = some request)
      (herror : gateway.write (sent ++ writesOf done) request = .error e)
      (hfailure : operationalFailure e = none) :
      Ends gateway decisions sent (writesOf done ++ [request]) (.raised e)

/-- What a command has sent and how it ended: reads and then, when its plan is complete, writes of
the plan in order, each but the last of which succeeded, and the report of just these. -/
structure FailsFast (gateway : Gateway) (decisions : List MutationDecision)
    (sent writes : List GatewayRequest)
    (ended : Outcome GatewayFailure BatchMutationResult) : Prop where
  inOrder : writes <+: writesOf decisions
  stops : ∀ before request after, writes = before ++ request :: after → after ≠ [] →
    gateway.write (sent ++ before) request = .ok ()
  ends : Ends gateway decisions sent writes ended

section Report

variable {gateway : Gateway} {text : PlanText} {decisions done rest : List MutationDecision}
variable {sent writes : List GatewayRequest} {report : BatchMutationResult}
variable {decision : MutationDecision}

lemma changes_add_unchanges (decisions : List MutationDecision) :
    changes decisions + unchanges decisions = decisions.length := by
  have hnone : unchanges decisions = decisions.countP fun decision => ¬ decision.write.isSome := by
    refine List.countP_congr fun decision _ => ?_
    cases decision.write <;> simp
  rw [hnone]
  exact (List.length_eq_countP_add_countP fun decision : MutationDecision =>
    decision.write.isSome).symm

lemma countP_outcomes (decisions : List MutationDecision) :
    (decisions.map MutationDecision.outcome).countP (·.status = .changed) = changes decisions ∧
      (decisions.map MutationDecision.outcome).countP (·.status = .unchanged) =
        unchanges decisions ∧
      (decisions.map MutationDecision.outcome).countP (·.status = .failed) = 0 := by
  have hstatus : ∀ decision : MutationDecision, decision.outcome.status =
      if decision.write.isSome then .changed else .unchanged := fun _ => rfl
  refine ⟨?_, ?_, ?_⟩
  · rw [List.countP_map]
    refine List.countP_congr fun decision _ => ?_
    cases hwrite : decision.write <;> simp [hstatus, hwrite]
  · rw [List.countP_map]
    refine List.countP_congr fun decision _ => ?_
    cases hwrite : decision.write <;> simp [hstatus, hwrite]
  · rw [List.countP_eq_zero]
    intro outcome houtcome
    obtain ⟨decision, -, rfl⟩ := List.mem_map.1 houtcome
    cases hwrite : decision.write <;> simp [hstatus, hwrite]

lemma reports_completed :
    Reports decisions decisions [] (completedResult decisions.length (changes decisions)
      (unchanges decisions) (decisions.map MutationDecision.outcome)) := by
  obtain ⟨hchanged, hunchanged, hfailed⟩ := countP_outcomes decisions
  constructor
  case results => exact (List.append_nil _).symm
  case carriedOut => rfl
  case total => rfl
  case remaining => rfl
  case completed => exact (changes_add_unchanges decisions).symm
  case changed => exact hchanged.symm
  case unchanged => exact hunchanged.symm
  case failed => exact hfailed.symm
  case finished => simp [completedResult]
  case partly => simp [completedResult]

lemma reports_stopped {code message : String} (hsplit : decisions = done ++ decision :: rest) :
    Reports decisions done [decision.failure code message] (stoppedResult decisions.length
      (changes done) (unchanges done)
      (done.map MutationDecision.outcome ++ [decision.failure code message])) := by
  obtain ⟨hchanged, hunchanged, hfailed⟩ := countP_outcomes done
  have hdone := changes_add_unchanges done
  have hlength : done.length ≤ decisions.length := by simp [hsplit]
  constructor
  case results => rfl
  case carriedOut => exact hdone
  case total => rfl
  case remaining =>
    change decisions.length = changes done + unchanges done +
      (decisions.length - (changes done + unchanges done))
    omega
  case completed => rfl
  case changed => simp [stoppedResult, List.countP_append, hchanged, MutationDecision.failure]
  case unchanged => simp [stoppedResult, List.countP_append, hunchanged, MutationDecision.failure]
  case failed => simp [stoppedResult, List.countP_append, hfailed, MutationDecision.failure]
  case finished =>
    refine iff_of_false ?_ (by simp [stoppedResult])
    simp only [stoppedResult]
    split_ifs <;> simp
  case partly => by_cases hcompleted : changes done + unchanges done = 0 <;> simp [stoppedResult, hcompleted]

/-- The writes before the last one succeeded, whether or not the last one did. -/
lemma Answered.before_last {last request : GatewayRequest} {before after : List GatewayRequest}
    (h : Answered gateway sent writes) (heq : writes ++ [last] = before ++ request :: after)
    (hafter : after ≠ []) : gateway.write (sent ++ before) request = .ok () := by
  obtain ⟨after, final, rfl⟩ := (List.eq_nil_or_concat' after).resolve_left hafter
  rw [← List.cons_append, ← List.append_assoc] at heq
  exact h before request after (List.append_inj_left' heq rfl)

/-- What was sent up to a write is the beginning of the writes of the plan. -/
lemma writesOf_isPrefix {request : GatewayRequest} (hsplit : decisions = done ++ decision :: rest)
    (hwrite : decision.write = some request) :
    writesOf done ++ [request] <+: writesOf decisions := by
  refine ⟨writesOf rest, ?_⟩
  rw [hsplit, writesOf, writesOf, writesOf, List.filterMap_append, List.filterMap_cons_some hwrite,
    List.append_assoc, List.singleton_append]

/-- Carrying out a plan fails fast and reports what it did. -/
lemma Ended.failsFast {ended : Outcome GatewayFailure BatchMutationResult}
    {sent' : List GatewayRequest} (h : Ended gateway decisions sent (ended, sent')) :
    ∃ writes, sent' = sent ++ writes ∧ FailsFast gateway decisions sent writes ended := by
  cases h with
  | completed hanswered =>
    exact ⟨writesOf decisions, rfl, List.prefix_rfl, fun before request after heq _ =>
      hanswered before request after heq, .completed hanswered reports_completed⟩
  | stopped hsplit hanswered hwrite herror hfailure =>
    exact ⟨_, List.append_assoc .., writesOf_isPrefix hsplit hwrite,
      fun before request after => hanswered.before_last,
      .stopped hsplit hanswered hwrite herror hfailure (reports_stopped hsplit)⟩
  | escaped hsplit hanswered hwrite herror hfailure =>
    exact ⟨_, List.append_assoc .., writesOf_isPrefix hsplit hwrite,
      fun before request after => hanswered.before_last,
      .escaped hsplit hanswered hwrite herror hfailure⟩

/-- A batch mutation plans everything first and fails fast: unless its reads and its plan succeed
it sends reads only and reports nothing; and then it sends the writes of the plan in order, none
after one that failed, and reports just the decisions that were carried out and the one that failed.
-/
theorem planned_failsFast (command : SubscriptionCommand) (sent : List GatewayRequest) :
    ∃ reads, (∀ request ∈ reads, request.isWrite = false) ∧
      (((∀ decisions, (command.plan gateway text sent).1 ≠ .ok decisions) ∧
        (command.run gateway text sent).2 = sent ++ reads ∧
        ∀ report, (command.run gateway text sent).1 ≠ .ok report) ∨
      ∃ decisions writes, command.plan gateway text sent = (.ok decisions, sent ++ reads) ∧
        (command.run gateway text sent).2 = sent ++ reads ++ writes ∧
        FailsFast gateway decisions (sent ++ reads) writes (command.run gateway text sent).1) := by
  have hreads : OnlyReads (command.plan gateway text) := onlyReads_plan command
  obtain ⟨reads, hreads, hplanned⟩ := hreads.exists_reads sent
  refine ⟨reads, hreads, ?_⟩
  rw [run_eq, Action.bind_apply]
  rcases hplan : command.plan gateway text sent with ⟨decisions | e | _, sent'⟩ <;>
    rw [hplan] at hplanned <;> subst hplanned
  · right
    have hended : Ended gateway decisions (sent ++ reads)
        (executeBatch gateway decisions (sent ++ reads)) := ended_executeBatch
    obtain ⟨writes, hsent, hfails⟩ := hended.failsFast
    exact ⟨decisions, writes, rfl, hsent, hfails⟩
  · exact .inl ⟨fun decisions => by rintro ⟨⟩, rfl, fun report => by rintro ⟨⟩⟩
  · exact .inl ⟨fun decisions => by rintro ⟨⟩, rfl, fun report => by rintro ⟨⟩⟩

end Report

end EnjiGuard.Application
