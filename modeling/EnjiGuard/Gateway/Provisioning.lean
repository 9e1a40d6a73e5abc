import EnjiGuard.Foundation.Reachability
import EnjiGuard.Transport.Requests
import Mathlib.Logic.Function.Basic

/-!
# Projects in two services

A project is kept by the fleet and listed by the UX service. Creating one creates it in the fleet
and then lists it, deleting one unlists it and then deletes it from the fleet, and a second step
that fails is reported as a partial state. Any number of clients run these commands over a network
that delays and loses what is sent: an unlisted project of the fleet is never listed again, and a
project that is left behind in between is one that a partial state names.
-/

namespace EnjiGuard.Gateway

open Foundation Transport

/-! ### The commands -/

inductive ProjectRequest
  | fleetCreate (name : String)
  | uxCreate (fleetProjectId name : String)
  | uxDelete (projectId : String)
  | fleetDelete (projectId : String)
  deriving DecidableEq, Repr

/-- An error of the API; a request that gets no answer is one, too. -/
structure ApiError where
  code : String
  message : String
  deriving DecidableEq, Repr

/-- What a client learns of a request. -/
inductive Answer
  | created (projectId : String)
  | ok
  | error (error : ApiError)
  deriving DecidableEq, Repr

/-- The project a request is about; a new one has no id yet. -/
def ProjectRequest.projectId? : ProjectRequest → Option String
  | fleetCreate _ => none
  | uxCreate projectId _ => some projectId
  | uxDelete projectId => some projectId
  | fleetDelete projectId => some projectId

/-- Whether a request is the first step of its command. -/
def ProjectRequest.first : ProjectRequest → Bool
  | fleetCreate _ => true
  | uxDelete _ => true
  | _ => false

/-- Whether an answer says that a request was done. -/
def ProjectRequest.acknowledges : ProjectRequest → Answer → Bool
  | fleetCreate _, .created _ => true
  | fleetCreate _, _ => false
  | _, .ok => true
  | _, _ => false

def ProjectRequest.retryProfile : ProjectRequest → RetryProfile
  | fleetCreate _ => .unsafeMutation
  | uxCreate _ _ => .unsafeMutation
  | uxDelete _ => .idempotentMutation
  | fleetDelete _ => .idempotentMutation

/-- What is known of a command that was left between its two steps. -/
structure PartialStateDetails where
  operation : String
  completedStep : String
  failedStep : String
  upstreamCode : String
  upstreamMessage : String
  projectId : Option String := none
  projectName : Option String := none
  deriving DecidableEq, Repr

def PartialStateDetails.toError (details : PartialStateDetails) : ApiError where
  code := "PARTIAL_STATE"
  message := "; ".intercalate
    (["operation=" ++ details.operation, "completed_step=" ++ details.completedStep,
      "failed_step=" ++ details.failedStep] ++
      (details.projectId.map ("project_id=" ++ ·)).toList ++
      (details.projectName.map ("project_name=" ++ ·)).toList ++
      ["upstream_code=" ++ details.upstreamCode, "upstream_message=" ++ details.upstreamMessage])

/-- How a command ends. -/
inductive Ending
  | done
  | failed (error : ApiError)
  | partialState (error : ApiError) (details : PartialStateDetails)
  deriving DecidableEq, Repr

/-- A command: it ends, or sends a request and goes on with its answer. -/
inductive Script
  | done (ending : Ending)
  | ask (request : ProjectRequest) (next : Answer → Script)

/-- A command that is left between its two steps. -/
def Script.partialState (details : PartialStateDetails) : Script :=
  .done (.partialState details.toError details)

/-- Lists a project that was created in the fleet. -/
def createUxProject (projectId name : String) : Script :=
  .ask (.uxCreate projectId name) fun
    | .error e => .partialState
      { operation := "create_project", completedStep := "fleet_create", failedStep := "ux_create",
        upstreamCode := e.code, upstreamMessage := e.message, projectId := some projectId,
        projectName := some name }
    | _ => .done .done

/-- Creates a project; an answer without its id is malformed. -/
def createProject (name : String) : Script :=
  .ask (.fleetCreate name) fun
    | .created projectId => createUxProject projectId name
    | .ok => .done (.failed ⟨"UPSTREAM", "project create returned no project id"⟩)
    | .error e => .done (.failed e)

/-- Deletes a project that is not listed any more from the fleet. -/
def deleteFleetProject (projectId : String) : Script :=
  .ask (.fleetDelete projectId) fun
    | .error e => .partialState
      { operation := "delete_project", completedStep := "ux_delete", failedStep := "fleet_delete",
        upstreamCode := e.code, upstreamMessage := e.message, projectId := some projectId }
    | _ => .done .done

def deleteProject (projectId : String) : Script :=
  .ask (.uxDelete projectId) fun
    | .error e => .done (.failed e)
    | _ => deleteFleetProject projectId

/-- The request a command goes on with. -/
def Script.request? : Script → Option ProjectRequest
  | .done _ => none
  | .ask request _ => some request

/-- A command before one of its steps. -/
inductive Script.Stage : Script → Prop
  | createProject (name : String) : Stage (createProject name)
  | createUxProject (projectId name : String) : Stage (createUxProject projectId name)
  | deleteProject (projectId : String) : Stage (deleteProject projectId)
  | deleteFleetProject (projectId : String) : Stage (deleteFleetProject projectId)

/-! ### The system -/

/-- A request that was sent; one that was served has its answer. -/
structure Sent where
  request : ProjectRequest
  answer : Option Answer := none

/-- What a client is doing: nothing, about to choose from the projects it was shown, or waiting for
the answer to what it sent, with so many retries left. -/
inductive Client
  | idle
  | shown (projectIds : List String)
  | waiting (sent : Nat) (left : Nat) (request : ProjectRequest) (next : Answer → Script)

/-- The two services, everything that was sent, the clients, and the partial states they reported.
-/
structure Provisioning where
  fleet : List String
  ux : List String
  /-- The ids the fleet has given out. -/
  allocated : List String
  sent : List Sent
  clients : Nat → Client
  reports : List PartialStateDetails

/-- What may happen: a client is shown the projects, begins a command, gets an answer, retries or
gives up waiting, or stops without a word; and a service serves a request, by which it applies it
or not, gives out an id if it creates a project, and answers. -/
inductive Label
  | list (client : Nat)
  | create (client : Nat) (name : String)
  | delete (client : Nat) (projectId : String)
  | serve (index : Nat) (applied : Bool) (projectId : String) (answer : Answer)
  | receive (client : Nat)
  | retry (client : Nat)
  | giveUp (client : Nat) (error : ApiError)
  | stop (client : Nat)
  deriving DecidableEq, Repr

/-- Only what was applied is answered with success, and a new id only by the fleet. -/
def ProjectRequest.answers (request : ProjectRequest) (applied : Bool) (projectId : String) :
    Answer → Bool
  | .created projectId' =>
    applied && decide (projectId' = projectId) && match request with
      | .fleetCreate _ => true
      | _ => false
  | .ok => applied
  | .error _ => true

/-- The fleet gives out new ids. -/
def ProjectRequest.mayGive (request : ProjectRequest) (allocated : List String)
    (projectId : String) : Bool :=
  match request with
  | .fleetCreate _ => decide (projectId ∉ allocated)
  | _ => true

namespace Provisioning

def send (s : Provisioning) (client left : Nat) (request : ProjectRequest)
    (next : Answer → Script) : Provisioning :=
  { s with
    sent := s.sent ++ [⟨request, none⟩]
    clients := Function.update s.clients client (.waiting s.sent.length left request next) }

/-- A client does something else than waiting. -/
def turn (s : Provisioning) (client : Nat) (state : Client) : Provisioning :=
  { s with clients := Function.update s.clients client state }

/-- A client goes on with its command. -/
def resume (s : Provisioning) (retries client : Nat) : Script → Provisioning
  | .done (.partialState _ details) =>
    { s.turn client .idle with reports := s.reports ++ [details] }
  | .done _ => s.turn client .idle
  | .ask request next => s.send client retries request next

/-- A service applies a request. -/
def apply (s : Provisioning) (projectId : String) : ProjectRequest → Provisioning
  | .fleetCreate _ =>
    { s with fleet := projectId :: s.fleet, allocated := projectId :: s.allocated }
  | .uxCreate fleetProjectId _ => { s with ux := fleetProjectId :: s.ux }
  | .uxDelete projectId => { s with ux := s.ux.filter (· ≠ projectId) }
  | .fleetDelete projectId => { s with fleet := s.fleet.filter (· ≠ projectId) }

/-- A service applies a request or not, and answers it. -/
def served (s : Provisioning) (index : Nat) (applied : Bool) (projectId : String)
    (request : ProjectRequest) (answer : Answer) : Provisioning :=
  { (if applied then s.apply projectId request else s) with
    sent := s.sent.set index ⟨request, some answer⟩ }

/-- One step; `retries` is how often a request may be sent again. -/
def step (retries : Nat) (s : Provisioning) : Label → Option Provisioning
  | .list client =>
    match s.clients client with
    | .idle => some (s.turn client (.shown s.ux))
    | _ => none
  | .create client name =>
    match s.clients client with
    | .shown _ => some (s.resume retries client (createProject name))
    | _ => none
  | .delete client projectId =>
    match s.clients client with
    | .shown projectIds =>
      if projectId ∈ projectIds then some (s.resume retries client (deleteProject projectId))
      else none
    | _ => none
  | .serve index applied projectId answer =>
    match s.sent[index]? with
    | some ⟨request, none⟩ =>
      if request.answers applied projectId answer ∧ request.mayGive s.allocated projectId then
        some (s.served index applied projectId request answer)
      else none
    | _ => none
  | .receive client =>
    match s.clients client with
    | .waiting index _ _ next =>
      match s.sent[index]? with
      | some ⟨_, some answer⟩ => some (s.resume retries client (next answer))
      | _ => none
    | _ => none
  | .retry client =>
    match s.clients client with
    | .waiting _ (left + 1) request next =>
      if request.retryProfile.canRetry then some (s.send client left request next) else none
    | _ => none
  | .giveUp client error =>
    match s.clients client with
    | .waiting _ left request next =>
      if request.retryProfile.canRetry ∧ left ≠ 0 then none
      else some (s.resume retries client (next (.error error)))
    | _ => none
  | .stop client =>
    match s.clients client with
    | .waiting _ _ _ _ => some (s.turn client .idle)
    | _ => none

/-- Nothing was sent yet, and exactly the projects of the fleet are listed. -/
structure Initial (s : Provisioning) : Prop where
  listed : ∀ projectId, projectId ∈ s.ux ↔ projectId ∈ s.fleet
  given : ∀ projectId ∈ s.fleet, projectId ∈ s.allocated
  unsent : s.sent = []
  idle : ∀ client, s.clients client = .idle
  unreported : s.reports = []

/-! ### What was sent -/

/-- A request was sent at a position. -/
def Asked (s : Provisioning) (index : Nat) (request : ProjectRequest) : Prop :=
  ∃ answer, s.sent[index]? = some ⟨request, answer⟩

/-- A request was served. -/
def Answered (s : Provisioning) (index : Nat) (request : ProjectRequest) (answer : Answer) : Prop :=
  s.sent[index]? = some ⟨request, some answer⟩

/-- A request was not served yet. -/
def Open (s : Provisioning) (index : Nat) (request : ProjectRequest) : Prop :=
  s.sent[index]? = some ⟨request, none⟩

variable {s s' : Provisioning} {client index left retries : Nat} {request : ProjectRequest}
variable {next : Answer → Script} {applied : Bool} {projectId : String} {reply : Answer}

lemma Answered.asked (h : s.Answered index request reply) : s.Asked index request := ⟨_, h⟩

lemma Open.asked (h : s.Open index request) : s.Asked index request := ⟨_, h⟩

lemma Asked.lt (h : s.Asked index request) : index < s.sent.length := by
  obtain ⟨_, h⟩ := h
  exact (List.getElem?_eq_some_iff.1 h).1

lemma Asked.unique {other : ProjectRequest} (h : s.Asked index request)
    (h' : s.Asked index other) : request = other := by
  obtain ⟨_, h⟩ := h
  obtain ⟨_, h'⟩ := h'
  rw [h] at h'
  cases h'
  rfl

lemma Open.not_answered {other : ProjectRequest} (h : s.Open index request) :
    ¬ s.Answered index other reply := by
  intro h'
  rw [Answered, show s.sent[index]? = _ from h] at h'
  cases h'

lemma getElem?_send {i : Nat} {x : Sent} :
    (s.send client left request next).sent[i]? = some x ↔
      s.sent[i]? = some x ∨ i = s.sent.length ∧ x = ⟨request, none⟩ := by
  show (s.sent ++ [⟨request, none⟩])[i]? = some x ↔ _
  rw [List.getElem?_append]
  split_ifs with hlt
  · exact (or_iff_left fun h => absurd h.1 hlt.ne).symm
  · have hnone : s.sent[i]? = none := List.getElem?_eq_none (not_lt.1 hlt)
    rw [hnone, List.getElem?_singleton]
    constructor
    · intro h
      split_ifs at h with hi
      cases h
      exact .inr ⟨by omega, rfl⟩
    · rintro (h | ⟨rfl, rfl⟩)
      · cases h
      · simp

lemma asked_send {i : Nat} {other : ProjectRequest} :
    (s.send client left request next).Asked i other ↔
      s.Asked i other ∨ i = s.sent.length ∧ other = request := by
  simp only [Asked, getElem?_send, Sent.mk.injEq, exists_or, exists_and_left]
  simp

lemma answered_send {i : Nat} {other : ProjectRequest} :
    (s.send client left request next).Answered i other reply ↔ s.Answered i other reply := by
  simp [Answered, getElem?_send]

lemma open_send {i : Nat} {other : ProjectRequest} :
    (s.send client left request next).Open i other ↔
      s.Open i other ∨ i = s.sent.length ∧ other = request := by
  simp [Open, getElem?_send]

lemma sent_served : (s.served index applied projectId request reply).sent =
    s.sent.set index ⟨request, some reply⟩ := rfl

lemma clients_served : (s.served index applied projectId request reply).clients = s.clients := by
  cases applied <;> cases request <;> rfl

lemma getElem?_served (h : s.Open index request) {i : Nat} {x : Sent} :
    (s.served index applied projectId request reply).sent[i]? = some x ↔
      i ≠ index ∧ s.sent[i]? = some x ∨ i = index ∧ x = ⟨request, some reply⟩ := by
  rw [sent_served, List.getElem?_set]
  split_ifs with hi hlt
  · subst hi
    simp [eq_comm]
  · exact absurd h.asked.lt (hi ▸ hlt)
  · simp [Ne.symm hi]

lemma asked_served (h : s.Open index request) {i : Nat} {other : ProjectRequest} :
    (s.served index applied projectId request reply).Asked i other ↔ s.Asked i other := by
  simp only [Asked, getElem?_served h]
  constructor
  · rintro ⟨answer, ⟨_, hother⟩ | ⟨rfl, hother⟩⟩
    · exact ⟨answer, hother⟩
    · cases hother
      exact ⟨none, h⟩
  · intro hother
    by_cases hi : i = index
    · subst hi
      rw [h.asked.unique hother]
      exact ⟨_, .inr ⟨rfl, rfl⟩⟩
    · obtain ⟨answer, hother⟩ := hother
      exact ⟨answer, .inl ⟨hi, hother⟩⟩

lemma answered_served (h : s.Open index request) {i : Nat} {other : ProjectRequest}
    {answer : Answer} :
    (s.served index applied projectId request reply).Answered i other answer ↔
      s.Answered i other answer ∨ i = index ∧ other = request ∧ answer = reply := by
  simp only [Answered, getElem?_served h, Sent.mk.injEq, Option.some.injEq]
  refine or_congr_left ⟨And.right, fun hother => ⟨?_, hother⟩⟩
  rintro rfl
  exact h.not_answered hother

lemma open_served (h : s.Open index request) {i : Nat} {other : ProjectRequest} :
    (s.served index applied projectId request reply).Open i other ↔
      i ≠ index ∧ s.Open i other := by
  simp [Open, getElem?_served h]

/-! ### What holds of every run -/

/-- A client waits for the answer to what it sent at a position, to go on with a command. -/
def Waits (s : Provisioning) (client index : Nat) (script : Script) : Prop :=
  ∃ left request next, s.clients client = .waiting index left request next ∧
    script = .ask request next

/-- A project that no client was shown and that none deletes. -/
structure Unseen (s : Provisioning) (projectId : String) : Prop where
  unlisted : projectId ∉ s.ux
  unshown : ∀ client projectIds, s.clients client = .shown projectIds → projectId ∉ projectIds
  undeleted : ∀ index, ¬ s.Asked index (.uxDelete projectId) ∧
    ¬ s.Asked index (.fleetDelete projectId)

/-- A project of the fleet that is about to be listed. -/
structure Coming (s : Provisioning) (projectId : String) : Prop extends s.Unseen projectId where
  kept : projectId ∈ s.fleet

/-- What holds of every state of a run. -/
structure Sound (s : Provisioning) : Prop where
  listed : ∀ p ∈ s.ux, p ∈ s.fleet
  given : ∀ p ∈ s.fleet, p ∈ s.allocated
  shown : ∀ client ids, s.clients client = .shown ids → ∀ p ∈ ids, p ∈ s.allocated
  named : ∀ i request p, s.Asked i request → request.projectId? = some p → p ∈ s.allocated
  waits : ∀ client i script, s.Waits client i script →
    script.Stage ∧ ∃ request, s.Asked i request ∧ script.request? = some request
  alone : ∀ client client' i script script', s.Waits client i script →
    s.Waits client' i script' → client = client'
  created : ∀ i request p, s.Answered i request (.created p) →
    (∃ name, request = .fleetCreate name) ∧ p ∈ s.allocated
  distinct : ∀ i j request request' p, s.Answered i request (.created p) →
    s.Answered j request' (.created p) → i = j
  unread : ∀ client i script request p, s.Waits client i script →
    s.Answered i request (.created p) → s.Coming p ∧ ∀ j name, ¬ s.Asked j (.uxCreate p name)
  pending : ∀ i p name, s.Open i (.uxCreate p name) → s.Coming p
  once : ∀ i j p name name', s.Asked i (.uxCreate p name) → s.Asked j (.uxCreate p name') → i = j
  ordered : ∀ i p, s.Asked i (.fleetDelete p) → p ∉ s.ux
  unlisted : ∀ i p, s.Answered i (.uxDelete p) .ok → p ∉ s.ux

/-- What serving a request does to the services. -/
structure Serves (s s' : Provisioning) (request : ProjectRequest) (reply : Answer) : Prop where
  ux : ∀ p ∈ s'.ux, p ∈ s.ux ∨ ∃ name, request = .uxCreate p name
  fleet : ∀ p ∈ s.fleet, p ∈ s'.fleet ∨ request = .fleetDelete p
  given : ∀ p ∈ s'.fleet, p ∈ s.fleet ∨ p ∈ s'.allocated
  allocated : ∀ p ∈ s.allocated, p ∈ s'.allocated
  unlists : ∀ p, request = .uxDelete p → reply = .ok → p ∉ s'.ux
  creates : ∀ p, reply = .created p →
    (∃ name, request = .fleetCreate name) ∧ p ∉ s.allocated ∧ p ∈ s'.fleet

lemma serves_served (hanswers : request.answers applied projectId reply = true)
    (hmay : request.mayGive s.allocated projectId = true) :
    Serves s (s.served index applied projectId request reply) request reply := by
  cases applied with
  | false =>
    refine ⟨fun _ => .inl, fun _ => .inl, fun _ => .inl, fun _ => id, ?_, ?_⟩
    · rintro p rfl rfl
      cases hanswers
    · rintro p rfl
      simp [ProjectRequest.answers] at hanswers
  | true =>
    cases request with
    | fleetCreate name =>
      refine ⟨fun _ => .inl, fun _ h => .inl (List.mem_cons_of_mem _ h), ?_,
        fun _ => List.mem_cons_of_mem _, by rintro _ ⟨⟩, ?_⟩
      · intro p h
        rcases List.mem_cons.1 h with rfl | h
        · exact .inr List.mem_cons_self
        · exact .inl h
      · rintro p rfl
        simp only [ProjectRequest.answers, Bool.true_and, Bool.and_true, decide_eq_true_eq]
          at hanswers
        subst hanswers
        exact ⟨⟨name, rfl⟩, of_decide_eq_true hmay, List.mem_cons_self⟩
    | uxCreate p name =>
      refine ⟨?_, fun _ => .inl, fun _ => .inl, fun _ => id, by rintro _ ⟨⟩, ?_⟩
      · intro q h
        rcases List.mem_cons.1 h with rfl | h
        · exact .inr ⟨name, rfl⟩
        · exact .inl h
      · rintro q rfl
        simp [ProjectRequest.answers] at hanswers
    | uxDelete p =>
      refine ⟨fun q h => .inl (List.mem_of_mem_filter h), fun _ => .inl, fun _ => .inl,
        fun _ => id, ?_, ?_⟩
      · rintro q ⟨⟩ - h
        simpa using List.of_mem_filter h
      · rintro q rfl
        simp [ProjectRequest.answers] at hanswers
    | fleetDelete p =>
      refine ⟨fun _ => .inl, ?_, fun q h => .inl (List.mem_of_mem_filter h), fun _ => id,
        by rintro _ ⟨⟩, ?_⟩
      · intro q h
        by_cases hq : q = p
        · exact .inr (hq ▸ rfl)
        · exact .inl (List.mem_filter.2 ⟨h, decide_eq_true hq⟩)
      · rintro q rfl
        simp [ProjectRequest.answers] at hanswers

/-- Serving a request keeps what holds. -/
lemma Sound.served (h : s.Sound) (hopen : s.Open index request)
    (hserves : Serves s (s.served index applied projectId request reply) request reply) :
    (s.served index applied projectId request reply).Sound := by
  have hasked := fun i other => @asked_served s index request applied projectId reply hopen i other
  have hanswered := fun i other answer =>
    @answered_served s index request applied projectId reply hopen i other answer
  have hwaits : ∀ client i script,
      (s.served index applied projectId request reply).Waits client i script ↔
        s.Waits client i script := by
    intro client i script
    simp only [Waits, clients_served]
  -- a project that is about to be listed stays so, unless it is listed now
  have hcoming : ∀ p, s.Coming p → (∀ name, request ≠ .uxCreate p name) →
      (s.served index applied projectId request reply).Coming p := by
    intro p hp hother
    refine ⟨⟨fun hmem => ?_, ?_, ?_⟩, ?_⟩
    · rcases hserves.ux p hmem with hmem | ⟨name, hname⟩
      · exact hp.unlisted hmem
      · exact hother name hname
    · rw [clients_served]
      exact hp.unshown
    · intro i
      rw [hasked, hasked]
      exact hp.undeleted i
    · refine (hserves.fleet p hp.kept).resolve_right fun hdelete => ?_
      exact (hp.undeleted index).2 (hdelete ▸ hopen.asked)
  -- what is listed was listed, or has been coming until now
  have hlists : ∀ p, p ∈ (s.served index applied projectId request reply).ux →
      p ∈ s.ux ∨ s.Coming p := by
    intro p hmem
    refine (hserves.ux p hmem).imp_right fun ⟨name, hname⟩ => h.pending index p name ?_
    rw [← hname]
    exact hopen
  constructor
  case listed =>
    intro p hmem
    rcases hlists p hmem with hmem | hcomes
    · refine (hserves.fleet p (h.listed p hmem)).resolve_right fun hdelete => ?_
      exact h.ordered index p (hdelete ▸ hopen.asked) hmem
    · refine (hserves.fleet p hcomes.kept).resolve_right fun hdelete => ?_
      exact (hcomes.undeleted index).2 (hdelete ▸ hopen.asked)
  case given =>
    intro p hmem
    rcases hserves.given p hmem with hmem | hmem
    · exact hserves.allocated p (h.given p hmem)
    · exact hmem
  case shown =>
    intro client ids hshown p hp
    rw [clients_served] at hshown
    exact hserves.allocated p (h.shown client ids hshown p hp)
  case named =>
    intro i other p hother hp
    exact hserves.allocated p (h.named i other p ((hasked i other).1 hother) hp)
  case waits =>
    intro client i script hwait
    simp only [hasked]
    exact h.waits client i script ((hwaits _ _ _).1 hwait)
  case alone =>
    intro client client' i script script' hwait hwait'
    exact h.alone client client' i script script' ((hwaits _ _ _).1 hwait) ((hwaits _ _ _).1 hwait')
  case created =>
    intro i other p hother
    rcases (hanswered i other _).1 hother with hother | ⟨rfl, rfl, hreply⟩
    · exact (h.created i other p hother).imp_right (hserves.allocated p)
    · obtain ⟨hname, -, hmem⟩ := hserves.creates p hreply.symm
      refine ⟨hname, ?_⟩
      rcases hserves.given p hmem with hmem | hmem
      · exact hserves.allocated p (h.given p hmem)
      · exact hmem
  case distinct =>
    intro i j other other' p hi hj
    rcases (hanswered i other _).1 hi with hold | ⟨hi, -, hreply⟩ <;>
      rcases (hanswered j other' _).1 hj with hold' | ⟨hj, -, hreply'⟩
    · exact h.distinct i j other other' p hold hold'
    · exact absurd (h.created i other p hold).2 (hserves.creates p hreply'.symm).2.1
    · exact absurd (h.created j other' p hold').2 (hserves.creates p hreply.symm).2.1
    · -- both are the answer that is given now
      exact hi.trans hj.symm
  case unread =>
    intro client i script other p hwait hother
    simp only [hasked]
    rcases (hanswered i other _).1 hother with hother | ⟨rfl, rfl, hreply⟩
    · obtain ⟨hcomes, hnone⟩ := h.unread client i script other p ((hwaits _ _ _).1 hwait) hother
      refine ⟨hcoming p hcomes fun name hname => ?_, hnone⟩
      exact hnone index name (hname ▸ hopen.asked)
    · -- the project is new, so no request names it yet
      obtain ⟨⟨name, hname⟩, hnew, hmem⟩ := hserves.creates p hreply.symm
      subst hname
      have hunnamed : ∀ j other, s.Asked j other → other.projectId? ≠ some p := fun j other hj hp =>
        hnew (h.named j other p hj hp)
      refine ⟨⟨⟨fun hlisted => ?_, ?_, ?_⟩, hmem⟩, fun j name hj => hunnamed j _ hj rfl⟩
      · rcases hlists p hlisted with hlisted | hcomes
        · exact hnew (h.given p (h.listed p hlisted))
        · exact hnew (h.given p hcomes.kept)
      · intro client ids hshown hp
        rw [clients_served] at hshown
        exact hnew (h.shown client ids hshown p hp)
      · intro j
        rw [hasked, hasked]
        exact ⟨fun hj => hunnamed j _ hj rfl, fun hj => hunnamed j _ hj rfl⟩
  case pending =>
    intro i p name hi
    obtain ⟨hne, hwaiting⟩ := (open_served hopen).1 hi
    -- no second request lists the project, so the one that is served is another's
    refine hcoming p (h.pending i p name hwaiting) fun name' hname => hne ?_
    exact h.once i index p name name' hwaiting.asked (hname ▸ hopen.asked)
  case once =>
    intro i j p name name' hi hj
    exact h.once i j p name name' ((hasked _ _).1 hi) ((hasked _ _).1 hj)
  case ordered =>
    intro i p hi hmem
    rcases hlists p hmem with hmem | hcomes
    · exact h.ordered i p ((hasked _ _).1 hi) hmem
    · exact (hcomes.undeleted i).2 ((hasked _ _).1 hi)
  case unlisted =>
    intro i p hi hmem
    rcases (hanswered i _ _).1 hi with hi | ⟨-, hrequest, hreply⟩
    · rcases hlists p hmem with hmem | hcomes
      · exact h.unlisted i p hi hmem
      · exact (hcomes.undeleted i).1 hi.asked
    · exact hserves.unlists p hrequest.symm hreply.symm hmem

lemma Sound.report (h : s.Sound) (reports : List PartialStateDetails) :
    Sound { s with reports := reports } :=
  ⟨h.listed, h.given, h.shown, h.named, h.waits, h.alone, h.created, h.distinct,
    fun client i script request p hwait hanswered =>
      let ⟨hcomes, hnone⟩ := h.unread client i script request p hwait hanswered
      ⟨⟨⟨hcomes.unlisted, hcomes.unshown, hcomes.undeleted⟩, hcomes.kept⟩, hnone⟩,
    fun i p name hopen =>
      let hcomes := h.pending i p name hopen
      ⟨⟨hcomes.unlisted, hcomes.unshown, hcomes.undeleted⟩, hcomes.kept⟩,
    h.once, h.ordered, h.unlisted⟩

@[simp] lemma clients_turn {state : Client} :
    (s.turn client state).clients client = state := Function.update_self ..

lemma clients_turn_of_ne {state : Client} {other : Nat} (h : other ≠ client) :
    (s.turn client state).clients other = s.clients other := Function.update_of_ne h ..

@[simp] lemma clients_send :
    (s.send client left request next).clients client =
      .waiting s.sent.length left request next := Function.update_self ..

lemma clients_send_of_ne {other : Nat} (h : other ≠ client) :
    (s.send client left request next).clients other = s.clients other := Function.update_of_ne h ..

lemma waits_turn {state : Client} (hstate : state = .idle ∨ state = .shown s.ux) {other i : Nat}
    {script : Script} (hwait : (s.turn client state).Waits other i script) :
    s.Waits other i script := by
  obtain ⟨left, request, next, hwaiting, hscript⟩ := hwait
  by_cases hother : other = client
  · subst hother
    rw [clients_turn] at hwaiting
    rcases hstate with rfl | rfl <;> cases hwaiting
  · exact ⟨left, request, next, clients_turn_of_ne hother ▸ hwaiting, hscript⟩

/-- A client that stops, or is shown the projects, keeps what holds. -/
lemma Sound.turn {state : Client} (h : s.Sound) (hstate : state = .idle ∨ state = .shown s.ux) :
    (s.turn client state).Sound := by
  have hshown : ∀ other ids, (s.turn client state).clients other = .shown ids →
      s.clients other = .shown ids ∨ ids = s.ux := by
    intro other ids hother
    by_cases hclient : other = client
    · subst hclient
      rw [clients_turn] at hother
      rcases hstate with rfl | rfl <;> cases hother
      exact .inr rfl
    · exact .inl (clients_turn_of_ne hclient ▸ hother)
  have hcoming : ∀ p, s.Coming p → (s.turn client state).Coming p := by
    intro p hp
    refine ⟨⟨hp.unlisted, fun other ids hother => ?_, hp.undeleted⟩, hp.kept⟩
    rcases hshown other ids hother with hother | rfl
    · exact hp.unshown other ids hother
    · exact hp.unlisted
  constructor
  case listed => exact h.listed
  case given => exact h.given
  case shown =>
    intro other ids hother p hp
    rcases hshown other ids hother with hother | rfl
    · exact h.shown other ids hother p hp
    · exact h.given p (h.listed p hp)
  case named => exact h.named
  case waits => exact fun other i script hwait => h.waits other i script (waits_turn hstate hwait)
  case alone =>
    exact fun other other' i script script' hwait hwait' =>
      h.alone other other' i script script' (waits_turn hstate hwait) (waits_turn hstate hwait')
  case created => exact h.created
  case distinct => exact h.distinct
  case unread =>
    intro other i script request p hwait hanswered
    exact (h.unread other i script request p (waits_turn hstate hwait) hanswered).imp_left
      (hcoming p)
  case pending => exact fun i p name hopen => hcoming p (h.pending i p name hopen)
  case once => exact h.once
  case ordered => exact h.ordered
  case unlisted => exact h.unlisted

/-- What has to hold for a client to send a request. -/
def Sendable (s : Provisioning) (client : Nat) : ProjectRequest → Prop
  | .fleetCreate _ => True
  | .uxCreate p _ => s.Coming p ∧ (∀ i name, ¬ s.Asked i (.uxCreate p name)) ∧
      ∀ other i script request, other ≠ client → s.Waits other i script →
        ¬ s.Answered i request (.created p)
  | .uxDelete p => p ∈ s.allocated ∧ ¬ s.Unseen p
  | .fleetDelete p => p ∈ s.allocated ∧ ¬ s.Unseen p ∧ p ∉ s.ux

/-- A client that sends a request keeps what holds. -/
lemma Sound.send (h : s.Sound) (hstage : (Script.ask request next).Stage)
    (hsend : s.Sendable client request) : (s.send client left request next).Sound := by
  have hasked := fun i other => @asked_send s client left request next i other
  -- the client waits at the new position, every other one where it did
  have hwaits : ∀ other i script, (s.send client left request next).Waits other i script →
      other = client ∧ i = s.sent.length ∧ script = .ask request next ∨
        other ≠ client ∧ s.Waits other i script := by
    rintro other i script ⟨left', request', next', hwaiting, rfl⟩
    by_cases hother : other = client
    · subst hother
      rw [clients_send] at hwaiting
      cases hwaiting
      exact .inl ⟨rfl, rfl, rfl⟩
    · rw [clients_send_of_ne hother] at hwaiting
      exact .inr ⟨hother, left', request', next', hwaiting, rfl⟩
  have hshown : ∀ other ids, (s.send client left request next).clients other = .shown ids →
      s.clients other = .shown ids := by
    intro other ids hother
    by_cases hsame : other = client
    · subst hsame
      rw [clients_send] at hother
      cases hother
    · rwa [clients_send_of_ne hsame] at hother
  -- a request to delete names a project that was seen, which is not one that is coming
  have hcoming : ∀ p, s.Coming p → (s.send client left request next).Coming p := by
    intro p hp
    refine ⟨⟨hp.unlisted, fun other ids hother => hp.unshown other ids (hshown other ids hother),
      fun i => ?_⟩, hp.kept⟩
    rw [hasked, hasked]
    constructor
    · rintro (hold | ⟨-, rfl⟩)
      · exact (hp.undeleted i).1 hold
      · exact hsend.2 hp.toUnseen
    · rintro (hold | ⟨-, rfl⟩)
      · exact (hp.undeleted i).2 hold
      · exact hsend.2.1 hp.toUnseen
  constructor
  case listed => exact h.listed
  case given => exact h.given
  case shown => exact fun other ids hother => h.shown other ids (hshown other ids hother)
  case named =>
    intro i other p hother hp
    rcases (hasked i other).1 hother with hother | ⟨-, rfl⟩
    · exact h.named i other p hother hp
    · cases other with
      | fleetCreate name => cases hp
      | uxCreate q name =>
        cases hp
        exact h.given p hsend.1.kept
      | uxDelete q =>
        cases hp
        exact hsend.1
      | fleetDelete q =>
        cases hp
        exact hsend.1
  case waits =>
    intro other i script hwait
    rcases hwaits other i script hwait with ⟨rfl, rfl, rfl⟩ | ⟨-, hwait⟩
    · exact ⟨hstage, request, (hasked _ _).2 (.inr ⟨rfl, rfl⟩), rfl⟩
    · obtain ⟨hscript, request', hother, hrequest⟩ := h.waits other i script hwait
      exact ⟨hscript, request', (hasked _ _).2 (.inl hother), hrequest⟩
  case alone =>
    -- nobody waited at a position that was not there
    have hnew : ∀ other script, ¬ s.Waits other s.sent.length script := by
      intro other script hwait
      obtain ⟨-, _, hold, -⟩ := h.waits other _ script hwait
      exact hold.lt.ne rfl
    intro other other' i script script' hwait hwait'
    rcases hwaits other i script hwait with ⟨hother, hi, -⟩ | ⟨-, hold⟩ <;>
      rcases hwaits other' i script' hwait' with ⟨hother', hi', -⟩ | ⟨-, hold'⟩
    · exact hother.trans hother'.symm
    · exact absurd (hi ▸ hold') (hnew other' script')
    · exact absurd (hi' ▸ hold) (hnew other script)
    · exact h.alone other other' i script script' hold hold'
  case created => exact fun i other p hother => h.created i other p (answered_send.1 hother)
  case distinct =>
    exact fun i j other other' p hi hj =>
      h.distinct i j other other' p (answered_send.1 hi) (answered_send.1 hj)
  case unread =>
    intro other i script request' p hwait hanswered
    rw [answered_send] at hanswered
    rcases hwaits other i script hwait with ⟨-, rfl, -⟩ | ⟨hother, hold⟩
    · exact absurd hanswered.asked.lt (lt_irrefl _)
    · obtain ⟨hcomes, hnone⟩ := h.unread other i script request' p hold hanswered
      refine ⟨hcoming p hcomes, fun j name hj => ?_⟩
      rcases (hasked j _).1 hj with hj | ⟨-, rfl⟩
      · exact hnone j name hj
      · -- another client waits to list the same project, which the answers keep apart
        exact hsend.2.2 other i script request' hother hold hanswered
  case pending =>
    intro i p name hi
    rcases open_send.1 hi with hi | ⟨-, rfl⟩
    · exact hcoming p (h.pending i p name hi)
    · exact hcoming p hsend.1
  case once =>
    intro i j p name name' hi hj
    rcases (hasked i _).1 hi with hold | ⟨hi, hname⟩ <;>
      rcases (hasked j _).1 hj with hold' | ⟨hj, hname'⟩
    · exact h.once i j p name name' hold hold'
    · subst hname'
      exact absurd hold (hsend.2.1 i name)
    · subst hname
      exact absurd hold' (hsend.2.1 j name')
    · exact hi.trans hj.symm
  case ordered =>
    intro i p hi
    rcases (hasked i _).1 hi with hi | ⟨-, rfl⟩
    · exact h.ordered i p hi
    · exact hsend.2.2
  case unlisted => exact fun i p hi => h.unlisted i p (answered_send.1 hi)

/-- A command that gets an answer ends, or goes on with its second step. -/
lemma next_cases (hstage : (Script.ask request next).Stage) (reply : Answer) :
    (∃ ending, next reply = .done ending) ∨
    (∃ name p, request = .fleetCreate name ∧ reply = .created p ∧
      next reply = createUxProject p name) ∨
    ∃ p, request = .uxDelete p ∧ (∀ e, reply ≠ .error e) ∧ next reply = deleteFleetProject p := by
  generalize hscript : Script.ask request next = script at hstage
  cases hstage with
  | createProject name =>
    cases hscript
    cases reply with
    | created p => exact .inr (.inl ⟨name, p, rfl, rfl, rfl⟩)
    | _ => exact .inl ⟨_, rfl⟩
  | createUxProject p name =>
    cases hscript
    cases reply <;> exact .inl ⟨_, rfl⟩
  | deleteProject p =>
    cases hscript
    cases reply with
    | error e => exact .inl ⟨_, rfl⟩
    | _ => exact .inr (.inr ⟨p, rfl, by rintro _ ⟨⟩, rfl⟩)
  | deleteFleetProject p =>
    cases hscript
    cases reply <;> exact .inl ⟨_, rfl⟩

/-- What a client may go on with: nothing, or a command whose next request may be sent. -/
def Resumable (s : Provisioning) (client : Nat) : Script → Prop
  | .done _ => True
  | .ask request next => (Script.ask request next).Stage ∧ s.Sendable client request

lemma Sound.resume {script : Script} (h : s.Sound) (hresume : s.Resumable client script) :
    (s.resume retries client script).Sound := by
  cases script with
  | done ending =>
    cases ending with
    | partialState error details => exact (h.turn (.inl rfl)).report _
    | _ => exact h.turn (.inl rfl)
  | ask request next => exact h.send hresume.1 hresume.2

/-- A client that gets an answer may go on. -/
lemma Sound.resumable {script : Script} (h : s.Sound) (hwait : s.Waits client index script)
    (hscript : script = .ask request next) (hanswered : ∃ other, s.Answered index other reply) :
    s.Resumable client (next reply) := by
  subst hscript
  obtain ⟨hstage, other, hasked, hrequest⟩ := h.waits client index _ hwait
  cases hrequest
  obtain ⟨other, hanswered⟩ := hanswered
  have hsame : request = other := hasked.unique hanswered.asked
  subst hsame
  rcases next_cases hstage reply with ⟨ending, hend⟩ | ⟨name, p, rfl, rfl, hnext⟩ |
    ⟨p, rfl, hsuccess, hnext⟩
  · rw [hend]
    exact True.intro
  · obtain ⟨hcomes, hnone⟩ := h.unread client index _ _ p hwait hanswered
    rw [hnext]
    refine ⟨.createUxProject p name, hcomes, hnone, ?_⟩
    intro other i script request hother hwait' hanswered'
    have hi := h.distinct i index request _ p hanswered' hanswered
    exact hother (h.alone other client index script _ (hi ▸ hwait') hwait)
  · rw [hnext]
    have hunseen : ¬ s.Unseen p := fun hunseen => (hunseen.undeleted index).1 hasked
    refine ⟨.deleteFleetProject p, h.named index _ p hasked rfl, hunseen, ?_⟩
    cases reply with
    | created q =>
      obtain ⟨⟨name, hname⟩, -⟩ := h.created index _ q hanswered
      cases hname
    | ok => exact h.unlisted index p hanswered
    | error e => exact absurd rfl (hsuccess e)

/-- A client that gives up waiting may go on. -/
lemma resumable_error (hstage : (Script.ask request next).Stage) (error : ApiError) :
    s.Resumable client (next (.error error)) := by
  rcases next_cases hstage (.error error) with ⟨ending, hend⟩ | ⟨_, _, _, hreply, _⟩ |
    ⟨_, _, hsuccess, _⟩
  · rw [hend]
    exact True.intro
  · cases hreply
  · exact absurd rfl (hsuccess error)

/-- Every step keeps what holds. -/
lemma Sound.step {l : Label} (h : s.Sound) (hstep : s.step retries l = some s') : s'.Sound := by
  cases l with
  | list client =>
    simp only [Provisioning.step] at hstep
    split at hstep <;> cases hstep
    exact h.turn (.inr rfl)
  | create client name =>
    simp only [Provisioning.step] at hstep
    split at hstep <;> cases hstep
    exact h.resume ⟨.createProject name, True.intro⟩
  | delete client p =>
    simp only [Provisioning.step] at hstep
    split at hstep
    · split_ifs at hstep with hmem
      cases hstep
      rename_i ids hshown
      refine h.resume ⟨.deleteProject p, h.shown client ids hshown p hmem, fun hunseen => ?_⟩
      exact hunseen.unshown client ids hshown hmem
    · cases hstep
  | serve index applied projectId reply =>
    simp only [Provisioning.step] at hstep
    split at hstep
    · split_ifs at hstep with hserves
      cases hstep
      rename_i request hopen
      exact h.served hopen (serves_served hserves.1 hserves.2)
    · cases hstep
  | receive client =>
    simp only [Provisioning.step] at hstep
    split at hstep
    · rename_i index left request next hwaiting
      split at hstep <;> cases hstep
      rename_i other reply hanswered
      exact h.resume (h.resumable ⟨left, request, next, hwaiting, rfl⟩ rfl ⟨other, hanswered⟩)
    · cases hstep
  | retry client =>
    simp only [Provisioning.step] at hstep
    split at hstep
    · rename_i index left request next hwaiting
      split_ifs at hstep with hretry
      cases hstep
      obtain ⟨hstage, other, hasked, hrequest⟩ :=
        h.waits client index _ ⟨left + 1, request, next, hwaiting, rfl⟩
      cases hrequest
      refine h.send hstage ?_
      cases request with
      | fleetCreate name => cases hretry
      | uxCreate p name => cases hretry
      | uxDelete p =>
        exact ⟨h.named index _ p hasked rfl, fun hunseen => (hunseen.undeleted index).1 hasked⟩
      | fleetDelete p =>
        exact ⟨h.named index _ p hasked rfl, fun hunseen => (hunseen.undeleted index).2 hasked,
          h.ordered index p hasked⟩
    · cases hstep
  | giveUp client error =>
    simp only [Provisioning.step] at hstep
    split at hstep
    · rename_i index left request next hwaiting
      split_ifs at hstep
      cases hstep
      exact h.resume (resumable_error (h.waits client index _
        ⟨left, request, next, hwaiting, rfl⟩).1 error)
    · cases hstep
  | stop client =>
    simp only [Provisioning.step] at hstep
    split at hstep <;> cases hstep
    exact h.turn (.inl rfl)

lemma Initial.sound (h : s.Initial) : s.Sound := by
  have hunasked : ∀ i request, ¬ s.Asked i request := by
    rintro i request ⟨answer, hsent⟩
    rw [h.unsent] at hsent
    cases hsent
  have hidle : ∀ client i script, ¬ s.Waits client i script := by
    rintro client i script ⟨left, request, next, hwaiting, -⟩
    rw [h.idle] at hwaiting
    cases hwaiting
  refine ⟨fun p => (h.listed p).1, h.given, ?_, ?_, ?_, ?_, ?_, ?_, ?_, ?_, ?_, ?_, ?_⟩
  · intro client ids hshown
    rw [h.idle] at hshown
    cases hshown
  · exact fun i request p hasked => absurd hasked (hunasked i request)
  · exact fun client i script hwait => absurd hwait (hidle client i script)
  · exact fun client _ i script _ hwait => absurd hwait (hidle client i script)
  · exact fun i request p hanswered => absurd hanswered.asked (hunasked i request)
  · exact fun i _ request _ p hanswered => absurd hanswered.asked (hunasked i request)
  · exact fun client i script _ _ hwait => absurd hwait (hidle client i script)
  · exact fun i p name hopen => absurd hopen.asked (hunasked i _)
  · exact fun i _ p name _ hasked => absurd hasked (hunasked i _)
  · exact fun i p hasked => absurd hasked (hunasked i _)
  · exact fun i p hanswered => absurd hanswered.asked (hunasked i _)

/-- What holds of every run holds of every state it comes to. -/
lemma sound_of_reachable {ok : Provisioning → Label → Prop}
    (h : Reachable Initial (step retries) ok s) : s.Sound :=
  h.invariant (fun _ => Initial.sound) fun _ _ _ hs _ => hs.step

/-- The order in which projects are created and deleted. -/
structure Ordered (s : Provisioning) : Prop where
  listed : ∀ p ∈ s.ux, p ∈ s.fleet
  once : ∀ i j p name name', s.Asked i (.uxCreate p name) → s.Asked j (.uxCreate p name') → i = j
  ordered : ∀ i p, s.Asked i (.fleetDelete p) → p ∉ s.ux

/-- **Listed projects are in the fleet**: whatever clients there are, whatever is delayed, lost,
refused or retried, every listed project is one of the fleet, the request to list a project is sent
at most once, and a project whose deletion the fleet was asked for is not listed any more. -/
theorem ordered_of_reachable
    (h : Reachable Initial (step retries) (fun _ _ => True) s) : s.Ordered :=
  ⟨(sound_of_reachable h).listed, (sound_of_reachable h).once, (sound_of_reachable h).ordered⟩

/-! ### Projects that are left behind -/

/-- A client is between the two steps of a command about a project: the first step is done, and
the answer to the second is not that it is done, too. -/
inductive Amid (s : Provisioning) (client : Nat) (projectId : String) : Prop
  | created {i : Nat} {name : String} (hwait : s.Waits client i (createProject name))
    (hanswered : s.Answered i (.fleetCreate name) (.created projectId)) : Amid s client projectId
  | listing {i : Nat} {name : String} (hwait : s.Waits client i (createUxProject projectId name))
    (hopen : ¬ s.Answered i (.uxCreate projectId name) .ok) : Amid s client projectId
  | unlisted {i : Nat} (hwait : s.Waits client i (deleteProject projectId))
    (hanswered : s.Answered i (.uxDelete projectId) .ok) : Amid s client projectId
  | deleting {i : Nat} (hwait : s.Waits client i (deleteFleetProject projectId))
    (hopen : ¬ s.Answered i (.fleetDelete projectId) .ok) : Amid s client projectId

/-- A partial state that was reported names a project. -/
def Reported (s : Provisioning) (projectId : String) : Prop :=
  ∃ details ∈ s.reports, details.projectId = some projectId

/-- Every project of the fleet that is not listed is one a client is about to list or to delete, or
one that was reported. -/
def Explained (s : Provisioning) : Prop :=
  ∀ p ∈ s.fleet, p ∉ s.ux → (∃ client, s.Amid client p) ∨ s.Reported p

/-- A request was answered as done. -/
def Done (s : Provisioning) (index : Nat) (request : ProjectRequest) : Prop :=
  ∃ reply, s.Answered index request reply ∧ request.acknowledges reply = true

/-- A first step that is applied is answered as done to a client that waits for it, which then takes
the answer: it neither sends the request again nor gives up on it. No client stops without a word
after its first step was done. -/
def Clear (s : Provisioning) : Label → Prop
  | .serve index applied _ reply => ∀ request, s.Open index request → request.first = true →
    applied = true → request.acknowledges reply = true ∧
      ∃ client script, s.Waits client index script
  | .retry client | .giveUp client _ => ∀ i script request, s.Waits client i script →
    s.Asked i request → request.first = true → ¬ s.Done i request
  | .stop client => ∀ i script request, s.Waits client i script → s.Asked i request →
    request.first = true ∧ ¬ s.Done i request
  | _ => True

lemma eq_createProject {script : Script} {name : String} (hstage : script.Stage)
    (h : script.request? = some (.fleetCreate name)) : script = createProject name := by
  cases hstage <;> cases h
  rfl

lemma eq_deleteProject {script : Script} {p : String} (hstage : script.Stage)
    (h : script.request? = some (.uxDelete p)) : script = deleteProject p := by
  cases hstage <;> cases h
  rfl

/-- A client is in one place of one command. -/
lemma Waits.unique {i j : Nat} {script script' : Script} (h : s.Waits client i script)
    (h' : s.Waits client j script') : i = j ∧ script = script' := by
  obtain ⟨_, _, _, hwaiting, rfl⟩ := h
  obtain ⟨_, _, _, hwaiting', rfl⟩ := h'
  rw [hwaiting] at hwaiting'
  cases hwaiting'
  exact ⟨rfl, rfl⟩

/-- Nothing changes for a client that waits as before for a request that was not served since. -/
lemma Amid.mono {p : String} (h : s.Amid client p)
    (hwaits : ∀ i script, s.Waits client i script → s'.Waits client i script)
    (hanswered : ∀ i script request answer, s.Waits client i script →
      (s'.Answered i request answer ↔ s.Answered i request answer)) : s'.Amid client p := by
  cases h with
  | created hwait h => exact .created (hwaits _ _ hwait) ((hanswered _ _ _ _ hwait).2 h)
  | listing hwait h =>
    exact .listing (hwaits _ _ hwait) fun h' => h ((hanswered _ _ _ _ hwait).1 h')
  | unlisted hwait h => exact .unlisted (hwaits _ _ hwait) ((hanswered _ _ _ _ hwait).2 h)
  | deleting hwait h =>
    exact .deleting (hwaits _ _ hwait) fun h' => h ((hanswered _ _ _ _ hwait).1 h')

lemma waits_send {i : Nat} {script : Script} :
    (s.send client left request next).Waits client i script ↔
      i = s.sent.length ∧ script = .ask request next := by
  simp only [Waits, clients_send]
  constructor
  · rintro ⟨_, _, _, ⟨⟩, rfl⟩
    exact ⟨rfl, rfl⟩
  · rintro ⟨rfl, rfl⟩
    exact ⟨left, request, next, rfl, rfl⟩

lemma answered_resume {i : Nat} {script : Script} {other : ProjectRequest} :
    (s.resume retries client script).Answered i other reply ↔ s.Answered i other reply := by
  rcases script with (_ | _ | _) | _
  · exact Iff.rfl
  · exact Iff.rfl
  · exact Iff.rfl
  · exact answered_send

lemma waits_resume_of_ne {other i : Nat} {script script' : Script} (h : other ≠ client) :
    (s.resume retries client script).Waits other i script' ↔ s.Waits other i script' := by
  have hclients : (s.resume retries client script).clients other = s.clients other := by
    rcases script with (_ | _ | _) | _
    · exact clients_turn_of_ne h
    · exact clients_turn_of_ne h
    · exact clients_turn_of_ne h
    · exact clients_send_of_ne h
  simp only [Waits, hclients]

lemma services_resume {script : Script} : (s.resume retries client script).fleet = s.fleet ∧
    (s.resume retries client script).ux = s.ux := by
  rcases script with (_ | _ | _) | _ <;> exact ⟨rfl, rfl⟩

lemma reported_resume {script : Script} {p : String} (h : s.Reported p) :
    (s.resume retries client script).Reported p := by
  obtain ⟨details, hmem, hp⟩ := h
  rcases script with (_ | _ | _) | _
  · exact ⟨details, hmem, hp⟩
  · exact ⟨details, hmem, hp⟩
  · exact ⟨details, List.mem_append_left _ hmem, hp⟩
  · exact ⟨details, hmem, hp⟩

/-- What a client learns when it goes on: the answer to what it waits for, or an error, unless it
waits for a first step that was done. -/
def Learns (s : Provisioning) (index : Nat) (request : ProjectRequest) (reply : Answer) : Prop :=
  s.Answered index request reply ∨
    (request.first = true → ¬ s.Done index request) ∧ ∃ e, reply = .error e

/-- A client that learns of an error of a second step reports it. -/
lemma reported_partialState {details : PartialStateDetails} {p : String}
    (h : details.projectId = some p) :
    (s.resume retries client (Script.partialState details)).Reported p :=
  ⟨details, List.mem_append_right _ List.mem_cons_self, h⟩

/-- A client that goes on from between two steps still is there, or has reported it. -/
lemma Sound.amid_resume {p : String} (h : s.Sound) (hamid : s.Amid client p)
    (hwait : s.Waits client index (.ask request next)) (hlearns : s.Learns index request reply) :
    (s.resume retries client (next reply)).Amid client p ∨
      (s.resume retries client (next reply)).Reported p := by
  have hlast : ∀ {request : ProjectRequest} {next : Answer → Script},
      ¬ (s.send client retries request next).Answered s.sent.length request .ok :=
    fun hok => absurd (answered_send.1 hok).asked.lt (lt_irrefl _)
  have hcreated : ∀ q, s.Answered index request (.created q) →
      ∃ name, request = .fleetCreate name := fun q hq => (h.created index request q hq).1
  cases hamid with
  | created hamid hanswered =>
    obtain ⟨rfl, hscript⟩ := hamid.unique hwait
    cases hscript
    rcases hlearns with hlearns | ⟨hundone, -⟩
    swap
    · exact absurd ⟨_, hanswered, rfl⟩ (hundone rfl)
    rw [Answered, show s.sent[_]? = _ from hanswered] at hlearns
    cases hlearns
    exact .inl (.listing (waits_send.2 ⟨rfl, rfl⟩) hlast)
  | listing hamid hopen =>
    obtain ⟨rfl, hscript⟩ := hamid.unique hwait
    cases hscript
    cases reply with
    | created q =>
      rcases hlearns with hlearns | ⟨-, e, ⟨⟩⟩
      obtain ⟨name, ⟨⟩⟩ := hcreated q hlearns
    | ok =>
      rcases hlearns with hlearns | ⟨-, e, ⟨⟩⟩
      exact absurd hlearns hopen
    | error e => exact .inr (reported_partialState rfl)
  | unlisted hamid hanswered =>
    obtain ⟨rfl, hscript⟩ := hamid.unique hwait
    cases hscript
    rcases hlearns with hlearns | ⟨hundone, -⟩
    swap
    · exact absurd ⟨_, hanswered, rfl⟩ (hundone rfl)
    rw [Answered, show s.sent[_]? = _ from hanswered] at hlearns
    cases hlearns
    exact .inl (.deleting (waits_send.2 ⟨rfl, rfl⟩) hlast)
  | deleting hamid hopen =>
    obtain ⟨rfl, hscript⟩ := hamid.unique hwait
    cases hscript
    cases reply with
    | created q =>
      rcases hlearns with hlearns | ⟨-, e, ⟨⟩⟩
      obtain ⟨name, ⟨⟩⟩ := hcreated q hlearns
    | ok =>
      rcases hlearns with hlearns | ⟨-, e, ⟨⟩⟩
      exact absurd hlearns hopen
    | error e => exact .inr (reported_partialState rfl)

/-- A client that goes on keeps every project explained. -/
lemma Explained.resume {script : Script} (h : s.Explained)
    (hself : ∀ p, s.Amid client p → (s.resume retries client script).Amid client p ∨
      (s.resume retries client script).Reported p) :
    (s.resume retries client script).Explained := by
  obtain ⟨hfleet, hux⟩ := @services_resume s client retries script
  intro p hmem hnot
  rw [hfleet] at hmem
  rw [hux] at hnot
  rcases h p hmem hnot with ⟨other, hamid⟩ | hreported
  · by_cases hother : other = client
    · subst hother
      exact (hself p hamid).imp_left fun hamid => ⟨other, hamid⟩
    · exact .inl ⟨other, hamid.mono (fun i script' => (waits_resume_of_ne hother).2)
        fun i _ request reply _ => answered_resume⟩
  · exact .inr (reported_resume hreported)

lemma waits_served {i : Nat} {script : Script} :
    (s.served index applied projectId request reply).Waits client i script ↔
      s.Waits client i script := by
  simp only [Waits, clients_served]

/-- A client stays between two steps until the second one is done. -/
lemma Amid.served {p : String} (h : s.Amid client p) (hopen : s.Open index request)
    (hother : reply = .ok → request ≠ .fleetDelete p ∧ ∀ name, request ≠ .uxCreate p name) :
    (s.served index applied projectId request reply).Amid client p := by
  cases h with
  | created hwait hanswered =>
    exact .created (waits_served.2 hwait) ((answered_served hopen).2 (.inl hanswered))
  | listing hwait hnot =>
    refine .listing (waits_served.2 hwait) fun hok => ?_
    rcases (answered_served hopen).1 hok with hok | ⟨-, hrequest, hreply⟩
    · exact hnot hok
    · exact (hother hreply.symm).2 _ hrequest.symm
  | unlisted hwait hanswered =>
    exact .unlisted (waits_served.2 hwait) ((answered_served hopen).2 (.inl hanswered))
  | deleting hwait hnot =>
    refine .deleting (waits_served.2 hwait) fun hok => ?_
    rcases (answered_served hopen).1 hok with hok | ⟨-, hrequest, hreply⟩
    · exact hnot hok
    · exact (hother hreply.symm).1 hrequest.symm

lemma reports_served :
    (s.served index applied projectId request reply).reports = s.reports := by
  cases applied <;> cases request <;> rfl

/-- Serving a request keeps every project explained, if a first step is answered as it was done. -/
lemma Explained.served (h : s.Explained) (hsound : s.Sound) (hopen : s.Open index request)
    (hanswers : request.answers applied projectId reply = true)
    (hclear : request.first = true → applied = true → request.acknowledges reply = true ∧
      ∃ client script, s.Waits client index script) :
    (s.served index applied projectId request reply).Explained := by
  -- what is explained already stays so, unless it is the second step that is done
  have hkept : ∀ p ∈ s.fleet, p ∉ s.ux →
      (reply = .ok → request ≠ .fleetDelete p ∧ ∀ name, request ≠ .uxCreate p name) →
      (∃ client, (s.served index applied projectId request reply).Amid client p) ∨
        (s.served index applied projectId request reply).Reported p := by
    intro p hmem hnot hother
    refine (h p hmem hnot).imp (fun ⟨client, hamid⟩ => ⟨client, hamid.served hopen hother⟩) ?_
    rintro ⟨details, hreport, hp⟩
    refine ⟨details, ?_, hp⟩
    rwa [reports_served]
  have hwaiting : request.first = true → applied = true → ∃ client script,
      s.Waits client index script ∧ script.Stage ∧ script.request? = some request := by
    intro hfirst happlied
    obtain ⟨-, client, script, hwait⟩ := hclear hfirst happlied
    obtain ⟨hstage, other, hasked, hrequest⟩ := hsound.waits client index script hwait
    exact ⟨client, script, hwait, hstage, hopen.asked.unique hasked ▸ hrequest⟩
  intro p hmem hnot
  cases applied with
  | false =>
    refine hkept p hmem hnot fun hreply => ?_
    subst hreply
    cases hanswers
  | true =>
    cases request with
    | fleetCreate name =>
      have hreply : reply = .created projectId := by
        cases reply with
        | created q =>
          simp only [ProjectRequest.answers, Bool.true_and, Bool.and_true, decide_eq_true_eq]
            at hanswers
          rw [hanswers]
        | _ => cases (hclear rfl rfl).1
      rcases List.mem_cons.1 hmem with rfl | hmem
      · obtain ⟨client, script, hwait, hstage, hrequest⟩ := hwaiting rfl rfl
        cases eq_createProject hstage hrequest
        exact .inl ⟨client, .created (waits_served.2 hwait)
          ((answered_served hopen).2 (.inr ⟨rfl, rfl, hreply.symm⟩))⟩
      · exact hkept p hmem hnot fun _ => ⟨nofun, nofun⟩
    | uxCreate q name =>
      obtain ⟨hne, hunlisted⟩ := not_or.1 (mt List.mem_cons.2 hnot)
      refine hkept p hmem hunlisted fun _ => ⟨nofun, ?_⟩
      rintro _ ⟨⟩
      exact hne rfl
    | uxDelete q =>
      by_cases hlisted : p ∈ s.ux
      · have hp : p = q := by
          by_contra hne
          exact hnot (List.mem_filter.2 ⟨hlisted, decide_eq_true hne⟩)
        subst hp
        have hreply : reply = .ok := by
          cases reply with
          | ok => rfl
          | _ => cases (hclear rfl rfl).1
        obtain ⟨client, script, hwait, hstage, hrequest⟩ := hwaiting rfl rfl
        cases eq_deleteProject hstage hrequest
        exact .inl ⟨client, .unlisted (waits_served.2 hwait)
          ((answered_served hopen).2 (.inr ⟨rfl, rfl, hreply.symm⟩))⟩
      · exact hkept p hmem hlisted fun _ => ⟨nofun, nofun⟩
    | fleetDelete q =>
      refine hkept p (List.mem_of_mem_filter hmem) hnot fun _ => ⟨?_, nofun⟩
      rintro ⟨⟩
      simpa using List.of_mem_filter hmem

lemma Amid.exists_waits {p : String} (h : s.Amid client p) :
    ∃ i script, s.Waits client i script := by
  cases h with
  | created hwait => exact ⟨_, _, hwait⟩
  | listing hwait => exact ⟨_, _, hwait⟩
  | unlisted hwait => exact ⟨_, _, hwait⟩
  | deleting hwait => exact ⟨_, _, hwait⟩

lemma not_amid (h : ∀ index left request next, s.clients client ≠
    .waiting index left request next) (p : String) : ¬ s.Amid client p := by
  intro hamid
  obtain ⟨i, script, left, request, next, hwaiting, -⟩ := hamid.exists_waits
  exact h i left request next hwaiting

/-- A client before the second step of a command is in the middle of it when the first is done. -/
lemma Amid.done {p : String} (h : s.Amid client p)
    (hwait : s.Waits client index (.ask request next)) (hfirst : request.first = true) :
    s.Done index request := by
  cases h with
  | created hamid hanswered =>
    obtain ⟨rfl, hscript⟩ := hamid.unique hwait
    cases hscript
    exact ⟨_, hanswered, rfl⟩
  | listing hamid =>
    obtain ⟨rfl, hscript⟩ := hamid.unique hwait
    cases hscript
    cases hfirst
  | unlisted hamid hanswered =>
    obtain ⟨rfl, hscript⟩ := hamid.unique hwait
    cases hscript
    exact ⟨_, hanswered, rfl⟩
  | deleting hamid =>
    obtain ⟨rfl, hscript⟩ := hamid.unique hwait
    cases hscript
    cases hfirst

/-- A client that is not between two steps keeps every project explained. -/
lemma Explained.turn {state : Client} (h : s.Explained) (hnot : ∀ p, ¬ s.Amid client p) :
    (s.turn client state).Explained := by
  intro p hmem hunlisted
  refine (h p hmem hunlisted).imp_left fun ⟨other, hamid⟩ => ⟨other, ?_⟩
  have hother : other ≠ client := by
    rintro rfl
    exact hnot p hamid
  refine hamid.mono (fun i script hwait => ?_) fun _ _ _ _ _ => Iff.rfl
  obtain ⟨left, request, next, hwaiting, hscript⟩ := hwait
  exact ⟨left, request, next, (clients_turn_of_ne hother).trans hwaiting, hscript⟩

/-- A client that begins a command keeps every project explained. -/
lemma Explained.begin {script : Script} (h : s.Explained) (hnot : ∀ p, ¬ s.Amid client p) :
    (s.resume retries client script).Explained :=
  h.resume fun p hamid => absurd hamid (hnot p)

/-- A client that learns of what it waits for keeps every project explained. -/
lemma Explained.learn (h : s.Explained) (hsound : s.Sound)
    (hwait : s.Waits client index (.ask request next)) (hlearns : s.Learns index request reply) :
    (s.resume retries client (next reply)).Explained :=
  h.resume fun _ hamid => hsound.amid_resume hamid hwait hlearns

/-- A client that sends a request again keeps every project explained. -/
lemma Explained.again (h : s.Explained) (hwait : s.Waits client index (.ask request next))
    (hretry : request.retryProfile.canRetry = true)
    (hundone : request.first = true → ¬ s.Done index request) :
    (s.send client left request next).Explained := by
  show (s.resume left client (.ask request next)).Explained
  refine h.resume fun p hamid => .inl ?_
  cases hfirst : request.first with
  | true => exact absurd (hamid.done hwait hfirst) (hundone hfirst)
  | false =>
    cases hamid with
    | created hamid =>
      obtain ⟨rfl, hscript⟩ := hamid.unique hwait
      cases hscript
      cases hfirst
    | listing hamid =>
      obtain ⟨rfl, hscript⟩ := hamid.unique hwait
      cases hscript
      cases hretry
    | unlisted hamid =>
      obtain ⟨rfl, hscript⟩ := hamid.unique hwait
      cases hscript
      cases hfirst
    | deleting hamid =>
      obtain ⟨rfl, hscript⟩ := hamid.unique hwait
      cases hscript
      refine .deleting (waits_send.2 ⟨rfl, rfl⟩) fun hok => ?_
      exact absurd (answered_send.1 hok).asked.lt (lt_irrefl _)

/-- Every clear step keeps every project explained. -/
lemma Explained.step {l : Label} (h : s.Explained) (hsound : s.Sound) (hclear : s.Clear l)
    (hstep : s.step retries l = some s') : s'.Explained := by
  cases l with
  | list client =>
    simp only [Provisioning.step] at hstep
    split at hstep <;> cases hstep
    rename_i hidle
    -- a client that is idle is amid no command
    exact h.turn (not_amid (by simp [hidle]))
  | create client name =>
    simp only [Provisioning.step] at hstep
    split at hstep <;> cases hstep
    rename_i hshown
    exact h.begin (not_amid (by simp [hshown]))
  | delete client p =>
    simp only [Provisioning.step] at hstep
    split at hstep
    · split_ifs at hstep with hmem
      cases hstep
      rename_i ids hshown
      exact h.begin (not_amid (by simp [hshown]))
    · cases hstep
  | serve index applied projectId reply =>
    simp only [Provisioning.step] at hstep
    split at hstep
    · split_ifs at hstep with hserves
      cases hstep
      rename_i request hopen
      exact h.served hsound hopen hserves.1 (hclear request hopen)
    · cases hstep
  | receive client =>
    simp only [Provisioning.step] at hstep
    split at hstep
    · rename_i index left request next hwaiting
      split at hstep <;> cases hstep
      rename_i other reply hanswered
      have hwait : s.Waits client index (.ask request next) :=
        ⟨left, request, next, hwaiting, rfl⟩
      obtain ⟨-, request', hasked, hrequest⟩ := hsound.waits client index _ hwait
      cases hrequest
      have hsame : request = other := hasked.unique (Answered.asked hanswered)
      exact h.learn hsound hwait (.inl (hsame ▸ hanswered))
    · cases hstep
  | retry client =>
    simp only [Provisioning.step] at hstep
    split at hstep
    · rename_i index left request next hwaiting
      split_ifs at hstep with hretry
      cases hstep
      have hwait : s.Waits client index (.ask request next) :=
        ⟨left + 1, request, next, hwaiting, rfl⟩
      obtain ⟨-, request', hasked, hrequest⟩ := hsound.waits client index _ hwait
      cases hrequest
      exact h.again hwait hretry (hclear index _ request hwait hasked)
    · cases hstep
  | giveUp client error =>
    simp only [Provisioning.step] at hstep
    split at hstep
    · rename_i index left request next hwaiting
      split_ifs at hstep
      cases hstep
      have hwait : s.Waits client index (.ask request next) :=
        ⟨left, request, next, hwaiting, rfl⟩
      obtain ⟨-, request', hasked, hrequest⟩ := hsound.waits client index _ hwait
      cases hrequest
      exact h.learn hsound hwait (.inr ⟨hclear index _ request hwait hasked, error, rfl⟩)
    · cases hstep
  | stop client =>
    simp only [Provisioning.step] at hstep
    split at hstep <;> cases hstep
    rename_i index left request next hwaiting
    have hwait : s.Waits client index (.ask request next) :=
      ⟨left, request, next, hwaiting, rfl⟩
    obtain ⟨-, request', hasked, hrequest⟩ := hsound.waits client index _ hwait
    cases hrequest
    -- it stops in a first step that nothing was done for
    obtain ⟨hfirst, hundone⟩ := hclear index _ request hwait hasked
    exact h.turn fun p hamid => hundone (hamid.done hwait hfirst)

lemma Initial.explained (h : s.Initial) : s.Explained :=
  fun p hmem hnot => absurd ((h.listed p).2 hmem) hnot

/-- **No project is left behind in silence**: in a run in which a first step that is applied is
answered as done to a client that takes the answer, and no client stops between its two steps, a
project of the fleet that is not listed is one a client is about to list or to delete, or one that a
reported partial state names. The second step may be lost, refused, retried or served late. -/
theorem left_of_reachable (h : Reachable Initial (step retries) Clear s) :
    ∀ p ∈ s.fleet, p ∉ s.ux → (∃ client, s.Amid client p) ∨ s.Reported p := by
  have hall := h.invariant (fun s hs => (⟨hs.sound, hs.explained⟩ : s.Sound ∧ s.Explained))
    fun s l s' hs hclear hstep => ⟨hs.1.step hstep, hs.2.step hs.1 hclear hstep⟩
  exact hall.2

/-! ### Sample runs -/

/-- Two services without projects. -/
def empty : Provisioning where
  fleet := []
  ux := []
  allocated := []
  sent := []
  clients _ := .idle
  reports := []

lemma empty_initial : empty.Initial := ⟨fun _ => Iff.rfl, nofun, rfl, fun _ => rfl, rfl⟩

/-- A client creates a project, and the answer that it is listed gets lost; another client is shown
it and deletes it. -/
def lostAnswer : List Label :=
  [.list 0, .create 0 "pets", .serve 0 true "p-1" (.created "p-1"), .receive 0,
    .serve 1 true "" .ok, .giveUp 0 ⟨"UPSTREAM", "timeout"⟩, .list 1, .delete 1 "p-1",
    .serve 2 true "" .ok, .receive 1]

theorem ordered_of_reachable_lostAnswer :
    ∃ s, replay (step 3) (fun _ _ => true) empty lostAnswer = some s ∧ s.fleet = ["p-1"] ∧
      s.ux = [] ∧ s.Ordered := by
  obtain ⟨s, hrun, hstate⟩ := Option.map_eq_some_iff.1
    (show (replay (step 3) (fun _ _ => true) empty lostAnswer).map
      (fun s : Provisioning => (s.fleet, s.ux)) = some (["p-1"], []) from rfl)
  obtain ⟨hfleet, hux⟩ := Prod.mk.inj hstate
  exact ⟨s, hrun, hfleet, hux, ordered_of_reachable
    ⟨empty, lostAnswer, empty_initial, .of_replay (fun _ _ _ _ => True.intro) hrun⟩⟩

/-- Whether a client waits for a first step that was served. -/
def awaitsServed (s : Provisioning) (client : Nat) : Bool :=
  match s.clients client with
  | .waiting index _ _ _ =>
    (s.sent[index]?).any fun sent => sent.request.first && sent.answer.isSome
  | _ => false

/-- Whether one of the first two clients waits for what was sent at a position. -/
def awaited (s : Provisioning) (index : Nat) : Bool :=
  [0, 1].any fun client =>
    match s.clients client with
    | .waiting i _ _ _ => i == index
    | _ => false

/-- Whether a step of the first two clients is clear. -/
def answersFirst (s : Provisioning) : Label → Bool
  | .serve index applied _ reply =>
    match s.sent[index]? with
    | some ⟨request, none⟩ =>
      !(request.first && applied) || request.acknowledges reply && s.awaited index
    | _ => true
  | .retry client | .giveUp client _ => !s.awaitsServed client
  | .stop _ => false
  | _ => true

lemma not_done_of_awaitsServed {script : Script} (h : s.awaitsServed client = false)
    (hwait : s.Waits client index script) (hfirst : request.first = true) :
    ¬ s.Done index request := by
  rintro ⟨reply, hanswered, -⟩
  obtain ⟨left, other, next, hwaiting, -⟩ := hwait
  simp [awaitsServed, hwaiting, show s.sent[index]? = _ from hanswered, hfirst] at h

lemma exists_waits_of_awaited (h : s.awaited index = true) :
    ∃ client script, s.Waits client index script := by
  obtain ⟨client, -, h⟩ := List.any_eq_true.1 h
  split at h
  · rename_i i left request next hwaiting
    obtain rfl : i = index := by simpa using h
    exact ⟨client, _, left, request, next, hwaiting, rfl⟩
  · cases h

lemma clear_of_answersFirst {l : Label} (h : s.answersFirst l = true) : s.Clear l := by
  cases l with
  | serve index applied projectId reply =>
    intro request hopen hfirst happlied
    simp only [answersFirst, show s.sent[index]? = _ from hopen, hfirst, happlied, Bool.and_self,
      Bool.not_true, Bool.false_or, Bool.and_eq_true] at h
    exact ⟨h.1, exists_waits_of_awaited h.2⟩
  | retry client =>
    intro i script request hwait _ hfirst
    exact not_done_of_awaitsServed (by simpa [answersFirst] using h) hwait hfirst
  | giveUp client error =>
    intro i script request hwait _ hfirst
    exact not_done_of_awaitsServed (by simpa [answersFirst] using h) hwait hfirst
  | stop client => cases h
  | _ => exact True.intro

/-- A client lists a new project. Another one asks twice to have it unlisted, is answered the second
time, and twice gets no answer to its deletion. -/
def unansweredDeletion : List Label :=
  [.list 0, .create 0 "pets", .serve 0 true "p-1" (.created "p-1"), .receive 0,
    .serve 1 true "" .ok, .receive 0, .list 1, .delete 1 "p-1", .retry 1, .serve 3 true "" .ok,
    .receive 1, .retry 1, .giveUp 1 ⟨"UPSTREAM", "timeout"⟩]

theorem left_of_reachable_unansweredDeletion :
    ∃ s, replay (step 1) answersFirst empty unansweredDeletion = some s ∧ s.fleet = ["p-1"] ∧
      s.ux = [] ∧ ((∃ client, s.Amid client "p-1") ∨ s.Reported "p-1") := by
  obtain ⟨s, hrun, hstate⟩ := Option.map_eq_some_iff.1
    (show (replay (step 1) answersFirst empty unansweredDeletion).map
      (fun s : Provisioning => (s.fleet, s.ux)) = some (["p-1"], []) from rfl)
  obtain ⟨hfleet, hux⟩ := Prod.mk.inj hstate
  refine ⟨s, hrun, hfleet, hux, left_of_reachable ⟨empty, unansweredDeletion, empty_initial,
    .of_replay (fun _ _ _ => clear_of_answersFirst) hrun⟩ "p-1" ?_ ?_⟩
  · simp [hfleet]
  · simp [hux]

end Provisioning

end EnjiGuard.Gateway
