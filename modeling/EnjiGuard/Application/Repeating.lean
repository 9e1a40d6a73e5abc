import EnjiGuard.Application.Subscriptions
import EnjiGuard.Audit.Planning

/-!
# Commands that are repeated

A service that returns what was written is seen as a store: a setting of a repository holds the
record that was written last. A command that plans from the store, and whose plans are planned
again, changes everything it can the first time; the second time it reports every setting as
unchanged and sends no write.
-/

namespace EnjiGuard.Application

open Foundation Audit Portfolio

/-! ### The store behind a gateway -/

/-- A kind of setting: where an item is kept, the request that writes its record, and when a record
that is returned stands for one that was written. -/
structure SettingKind (ι ρ : Type) where
  slot : ι → String
  alike : ρ → ρ → Prop
  write : String → String → ρ → GatewayRequest
  write_isWrite : ∀ repoId slot record, (write repoId slot record).isWrite = true
  write_inj : ∀ {repoId slot record repoId' slot' record'},
    write repoId slot record = write repoId' slot' record' →
      repoId = repoId' ∧ slot = slot' ∧ record = record'

abbrev Stored (ρ : Type) := List GatewayRequest → String → String → Option ρ

/-- A gateway that keeps what was written: a write that succeeds sets its place, and no other
request changes a place. -/
structure Stores {ι ρ : Type} (gateway : Gateway) (kind : SettingKind ι ρ) (stored : Stored ρ) :
    Prop where
  written : ∀ sent repoId slot record,
    gateway.write sent (kind.write repoId slot record) = .ok () →
      ∃ returned, kind.alike returned record ∧
        stored (sent ++ [kind.write repoId slot record]) repoId slot = some returned
  other : ∀ sent request repoId slot, (∀ record, request ≠ kind.write repoId slot record) →
    stored (sent ++ [request]) repoId slot = stored sent repoId slot

section Store

variable {ι ρ : Type} {gateway : Gateway} {kind : SettingKind ι ρ} {stored : Stored ρ}
variable {sent writes : List GatewayRequest} {repoId slot : String}

lemma Answered.of_concat {request : GatewayRequest}
    (h : Answered gateway sent (writes ++ [request])) :
    Answered gateway sent writes ∧ gateway.write (sent ++ writes) request = .ok () := by
  refine ⟨fun before other after heq => ?_, h writes request [] rfl⟩
  exact h before other (after ++ [request]) (by rw [heq]; simp)

/-- Reads change no place. -/
lemma Stores.stored_reads (h : Stores gateway kind stored) {reads : List GatewayRequest}
    (hreads : ∀ request ∈ reads, request.isWrite = false) :
    stored (sent ++ reads) repoId slot = stored sent repoId slot := by
  induction reads using List.reverseRecOn with
  | nil => rw [List.append_nil]
  | append_singleton reads request ih =>
    have hother : ∀ record, request ≠ kind.write repoId slot record := by
      rintro record rfl
      have hread := hreads (kind.write repoId slot record) (by simp)
      rw [kind.write_isWrite] at hread
      cases hread
    rw [← List.append_assoc, h.other _ _ _ _ hother]
    exact ih fun other hmem => hreads other (by simp [hmem])

/-- After writes that succeeded, a place holds one that was written there, or what it held. -/
lemma Stores.stored_writes (h : Stores gateway kind stored)
    (hanswered : Answered gateway sent writes) (repoId slot : String) :
    (∃ record returned, kind.write repoId slot record ∈ writes ∧ kind.alike returned record ∧
        stored (sent ++ writes) repoId slot = some returned) ∨
      (∀ record, kind.write repoId slot record ∉ writes) ∧
        stored (sent ++ writes) repoId slot = stored sent repoId slot := by
  induction writes using List.reverseRecOn with
  | nil => exact .inr ⟨fun _ => List.not_mem_nil, by rw [List.append_nil]⟩
  | append_singleton writes request ih =>
    obtain ⟨hbefore, hwrite⟩ := hanswered.of_concat
    rw [← List.append_assoc]
    by_cases hhere : ∃ record, request = kind.write repoId slot record
    · obtain ⟨record, rfl⟩ := hhere
      obtain ⟨returned, halike, hstored⟩ := h.written _ _ _ _ hwrite
      exact .inl ⟨record, returned, by simp, halike, hstored⟩
    · have hother : ∀ record, request ≠ kind.write repoId slot record := not_exists.1 hhere
      rw [h.other _ _ _ _ hother]
      rcases ih hbefore with ⟨record, returned, hmem, halike, hstored⟩ | ⟨hnone, hstored⟩
      · exact .inl ⟨record, returned, by simp [hmem], halike, hstored⟩
      · refine .inr ⟨fun record hmem => ?_, hstored⟩
        rcases List.mem_append.1 hmem with hmem | hmem
        · exact hnone record hmem
        · exact hother record (List.mem_singleton.1 hmem).symm

end Store

/-! ### Decisions that are repeated -/

/-- Decisions from what is stored: each writes its own place if any, it does so alike for every
target of a repository, and once the write is there it changes nothing more. -/
structure Repeatable {ι ρ : Type} (kind : SettingKind ι ρ)
    (decision : RepositoryRef → Option ρ → ι → Except GatewayFailure MutationDecision) :
    Prop where
  writes : ∀ {target current item d}, decision target current item = .ok d →
    ∀ request, d.write = some request →
      ∃ record, request = kind.write target.repoId (kind.slot item) record
  alike : ∀ {target target' current item d d'}, decision target current item = .ok d →
    decision target' current item = .ok d' → target.repoId = target'.repoId → d.write = d'.write
  again : ∀ {target current item d record returned}, decision target current item = .ok d →
    d.write = some (kind.write target.repoId (kind.slot item) record) →
      kind.alike returned record →
        ∃ d', decision target (some returned) item = .ok d' ∧ d'.write = none

section Repeat

variable {ι ρ : Type} {gateway : Gateway} {kind : SettingKind ι ρ} {stored : Stored ρ}
variable {decision : RepositoryRef → Option ρ → ι → Except GatewayFailure MutationDecision}
variable {sent : List GatewayRequest} {targets : List RepositoryRef} {items : List ι}
variable {decisions : List MutationDecision}

/-- The decisions about the items of targets, from what is stored. -/
structure Decided (decision : RepositoryRef → Option ρ → ι → Except GatewayFailure MutationDecision)
    (kind : SettingKind ι ρ) (stored : Stored ρ) (sent : List GatewayRequest)
    (targets : List RepositoryRef) (items : List ι) (decisions : List MutationDecision) : Prop where
  all : ∀ target ∈ targets, ∀ item ∈ items, ∃ d ∈ decisions,
    decision target (stored sent target.repoId (kind.slot item)) item = .ok d
  only : ∀ d ∈ decisions, ∃ target ∈ targets, ∃ item ∈ items,
    decision target (stored sent target.repoId (kind.slot item)) item = .ok d

lemma mem_writesOf {request : GatewayRequest} :
    request ∈ writesOf decisions ↔ ∃ d ∈ decisions, d.write = some request := by
  simp [writesOf]

/-- Once the decisions are carried out, every decision changes nothing. -/
lemma Repeatable.repeats (hrepeatable : Repeatable kind decision)
    (hstores : Stores gateway kind stored)
    (hslots : ∀ a ∈ items, ∀ b ∈ items, kind.slot a = kind.slot b → a = b)
    (hdecided : Decided decision kind stored sent targets items decisions)
    (hanswered : Answered gateway sent (writesOf decisions)) {target : RepositoryRef}
    (htarget : target ∈ targets) {item : ι} (hitem : item ∈ items) :
    ∃ d, decision target
        (stored (sent ++ writesOf decisions) target.repoId (kind.slot item)) item = .ok d ∧
      d.write = none := by
  obtain ⟨d, hd, hdecision⟩ := hdecided.all target htarget item hitem
  rcases hstores.stored_writes hanswered target.repoId (kind.slot item) with
    ⟨record, returned, hmem, halike, hstored⟩ | ⟨hnone, hstored⟩
  · -- the decision that wrote the place is one about the same item
    obtain ⟨d', hd', hwrite⟩ := mem_writesOf.1 hmem
    obtain ⟨target', -, item', hitem', hdecision'⟩ := hdecided.only d' hd'
    obtain ⟨record', hrecord⟩ := hrepeatable.writes hdecision' _ hwrite
    obtain ⟨hrepo, hslot, -⟩ := kind.write_inj hrecord
    obtain rfl := hslots item hitem item' hitem' hslot
    rw [← hrepo] at hdecision'
    rw [hstored]
    have hsame : d.write = d'.write := hrepeatable.alike hdecision hdecision' hrepo
    exact hrepeatable.again hdecision (hsame.trans hwrite) halike
  · rw [hstored]
    refine ⟨d, hdecision, ?_⟩
    rcases hwrite : d.write with _ | request
    · rfl
    · obtain ⟨record, rfl⟩ := hrepeatable.writes hdecision _ hwrite
      exact absurd (mem_writesOf.2 ⟨d, hd, hwrite⟩) (hnone record)

end Repeat

/-! ### Plans over targets -/

section Targets

variable {ι ρ τ : Type} {gateway : Gateway} {kind : SettingKind ι ρ} {stored : Stored ρ}
variable {decision : RepositoryRef → Option ρ → ι → Except GatewayFailure MutationDecision}
variable {request : String → GatewayRequest}
variable {answer : List GatewayRequest → String → Except GatewayFailure τ}
variable {found : τ → ι → Option ρ} {items : List ι} {targets : List RepositoryRef}
variable {sent sent' : List GatewayRequest} {decisions : List MutationDecision}

/-- The plan of one target: its records are listed, and every item is decided from what is found
among them. -/
def planTarget (request : String → GatewayRequest)
    (answer : List GatewayRequest → String → Except GatewayFailure τ) (found : τ → ι → Option ρ)
    (decision : RepositoryRef → Option ρ → ι → Except GatewayFailure MutationDecision)
    (items : List ι) (target : RepositoryRef) : Session (List MutationDecision) := do
  let records ← call (request target.repoId) (answer · target.repoId)
  Action.ofExcept (items.mapM fun item => decision target (found records item) item)

/-- A gateway lists what is stored. -/
def Lists (request : String → GatewayRequest)
    (answer : List GatewayRequest → String → Except GatewayFailure τ) (found : τ → ι → Option ρ)
    (kind : SettingKind ι ρ) (stored : Stored ρ) (items : List ι) : Prop :=
  (∀ repoId, (request repoId).isWrite = false) ∧
    ∀ sent repoId, ∃ records, answer sent repoId = .ok records ∧
      ∀ item ∈ items, found records item = stored sent repoId (kind.slot item)

/-- A computation that continues returns what its parts do. -/
lemma session_bind_eq_ok_iff {α β : Type} {p : Session α} {f : α → Session β} {b : β} :
    (p >>= f) sent = (.ok b, sent') ↔
      ∃ a between, p sent = (.ok a, between) ∧ f a between = (.ok b, sent') := by
  rw [Action.bind_apply]
  rcases p sent with ⟨a | e | _, between⟩ <;> simp

/-- The plan of one target, from what is stored. -/
lemma planTarget_eq_ok_iff (hlists : Lists request answer found kind stored items)
    {target : RepositoryRef} :
    planTarget request answer found decision items target sent = (.ok decisions, sent') ↔
      (items.mapM fun item =>
        decision target (stored sent target.repoId (kind.slot item)) item) = .ok decisions ∧
        sent' = sent ++ [request target.repoId] := by
  obtain ⟨records, hanswer, hfound⟩ := hlists.2 sent target.repoId
  have hdecisions := mapM_congr (f := fun item => decision target (found records item) item)
    fun item hitem => by rw [hfound item hitem]
  rw [planTarget, Action.bind_apply, call]
  simp only [hanswer, hdecisions]
  rcases items.mapM fun item =>
    decision target (stored sent target.repoId (kind.slot item)) item with e | ds
  · simp [Action.ofExcept]
  · simp [Action.ofExcept, eq_comm]

/-- What is stored after a listing. -/
lemma Stores.stored_list (hstores : Stores gateway kind stored)
    (hlists : Lists request answer found kind stored items) (repoId other slot : String) :
    stored (sent ++ [request repoId]) other slot = stored sent other slot :=
  hstores.stored_reads fun _ hmem => List.mem_singleton.1 hmem ▸ hlists.1 repoId

/-- A plan over targets decides every item of every target, from what is stored. -/
lemma decided_of_collect (hstores : Stores gateway kind stored)
    (hlists : Lists request answer found kind stored items)
    (h : collect (planTarget request answer found decision items) targets sent =
      (.ok decisions, sent')) :
    Decided decision kind stored sent targets items decisions := by
  induction targets generalizing sent decisions with
  | nil =>
    cases h
    exact ⟨List.forall_mem_nil _, List.forall_mem_nil _⟩
  | cons target targets ih =>
    obtain ⟨first, between, hplan, hplans⟩ := session_bind_eq_ok_iff.1 h
    obtain ⟨rest, sent'', hrest, hdecisions⟩ := session_bind_eq_ok_iff.1 hplans
    cases hdecisions
    obtain ⟨hfirst, rfl⟩ := (planTarget_eq_ok_iff hlists).1 hplan
    obtain ⟨hall, honly⟩ := ih hrest
    simp only [hstores.stored_list hlists] at hall honly
    constructor
    · intro other hother item hitem
      rcases List.mem_cons.1 hother with rfl | hother
      · obtain ⟨d, hd, hdecision⟩ := exists_mem_of_mapM hfirst hitem
        exact ⟨d, List.mem_append_left _ hd, hdecision⟩
      · obtain ⟨d, hd, hdecision⟩ := hall other hother item hitem
        exact ⟨d, List.mem_append_right _ hd, hdecision⟩
    · intro d hd
      rcases List.mem_append.1 hd with hd | hd
      · obtain ⟨item, hitem, hdecision⟩ := exists_of_mem_mapM hfirst hd
        exact ⟨target, List.mem_cons_self, item, hitem, hdecision⟩
      · obtain ⟨other, hother, item, hitem, hdecision⟩ := honly d hd
        exact ⟨other, List.mem_cons_of_mem _ hother, item, hitem, hdecision⟩

/-- When every item of every target is decided from what is stored, the plan succeeds with these
decisions. -/
lemma exists_collect (hstores : Stores gateway kind stored)
    (hlists : Lists request answer found kind stored items) {P : MutationDecision → Prop}
    (h : ∀ target ∈ targets, ∀ item ∈ items, ∃ d,
      decision target (stored sent target.repoId (kind.slot item)) item = .ok d ∧ P d) :
    ∃ decisions sent', collect (planTarget request answer found decision items) targets sent =
      (.ok decisions, sent') ∧ ∀ d ∈ decisions, P d := by
  induction targets generalizing sent with
  | nil => exact ⟨[], sent, rfl, List.forall_mem_nil _⟩
  | cons target targets ih =>
    obtain ⟨first, hfirst, hPfirst⟩ := exists_mapM_of_forall (h target List.mem_cons_self)
    obtain ⟨rest, sent', hrest, hPrest⟩ := @ih (sent ++ [request target.repoId]) fun other hother =>
      by simpa only [hstores.stored_list hlists] using h other (List.mem_cons_of_mem _ hother)
    refine ⟨first ++ rest, sent', ?_, List.forall_mem_append.2 ⟨hPfirst, hPrest⟩⟩
    exact session_bind_eq_ok_iff.2 ⟨first, _, (planTarget_eq_ok_iff hlists).2 ⟨hfirst, rfl⟩,
      session_bind_eq_ok_iff.2 ⟨rest, sent', hrest, rfl⟩⟩

/-- Decisions that change nothing are reported so, and nothing is sent for them. -/
lemma executeBatch_unchanged (h : ∀ d ∈ decisions, d.write = none) :
    ∃ result, executeBatch gateway decisions sent = (.ok result, sent) ∧
      result.status = .completed ∧ ∀ outcome ∈ result.results, outcome.status = .unchanged := by
  have hwrites : writesOf decisions = [] := List.filterMap_eq_nil_iff.2 h
  have hended : Ended gateway decisions sent (executeBatch gateway decisions sent) :=
    ended_executeBatch
  generalize executeBatch gateway decisions sent = ended at hended ⊢
  cases hended with
  | completed hanswered =>
    rw [hwrites, List.append_nil]
    refine ⟨_, rfl, rfl, fun outcome hmem => ?_⟩
    obtain ⟨d, hd, rfl⟩ := List.mem_map.1 hmem
    simp [MutationDecision.outcome, MutationDecision.status, h d hd]
  | @stopped done remaining d _ _ _ _ hsplit _ hwrite _ _ =>
    have hnone := h d (by simp [hsplit])
    rw [hwrite] at hnone
    cases hnone
  | @escaped done remaining d _ _ hsplit _ hwrite _ _ =>
    have hnone := h d (by simp [hsplit])
    rw [hwrite] at hnone
    cases hnone

/-- A plan that was carried out whole has sent all its writes. -/
lemma answered_of_completed {result : BatchMutationResult}
    (h : executeBatch gateway decisions sent = (.ok result, sent'))
    (hcompleted : result.status = .completed) :
    Answered gateway sent (writesOf decisions) ∧ sent' = sent ++ writesOf decisions := by
  have hended : Ended gateway decisions sent (executeBatch gateway decisions sent) :=
    ended_executeBatch
  rw [h] at hended
  cases hended with
  | completed hanswered => exact ⟨hanswered, rfl⟩
  | stopped _ _ _ _ _ =>
    simp only [stoppedResult] at hcompleted
    split_ifs at hcompleted

/-- A plan that was carried out whole is planned again without a write, whatever is read in
between. -/
lemma exists_collect_again (hstores : Stores gateway kind stored)
    (hlists : Lists request answer found kind stored items)
    (hrepeatable : Repeatable kind decision)
    (hslots : ∀ a ∈ items, ∀ b ∈ items, kind.slot a = kind.slot b → a = b)
    {planned : List GatewayRequest} {result : BatchMutationResult}
    (hplan : collect (planTarget request answer found decision items) targets sent =
      (.ok decisions, planned))
    (hexecute : executeBatch gateway decisions planned = (.ok result, sent'))
    (hcompleted : result.status = .completed) {reads : List GatewayRequest}
    (hreads : ∀ request ∈ reads, request.isWrite = false) :
    ∃ decisions' sent'', collect (planTarget request answer found decision items) targets
      (sent' ++ reads) = (.ok decisions', sent'') ∧ ∀ d ∈ decisions', d.write = none := by
  obtain ⟨hanswered, rfl⟩ := answered_of_completed hexecute hcompleted
  have honly : OnlyReads (collect (planTarget request answer found decision items) targets) :=
    onlyReads_collect (fun target => (onlyReads_call (hlists.1 _)).bind fun _ => .ofExcept) targets
  obtain ⟨reads', hreads', hplanned⟩ := honly.exists_reads sent
  rw [hplan] at hplanned
  subst hplanned
  obtain ⟨hall, hdecided⟩ := decided_of_collect hstores hlists hplan
  refine exists_collect hstores hlists fun target htarget item hitem => ?_
  rw [hstores.stored_reads hreads]
  refine hrepeatable.repeats hstores hslots ⟨?_, ?_⟩ hanswered htarget hitem
  · simpa only [hstores.stored_reads hreads'] using hall
  · simpa only [hstores.stored_reads hreads'] using hdecided

end Targets

/-! ### Reads that give the same again -/

/-- A computation that, once it has succeeded, gives the same again by reads alone. -/
def Settled {α : Type} (p : Session α) : Prop :=
  ∀ sent sent' a, p sent = (.ok a, sent') → ∀ other, ∃ reads, p other = (.ok a, other ++ reads) ∧
    ∀ request ∈ reads, request.isWrite = false

section Settled

variable {α β : Type}

lemma eq_ok_of_call {request : GatewayRequest}
    {answer : List GatewayRequest → Except GatewayFailure α} {sent sent' : List GatewayRequest}
    {a : α} (h : call request answer sent = (.ok a, sent')) : answer sent = .ok a := by
  rw [call] at h
  rcases hanswer : answer sent with e | b
  · rw [hanswer] at h
    cases h
  · rw [hanswer] at h
    cases h
    rfl

lemma eq_ok_of_ofExcept {x : Except GatewayFailure α} {sent sent' : List GatewayRequest} {a : α}
    (h : (Action.ofExcept x : Session α) sent = (.ok a, sent')) : x = .ok a := by
  rcases x with e | b
  · cases h
  · cases h
    rfl

lemma settled_call {request : GatewayRequest}
    {answer : List GatewayRequest → Except GatewayFailure α} (hread : request.isWrite = false)
    (hsteady : ∀ sent sent', answer sent = answer sent') : Settled (call request answer) := by
  intro sent sent' a h other
  refine ⟨[request], ?_, fun _ hmem => List.mem_singleton.1 hmem ▸ hread⟩
  have hanswer : answer other = .ok a := by rw [hsteady other sent, eq_ok_of_call h]
  simp only [call, hanswer]

lemma settled_ofExcept {x : Except GatewayFailure α} : Settled (Action.ofExcept x : Session α) := by
  intro sent sent' a h other
  rw [eq_ok_of_ofExcept h]
  exact ⟨[], by simp [Action.ofExcept], List.forall_mem_nil _⟩

lemma settled_pure {a : α} : Settled (pure a : Session α) := by
  intro sent sent' b h other
  cases h
  exact ⟨[], by simp, List.forall_mem_nil _⟩

lemma Settled.bind {p : Session α} {f : α → Session β} (hp : Settled p)
    (hf : ∀ a, Settled (f a)) : Settled (p >>= f) := by
  intro sent sent' b h other
  obtain ⟨a, between, hfirst, hrest⟩ := session_bind_eq_ok_iff.1 h
  obtain ⟨reads, hagain, hreads⟩ := hp _ _ _ hfirst other
  obtain ⟨more, hmore, hmorereads⟩ := hf a _ _ _ hrest (other ++ reads)
  refine ⟨reads ++ more, ?_, List.forall_mem_append.2 ⟨hreads, hmorereads⟩⟩
  rw [← List.append_assoc]
  exact session_bind_eq_ok_iff.2 ⟨a, _, hagain, hmore⟩

/-- A computation goes on as another one, after reads. -/
def LeadsTo (p q : Session α) : Prop :=
  ∀ sent, ∃ reads, p sent = q (sent ++ reads) ∧ ∀ request ∈ reads, request.isWrite = false

lemma LeadsTo.trans {p q r : Session α} (hp : LeadsTo p q) (hq : LeadsTo q r) : LeadsTo p r := by
  intro sent
  obtain ⟨reads, hfirst, hreads⟩ := hp sent
  obtain ⟨more, hmore, hmorereads⟩ := hq (sent ++ reads)
  refine ⟨reads ++ more, ?_, List.forall_mem_append.2 ⟨hreads, hmorereads⟩⟩
  rw [hfirst, hmore, List.append_assoc]

/-- Where a settled computation has succeeded, it is passed by reads. -/
lemma Settled.resume {p : Session α} {f : α → Session β} (hp : Settled p)
    {sent sent' : List GatewayRequest} {b : β} (h : (p >>= f) sent = (.ok b, sent')) :
    ∃ a between, p sent = (.ok a, between) ∧ f a between = (.ok b, sent') ∧
      LeadsTo (p >>= f) (f a) := by
  obtain ⟨a, between, hfirst, hrest⟩ := session_bind_eq_ok_iff.1 h
  refine ⟨a, between, hfirst, hrest, fun other => ?_⟩
  obtain ⟨reads, hagain, hreads⟩ := hp _ _ _ hfirst other
  refine ⟨reads, ?_, hreads⟩
  rw [Action.bind_apply, hagain]

end Settled

/-! ### Schedules and improvement jobs -/

/-- Schedules, by audit; they are returned as they were written. -/
def scheduleKind : SettingKind String AuditSchedule where
  slot := id
  alike := Eq
  write := .setSchedule
  write_isWrite _ _ _ := rfl
  write_inj h := by
    cases h
    exact ⟨rfl, rfl, rfl⟩

/-- Improvement jobs, by the kind of their definition; they may be returned under another name. -/
def improvementKind : SettingKind ImprovementDefinition ImprovementJob where
  slot := ImprovementDefinition.jobKind
  alike returned job := returned.effective job = true
  write := .setImprovementJob
  write_isWrite _ _ _ := rfl
  write_inj h := by
    cases h
    exact ⟨rfl, rfl, rfl⟩

/-- The decision about a schedule that was found, if any. -/
def scheduleDecisionAt (text : PlanText) (update : AuditScheduleUpdate) (target : RepositoryRef)
    (current : Option AuditSchedule) (auditKey : String) :
    Except GatewayFailure MutationDecision :=
  scheduleDecision text target ((current.map (auditKey, ·)).toList) update auditKey

/-- The decision about an improvement job that was found, if any. -/
def improvementDecisionAt (text : PlanText) (update : ImprovementJobUpdate)
    (target : RepositoryRef) (current : Option ImprovementJob)
    (definition : ImprovementDefinition) : Except GatewayFailure MutationDecision :=
  improvementDecision text target ((current.map (definition.actionKey, ·)).toList) update definition

/-- The job of a definition among those that are indexed. -/
def foundJob (jobs : List ImprovementJob) (definition : ImprovementDefinition) :
    Option ImprovementJob :=
  ((indexImprovementJobs jobs).lookup definition.actionKey).or
    ((indexImprovementJobs jobs).lookup definition.jobKind)

section Decision

variable {text : PlanText} {target : RepositoryRef} {d : MutationDecision}

lemma lookup_toList {α : Type} (current : Option α) (key : String) :
    ((current.map (key, ·)).toList).lookup key = current := by
  cases current <;> simp

lemma scheduleDecision_eq {existing : List (String × AuditSchedule)}
    {update : AuditScheduleUpdate} {auditKey : String} :
    scheduleDecision text target existing update auditKey =
      scheduleDecisionAt text update target (existing.lookup auditKey) auditKey := by
  rw [scheduleDecisionAt, scheduleDecision, scheduleDecision, lookup_toList]

lemma improvementDecision_eq {jobs : List ImprovementJob} {update : ImprovementJobUpdate}
    {definition : ImprovementDefinition} :
    improvementDecision text target (indexImprovementJobs jobs) update definition =
      improvementDecisionAt text update target (foundJob jobs definition) definition := by
  have hfound : (((foundJob jobs definition).map (definition.actionKey, ·)).toList.lookup
      definition.actionKey).or
        (((foundJob jobs definition).map (definition.actionKey, ·)).toList.lookup
          definition.jobKind) = foundJob jobs definition := by
    rw [lookup_toList]
    cases foundJob jobs definition <;> rfl
  rw [improvementDecisionAt, improvementDecision, improvementDecision, hfound, foundJob]

/-- What is decided about a schedule. -/
lemma scheduleDecisionAt_eq_ok_iff {update : AuditScheduleUpdate}
    {current : Option AuditSchedule} {auditKey : String} :
    scheduleDecisionAt text update target current auditKey = .ok d ↔
      ∃ desired, planScheduleUpdate text current auditKey update = .ok desired ∧
        d = match desired with
          | none => unchangedDecision ⟨target, removeStart "audit." auditKey⟩ .notConfigured
          | some desired =>
            if current = some desired then
              unchangedDecision ⟨target, removeStart "audit." auditKey⟩ .alreadyEffective
            else changedDecision ⟨target, removeStart "audit." auditKey⟩
              (.setSchedule target.repoId auditKey desired) := by
  rw [scheduleDecisionAt, scheduleDecision, lookup_toList]
  rcases planScheduleUpdate text current auditKey update with e | _ | desired
  · simp [bind, Except.bind]
  · simp [bind, Except.bind, pure, Except.pure, eq_comm]
  · simp only [bind, Except.bind, pure, Except.pure, Except.ok.injEq, exists_eq_left']
    split_ifs <;> simp [eq_comm]

/-- What is decided about an improvement job. -/
lemma improvementDecisionAt_eq_ok_iff {update : ImprovementJobUpdate}
    {current : Option ImprovementJob} {definition : ImprovementDefinition} :
    improvementDecisionAt text update target current definition = .ok d ↔
      ∃ planned, setOne text definition current update = .ok planned ∧
        (planned.changed = false ∧ d = unchangedDecision ⟨target, definition.selector⟩
            (if current = none then .notConfigured else .alreadyEffective) ∨
          planned.changed = true ∧ ∃ job, planned.job = some job ∧
            d = changedDecision ⟨target, definition.selector⟩
              (.setImprovementJob target.repoId definition.jobKind job)) := by
  have hcurrent : ((current.map (definition.actionKey, ·)).toList.lookup definition.actionKey).or
      ((current.map (definition.actionKey, ·)).toList.lookup definition.jobKind) = current := by
    rw [lookup_toList]
    cases current <;> rfl
  rw [improvementDecisionAt, improvementDecision, hcurrent]
  rcases setOne text definition current update with e | ⟨_, changed, job⟩
  · simp [bind, Except.bind]
  · cases changed with
    | false =>
      simp only [bind, Except.bind, pure, Except.pure, Except.ok.injEq, exists_eq_left']
      simp [@eq_comm _ d]
    | true =>
      cases job with
      | none => simp [bind, Except.bind, throw, throwThe, MonadExceptOf.throw]
      | some job =>
        simp only [bind, Except.bind, pure, Except.pure, Except.ok.injEq, exists_eq_left']
        simp [@eq_comm _ d]

/-- A job that is planned to change becomes the desired one. -/
lemma exists_desiredJob_of_changed {existing : Option ImprovementJob}
    {definition : ImprovementDefinition} {update : ImprovementJobUpdate}
    {planned : ImprovementJobWriteResult}
    (h : setOne text definition existing update = .ok planned) (hchanged : planned.changed = true) :
    definition.supported = true ∧ ∃ desired,
      desiredJob text existing definition update = .ok (some desired) ∧
        planned.job = some desired := by
  unfold setOne at h
  by_cases hsupported : definition.supported = true
  · simp only [hsupported, not_true, if_false] at h
    obtain ⟨-, -, h⟩ := bind_eq_ok_iff.1 h
    split_ifs at h
    · cases h
      cases hchanged
    · obtain ⟨desired, hdesired, h⟩ := bind_eq_ok_iff.1 h
      cases desired with
      | none =>
        cases h
        cases hchanged
      | some desired =>
        dsimp only at h
        split_ifs at h
        · cases h
          cases hchanged
        · cases h
          exact ⟨hsupported, desired, hdesired, rfl⟩
  · rw [if_pos hsupported] at h
    cases h

/-- A job that is configured as desired stays. -/
lemma setOne_of_effective {existing desired : ImprovementJob}
    {definition : ImprovementDefinition} {update : ImprovementJobUpdate}
    (hsupported : definition.supported = true)
    (hdesired : desiredJob text (some existing) definition update = .ok (some desired))
    (heffective : existing.effective desired = true) :
    setOne text definition (some existing) update = .ok ⟨definition, false, some existing⟩ := by
  obtain ⟨hvalid, -⟩ := desiredJob_eq_some_iff.1 hdesired
  simp [setOne, hsupported, hvalid, hdesired, heffective, bind, Except.bind, pure, Except.pure]

/-- Decisions about schedules are repeated. -/
lemma repeatable_schedule (text : PlanText) (update : AuditScheduleUpdate) :
    Repeatable scheduleKind (scheduleDecisionAt text update) where
  writes h request hwrite := by
    obtain ⟨_ | desired, -, rfl⟩ := scheduleDecisionAt_eq_ok_iff.1 h
    · cases hwrite
    · dsimp only at hwrite
      split_ifs at hwrite
      · cases hwrite
      · cases hwrite
        exact ⟨desired, rfl⟩
  alike h h' hrepo := by
    obtain ⟨desired, hdesired, rfl⟩ := scheduleDecisionAt_eq_ok_iff.1 h
    obtain ⟨desired', hdesired', rfl⟩ := scheduleDecisionAt_eq_ok_iff.1 h'
    cases hdesired.symm.trans hdesired'
    cases desired with
    | none => rfl
    | some desired =>
      dsimp only
      split_ifs
      · rfl
      · simp only [changedDecision, hrepo]
  again h hwrite halike := by
    obtain ⟨_ | desired, hdesired, rfl⟩ := scheduleDecisionAt_eq_ok_iff.1 h
    · cases hwrite
    · dsimp only at hwrite
      split_ifs at hwrite
      · cases hwrite
      · cases hwrite
        cases halike
        refine ⟨_, scheduleDecisionAt_eq_ok_iff.2
          ⟨_, planScheduleUpdate_again hdesired, rfl⟩, ?_⟩
        dsimp only
        rw [if_pos rfl]
        rfl

/-- Decisions about improvement jobs are repeated. -/
lemma repeatable_improvement (text : PlanText) (update : ImprovementJobUpdate) :
    Repeatable improvementKind (improvementDecisionAt text update) where
  writes h request hwrite := by
    obtain ⟨planned, -, ⟨-, rfl⟩ | ⟨-, job, -, rfl⟩⟩ := improvementDecisionAt_eq_ok_iff.1 h
    · cases hwrite
    · cases hwrite
      exact ⟨job, rfl⟩
  alike h h' hrepo := by
    obtain ⟨planned, hplanned, hd⟩ := improvementDecisionAt_eq_ok_iff.1 h
    obtain ⟨planned', hplanned', hd'⟩ := improvementDecisionAt_eq_ok_iff.1 h'
    cases hplanned.symm.trans hplanned'
    rcases hd with ⟨hchanged, rfl⟩ | ⟨hchanged, job, hjob, rfl⟩ <;>
      rcases hd' with ⟨hchanged', rfl⟩ | ⟨hchanged', job', hjob', rfl⟩
    · rfl
    · cases hchanged.symm.trans hchanged'
    · cases hchanged.symm.trans hchanged'
    · cases hjob.symm.trans hjob'
      simp only [changedDecision, hrepo]
  again h hwrite halike := by
    obtain ⟨planned, hplanned, ⟨-, rfl⟩ | ⟨hchanged, job, hjob, rfl⟩⟩ :=
      improvementDecisionAt_eq_ok_iff.1 h
    · cases hwrite
    · cases hwrite
      obtain ⟨hsupported, desired, hdesired, hjob'⟩ :=
        exists_desiredJob_of_changed hplanned hchanged
      cases hjob.symm.trans hjob'
      obtain ⟨again, hagain, heffective⟩ := desiredJob_again hdesired halike
      exact ⟨_, improvementDecisionAt_eq_ok_iff.2
        ⟨_, setOne_of_effective hsupported hagain heffective, .inl ⟨rfl, rfl⟩⟩, rfl⟩

lemma jobKind_eq_selector (definition : ImprovementDefinition) :
    definition.jobKind = definition.selector := by
  rw [ImprovementDefinition.jobKind, ImprovementDefinition.selector]
  cases nonempty definition.kind <;> rfl

/-- A definition that was selected is the one its selector names. -/
lemma lookup_of_selected {selectors : List String} {available selected : List ImprovementDefinition}
    (h : selectImprovements selectors available = .ok selected) {a : ImprovementDefinition}
    (ha : a ∈ selected) :
    (Dictionary.byKey ImprovementDefinition.selector available).lookup a.selector = some a := by
  rw [selectImprovements] at h
  by_cases hnone : selectors = []
  · rw [if_pos hnone] at h
    cases h
  rw [if_neg hnone] at h
  obtain ⟨found, hfound, hselected⟩ := bind_eq_ok_iff.1 h
  cases hselected
  obtain ⟨wanted, -, hwanted⟩ := exists_of_mem_mapM hfound (List.mem_eraseDups.1 ha)
  rw [selectedDefinition] at hwanted
  rcases hlookup : (Dictionary.byKey ImprovementDefinition.selector available).lookup wanted
    with _ | definition
  · rw [hlookup] at hwanted
    cases hwanted
  · rw [hlookup] at hwanted
    dsimp only at hwanted
    split_ifs at hwanted
    cases hwanted
    have hmem := Dictionary.mem_of_mem_ofItems (Dictionary.mem_of_lookup_eq_some hlookup)
    obtain ⟨_, -, hitem⟩ := List.mem_map.1 hmem
    cases hitem
    exact hlookup

/-- Only what can be configured is selected. -/
lemma mem_of_selected {selectors : List String} {available selected : List ImprovementDefinition}
    (h : selectImprovements selectors available = .ok selected) {a : ImprovementDefinition}
    (ha : a ∈ selected) : a ∈ available := by
  have hlookup := lookup_of_selected h ha
  have hmem := Dictionary.mem_of_mem_ofItems (Dictionary.mem_of_lookup_eq_some hlookup)
  obtain ⟨other, havailable, hitem⟩ := List.mem_map.1 hmem
  rwa [← (Prod.mk.inj hitem).2]

/-- Definitions that were selected differ in the kind of their jobs. -/
lemma eq_of_jobKind_eq {selectors : List String} {available selected : List ImprovementDefinition}
    (h : selectImprovements selectors available = .ok selected) {a b : ImprovementDefinition}
    (ha : a ∈ selected) (hb : b ∈ selected) (hkind : a.jobKind = b.jobKind) : a = b := by
  rw [jobKind_eq_selector, jobKind_eq_selector] at hkind
  have hlookup := lookup_of_selected h ha
  rw [hkind, lookup_of_selected h hb] at hlookup
  exact (Option.some.inj hlookup).symm

end Decision

/-! ### Repeated commands -/

def foundSchedule (schedules : List AuditSchedule) (auditKey : String) : Option AuditSchedule :=
  (Dictionary.byKey AuditSchedule.auditKey schedules).lookup auditKey

/-- A service whose catalog and whose targets stay as they are. -/
structure Gateway.Steady (gateway : Gateway) : Prop where
  catalog : ∀ sent sent', gateway.catalog sent = gateway.catalog sent'
  writeTargets : ∀ sent sent' repo project scope,
    gateway.writeTargets sent repo project scope = gateway.writeTargets sent' repo project scope

/-- A service that lists the schedules that were written. -/
def Gateway.ReturnsSchedules (gateway : Gateway) : Prop :=
  ∃ stored, Stores gateway scheduleKind stored ∧
    ∀ keys, Lists .listSchedules gateway.listSchedules foundSchedule scheduleKind stored keys

/-- A service that lists the improvement jobs that were written, for what can be selected. -/
def Gateway.ReturnsImprovementJobs (gateway : Gateway) : Prop :=
  ∃ stored, Stores gateway improvementKind stored ∧
    ∀ selectors sent catalog selected, gateway.catalog sent = .ok catalog →
      selectImprovements selectors (improvementDefinitions catalog) = .ok selected →
        Lists .listImprovementJobs gateway.listImprovementJobs foundJob improvementKind stored
          selected

/-- A command sends no write and reports everything as unchanged. -/
def RepeatsUnchanged (p : Session BatchMutationResult) (sent : List GatewayRequest) : Prop :=
  ∃ result reads, p sent = (.ok result, sent ++ reads) ∧
    (∀ request ∈ reads, request.isWrite = false) ∧ result.status = .completed ∧
      ∀ outcome ∈ result.results, outcome.status = .unchanged

section Command

variable {gateway : Gateway} {text : PlanText} {sent sent' : List GatewayRequest}
variable {result : BatchMutationResult}

/-- A plan whose second run decides no write is repeated unchanged. -/
lemma repeatsUnchanged_of_plan {p : Session (List MutationDecision)} (honly : OnlyReads p)
    (h : ∃ decisions sent', p sent = (.ok decisions, sent') ∧ ∀ d ∈ decisions, d.write = none) :
    RepeatsUnchanged (p >>= executeBatch gateway) sent := by
  obtain ⟨decisions, sent', hplan, hnone⟩ := h
  obtain ⟨reads, hreads, hsent⟩ := honly.exists_reads sent
  rw [hplan] at hsent
  obtain ⟨result, hexecute, hcompleted, hunchanged⟩ := @executeBatch_unchanged gateway sent' _ hnone
  refine ⟨result, reads, ?_, hreads, hcompleted, hunchanged⟩
  rw [Action.bind_apply, hplan, ← hsent]
  exact hexecute

lemma settled_readCatalog (hsteady : gateway.Steady) : Settled (readCatalog gateway) :=
  settled_call rfl hsteady.catalog

lemma settled_publishedKeys (hsteady : gateway.Steady) : Settled (publishedKeys gateway text) :=
  (settled_readCatalog hsteady).bind fun _ => settled_ofExcept.bind fun _ => settled_pure

lemma settled_writeTargets (hsteady : gateway.Steady) {repo project : Option String}
    {scope : Option SubscriptionWriteScope} :
    Settled (writeTargets gateway repo project scope) :=
  settled_call rfl fun sent sent' => hsteady.writeTargets sent sent' repo project _

/-- The plan of the schedules of one target. -/
lemma planTarget_schedule (keys : List String) (update : AuditScheduleUpdate) :
    (fun target : RepositoryRef => do
      let schedules ← call (.listSchedules target.repoId) (gateway.listSchedules · target.repoId)
      let existing := Dictionary.byKey AuditSchedule.auditKey schedules
      Action.ofExcept (keys.mapM (scheduleDecision text target existing update)) :
        RepositoryRef → Session (List MutationDecision)) =
      planTarget .listSchedules gateway.listSchedules foundSchedule
        (scheduleDecisionAt text update) keys := by
  funext target
  have hdecision : ∀ schedules, scheduleDecision text target
      (Dictionary.byKey AuditSchedule.auditKey schedules) update = fun auditKey =>
        scheduleDecisionAt text update target (foundSchedule schedules auditKey) auditKey :=
    fun schedules => funext fun auditKey => scheduleDecision_eq
  simp only [planTarget, hdecision]

/-- The plan of the improvement jobs of one target. -/
lemma planTarget_improvement (selected : List ImprovementDefinition)
    (update : ImprovementJobUpdate) :
    (fun target : RepositoryRef => do
      let jobs ←
        call (.listImprovementJobs target.repoId) (gateway.listImprovementJobs · target.repoId)
      Action.ofExcept
        (selected.mapM (improvementDecision text target (indexImprovementJobs jobs) update)) :
        RepositoryRef → Session (List MutationDecision)) =
      planTarget .listImprovementJobs gateway.listImprovementJobs foundJob
        (improvementDecisionAt text update) selected := by
  funext target
  have hdecision : ∀ jobs, improvementDecision text target (indexImprovementJobs jobs) update =
      fun definition => improvementDecisionAt text update target (foundJob jobs definition)
        definition :=
    fun jobs => funext fun definition => improvementDecision_eq
  simp only [planTarget, hdecision]

/-- A change of schedules that was carried out is repeated unchanged. -/
lemma setSchedules_repeats (hsteady : gateway.Steady) (hreturns : gateway.ReturnsSchedules)
    {request : ScheduleWriteRequest}
    (h : setSchedules gateway text request sent = (.ok result, sent'))
    (hcompleted : result.status = .completed) :
    RepeatsUnchanged (setSchedules gateway text request) sent' := by
  obtain ⟨stored, hstores, hlists⟩ := hreturns
  obtain ⟨decisions, planned, hplan, hexecute⟩ := session_bind_eq_ok_iff.1 h
  refine repeatsUnchanged_of_plan (onlyReads_planSetSchedules request) ?_
  obtain ⟨_, _, -, hrest, hvalid⟩ := settled_ofExcept.resume hplan
  obtain ⟨keys, _, -, hrest, hkeys⟩ := (settled_publishedKeys hsteady).resume hrest
  obtain ⟨targets, _, -, hcollect, htargets⟩ := (settled_writeTargets hsteady).resume hrest
  have hleads := hvalid.trans (hkeys.trans htargets)
  obtain ⟨reads, hagain, hreads⟩ := hleads sent'
  rw [planTarget_schedule] at hcollect hagain
  obtain ⟨decisions', sent'', hcollect', hnone⟩ := exists_collect_again hstores (hlists keys)
    (repeatable_schedule text _) (fun _ _ _ _ hslot => hslot) hcollect hexecute hcompleted hreads
  exact ⟨decisions', sent'', hagain.trans hcollect', hnone⟩

/-- A change of improvement jobs that was carried out is repeated unchanged. -/
lemma setImprovementJobs_repeats (hsteady : gateway.Steady)
    (hreturns : gateway.ReturnsImprovementJobs) {request : ImprovementJobWriteRequest}
    (h : setImprovementJobs gateway text request sent = (.ok result, sent'))
    (hcompleted : result.status = .completed) :
    RepeatsUnchanged (setImprovementJobs gateway text request) sent' := by
  obtain ⟨stored, hstores, hlists⟩ := hreturns
  obtain ⟨decisions, planned, hplan, hexecute⟩ := session_bind_eq_ok_iff.1 h
  refine repeatsUnchanged_of_plan (onlyReads_planSetImprovementJobs request) ?_
  obtain ⟨_, _, -, hrest, hvalid⟩ := settled_ofExcept.resume hplan
  obtain ⟨catalog, _, hcatalog, hrest, hread⟩ := (settled_readCatalog hsteady).resume hrest
  obtain ⟨selected, _, hselected, hrest, hselects⟩ := settled_ofExcept.resume hrest
  obtain ⟨targets, _, -, hcollect, htargets⟩ := (settled_writeTargets hsteady).resume hrest
  have hleads := hvalid.trans (hread.trans (hselects.trans htargets))
  obtain ⟨reads, hagain, hreads⟩ := hleads sent'
  rw [planTarget_improvement] at hcollect hagain
  have hselection := eq_ok_of_ofExcept hselected
  obtain ⟨decisions', sent'', hcollect', hnone⟩ := exists_collect_again hstores
    (hlists _ _ _ _ (eq_ok_of_call hcatalog) hselection) (repeatable_improvement text _)
    (fun _ ha _ hb hkind => eq_of_jobKind_eq hselection ha hb hkind) hcollect hexecute hcompleted
    hreads
  exact ⟨decisions', sent'', hagain.trans hcollect', hnone⟩

end Command

/-- Planning is idempotent: a schedule that is planned is planned again as it is, a job that is
planned is planned again with the same effect, and when the service returns what was written, a
command that was carried out is repeated without a write and with everything unchanged. -/
theorem planning_idempotent (text : PlanText) :
    (∀ existing auditKey update planned,
      planScheduleUpdate text existing auditKey update = .ok (some planned) →
        planScheduleUpdate text (some planned) auditKey update = .ok (some planned)) ∧
    (∀ existing definition update desired,
      desiredJob text existing definition update = .ok (some desired) →
        ∃ again, desiredJob text (some desired) definition update = .ok (some again) ∧
          desired.effective again = true) ∧
    ∀ gateway : Gateway, gateway.Steady →
      (gateway.ReturnsSchedules → ∀ request sent result sent',
        setSchedules gateway text request sent = (.ok result, sent') →
          result.status = .completed →
            RepeatsUnchanged (setSchedules gateway text request) sent') ∧
      (gateway.ReturnsImprovementJobs → ∀ request sent result sent',
        setImprovementJobs gateway text request sent = (.ok result, sent') →
          result.status = .completed →
            RepeatsUnchanged (setImprovementJobs gateway text request) sent') := by
  refine ⟨fun _ _ _ _ h => planScheduleUpdate_again h, ?_, ?_⟩
  · intro existing definition update desired h
    exact desiredJob_again h (effective_iff.2 rfl)
  · intro gateway hsteady
    exact ⟨fun hreturns _ _ _ _ h => setSchedules_repeats hsteady hreturns h,
      fun hreturns _ _ _ _ h => setImprovementJobs_repeats hsteady hreturns h⟩

/-! ### A service that keeps two settings -/

/-- The last record that requests leave. -/
def lastOf {ρ : Type} (accepted : GatewayRequest → Option ρ) (sent : List GatewayRequest) :
    Option ρ :=
  sent.reverse.findSome? accepted

def keptAt {ρ : Type} (accepted : GatewayRequest → Option ρ) (repo place : String) : Stored ρ :=
  fun sent repoId slot => if repoId = repo ∧ slot = place then lastOf accepted sent else none

/-- Requests are accepted at one place only, and leave their record. -/
structure AcceptsAt {ι ρ : Type} (kind : SettingKind ι ρ) (accepted : GatewayRequest → Option ρ)
    (repo place : String) : Prop where
  record : ∀ {repoId slot record returned},
    accepted (kind.write repoId slot record) = some returned →
      repoId = repo ∧ slot = place ∧ kind.alike returned record
  only : ∀ {request returned}, accepted request = some returned →
    ∃ record, request = kind.write repo place record

lemma AcceptsAt.stores {ι ρ : Type} {gateway : Gateway} {kind : SettingKind ι ρ}
    {accepted : GatewayRequest → Option ρ} {repo place : String}
    (h : AcceptsAt kind accepted repo place)
    (hwrite : ∀ sent repoId slot record,
      gateway.write sent (kind.write repoId slot record) = .ok () →
        (accepted (kind.write repoId slot record)).isSome) :
    Stores gateway kind (keptAt accepted repo place) where
  written sent repoId slot record hanswer := by
    obtain ⟨returned, hreturned⟩ :=
      Option.isSome_iff_exists.1 (hwrite sent repoId slot record hanswer)
    obtain ⟨hrepo, hslot, halike⟩ := h.record hreturned
    refine ⟨returned, halike, ?_⟩
    rw [keptAt, if_pos ⟨hrepo, hslot⟩, lastOf, List.reverse_append]
    simp [hreturned]
  other sent request repoId slot hother := by
    rw [keptAt, keptAt]
    split_ifs with hplace
    · obtain ⟨rfl, rfl⟩ := hplace
      rcases haccepted : accepted request with _ | returned
      · simp [lastOf, haccepted]
      · obtain ⟨record, hrecord⟩ := h.only haccepted
        exact absurd hrecord (hother record)
    · rfl

def acceptedSchedule : GatewayRequest → Option AuditSchedule
  | .setSchedule repoId auditKey schedule =>
    if repoId = "repo" ∧ auditKey = "audit.security" ∧ schedule.auditKey = auditKey then
      some schedule
    else none
  | _ => none

/-- The job that a request leaves, which is returned under its kind. -/
def acceptedJob : GatewayRequest → Option ImprovementJob
  | .setImprovementJob repoId kind job =>
    if repoId = "repo" ∧ kind = "vuln-fix" then
      some { job with actionKey := "vuln-fix", kind := some "vuln-fix" }
    else none
  | _ => none

/-- A catalog with one audit beside the recon action, and one improvement. -/
def smallCatalog : AuditCatalogResult where
  actions := [
    { actionKey := "audit.recon", title := "Recon", category := some "audit",
      status := some "published", metricGroup := none, runbookKind := some "recon" },
    { actionKey := "audit.security", title := "Security", category := some "audit",
      status := some "published", metricGroup := some "security", runbookKind := some "audit" }]
  improvements := [
    { actionKey := "improvement.vuln-fix", variantKey := "default", status := some "published" }]

def smallRepository : RepositoryRef :=
  ⟨"repo", "project", none, ⟨.github, "acme/app", "github.com"⟩⟩

/-- A service with one repository, which keeps the schedule of one audit and one job. -/
def keepingGateway : Gateway where
  catalog _ := .ok smallCatalog
  writeTargets _ _ _ _ := .ok [smallRepository]
  listSchedules sent repoId :=
    .ok (if repoId = "repo" then (lastOf acceptedSchedule sent).toList else [])
  listImprovementJobs sent repoId :=
    .ok (if repoId = "repo" then (lastOf acceptedJob sent).toList else [])
  getEmailPreferences _ _ _ := .error (.notFound "no preferences")
  write _ request :=
    if (acceptedSchedule request).isSome ∨ (acceptedJob request).isSome then .ok ()
    else .error (.notFound "no such setting")

lemma steady_keepingGateway : keepingGateway.Steady := ⟨fun _ _ => rfl, fun _ _ _ _ _ => rfl⟩

lemma acceptsAt_schedule : AcceptsAt scheduleKind acceptedSchedule "repo" "audit.security" where
  record h := by
    simp only [scheduleKind, acceptedSchedule] at h
    split_ifs at h with haccepted
    exact ⟨haccepted.1, haccepted.2.1, (Option.some.inj h).symm⟩
  only {request returned} h := by
    cases request with
    | setSchedule repoId auditKey schedule =>
      simp only [acceptedSchedule] at h
      split_ifs at h with haccepted
      obtain ⟨rfl, rfl, -⟩ := haccepted
      exact ⟨schedule, rfl⟩
    | _ => cases h

lemma acceptsAt_job : AcceptsAt improvementKind acceptedJob "repo" "vuln-fix" where
  record h := by
    simp only [improvementKind, acceptedJob] at h
    split_ifs at h with haccepted
    cases h
    exact ⟨haccepted.1, haccepted.2, effective_iff.2 rfl⟩
  only {request returned} h := by
    cases request with
    | setImprovementJob repoId kind job =>
      simp only [acceptedJob] at h
      split_ifs at h with haccepted
      obtain ⟨rfl, rfl⟩ := haccepted
      exact ⟨job, rfl⟩
    | _ => cases h

lemma auditKey_of_accepted {sent : List GatewayRequest} {schedule : AuditSchedule}
    (h : lastOf acceptedSchedule sent = some schedule) : schedule.auditKey = "audit.security" := by
  obtain ⟨request, -, hrequest⟩ := List.exists_of_findSome?_eq_some h
  obtain ⟨record, rfl⟩ := acceptsAt_schedule.only hrequest
  simp only [scheduleKind, acceptedSchedule] at hrequest
  split_ifs at hrequest with haccepted
  cases hrequest
  exact haccepted.2.2

lemma actionKey_of_accepted {sent : List GatewayRequest} {job : ImprovementJob}
    (h : lastOf acceptedJob sent = some job) :
    job.actionKey = "vuln-fix" ∧ job.kind = some "vuln-fix" := by
  obtain ⟨request, -, hrequest⟩ := List.exists_of_findSome?_eq_some h
  obtain ⟨record, rfl⟩ := acceptsAt_job.only hrequest
  simp only [improvementKind, acceptedJob] at hrequest
  split_ifs at hrequest
  cases hrequest
  exact ⟨rfl, rfl⟩

lemma returnsSchedules_keepingGateway : keepingGateway.ReturnsSchedules := by
  refine ⟨_, acceptsAt_schedule.stores ?_, fun keys => ⟨fun _ => rfl, fun sent repoId => ?_⟩⟩
  · intro sent repoId slot record h
    by_contra hrefused
    have hother : acceptedJob (scheduleKind.write repoId slot record) = none := rfl
    simp [keepingGateway, hrefused, hother] at h
  · refine ⟨_, rfl, fun auditKey _ => ?_⟩
    rw [keptAt]
    by_cases hrepo : repoId = "repo"
    · rw [if_pos hrepo]
      rcases hlast : lastOf acceptedSchedule sent with _ | schedule
      · simp [foundSchedule, Dictionary.byKey, Dictionary.ofItems]
      · have hkey := auditKey_of_accepted hlast
        by_cases hplace : auditKey = "audit.security"
        · simp [foundSchedule, Dictionary.byKey, Dictionary.ofItems, Dictionary.insert, hkey,
            hplace, hrepo, scheduleKind]
        · simp [foundSchedule, Dictionary.byKey, Dictionary.ofItems, Dictionary.insert, hkey,
            hplace, scheduleKind]
    · rw [if_neg hrepo, if_neg fun hplace => hrepo hplace.1]
      rfl

/-- The improvement of that catalog. -/
def smallImprovement : ImprovementDefinition where
  actionKey := "improvement.vuln-fix"
  variantKey := "default"
  title := none
  description := none
  sourceAudit := some "audit.security"
  kind := some "vuln-fix"
  supported := true

lemma improvementDefinitions_small : improvementDefinitions smallCatalog = [smallImprovement] := by
  decide +kernel

lemma returnsImprovementJobs_keepingGateway : keepingGateway.ReturnsImprovementJobs := by
  refine ⟨_, acceptsAt_job.stores ?_, fun selectors sent catalog selected hcatalog hselected =>
    ⟨fun _ => rfl, fun sent repoId => ⟨_, rfl, fun definition hdefinition => ?_⟩⟩⟩
  · intro sent repoId slot record h
    by_contra hrefused
    have hother : acceptedSchedule (improvementKind.write repoId slot record) = none := rfl
    simp [keepingGateway, hrefused, hother] at h
  · cases hcatalog
    rw [improvementDefinitions_small] at hselected
    obtain rfl := List.mem_singleton.1 (mem_of_selected hselected hdefinition)
    rw [keptAt]
    by_cases hrepo : repoId = "repo"
    · rw [if_pos hrepo, if_pos ⟨hrepo, by decide⟩]
      rcases hlast : lastOf acceptedJob sent with _ | job
      · rfl
      · obtain ⟨hkey, hkind⟩ := actionKey_of_accepted hlast
        have hindex : indexImprovementJobs [job] = [("vuln-fix", job)] := by
          simp [indexImprovementJobs, hkey, hkind, Dictionary.insert]
        simp only [Option.toList_some, foundJob, hindex]
        rfl
    · rw [if_neg hrepo, if_neg fun hplace => hrepo hplace.1]
      rfl

/-- The schedule and the job that are planned when nothing is there. -/
def newSchedule : AuditSchedule where
  auditKey := "audit.security"
  enabled := true
  cadence := some "workdays"
  scheduleDay := none
  scheduleDayOfMonth := some 1
  scheduleTime := some "00:00"
  scheduleTimeSource := some "auto"
  timezone := some "UTC"
  windowMode := some "anytime"

def newJob : ImprovementJob where
  actionKey := "improvement.vuln-fix"
  variantKey := "default"
  kind := some "vuln-fix"
  enabled := some true
  automaticExecution := some true
  providerVariantKey := some "default"
  frequency := some "workdays"
  daysOfWeek := ["mon", "tue", "wed", "thu", "fri"]
  scheduleTime := some "09:00"
  scheduleTimeSource := some "auto"
  timezone := some "UTC"
  pentestMode := some "off"

def enableSchedules : ScheduleWriteRequest where
  repo := none
  project := none
  enabled := some true
  scope := some ⟨true, false⟩

def enableJobs : ImprovementJobWriteRequest where
  repo := none
  project := none
  selectors := ["vuln-fix"]
  enabled := some true
  timezone := some "UTC"
  scope := some ⟨true, false⟩

lemma setSchedules_small : setSchedules keepingGateway plainPlanText enableSchedules [] =
    (.ok (completedResult 1 1 0 [⟨⟨smallRepository, "security"⟩, .changed, some .applied, none,
      none⟩]), [.catalog, .writeTargets none none ⟨true, false⟩, .listSchedules "repo",
        .setSchedule "repo" "audit.security" newSchedule]) := by
  rfl

lemma setImprovementJobs_small : setImprovementJobs keepingGateway plainPlanText enableJobs [] =
    (.ok (completedResult 1 1 0 [⟨⟨smallRepository, "vuln-fix"⟩, .changed, some .applied, none,
      none⟩]), [.catalog, .writeTargets none none ⟨true, false⟩, .listImprovementJobs "repo",
        .setImprovementJob "repo" "vuln-fix" newJob]) := by
  rfl

theorem planning_idempotent_keeping :
    planScheduleUpdate plainPlanText (some newSchedule) "audit.security" { enabled := some true } =
        .ok (some newSchedule) ∧
    (∃ again, desiredJob plainPlanText (some newJob) smallImprovement
        { enabled := some true, timezone := some "UTC" } = .ok (some again) ∧
          newJob.effective again = true) ∧
    RepeatsUnchanged (setSchedules keepingGateway plainPlanText enableSchedules)
      [.catalog, .writeTargets none none ⟨true, false⟩, .listSchedules "repo",
        .setSchedule "repo" "audit.security" newSchedule] ∧
    RepeatsUnchanged (setImprovementJobs keepingGateway plainPlanText enableJobs)
      [.catalog, .writeTargets none none ⟨true, false⟩, .listImprovementJobs "repo",
        .setImprovementJob "repo" "vuln-fix" newJob] := by
  have hplanning := planning_idempotent plainPlanText
  obtain ⟨hschedules, hjobs⟩ := hplanning.2.2 keepingGateway steady_keepingGateway
  refine ⟨hplanning.1 none _ _ _ rfl, hplanning.2.1 none _ _ _ rfl, ?_, ?_⟩
  · exact hschedules returnsSchedules_keepingGateway _ _ _ _ setSchedules_small rfl
  · exact hjobs returnsImprovementJobs_keepingGateway _ _ _ _ setImprovementJobs_small rfl

end EnjiGuard.Application
