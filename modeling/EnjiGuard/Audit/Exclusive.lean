import EnjiGuard.Audit.Answering

/-!
# Overlapping starts

The guard is a check, a create request and a record. Two starts of one audit at one head may both
check before either has recorded its run, and then both create one. So may a start that checks when
the answer to the request of another one was lost, which records nothing. When no start finds that
it would create a run between the check of another one and the record of its run, nor after a run
was created that no call has learned of, at most one run is created.
-/

namespace EnjiGuard.Audit

open Foundation

/-- An audit of a repository at a head. -/
structure Target where
  repoId : String
  actionKey : String
  head : Option String

namespace Target

variable (target : Target)

/-- A created run is one of the target. -/
def OfRun (run : AuditRunStart) : Prop :=
  run.repoId = target.repoId ∧ run.actionKey = target.actionKey ∧ run.currentHeadSha = target.head

instance (run : AuditRunStart) : Decidable (target.OfRun run) := by
  unfold OfRun; infer_instance

/-- An entry is of a run of the target. -/
def OfEntry (entry : AuditLedgerEntry) : Prop :=
  entry.repoId = target.repoId ∧ entry.auditKey = target.actionKey ∧
    entry.currentHeadSha = target.head

/-- A start still has to answer for the target. -/
def OfStart (start : StartCall) : Prop :=
  start.repoId = target.repoId ∧ start.rerunState.currentHeadSha = target.head ∧
    target.actionKey ∈ start.audits.map AuditDefinition.actionKey

variable (codec : StatusCodec)

/-- A start, with the active runs it has found, would create a run of the target. -/
def Creates (start : StartCall) (activeRuns : List AuditRun) : Prop :=
  target.OfStart start ∧ matchingRuns codec activeRuns target.actionKey target.head = [] ∧
    outOfDate target.head (start.rerunState.auditedHeadSha target.actionKey) ≠ some false

/-- A call that has checked and would create a run of the target. -/
def MayCreate : Call → Prop
  | .starting start activeRuns => target.Creates codec start activeRuns
  | .recording start activeRuns _ => target.Creates codec start activeRuns
  | _ => False

/-- A call that has created a run of the target and has not recorded it. -/
def HasCreated : Call → Prop
  | .recording _ _ run => target.OfRun run
  | _ => False

end Target

namespace Sys

variable {codec : StatusCodec} {settings : LedgerSettings} {s s' : Sys} {l : Label}
variable {entry other : AuditLedgerEntry} {kept : AuditLedgerEntry → Bool} {target : Target}

/-! ### An entry that stays -/

/-- The ledger holds an entry, which is live and the only one of its run. -/
structure Anchored (codec : StatusCodec) (entry : AuditLedgerEntry) (s : Sys) : Prop where
  mem : entry ∈ s.entries
  live : isTerminalStatus codec entry.taskStatus = false
  only : ∀ other ∈ s.entries, sameIdentity other entry = true → other = entry

lemma Anchored.guarded (h : Anchored codec entry s) : Guarded codec entry s := by
  refine ⟨⟨entry, h.mem, sameIdentity_self entry⟩, ?_⟩
  intro other hother hsame
  rw [h.only other hother hsame]
  exact covers_self (named_of_entries h.mem) h.live

lemma anchored_of_recorded (hkept : Keeps codec settings s l s' kept)
    (hrecorded : s.recorded settings l = some entry) (hnamed : entry.Named)
    (hlive : isTerminalStatus codec entry.taskStatus = false) : Anchored codec entry s' :=
  ⟨hkept.mem_recorded hrecorded hnamed, hlive, fun _ => eq_of_recorded hkept hrecorded⟩

/-- A step that leaves the guard in place leaves an entry that covers it. -/
lemma Anchored.step (h : Anchored codec entry s) (hkept : Keeps codec settings s l s' kept)
    (hok : Undisturbed codec settings entry s l) :
    ∃ other, Covers codec entry other ∧ Anchored codec other s' := by
  by_cases hreplaced : ∃ item, s.recorded settings l = some item ∧ sameIdentity item entry = true
  · obtain ⟨item, hrecorded, hsame⟩ := hreplaced
    have hcovers := hok.2.recorded item hrecorded hsame
    exact ⟨item, hcovers, anchored_of_recorded hkept hrecorded hcovers.named hcovers.live⟩
  · have hcovers := covers_self (named_of_entries h.mem) h.live
    refine ⟨entry, hcovers, ?_, h.live, ?_⟩
    · exact (hkept.mem h.mem).resolve_right fun hreleased =>
        hreplaced (replaced_of_released hcovers hok.1 hok.2 hreleased)
    · intro other hother hsame
      rcases hkept.of_mem hother with hbefore | hrecorded
      · exact h.only other hbefore hsame
      · exact absurd ⟨other, hrecorded, hsame⟩ hreplaced

lemma ofEntry_of_covers (h : target.OfEntry entry) (hcovers : Covers codec entry other) :
    target.OfEntry other := by
  obtain ⟨hrepo, haction, -⟩ := sameIdentity_iff.1 hcovers.identity
  exact ⟨hrepo.trans h.1, haction.trans h.2.1, hcovers.head.trans h.2.2⟩

/-! ### Runs of a target -/

variable (codec settings target)

/-- No call is between a create request for the target and the record of the run. -/
def NoneCreated (s : Sys) : Prop :=
  ∀ id call, s.calls id = some call → ¬ target.HasCreated call

/-- No call that has checked would create a run of the target. -/
def NoneCreates (s : Sys) : Prop :=
  ∀ id call, s.calls id = some call → ¬ target.MayCreate codec call

/-- A start whose reconciliation commits now would create a run of the target with what it finds. -/
def WouldCreate (s : Sys) (start : StartCall) (r : Reconciliation) : Prop :=
  ∃ entries, readLedger s.file = .ok entries ∧
    target.Creates codec start (reconciledRuns codec r.upstream
      (commitReconciliation codec settings r.repoId r.upstream r.cache r.now entries))

/-- No run of the target was created of which no call has learned. -/
def NoneLost (s : Sys) : Prop :=
  ∀ run ∈ s.unanswered, ¬ target.OfRun run

/-- An entry of a run of the target that was created and recorded. -/
def Accepted (s : Sys) (entry : AuditLedgerEntry) : Prop :=
  entry ∈ s.entries ∧ target.OfEntry entry ∧ NoneCreated target s ∧
    ∃ run ∈ s.creates, target.OfRun run ∧ run.taskId = entry.taskId

/-- The recorded runs of the target that were created are still live. -/
def StillLive (s : Sys) (l : Label) : Prop :=
  ∀ entry, Accepted target s entry → Unreported codec settings entry s l

/-- No start finds that it would create a run between the check of another one and the record of
its run, nor when a run was created that no call has learned of; other created runs are recorded,
readable and not at an end; a call names the audit once; and the guards of recorded runs are left in
place. -/
structure Separate (s : Sys) (l : Label) : Prop where
  alone : ∀ id start r, l = .commit id → s.calls id = some (.checking start r) →
    WouldCreate codec settings target s start r →
      NoneCreated target s ∧ NoneCreates codec target s ∧ NoneLost target s
  kept : ∀ id call, l = .abandon id → s.calls id = some call → ¬ target.HasCreated call
  recorded : ∀ id now start activeRuns run, l = .record id now →
    s.calls id = some (.recording start activeRuns run) → target.OfRun run →
    ∃ entry, newEntry run now settings.ttlSeconds = some entry ∧ entry.Named ∧
      isTerminalStatus codec entry.taskStatus = false
  once : ∀ id call upstream now, l = .start id call upstream now →
    (call.audits.map AuditDefinition.actionKey).count target.actionKey ≤ 1
  guards : ∀ entry, Accepted target s entry → Guards codec settings entry s l

def created (s : Sys) : List AuditRunStart := s.creates.filter fun run => target.OfRun run

/-- How far the runs of the target have come. -/
inductive Phase (s : Sys) : Prop
  | unstarted (hcreated : s.created target = []) (hnone : NoneCreated target s)
      (halone : ∀ id id' call call', s.calls id = some call → s.calls id' = some call' →
        target.MayCreate codec call → target.MayCreate codec call' → id = id')
  | recording (id : Nat) (start : StartCall) (activeRuns : List AuditRun) (run : AuditRunStart)
      (hcreated : s.created target = [run])
      (hcall : s.calls id = some (.recording start activeRuns run))
      (honly : ∀ id' call, s.calls id' = some call → target.HasCreated call → id' = id)
      (hquiet : NoneCreates codec target s)
  | lost (run : AuditRunStart) (hcreated : s.created target = [run])
      (hlost : run ∈ s.unanswered) (hnone : NoneCreated target s)
      (hquiet : NoneCreates codec target s)
  | guarded (entry : AuditLedgerEntry) (run : AuditRunStart)
      (hcreated : s.created target = [run]) (hanchored : Anchored codec entry s)
      (hentry : target.OfEntry entry) (htask : run.taskId = entry.taskId)
      (hnone : NoneCreated target s) (hquiet : NoneCreates codec target s)

/-- What holds of a call: its reconciliation is of its repository, and it names the audit once. -/
def WellFormed (target : Target) : Call → Prop
  | .observing _ => True
  | .checking start r => r.repoId = start.repoId ∧
      (start.audits.map AuditDefinition.actionKey).count target.actionKey ≤ 1
  | .starting start _ => (start.audits.map AuditDefinition.actionKey).count target.actionKey ≤ 1
  | .recording start _ run =>
      (start.audits.map AuditDefinition.actionKey).count target.actionKey ≤ 1 ∧
      (target.OfRun run → target.actionKey ∉ start.audits.map AuditDefinition.actionKey)

/-- Every call of the second state that may create, or has created, a run of the target did so in
the first one, and none that has created one is gone. -/
structure Fades (s s' : Sys) : Prop where
  creates : ∀ id call, s'.calls id = some call → target.MayCreate codec call →
    ∃ call₀, s.calls id = some call₀ ∧ target.MayCreate codec call₀
  created : ∀ id call, s'.calls id = some call → target.HasCreated call → s.calls id = some call
  kept : ∀ id call, s.calls id = some call → target.HasCreated call → s'.calls id = some call

variable {codec settings target}

lemma fades_of_calls (h : s'.calls = s.calls) : Fades codec target s s' := by
  refine ⟨?_, ?_, ?_⟩ <;> rw [h]
  · exact fun id call hcall hmay => ⟨call, hcall, hmay⟩
  · exact fun id call hcall _ => hcall
  · exact fun id call hcall _ => hcall

/-- A call that is put in the place of one that has created nothing, and that may create only what
that one might. -/
lemma fades_put {id : Nat} {call : Option Call}
    (hcreates : ∀ c, call = some c → target.MayCreate codec c →
      ∃ c₀, s.calls id = some c₀ ∧ target.MayCreate codec c₀)
    (hcreated : ∀ c, call = some c → ¬ target.HasCreated c)
    (hkept : ∀ c, s.calls id = some c → ¬ target.HasCreated c) :
    Fades codec target s (s.put id call) := by
  constructor
  · intro id' c hc hmay
    by_cases hid : id' = id
    · rw [hid, put_calls_self] at hc
      rw [hid]
      exact hcreates c hc hmay
    · rw [put_calls_of_ne s call hid] at hc
      exact ⟨c, hc, hmay⟩
  · intro id' c hc hhas
    by_cases hid : id' = id
    · rw [hid, put_calls_self] at hc
      exact absurd hhas (hcreated c hc)
    · rwa [put_calls_of_ne s call hid] at hc
  · intro id' c hc hhas
    by_cases hid : id' = id
    · rw [hid] at hc
      exact absurd hhas (hkept c hc)
    · rwa [put_calls_of_ne s call hid]

lemma Fades.withFile (h : Fades codec target s s') (file : Option FileText) :
    Fades codec target s { s' with file := file } := ⟨h.creates, h.created, h.kept⟩

lemma Fades.withAnswers (h : Fades codec target s s')
    (answers : List (String × TaskLookupResult)) :
    Fades codec target s { s' with answers := answers } := ⟨h.creates, h.created, h.kept⟩

lemma Fades.noneCreated (h : Fades codec target s s') (hnone : NoneCreated target s) :
    NoneCreated target s' :=
  fun id call hcall hhas => hnone id call (h.created id call hcall hhas) hhas

lemma Fades.noneCreates (h : Fades codec target s s') (hquiet : NoneCreates codec target s) :
    NoneCreates codec target s' := by
  intro id call hcall hmay
  obtain ⟨call₀, hcall₀, hmay₀⟩ := h.creates id call hcall hmay
  exact hquiet id call₀ hcall₀ hmay₀

lemma ofRun_of_created {run : AuditRunStart} (h : s.created target = [run]) :
    run ∈ s.creates ∧ target.OfRun run := by
  have hrun : run ∈ s.created target := by simp [h]
  exact ⟨(List.mem_filter.1 hrun).1, of_decide_eq_true (List.mem_filter.1 hrun).2⟩

/-- A step in which the calls fade, nothing is created and a recorded run stays guarded keeps the
phase. -/
lemma Phase.of_fades (h : Phase codec target s) (hfades : Fades codec target s s')
    (hcreates : s'.creates = s.creates) (hunanswered : s'.unanswered = s.unanswered)
    (hanchor : ∀ entry, Accepted target s entry → Anchored codec entry s →
      ∃ other, Covers codec entry other ∧ Anchored codec other s') : Phase codec target s' := by
  have hcreated' : s'.created target = s.created target := by rw [created, created, hcreates]
  cases h with
  | unstarted hcreated hnone halone =>
    refine .unstarted (hcreated'.trans hcreated) (hfades.noneCreated hnone) ?_
    intro id id' call call' hcall hcall' hmay hmay'
    obtain ⟨c, hc, hmayc⟩ := hfades.creates id call hcall hmay
    obtain ⟨c', hc', hmayc'⟩ := hfades.creates id' call' hcall' hmay'
    exact halone id id' c c' hc hc' hmayc hmayc'
  | recording id start activeRuns run hcreated hcall honly hquiet =>
    refine .recording id start activeRuns run (hcreated'.trans hcreated)
      (hfades.kept _ _ hcall (ofRun_of_created hcreated).2) ?_ (hfades.noneCreates hquiet)
    intro id' call hcall' hhas
    exact honly id' call (hfades.created id' call hcall' hhas) hhas
  | lost run hcreated hlost hnone hquiet =>
    exact .lost run (hcreated'.trans hcreated) (hunanswered ▸ hlost) (hfades.noneCreated hnone)
      (hfades.noneCreates hquiet)
  | guarded entry run hcreated hanchored hentry htask hnone hquiet =>
    obtain ⟨hmem, hofRun⟩ := ofRun_of_created hcreated
    obtain ⟨other, hcovers, hother⟩ :=
      hanchor entry ⟨hanchored.mem, hentry, hnone, run, hmem, hofRun, htask⟩ hanchored
    refine .guarded other run (hcreated'.trans hcreated) hother
      (ofEntry_of_covers hentry hcovers) ?_ (hfades.noneCreated hnone) (hfades.noneCreates hquiet)
    exact htask.trans (sameIdentity_iff.1 hcovers.identity).2.2.symm

/-- A file that a step leaves alone keeps its entries. -/
lemma Anchored.of_file (h : Anchored codec entry s) (hfile : s'.file = s.file) :
    Anchored codec entry s' := by
  have hentries := entries_congr hfile
  exact ⟨hentries ▸ h.mem, h.live, hentries ▸ h.only⟩

lemma exists_anchored_of_file (h : Anchored codec entry s) (hfile : s'.file = s.file) :
    ∃ other, Covers codec entry other ∧ Anchored codec other s' :=
  ⟨entry, covers_self (named_of_entries h.mem) h.live, h.of_file hfile⟩

/-! ### Steps -/

/-- What holds in every state of a run in which no start would create at the wrong moment. -/
structure Orderly (codec : StatusCodec) (target : Target) (s : Sys) : Prop where
  informed : s.Informed
  wellFormed : ∀ id call, s.calls id = some call → WellFormed target call
  phase : Phase codec target s

lemma count_tail {audit : AuditDefinition} {audits : List AuditDefinition} {key : String}
    (h : ((audit :: audits).map AuditDefinition.actionKey).count key ≤ 1) :
    (audits.map AuditDefinition.actionKey).count key ≤ 1 ∧
      (audit.actionKey = key → key ∉ audits.map AuditDefinition.actionKey) := by
  rw [List.map_cons, List.count_cons] at h
  constructor
  · exact le_trans (Nat.le_add_right _ _) h
  · intro haudit hmem
    have hcount := List.count_pos_iff.2 hmem
    rw [haudit, beq_self_eq_true, if_pos rfl] at h
    omega

lemma wellFormed_put {id : Nat} {call : Option Call}
    (h : ∀ id call, s.calls id = some call → WellFormed target call)
    (hcall : ∀ c, call = some c → WellFormed target c) :
    ∀ id' c, (s.put id call).calls id' = some c → WellFormed target c := by
  intro id' c hc
  by_cases hid : id' = id
  · rw [hid, put_calls_self] at hc
    exact hcall c hc
  · rw [put_calls_of_ne s call hid] at hc
    exact h id' c hc

/-- A run that a start asks for when it decides about an audit. -/
structure Requested (codec : StatusCodec) (start : StartCall) (activeRuns : List AuditRun)
    (audit : AuditDefinition) (run : AuditRunStart) : Prop where
  repoId : run.repoId = start.repoId
  actionKey : run.actionKey = audit.actionKey
  head : run.currentHeadSha = start.rerunState.currentHeadSha
  matching : matchingRuns codec activeRuns audit.actionKey start.rerunState.currentHeadSha = []
  stale : outOfDate start.rerunState.currentHeadSha
    (start.rerunState.auditedHeadSha audit.actionKey) ≠ some false

lemma requested_of_startPlan {start : StartCall} {activeRuns : List AuditRun}
    {audit : AuditDefinition} {result : AuditRunResult}
    (h : startPlan codec audit start.rerunState activeRuns = .create) :
    Requested codec start activeRuns audit
      (auditRunStart start.repoId start.projectId audit start.rerunState result) := by
  rcases hrep : representativeProjection codec (matchingRuns codec activeRuns audit.actionKey
    start.rerunState.currentHeadSha) with _ | rep
  · refine ⟨rfl, rfl, rfl, representativeProjection_eq_none.1 hrep, fun hfalse => ?_⟩
    simp [startPlan, hrep, hfalse] at h
  · simp [startPlan, hrep] at h

lemma requested_of_startOneAudit {start : StartCall} {activeRuns : List AuditRun}
    {audit : AuditDefinition} {body : Except AuditError Unit}
    {created : Except AuditError AuditRunResult} {item : AuditRunBatchResultItem}
    {run : AuditRunStart}
    (h : startOneAudit codec start.repoId start.projectId audit start.rerunState activeRuns body
      created = .ok (item, some run)) : Requested codec start activeRuns audit run := by
  rcases hplan : startPlan codec audit start.rerunState activeRuns with answer | _
  · simp [startOneAudit, hplan] at h
  · simp only [startOneAudit, hplan] at h
    rcases body with e | _
    · cases e <;> simp at h
    · rcases created with e | result
      · cases e <;> simp at h
      · cases h
        exact requested_of_startPlan hplan

/-- At most one run gets lost, and it is one that the start asked for. -/
lemma lostRuns_cases (codec : StatusCodec) (start : StartCall) (activeRuns : List AuditRun)
    (audit : AuditDefinition) (body : Except AuditError Unit)
    (created : Except AuditError AuditRunResult) (accepted : Bool) :
    lostRuns codec start.repoId start.projectId audit start.rerunState activeRuns body created
      accepted = [] ∨
    ∃ run, lostRuns codec start.repoId start.projectId audit start.rerunState activeRuns body
      created accepted = [run] ∧ Requested codec start activeRuns audit run := by
  unfold lostRuns
  split
  · next hplan =>
    split_ifs
    · exact .inr ⟨_, rfl, requested_of_startPlan hplan⟩
    · exact .inl rfl
  · exact .inl rfl

/-- A start that asks for a run of the target has checked and would create it. -/
lemma Requested.mayCreate {start : StartCall} {activeRuns : List AuditRun}
    {audit : AuditDefinition} {audits : List AuditDefinition} {run : AuditRunStart}
    (h : Requested codec start activeRuns audit run) (haudits : start.audits = audit :: audits)
    (hrun : target.OfRun run) :
    target.MayCreate codec (.starting start activeRuns) ∧ audit.actionKey = target.actionKey := by
  have hkey : audit.actionKey = target.actionKey := h.actionKey.symm.trans hrun.2.1
  have hhead : start.rerunState.currentHeadSha = target.head := h.head.symm.trans hrun.2.2
  refine ⟨⟨⟨h.repoId.symm.trans hrun.1, hhead, ?_⟩, ?_, ?_⟩, hkey⟩
  · rw [haudits, List.map_cons, hkey]
    exact List.mem_cons_self
  · rw [← hkey, ← hhead]
    exact h.matching
  · rw [← hkey, ← hhead]
    exact h.stale

lemma WellFormed.moved (h : ∀ id call, s.calls id = some call → WellFormed target call)
    (hmoved : Moved codec settings s l s') (hok : Separate codec settings target s l) :
    ∀ id call, s'.calls id = some call → WellFormed target call := by
  cases hmoved with
  | noted => exact h
  | observed => exact wellFormed_put h fun c hc => by cases hc; trivial
  | started hfree =>
    refine wellFormed_put h fun c hc => ?_
    cases hc
    exact ⟨rfl, hok.once _ _ _ _ rfl⟩
  | @round id call r es pending rounds hcall hr =>
    refine wellFormed_put h fun c hc => ?_
    have hbefore := h id call hcall
    cases hc
    cases call <;> cases hr
    · trivial
    · exact hbefore
  | @answered id call r taskId pending reply hcall hr =>
    refine wellFormed_put h fun c hc => ?_
    have hbefore := h id call hcall
    cases hc
    cases call <;> cases hr
    · trivial
    · exact hbefore
  | @committed id call r es commit hcall hr =>
    refine wellFormed_put h fun c hc => ?_
    have hbefore := h id call hcall
    cases call <;> cases hc
    exact hbefore.2
  | @decided id start activeRuns audit audits body created accepted lost call hcall haudits
      hafter =>
    show ∀ id' c, (s.put id call).calls id' = some c → WellFormed target c
    refine wellFormed_put h fun c hc => ?_
    have hbefore := h _ _ hcall
    rw [WellFormed, haudits] at hbefore
    rw [hafter c hc]
    exact (count_tail hbefore).1
  | created hcall haudits hanswer =>
    refine wellFormed_put h fun c hc => ?_
    have hbefore := h _ _ hcall
    cases hc
    rw [WellFormed, haudits] at hbefore
    refine ⟨(count_tail hbefore).1, fun hrun => (count_tail hbefore).2 ?_⟩
    exact (requested_of_startOneAudit hanswer).actionKey.symm.trans hrun.2.1
  | recorded hcall =>
    refine wellFormed_put h fun c hc => ?_
    have hbefore := h _ _ hcall
    cases hc
    exact hbefore.1
  | ended => exact wellFormed_put h fun c hc => by cases hc

lemma creates_of_tail {start : StartCall} {audit : AuditDefinition}
    {audits : List AuditDefinition} {activeRuns : List AuditRun}
    (haudits : start.audits = audit :: audits)
    (h : target.Creates codec { start with audits := audits } activeRuns) :
    target.Creates codec start activeRuns := by
  obtain ⟨⟨hrepo, hhead, hmem⟩, hcreates⟩ := h
  refine ⟨⟨hrepo, hhead, ?_⟩, hcreates⟩
  rw [haudits, List.map_cons]
  exact List.mem_cons_of_mem _ hmem

lemma noneCreated_put (h : NoneCreated target s) {id : Nat} {call : Option Call}
    (hcall : ∀ c, call = some c → ¬ target.HasCreated c) : NoneCreated target (s.put id call) := by
  intro id' c hc
  by_cases hid : id' = id
  · rw [hid, put_calls_self] at hc
    exact hcall c hc
  · exact h id' c ((put_calls_of_ne s call hid).symm.trans hc)

lemma noneCreates_put {id : Nat} {call : Option Call}
    (h : ∀ id' c, s.calls id' = some c → target.MayCreate codec c → id' = id)
    (hcall : ∀ c, call = some c → ¬ target.MayCreate codec c) :
    NoneCreates codec target (s.put id call) := by
  intro id' c hc hmay
  by_cases hid : id' = id
  · rw [hid, put_calls_self] at hc
    exact hcall c hc hmay
  · exact hid (h id' c ((put_calls_of_ne s call hid).symm.trans hc) hmay)

/-- The commit of a start: it is the only one that may create, or finds the run that was created. -/
lemma phase_committed (h : Orderly codec target s) {id : Nat} {start : StartCall}
    {r : Reconciliation} {es : List AuditLedgerEntry} {activeRuns : List AuditRun}
    {file : Option FileText} (hcall : s.calls id = some (.checking start r))
    (hread : readLedger s.file = .ok es)
    (hruns : activeRuns = reconciledRuns codec r.upstream
      (commitReconciliation codec settings r.repoId r.upstream r.cache r.now es))
    (hkept : Keeps codec settings s (.commit id)
      { s.put id (some (.starting start activeRuns)) with file := file } kept)
    (hlive : StillLive codec settings target s (.commit id))
    (hok : Separate codec settings target s (.commit id)) :
    Phase codec target { s.put id (some (.starting start activeRuns)) with file := file } := by
  have hnotHas : ∀ c, s.calls id = some c → ¬ target.HasCreated c := by
    intro c hc hhas
    rw [hcall] at hc
    cases hc
    exact hhas
  have hanchor : ∀ entry, Accepted target s entry → Anchored codec entry s →
      ∃ other, Covers codec entry other ∧ Anchored codec other
        { s.put id (some (.starting start activeRuns)) with file := file } :=
    fun entry haccepted hanchored =>
      hanchored.step hkept ⟨hlive entry haccepted, hok.guards entry haccepted⟩
  by_cases hcreates : target.Creates codec start activeRuns
  · obtain ⟨hnone, hquiet, hnoneLost⟩ :=
      hok.alone id start r rfl hcall ⟨es, hread, hruns ▸ hcreates⟩
    cases h.phase with
    | unstarted hcreated _ _ =>
      -- this call is the only one that may create
      have hself : ∀ id' call, (s.put id (some (.starting start activeRuns))).calls id' =
          some call → target.MayCreate codec call → id' = id := by
        intro id' call hcall' hmay
        by_contra hid
        rw [put_calls_of_ne s _ hid] at hcall'
        exact hquiet id' call hcall' hmay
      refine .unstarted hcreated (noneCreated_put hnone ?_) ?_
      · intro c hc hhas
        cases hc
        exact hhas
      · intro id₁ id₂ call₁ call₂ hcall₁ hcall₂ hmay₁ hmay₂
        rw [hself id₁ call₁ hcall₁ hmay₁, hself id₂ call₂ hcall₂ hmay₂]
    | recording id' start' activeRuns' run hcreated hcall' =>
      exact absurd (ofRun_of_created hcreated).2 (hnone id' _ hcall')
    | lost run hcreated hlost => exact absurd (ofRun_of_created hcreated).2 (hnoneLost run hlost)
    | guarded entry run hcreated hanchored hentry htask hnone' hquiet' =>
      obtain ⟨hmem, hofRun⟩ := ofRun_of_created hcreated
      have haccepted : Accepted target s entry :=
        ⟨hanchored.mem, hentry, hnone', run, hmem, hofRun, htask⟩
      have hrepo : r.repoId = entry.repoId :=
        ((h.wellFormed id _ hcall).1.trans hcreates.1.1).trans hentry.1.symm
      obtain ⟨shown, hshown, hstands⟩ := exists_stands_of_commit h.informed hanchored.guarded hcall
        hread (hcreates.1.2.1.trans hentry.2.2.symm) hrepo (hlive entry haccepted)
        (hok.guards entry haccepted)
      -- what stands for the recorded run keeps the call from creating another one
      have hmatching : shown ∈ matchingRuns codec activeRuns target.actionKey target.head := by
        rw [mem_matchingRuns, hruns, ← hentry.2.1, ← hentry.2.2]
        exact ⟨hshown, hstands.1, hstands.2.1, hstands.2.2⟩
      rw [hcreates.2.1] at hmatching
      cases hmatching
  · refine h.phase.of_fades (Fades.withFile (fades_put ?_ ?_ hnotHas) file) rfl rfl hanchor
    · intro c hc hmay
      cases hc
      exact absurd hmay hcreates
    · intro c hc hhas
      cases hc
      exact hhas

/-- A create request: it is the first one for the target, or one for something else. -/
lemma phase_created (h : Orderly codec target s) {id : Nat} {start : StartCall}
    {activeRuns : List AuditRun} {audit : AuditDefinition} {audits : List AuditDefinition}
    {body : Except AuditError Unit} {created : Except AuditError AuditRunResult}
    {item : AuditRunBatchResultItem} {run : AuditRunStart}
    (hcall : s.calls id = some (.starting start activeRuns))
    (haudits : start.audits = audit :: audits)
    (hanswer : startOneAudit codec start.repoId start.projectId audit start.rerunState activeRuns
      body created = .ok (item, some run)) :
    Phase codec target
      { s.put id (some (.recording { start with audits := audits } activeRuns run)) with
        creates := s.creates ++ [run] } := by
  by_cases hrun : target.OfRun run
  · obtain ⟨hmay, hkey⟩ := (requested_of_startOneAudit hanswer).mayCreate haudits hrun
    cases h.phase with
    | unstarted hcreated hnone halone =>
      have hcreated' : Sys.created target
          { s.put id (some (.recording { start with audits := audits } activeRuns run)) with
            creates := s.creates ++ [run] } = [run] := by
        have hbefore : s.creates.filter (fun run => target.OfRun run) = [] := hcreated
        simp [Sys.created, List.filter_append, hbefore, hrun]
      have honce := h.wellFormed id _ hcall
      rw [WellFormed, haudits] at honce
      refine .recording id _ activeRuns run hcreated' (put_calls_self ..) ?_
        (noneCreates_put (fun id' c hc hmay' => halone id' id c _ hc hcall hmay' hmay) ?_)
      · intro id' call hcall' hhas
        by_contra hid
        exact hnone id' call ((put_calls_of_ne s _ hid).symm.trans hcall') hhas
      · intro c hc hmay'
        cases hc
        exact (count_tail honce).2 hkey hmay'.1.2.2
    | recording _ _ _ _ _ _ _ hquiet => exact absurd hmay (hquiet id _ hcall)
    | lost _ _ _ _ hquiet => exact absurd hmay (hquiet id _ hcall)
    | guarded _ _ _ _ _ _ _ hquiet => exact absurd hmay (hquiet id _ hcall)
  · have hfades : Fades codec target s
        (s.put id (some (.recording { start with audits := audits } activeRuns run))) := by
      refine fades_put ?_ ?_ ?_
      · intro c hc hmay
        cases hc
        exact ⟨_, hcall, creates_of_tail haudits hmay⟩
      · intro c hc hhas
        cases hc
        exact hrun hhas
      · intro c hc hhas
        rw [hcall] at hc
        cases hc
        exact hhas
    have hphase : Phase codec target
        (s.put id (some (.recording { start with audits := audits } activeRuns run))) :=
      h.phase.of_fades hfades rfl rfl fun entry _ hanchored => exists_anchored_of_file hanchored rfl
    -- a run of something else does not count
    have hcreated' : ∀ runs, Sys.created target
        (s.put id (some (.recording { start with audits := audits } activeRuns run))) = runs →
        Sys.created target
          { s.put id (some (.recording { start with audits := audits } activeRuns run)) with
            creates := s.creates ++ [run] } = runs := by
      intro runs hruns
      rw [← hruns]
      simp [Sys.created, List.filter_append, hrun]
    cases hphase with
    | unstarted hcreated hnone halone => exact .unstarted (hcreated' _ hcreated) hnone halone
    | recording id' start' activeRuns' run' hcreated hcall' honly hquiet =>
      exact .recording id' start' activeRuns' run' (hcreated' _ hcreated) hcall' honly hquiet
    | lost run' hcreated hlost hnone hquiet =>
      exact .lost run' (hcreated' _ hcreated) hlost hnone hquiet
    | guarded entry run' hcreated hanchored hentry htask hnone hquiet =>
      exact .guarded entry run' (hcreated' _ hcreated) (hanchored.of_file rfl) hentry htask hnone
        hquiet

/-- A decision that creates nothing a call learns of: if it has created a run of the target, that is
the only one. -/
lemma phase_decided (h : Orderly codec target s) {id : Nat} {start : StartCall}
    {activeRuns : List AuditRun} {audit : AuditDefinition} {audits : List AuditDefinition}
    {body : Except AuditError Unit} {created : Except AuditError AuditRunResult} {accepted : Bool}
    {call : Option Call} (hcall : s.calls id = some (.starting start activeRuns))
    (haudits : start.audits = audit :: audits)
    (hafter : ∀ c ∈ call, c = .starting { start with audits := audits } activeRuns) :
    Phase codec target ((s.put id call).lose (lostRuns codec start.repoId start.projectId audit
      start.rerunState activeRuns body created accepted)) := by
  have hnotHas : ∀ c, call = some c → ¬ target.HasCreated c := by
    intro c hc hhas
    rw [hafter c hc] at hhas
    exact hhas
  have hphase : Phase codec target (s.put id call) := by
    refine h.phase.of_fades (fades_put ?_ hnotHas ?_) rfl rfl fun entry _ hanchored =>
      exists_anchored_of_file hanchored rfl
    · intro c hc hmay
      rw [hafter c hc] at hmay
      exact ⟨_, hcall, creates_of_tail haudits hmay⟩
    · intro c hc hhas
      rw [hcall] at hc
      cases hc
      exact hhas
  rcases lostRuns_cases codec start activeRuns audit body created accepted with
    hlost | ⟨run, hlost, hrequested⟩ <;> rw [hlost]
  · rwa [lose_nil]
  · by_cases hrun : target.OfRun run
    · obtain ⟨hmay, hkey⟩ := hrequested.mayCreate haudits hrun
      have honce := h.wellFormed id _ hcall
      rw [WellFormed, haudits] at honce
      cases h.phase with
      | unstarted hcreated hnone halone =>
        refine .lost run ?_ (List.mem_append_right _ List.mem_cons_self)
          (noneCreated_put hnone hnotHas)
          (noneCreates_put (fun id' c hc hmay' => halone id' id c _ hc hcall hmay' hmay) ?_)
        · have hbefore : s.creates.filter (fun run => target.OfRun run) = [] := hcreated
          simp [Sys.created, lose, List.filter_append, hbefore, hrun]
        · intro c hc hmay'
          rw [hafter c hc] at hmay'
          exact (count_tail honce).2 hkey hmay'.1.2.2
      | recording _ _ _ _ _ _ _ hquiet => exact absurd hmay (hquiet id _ hcall)
      | lost _ _ _ _ hquiet => exact absurd hmay (hquiet id _ hcall)
      | guarded _ _ _ _ _ _ _ hquiet => exact absurd hmay (hquiet id _ hcall)
    · -- a run of something else does not count
      have hcreated' : ((s.put id call).lose [run]).created target =
          (s.put id call).created target := by
        simp [Sys.created, lose, List.filter_append, hrun]
      cases hphase with
      | unstarted hcreated hnone halone =>
        exact .unstarted (hcreated'.trans hcreated) hnone halone
      | recording id' start' activeRuns' run' hcreated hcall' honly hquiet =>
        exact .recording id' start' activeRuns' run' (hcreated'.trans hcreated) hcall' honly hquiet
      | lost run' hcreated hlost' hnone hquiet =>
        exact .lost run' (hcreated'.trans hcreated) (List.mem_append_left _ hlost') hnone hquiet
      | guarded entry run' hcreated hanchored hentry htask hnone hquiet =>
        exact .guarded entry run' (hcreated'.trans hcreated) (hanchored.of_file rfl) hentry htask
          hnone hquiet

lemma ofEntry_of_newEntry {run : AuditRunStart} {now : Datetime} {ttlSeconds : Int}
    (hentry : newEntry run now ttlSeconds = some entry) (hrun : target.OfRun run) :
    target.OfEntry entry ∧ run.taskId = entry.taskId := by
  obtain ⟨expires, -, rfl⟩ := Option.map_eq_some_iff.1 hentry
  exact ⟨hrun, rfl⟩

/-- The record of a run: from then on its entry is the guard. -/
lemma phase_recorded (h : Orderly codec target s) {id : Nat} {start : StartCall}
    {activeRuns : List AuditRun} {run : AuditRunStart} {now : Datetime} {file : Option FileText}
    (hcall : s.calls id = some (.recording start activeRuns run))
    (hentry : newEntry run now settings.ttlSeconds = some entry)
    (hkept : Keeps codec settings s (.record id now)
      { s.put id (some (.starting start activeRuns)) with file := file } kept)
    (hlive : StillLive codec settings target s (.record id now))
    (hok : Separate codec settings target s (.record id now)) :
    Phase codec target { s.put id (some (.starting start activeRuns)) with file := file } := by
  by_cases hrun : target.OfRun run
  · cases h.phase with
    | unstarted _ hnone _ => exact absurd hrun (hnone id _ hcall)
    | recording id' start' activeRuns' run' hcreated hcall' honly hquiet =>
      have hid : id = id' := honly id _ hcall hrun
      rw [← hid, hcall] at hcall'
      cases hcall'
      obtain ⟨other, hother, hnamed, hlive'⟩ :=
        hok.recorded id now start activeRuns run rfl hcall hrun
      rw [hentry, Option.some.injEq] at hother
      rw [← hother] at hnamed hlive'
      have hrecorded : s.recorded settings (.record id now) = some entry := by
        simp only [Sys.recorded, hcall, hentry]
      obtain ⟨hofEntry, htask⟩ := ofEntry_of_newEntry hentry hrun
      refine .guarded entry run hcreated (anchored_of_recorded hkept hrecorded hnamed hlive')
        hofEntry htask ?_ ?_
      · intro id₁ call hcall₁ hhas
        by_cases hid₁ : id₁ = id
        · have hnew : some (Call.starting start activeRuns) = some call := by
            rw [← hcall₁, hid₁]
            exact (put_calls_self ..).symm
          cases hnew
          exact hhas
        · have hbefore := (put_calls_of_ne s _ hid₁).symm.trans hcall₁
          exact hid₁ ((honly id₁ call hbefore hhas).trans hid.symm)
      · intro id₁ call hcall₁ hmay
        by_cases hid₁ : id₁ = id
        · have hnew : some (Call.starting start activeRuns) = some call := by
            rw [← hcall₁, hid₁]
            exact (put_calls_self ..).symm
          cases hnew
          exact hquiet id _ hcall hmay
        · exact hquiet id₁ call ((put_calls_of_ne s _ hid₁).symm.trans hcall₁) hmay
    | lost _ _ _ hnone _ => exact absurd hrun (hnone id _ hcall)
    | guarded _ _ _ _ _ _ hnone _ => exact absurd hrun (hnone id _ hcall)
  · refine h.phase.of_fades (Fades.withFile (fades_put ?_ ?_ ?_) file) rfl rfl ?_
    · intro c hc hmay
      cases hc
      exact ⟨_, hcall, hmay⟩
    · intro c hc hhas
      cases hc
      exact hhas
    · intro c hc hhas
      rw [hcall] at hc
      cases hc
      exact hrun hhas
    · intro entry' haccepted hanchored
      exact hanchored.step hkept ⟨hlive entry' haccepted, hok.guards entry' haccepted⟩

lemma not_may_withReconciliation {call : Call} {r r' : Reconciliation}
    (hr : call.reconciliation? = some r) :
    ¬ target.MayCreate codec (call.withReconciliation r') ∧
      ¬ target.HasCreated (call.withReconciliation r') ∧ ¬ target.HasCreated call := by
  cases call with
  | observing => exact ⟨fun h => h, fun h => h, fun h => h⟩
  | checking => exact ⟨fun h => h, fun h => h, fun h => h⟩
  | starting => cases hr
  | recording => cases hr

lemma fades_withReconciliation {id : Nat} {call : Call} {r r' : Reconciliation}
    (hcall : s.calls id = some call) (hr : call.reconciliation? = some r) :
    Fades codec target s (s.put id (some (call.withReconciliation r'))) := by
  obtain ⟨hmay, hhas, hbefore⟩ := not_may_withReconciliation hr
  refine fades_put ?_ ?_ ?_
  · intro c hc hmay'
    cases hc
    exact absurd hmay' hmay
  · intro c hc hhas'
    cases hc
    exact hhas hhas'
  · intro c hc hhas'
    rw [hcall] at hc
    cases hc
    exact hbefore hhas'

/-- A call that begins has created nothing and would create nothing yet. -/
lemma fades_begun {id : Nat} {call : Call} {r : Reconciliation} (hfree : s.calls id = none)
    (hr : call.reconciliation? = some r) : Fades codec target s (s.put id (some call)) := by
  refine fades_put ?_ ?_ ?_
  · intro c hc hmay
    cases hc
    cases call with
    | observing => exact hmay.elim
    | checking => exact hmay.elim
    | starting => cases hr
    | recording => cases hr
  · intro c hc hhas
    cases hc
    cases call with
    | observing => exact hhas
    | checking => exact hhas
    | starting => cases hr
    | recording => cases hr
  · intro c hc
    rw [hfree] at hc
    cases hc

/-- Every step at the right moment keeps the phase. -/
lemma phase_moved (h : Orderly codec target s) (hmoved : Moved codec settings s l s')
    (hlive : StillLive codec settings target s l) (hok : Separate codec settings target s l) :
    Phase codec target s' := by
  obtain ⟨kept, hkept⟩ := keeps_of_moved h.informed hmoved
  have hanchor : ∀ entry, Accepted target s entry → Anchored codec entry s →
      ∃ other, Covers codec entry other ∧ Anchored codec other s' :=
    fun entry haccepted hanchored =>
      hanchored.step hkept ⟨hlive entry haccepted, hok.guards entry haccepted⟩
  cases hmoved with
  | noted => exact h.phase.of_fades (fades_of_calls rfl) rfl rfl hanchor
  | observed hfree => exact h.phase.of_fades (fades_begun hfree rfl) rfl rfl hanchor
  | started hfree => exact h.phase.of_fades (fades_begun hfree rfl) rfl rfl hanchor
  | round _ _ hcall hr => exact h.phase.of_fades (fades_withReconciliation hcall hr) rfl rfl hanchor
  | answered hcall hr =>
    exact h.phase.of_fades ((fades_withReconciliation hcall hr).withAnswers _) rfl rfl hanchor
  | @committed id call r es commit hcall hr hread hcommit =>
    cases call with
    | observing =>
      refine h.phase.of_fades (Fades.withFile (fades_put ?_ ?_ ?_) _) rfl rfl hanchor
      · intro c hc
        cases hc
      · intro c hc
        cases hc
      · intro c hc hhas
        rw [hcall] at hc
        cases hc
        exact hhas
    | checking start r₀ =>
      cases hr
      exact phase_committed h hcall hread (by rw [hcommit]) hkept hlive hok
    | starting => cases hr
    | recording => cases hr
  | decided _ hcall haudits hafter hlost => exact hlost ▸ phase_decided h hcall haudits hafter
  | created hcall haudits hanswer => exact phase_created h hcall haudits hanswer
  | recorded hcall hentry => exact phase_recorded h hcall hentry hkept hlive hok
  | ended id hrecorded _ hrecording =>
    refine h.phase.of_fades (fades_put ?_ ?_ ?_) rfl rfl hanchor
    · intro c hc
      cases hc
    · intro c hc
      cases hc
    · intro c hc hhas
      cases c with
      | recording start activeRuns run =>
        rcases hrecording start activeRuns run hc with rfl | ⟨now, rfl⟩
        · exact hok.kept id _ rfl hc hhas
        · obtain ⟨entry, hentry, -⟩ := hok.recorded id now start activeRuns run rfl hc hhas
          simp [Sys.recorded, hc, hentry] at hrecorded
      | observing => exact hhas
      | checking => exact hhas
      | starting => exact hhas

lemma Orderly.step (h : Orderly codec target s) (hstep : s.step codec settings l = some s')
    (hok : StillLive codec settings target s l ∧ Separate codec settings target s l) :
    Orderly codec target s' :=
  ⟨h.informed.step hstep, WellFormed.moved h.wellFormed (step_moved hstep) hok.2,
    phase_moved h (step_moved hstep) hok.1 hok.2⟩

lemma Orderly.initial (h : s.Initial) : Orderly codec target s := by
  refine ⟨Informed.initial h, ?_, .unstarted ?_ ?_ ?_⟩
  · intro id call hcall
    rw [h.calls id] at hcall
    cases hcall
  · simp [created, h.creates]
  · intro id call hcall
    rw [h.calls id] at hcall
    cases hcall
  · intro id _ call _ hcall
    rw [h.calls id] at hcall
    cases hcall

/-- At most one run of a target is created, while the recorded one is still live, in every run of
calls in which no start would create at the wrong moment and no guard is lost. -/
theorem atMostOne_of_separate
    (h : Reachable Sys.Initial (Sys.step codec settings)
      (fun s l => StillLive codec settings target s l ∧ Separate codec settings target s l) s) :
    (s.created target).length ≤ 1 := by
  have horderly : Orderly codec target s :=
    h.invariant (fun _ => Orderly.initial) fun _ _ _ hs hok hstep => hs.step hstep hok
  cases horderly.phase with
  | unstarted hcreated => simp [hcreated]
  | recording _ _ _ _ hcreated => simp [hcreated]
  | lost _ hcreated => simp [hcreated]
  | guarded _ _ hcreated => simp [hcreated]

/-- The audit and the head that the sample calls are about. -/
def sampleTarget : Target := ⟨"repo", "security", some "head"⟩

lemma entries_of_no_file (h : s.file = none) : s.entries = [] := by
  simp [entries, readLedger, h]

lemma not_accepted_of_no_file (h : s.file = none) (entry : AuditLedgerEntry) :
    ¬ Accepted target s entry := by
  rintro ⟨hentry, -⟩
  rw [entries_of_no_file h] at hentry
  cases hentry

/-- Without a file and without a run of the target under way only a check can be at a wrong
moment. -/
lemma separate_of_no_file (hfile : s.file = none) (hcreated : NoneCreated target s)
    (halone : ∀ id, l = .commit id → NoneCreates codec target s ∧ NoneLost target s)
    (honce : ∀ id call upstream now, l = .start id call upstream now →
      (call.audits.map AuditDefinition.actionKey).count target.actionKey ≤ 1) :
    StillLive codec settings target s l ∧ Separate codec settings target s l := by
  refine ⟨fun entry h => absurd h (not_accepted_of_no_file hfile entry), ?_⟩
  constructor
  case alone => exact fun id _ _ hl _ _ => ⟨hcreated, halone id hl⟩
  case kept => exact fun id call _ hcall => hcreated id call hcall
  case recorded => exact fun id _ _ _ _ _ hcall hrun => absurd hrun (hcreated id _ hcall)
  case once => exact honce
  case guards => exact fun entry h => absurd h (not_accepted_of_no_file hfile entry)

/-- The first record of a run is in place when the run can be recorded. -/
lemma separate_of_record {id : Nat} {now : Datetime} {start : StartCall}
    {activeRuns : List AuditRun} {run : AuditRunStart} (hfile : s.file = none)
    (hcall : s.calls id = some (.recording start activeRuns run))
    (hentry : newEntry run now settings.ttlSeconds = some entry) (hnamed : entry.Named)
    (hlive : isTerminalStatus codec entry.taskStatus = false) :
    StillLive codec settings target s (.record id now) ∧
      Separate codec settings target s (.record id now) := by
  refine ⟨fun entry h => absurd h (not_accepted_of_no_file hfile entry), ?_⟩
  constructor
  case alone => exact fun _ _ _ hl => nomatch hl
  case kept => exact fun _ _ hl => nomatch hl
  case recorded =>
    intro id' now' start' activeRuns' run' hl hcall' _
    cases hl
    rw [hcall] at hcall'
    cases hcall'
    exact ⟨entry, hentry, hnamed, hlive⟩
  case once => exact fun _ _ _ _ hl => nomatch hl
  case guards => exact fun entry h => absurd h (not_accepted_of_no_file hfile entry)

/-- A quiet step after the record of a run is in place. -/
lemma separate_of_quiet (hentries : s.entries = [sampleIdless]) (hcreated : NoneCreated target s)
    (hrecorded : s.recorded {} l = none)
    (hreconciled : ∀ r, s.reconciled l = some r → r.now = dawn ∧ r.upstream = [])
    (halone : ∀ id, l = .commit id → NoneCreates plainStatusCodec target s ∧ NoneLost target s)
    (hbegins : begins l = none) :
    StillLive plainStatusCodec {} target s l ∧ Separate plainStatusCodec {} target s l := by
  have hsample : ∀ entry, Accepted target s entry → entry = sampleIdless := by
    rintro entry ⟨hentry, -⟩
    rw [hentries] at hentry
    exact List.mem_singleton.1 hentry
  refine ⟨fun entry h => hsample entry h ▸ unreported_idless s l, ?_⟩
  constructor
  case alone => exact fun id _ _ hl _ _ => ⟨hcreated, halone id hl⟩
  case kept => exact fun id call _ hcall => hcreated id call hcall
  case recorded => exact fun id _ _ _ _ _ hcall hrun => absurd hrun (hcreated id _ hcall)
  case once =>
    rintro id call upstream now rfl
    cases hbegins
  case guards => exact fun entry h => hsample entry h ▸ guards_quiet hrecorded hreconciled

/-- Two starts of one audit that are under way at once, up to the record of the first one's run. -/
def pairedStarts : List Label :=
  [.start 0 (sampleCall "head") [] dawn, .start 1 (sampleCall "head") [] dawn, .readPending 0,
    .commit 0, .decide 0 (.ok ()) (.ok ⟨none, some "queued"⟩) true]

/-- A check of the sample call that has not begun its reconciliation. -/
def quietChecking : Call := .checking (sampleCall "head") quietCheck

/-- The paired starts when the first one is about to record its run. -/
structure PairedRecording (s : Sys) : Prop where
  file : s.file = none
  first : s.calls 0 = some (.recording { sampleCall "head" with audits := [] } [] idlessRun)
  second : s.calls 1 = some quietChecking
  others : ∀ id, s.calls (id + 2) = none
  answered : s.unanswered = []

/-- Of the paired starts the first one alone may create a run, until it does. -/
lemma exists_path_paired : ∃ s, PairedRecording s ∧ Path (Sys.step plainStatusCodec {})
    (fun s l => StillLive plainStatusCodec {} sampleTarget s l ∧
      Separate plainStatusCodec {} sampleTarget s l) empty pairedStarts s := by
  have hnone : NoneCreated sampleTarget empty := fun _ _ hcall => by cases hcall
  have honce : ∀ l ∈ pairedStarts, ∀ id call upstream now, l = .start id call upstream now →
      (call.audits.map AuditDefinition.actionKey).count sampleTarget.actionKey ≤ 1 := by
    rintro l hl id call upstream now rfl
    simp only [pairedStarts, List.mem_cons, Label.start.injEq, reduceCtorEq, List.not_mem_nil,
      or_false] at hl
    rcases hl with hl | hl <;> rw [hl.2.1] <;> decide
  refine ⟨_, ⟨?_, ?_, ?_, ?_, ?_⟩, .cons (separate_of_no_file rfl hnone ?_
      (honce _ (by simp [pairedStarts]))) rfl
    (.cons (separate_of_no_file rfl (noneCreated_put hnone ?_) ?_
        (honce _ (by simp [pairedStarts]))) rfl
      (.cons (separate_of_no_file rfl (noneCreated_put (noneCreated_put hnone ?_) ?_) ?_
          (honce _ (by simp [pairedStarts]))) rfl
        (.cons (separate_of_no_file rfl
            (noneCreated_put (noneCreated_put (noneCreated_put hnone ?_) ?_) ?_)
            (fun _ _ => ⟨?unchecked, nofun⟩) (honce _ (by simp [pairedStarts]))) rfl
          (.cons (separate_of_no_file rfl (noneCreated_put (noneCreated_put (noneCreated_put
              (noneCreated_put hnone ?_) ?_) ?_) ?_) ?_ (honce _ (by simp [pairedStarts]))) rfl
            (.nil _)))))⟩
  -- when the first call commits, the other one has not checked
  case unchecked =>
    intro id c hc
    rcases id with _ | _ | id <;> cases hc <;> exact fun h => h
  -- other labels are no commit, and a call that is put has created nothing
  all_goals first
    | rfl
    | exact fun _ => rfl
    | (rintro c ⟨⟩ h; exact h)
    | rintro id ⟨⟩

/-- Two starts of one audit that overlap create one run when the second one checks after the record
of the first one. -/
theorem atMostOne_of_separate_paired : ∃ s : Sys,
    s.calls 1 = some (checked plainStatusCodec {} (sampleCall "head") quietCheck [sampleIdless]) ∧
      (s.created sampleTarget).length ≤ 1 := by
  obtain ⟨s, hs, hpath⟩ := exists_path_paired
  have hrecord : Path (Sys.step plainStatusCodec {})
      (fun s l => StillLive plainStatusCodec {} sampleTarget s l ∧
        Separate plainStatusCodec {} sampleTarget s l) s [.record 0 dawn] (afterRecord s) :=
    .cons (separate_of_record hs.file hs.first newEntry_idless (by decide) (by decide))
      (step_afterRecord hs.file hs.first) (.nil _)
  have hentries : (afterRecord s).entries = [sampleIdless] :=
    entries_of_readLedger (readLedger_afterRecord s)
  have hsecond : (afterRecord s).calls 1 = some quietChecking := hs.second
  -- nobody has a run of the target to record, and the first call has none to create
  have hcalls : ∀ id call, (afterRecord s).calls id = some call →
      call = .starting { sampleCall "head" with audits := [] } [] ∨ call = quietChecking := by
    intro id call hcall
    rcases id with _ | _ | id
    · exact .inl (Option.some.inj hcall).symm
    · exact .inr (Option.some.inj (hcall.symm.trans hsecond))
    · cases (hs.others id).symm.trans hcall
  have hcreated : NoneCreated sampleTarget (afterRecord s) := by
    intro id call hcall
    rcases hcalls id call hcall with rfl | rfl <;> exact fun h => h
  have hcreates : NoneCreates plainStatusCodec sampleTarget (afterRecord s) := by
    intro id call hcall
    rcases hcalls id call hcall with rfl | rfl
    · exact fun h => List.not_mem_nil h.1.2.2
    · exact fun h => h
  have hcheck : ∃ t, Path (Sys.step plainStatusCodec {}) (fun s l =>
      StillLive plainStatusCodec {} sampleTarget s l ∧
        Separate plainStatusCodec {} sampleTarget s l)
      (afterRecord s) [.readPending 1, .commit 1] t ∧ t.calls 1 =
        some (checked plainStatusCodec {} (sampleCall "head") quietCheck [sampleIdless]) := by
    refine path_check
      (separate_of_quiet hentries hcreated rfl nofun (fun _ hl => nomatch hl) rfl)
      (separate_of_quiet hentries (noneCreated_put hcreated ?_) rfl ?_ (fun _ _ => ⟨?_, ?_⟩) rfl)
      hsecond rfl (by decide) (readLedger_afterRecord s) rfl rfl
    · rintro c ⟨⟩ h
      exact h
    · intro r hr
      simp only [Sys.reconciled, put_calls_self, Option.bind_some, Call.reconciliation?,
        Option.some.injEq] at hr
      rw [← hr]
      exact ⟨rfl, rfl⟩
    · refine noneCreates_put (fun id c hc hmay => absurd hmay (hcreates id c hc)) ?_
      rintro c ⟨⟩ h
      exact h
    · intro run hrun
      replace hrun : run ∈ s.unanswered := hrun
      rw [hs.answered] at hrun
      cases hrun
  obtain ⟨t, hcheck, hchecked⟩ := hcheck
  exact ⟨t, hchecked, atMostOne_of_separate ⟨empty, _, empty_initial,
    (hpath.append hrecord).append hcheck⟩⟩

/-- Two starts that both check before either creates its run. -/
def overlappingStarts : List Label :=
  [.start 0 (sampleCall "head") [] dawn, .start 1 (sampleCall "head") [] dawn,
    .readPending 0, .commit 0, .readPending 1, .commit 1,
    .decide 0 (.ok ()) (.ok ⟨some "first", some "queued"⟩) true,
    .decide 1 (.ok ()) (.ok ⟨some "second", some "queued"⟩) true]

/-- Two overlapping starts create two runs of one audit. -/
theorem not_atMostOne_overlapping :
    ¬ ∀ codec settings target s, Reachable Sys.Initial (Sys.step codec settings)
      (fun s l => StillLive codec settings target s l) s → (s.created target).length ≤ 1 := by
  intro h
  have hreplay : replay (Sys.step plainStatusCodec {}) (fun s _ => s.file.isNone) empty
      overlappingStarts = some _ := rfl
  have hreached : Reachable Sys.Initial (Sys.step plainStatusCodec {})
      (fun s l => StillLive plainStatusCodec {} sampleTarget s l) _ :=
    ⟨_, _, empty_initial, .of_replay (fun l _ s hfile => by
      rintro entry ⟨hentry, -⟩
      rw [Option.isNone_iff_eq_none] at hfile
      simp [entries, readLedger, hfile] at hentry) hreplay⟩
  have hlength := h plainStatusCodec {} sampleTarget _ hreached
  revert hlength
  decide

end Sys

end EnjiGuard.Audit
