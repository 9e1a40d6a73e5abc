import EnjiGuard.Audit.Ledger
import EnjiGuard.Foundation.Reachability
import Mathlib.Logic.Function.Basic

/-!
# Processes that share a ledger

Any number of calls run at once: reconciliations for a status, and starts, which reconcile, decide
about their audits one by one, and record the runs they create. Each transaction on the file is one
step; the task lookups of a reconciliation and the create requests lie between them.
-/

namespace EnjiGuard.Audit

open Foundation

/-- How often a reconciliation reads the ledger for task ids. -/
def maxLookupRounds : Nat := 3

/-- A reconciliation on its way to its commit. -/
structure Reconciliation where
  repoId : String
  upstream : List AuditRun
  now : Datetime
  cache : List (String × TaskLookupResult) := []
  /-- The task ids still to be looked up in this round. -/
  pending : List String := []
  /-- The rounds that are left. -/
  rounds : Nat := maxLookupRounds

/-- A start call, with the audits it still has to answer for. -/
structure StartCall where
  repoId : String
  projectId : String
  rerunState : AuditRerunState
  audits : List AuditDefinition

/-- Where a call stands. -/
inductive Call
  | observing (reconciliation : Reconciliation)
  | checking (start : StartCall) (reconciliation : Reconciliation)
  | starting (start : StartCall) (activeRuns : List AuditRun)
  /-- A run was created and is not recorded yet. -/
  | recording (start : StartCall) (activeRuns : List AuditRun) (created : AuditRunStart)

def Call.reconciliation? : Call → Option Reconciliation
  | observing r => some r
  | checking _ r => some r
  | _ => none

/-- The call with another state of its reconciliation. -/
def Call.withReconciliation (r : Reconciliation) : Call → Call
  | observing _ => observing r
  | checking start _ => checking start r
  | call => call

/-- The call after its reconciliation. -/
def Call.afterCommit (activeRuns : List AuditRun) : Call → Option Call
  | checking start _ => some (starting start activeRuns)
  | _ => none

/-- The ledger file, the calls under way, and what has happened upstream. -/
structure Sys where
  file : Option FileText
  calls : Nat → Option Call
  /-- Every result of a task lookup. -/
  answers : List (String × TaskLookupResult)
  /-- The run of every create request that was accepted. -/
  creates : List AuditRunStart
  /-- Those of them whose answer was lost or malformed, so that no call has learned of them. -/
  unanswered : List AuditRunStart

/-- No call has begun. -/
structure Sys.Initial (s : Sys) : Prop where
  calls : ∀ id, s.calls id = none
  answers : s.answers = []
  creates : s.creates = []
  unanswered : s.unanswered = []

/-- What can happen next; a call is known by a number. A create request that ends in an error may
have been accepted all the same. -/
inductive Label
  | recordStarted (entry : AuditLedgerEntry)
  | observe (id : Nat) (repoId : String) (upstream : List AuditRun) (now : Datetime)
  | start (id : Nat) (call : StartCall) (upstream : List AuditRun) (now : Datetime)
  | readPending (id : Nat)
  | lookUp (id : Nat) (reply : TaskReply)
  | commit (id : Nat)
  | decide (id : Nat) (body : Except AuditError Unit) (created : Except AuditError AuditRunResult)
      (accepted : Bool)
  | record (id : Nat) (now : Datetime)
  | abandon (id : Nat)

/-- The run that a request has created although its answer cannot be read. -/
def lostRuns (codec : StatusCodec) (repoId projectId : String) (audit : AuditDefinition)
    (rerunState : AuditRerunState) (activeRuns : List AuditRun) (body : Except AuditError Unit)
    (created : Except AuditError AuditRunResult) (accepted : Bool) : List AuditRunStart :=
  match startPlan codec audit rerunState activeRuns, body, created with
  | .create, .ok (), .error _ =>
    if accepted then [auditRunStart repoId projectId audit rerunState ⟨none, none⟩] else []
  | _, _, _ => []

namespace Sys

variable (codec : StatusCodec) (settings : LedgerSettings)

/-- The system with another state of a call. -/
def put (s : Sys) (id : Nat) (call : Option Call) : Sys :=
  { s with calls := Function.update s.calls id call }

/-- A call begins under a number that is free. -/
def beginCall (s : Sys) (id : Nat) (call : Call) : Option Sys :=
  if (s.calls id).isNone then some (s.put id (some call)) else none

/-- A round of a reconciliation reads which lookups it needs; without any it is the last one. -/
def readPending (s : Sys) (id : Nat) (call : Call) (r : Reconciliation) : Option Sys :=
  if r.pending = [] ∧ 0 < r.rounds then
    match readLedger s.file with
    | .error _ => none
    | .ok entries =>
      let pending := pendingLookups codec r.repoId r.now r.cache entries
      some (s.put id (some (call.withReconciliation
        { r with pending := pending, rounds := if pending = [] then 0 else r.rounds - 1 })))
  else none

/-- The next lookup of a round is answered; an error that is not kept ends the call. -/
def lookUp (s : Sys) (id : Nat) (call : Call) (r : Reconciliation) (reply : TaskReply) :
    Option Sys :=
  match r.pending with
  | [] => none
  | taskId :: pending =>
    let result := taskDetail taskId reply
    let kept := match result with
      | .ok _ => true
      | .error e => e.isLookupError
    if kept then
      some { s.put id (some (call.withReconciliation
          { r with cache := (taskId, result) :: r.cache, pending := pending })) with
        answers := (taskId, result) :: s.answers }
    else some (s.put id none)

def commit (s : Sys) (id : Nat) (call : Call) (r : Reconciliation) : Option Sys :=
  if r.pending = [] ∧ r.rounds = 0 then
    match commitTransaction codec settings s.file r.repoId r.upstream r.cache r.now with
    | .error _ => none
    | .ok (file, committed) =>
      some { s.put id (call.afterCommit (reconciledRuns codec r.upstream committed)) with
        file := file }
  else none

/-- A run was created of which no call learns. -/
def lose (s : Sys) (lost : List AuditRunStart) : Sys :=
  { s with creates := s.creates ++ lost, unanswered := s.unanswered ++ lost }

def decide (s : Sys) (id : Nat) (start : StartCall) (activeRuns : List AuditRun)
    (body : Except AuditError Unit) (created : Except AuditError AuditRunResult)
    (accepted : Bool) : Option Sys :=
  match start.audits with
  | [] => none
  | audit :: audits =>
    let rest := { start with audits := audits }
    let lost := lostRuns codec start.repoId start.projectId audit start.rerunState activeRuns body
      created accepted
    match startOneAudit codec start.repoId start.projectId audit start.rerunState activeRuns body
      created with
    | .error _ => some ((s.put id none).lose lost)
    | .ok (_, none) => some ((s.put id (some (.starting rest activeRuns))).lose lost)
    | .ok (_, some started) =>
      some { s.put id (some (.recording rest activeRuns started)) with
        creates := s.creates ++ [started] }

def record (s : Sys) (id : Nat) (start : StartCall) (activeRuns : List AuditRun)
    (created : AuditRunStart) (now : Datetime) : Option Sys :=
  match newEntry created now settings.ttlSeconds with
  | none => some (s.put id none)
  | some entry =>
    match recordTransaction s.file entry with
    | .error _ => none
    | .ok file => some { s.put id (some (.starting start activeRuns)) with file := file }

def step (s : Sys) : Label → Option Sys
  | .recordStarted entry =>
    match recordTransaction s.file entry with
    | .error _ => none
    | .ok file => some { s with file := file }
  | .observe id repoId upstream now =>
    s.beginCall id (.observing { repoId := repoId, upstream := upstream, now := now })
  | .start id call upstream now =>
    s.beginCall id (.checking call { repoId := call.repoId, upstream := upstream, now := now })
  | .readPending id => do
    let call ← s.calls id
    let r ← call.reconciliation?
    s.readPending codec id call r
  | .lookUp id reply => do
    let call ← s.calls id
    let r ← call.reconciliation?
    s.lookUp id call r reply
  | .commit id => do
    let call ← s.calls id
    let r ← call.reconciliation?
    s.commit codec settings id call r
  | .decide id body created accepted =>
    match s.calls id with
    | some (.starting start activeRuns) =>
      s.decide codec id start activeRuns body created accepted
    | _ => none
  | .record id now =>
    match s.calls id with
    | some (.recording start activeRuns created) =>
      s.record settings id start activeRuns created now
    | _ => none
  | .abandon id => some (s.put id none)

def entries (s : Sys) : List AuditLedgerEntry :=
  match readLedger s.file with
  | .ok entries => entries
  | .error _ => []

def recorded (s : Sys) : Label → Option AuditLedgerEntry
  | .recordStarted entry => some entry
  | .record id now =>
    match s.calls id with
    | some (.recording _ _ created) => newEntry created now settings.ttlSeconds
    | _ => none
  | _ => none

/-- The reconciliation a step commits. -/
def reconciled (s : Sys) : Label → Option Reconciliation
  | .commit id => (s.calls id).bind Call.reconciliation?
  | _ => none

@[simp] lemma put_file (s : Sys) (id : Nat) (call : Option Call) : (s.put id call).file = s.file :=
  rfl

@[simp] lemma put_answers (s : Sys) (id : Nat) (call : Option Call) :
    (s.put id call).answers = s.answers := rfl

@[simp] lemma put_creates (s : Sys) (id : Nat) (call : Option Call) :
    (s.put id call).creates = s.creates := rfl

@[simp] lemma put_unanswered (s : Sys) (id : Nat) (call : Option Call) :
    (s.put id call).unanswered = s.unanswered := rfl

@[simp] lemma lose_nil (s : Sys) : s.lose [] = s := by simp [lose]

@[simp] lemma put_calls_self (s : Sys) (id : Nat) (call : Option Call) :
    (s.put id call).calls id = call := Function.update_self ..

lemma put_calls_of_ne (s : Sys) {id other : Nat} (call : Option Call) (h : other ≠ id) :
    (s.put id call).calls other = s.calls other := Function.update_of_ne h ..

lemma entries_of_readLedger {s : Sys} {es : List AuditLedgerEntry}
    (h : readLedger s.file = .ok es) : s.entries = es := by
  rw [entries, h]

lemma entries_congr {s s' : Sys} (h : s'.file = s.file) : s'.entries = s.entries := by
  rw [entries, entries, h]

/-! ### What a step does -/

def written (entries : List AuditLedgerEntry) : Option FileText :=
  some (.json (ledgerPayload entries))

/-- What a step does, by its label. -/
inductive Moved (s : Sys) : Label → Sys → Prop
  | noted {entry : AuditLedgerEntry} {es : List AuditLedgerEntry}
      (hread : readLedger s.file = .ok es) :
      Moved s (.recordStarted entry) { s with file := written (recordStarted es entry) }
  | observed {id : Nat} {repoId : String} {upstream : List AuditRun} {now : Datetime}
      (hfree : s.calls id = none) :
      Moved s (.observe id repoId upstream now) (s.put id (some (.observing
        { repoId := repoId, upstream := upstream, now := now })))
  | started {id : Nat} {call : StartCall} {upstream : List AuditRun} {now : Datetime}
      (hfree : s.calls id = none) :
      Moved s (.start id call upstream now) (s.put id (some (.checking call
        { repoId := call.repoId, upstream := upstream, now := now })))
  | round {id : Nat} {call : Call} {r : Reconciliation} {es : List AuditLedgerEntry}
      (pending : List String) (rounds : Nat) (hcall : s.calls id = some call)
      (hr : call.reconciliation? = some r) (hread : readLedger s.file = .ok es)
      (hpending : pending = pendingLookups codec r.repoId r.now r.cache es) :
      Moved s (.readPending id) (s.put id (some (call.withReconciliation
        { r with pending := pending, rounds := rounds })))
  | answered {id : Nat} {call : Call} {r : Reconciliation} {taskId : String}
      {pending : List String} {reply : TaskReply} (hcall : s.calls id = some call)
      (hr : call.reconciliation? = some r) (hpending : r.pending = taskId :: pending) :
      Moved s (.lookUp id reply)
        { s.put id (some (call.withReconciliation
            { r with cache := (taskId, taskDetail taskId reply) :: r.cache,
                     pending := pending })) with
          answers := (taskId, taskDetail taskId reply) :: s.answers }
  | committed {id : Nat} {call : Call} {r : Reconciliation} {es : List AuditLedgerEntry}
      (committed : ReconciliationCommit) (hcall : s.calls id = some call)
      (hr : call.reconciliation? = some r) (hread : readLedger s.file = .ok es)
      (hcommitted : committed =
        commitReconciliation codec settings r.repoId r.upstream r.cache r.now es) :
      Moved s (.commit id)
        { s.put id (call.afterCommit (reconciledRuns codec r.upstream committed)) with
          file := if committed.changed then written committed.retained else s.file }
  | decided {id : Nat} {start : StartCall} {activeRuns : List AuditRun} {audit : AuditDefinition}
      {audits : List AuditDefinition} {body : Except AuditError Unit}
      {created : Except AuditError AuditRunResult} {accepted : Bool} {lost : List AuditRunStart}
      (call : Option Call) (hcall : s.calls id = some (.starting start activeRuns))
      (haudits : start.audits = audit :: audits)
      (hafter : ∀ c ∈ call, c = .starting { start with audits := audits } activeRuns)
      (hlost : lost = lostRuns codec start.repoId start.projectId audit start.rerunState activeRuns
        body created accepted) :
      Moved s (.decide id body created accepted) ((s.put id call).lose lost)
  | created {id : Nat} {start : StartCall} {activeRuns : List AuditRun} {audit : AuditDefinition}
      {audits : List AuditDefinition} {body : Except AuditError Unit}
      {created : Except AuditError AuditRunResult} {accepted : Bool}
      {item : AuditRunBatchResultItem} {run : AuditRunStart}
      (hcall : s.calls id = some (.starting start activeRuns))
      (haudits : start.audits = audit :: audits)
      (hanswer : startOneAudit codec start.repoId start.projectId audit start.rerunState activeRuns
        body created = .ok (item, some run)) :
      Moved s (.decide id body created accepted)
        { s.put id (some (.recording { start with audits := audits } activeRuns run)) with
          creates := s.creates ++ [run] }
  | recorded {id : Nat} {start : StartCall} {activeRuns : List AuditRun} {run : AuditRunStart}
      {now : Datetime} {entry : AuditLedgerEntry} {es : List AuditLedgerEntry}
      (hcall : s.calls id = some (.recording start activeRuns run))
      (hentry : newEntry run now settings.ttlSeconds = some entry)
      (hread : readLedger s.file = .ok es) :
      Moved s (.record id now)
        { s.put id (some (.starting start activeRuns)) with
          file := written (recordStarted es entry) }
  /-- A call ends: it was abandoned, or an exception went through it. -/
  | ended {l : Label} (id : Nat) (hrecorded : s.recorded settings l = none)
      (hreconciled : s.reconciled l = none)
      (hrecording : ∀ start activeRuns run, s.calls id = some (.recording start activeRuns run) →
        l = .abandon id ∨ ∃ now, l = .record id now) : Moved s l (s.put id none)

variable {codec settings} {s s' : Sys} {l : Label}

lemma moved_beginCall {id : Nat} {call : Call} (h : s.beginCall id call = some s') :
    s.calls id = none ∧ s' = s.put id (some call) := by
  unfold beginCall at h
  split_ifs at h with hfree
  cases h
  exact ⟨Option.isNone_iff_eq_none.1 hfree, rfl⟩

lemma moved_readPending {id : Nat} {call : Call} {r : Reconciliation}
    (hcall : s.calls id = some call) (hr : call.reconciliation? = some r)
    (h : s.readPending codec id call r = some s') :
    Moved codec settings s (.readPending id) s' := by
  unfold readPending at h
  split_ifs at h
  rcases hread : readLedger s.file with e | es <;> rw [hread] at h
  · cases h
  · cases h
    exact .round _ _ hcall hr hread rfl

lemma moved_lookUp {id : Nat} {call : Call} {r : Reconciliation} {reply : TaskReply}
    (hcall : s.calls id = some call) (hr : call.reconciliation? = some r)
    (h : s.lookUp id call r reply = some s') :
    Moved codec settings s (.lookUp id reply) s' := by
  unfold lookUp at h
  rcases hpending : r.pending with _ | ⟨taskId, pending⟩ <;> rw [hpending] at h
  · cases h
  · dsimp only at h
    split_ifs at h
    · cases h
      exact .answered hcall hr hpending
    · cases h
      refine .ended id rfl rfl fun start activeRuns run hrecording => ?_
      rw [hcall] at hrecording
      cases hrecording
      cases hr

lemma moved_commit {id : Nat} {call : Call} {r : Reconciliation}
    (hcall : s.calls id = some call) (hr : call.reconciliation? = some r)
    (h : s.commit codec settings id call r = some s') :
    Moved codec settings s (.commit id) s' := by
  unfold commit commitTransaction at h
  split_ifs at h
  rcases hread : readLedger s.file with e | es <;> rw [hread] at h
  · cases h
  · cases h
    exact .committed _ hcall hr hread rfl

lemma moved_decide {id : Nat} {start : StartCall} {activeRuns : List AuditRun}
    {body : Except AuditError Unit} {created : Except AuditError AuditRunResult} {accepted : Bool}
    (hcall : s.calls id = some (.starting start activeRuns))
    (h : s.decide codec id start activeRuns body created accepted = some s') :
    Moved codec settings s (.decide id body created accepted) s' := by
  unfold decide at h
  rcases haudits : start.audits with _ | ⟨audit, audits⟩ <;> rw [haudits] at h
  · cases h
  · dsimp only at h
    rcases hanswer : startOneAudit codec start.repoId start.projectId audit start.rerunState
      activeRuns body created with e | ⟨item, _ | run⟩ <;> rw [hanswer] at h <;> cases h
    · exact .decided none hcall haudits (fun _ hc => by cases hc) rfl
    · exact .decided _ hcall haudits (fun _ hc => (Option.some.inj hc).symm) rfl
    · exact .created hcall haudits hanswer

lemma moved_record {id : Nat} {start : StartCall} {activeRuns : List AuditRun}
    {run : AuditRunStart} {now : Datetime}
    (hcall : s.calls id = some (.recording start activeRuns run))
    (h : s.record settings id start activeRuns run now = some s') :
    Moved codec settings s (.record id now) s' := by
  unfold record recordTransaction at h
  rcases hentry : newEntry run now settings.ttlSeconds with _ | entry <;> rw [hentry] at h
  · cases h
    exact .ended id (by simp only [recorded, hcall, hentry]) rfl fun _ _ _ _ =>
      Or.inr ⟨now, rfl⟩
  · rcases hread : readLedger s.file with e | es <;> rw [hread] at h
    · cases h
    · cases h
      exact .recorded hcall hentry hread

/-- Every step does what its label says. -/
theorem step_moved (h : s.step codec settings l = some s') : Moved codec settings s l s' := by
  cases l with
  | recordStarted entry =>
    simp only [step, recordTransaction] at h
    rcases hread : readLedger s.file with e | es <;> rw [hread] at h
    · cases h
    · cases h
      exact .noted hread
  | observe id repoId upstream now =>
    obtain ⟨hfree, rfl⟩ := moved_beginCall h
    exact .observed hfree
  | start id call upstream now =>
    obtain ⟨hfree, rfl⟩ := moved_beginCall h
    exact .started hfree
  | readPending id =>
    obtain ⟨call, hcall, h⟩ := Option.bind_eq_some_iff.1 h
    obtain ⟨r, hr, h⟩ := Option.bind_eq_some_iff.1 h
    exact moved_readPending hcall hr h
  | lookUp id reply =>
    obtain ⟨call, hcall, h⟩ := Option.bind_eq_some_iff.1 h
    obtain ⟨r, hr, h⟩ := Option.bind_eq_some_iff.1 h
    exact moved_lookUp hcall hr h
  | commit id =>
    obtain ⟨call, hcall, h⟩ := Option.bind_eq_some_iff.1 h
    obtain ⟨r, hr, h⟩ := Option.bind_eq_some_iff.1 h
    exact moved_commit hcall hr h
  | decide id body created accepted =>
    simp only [step] at h
    split at h
    · next hcall => exact moved_decide hcall h
    · cases h
  | record id now =>
    simp only [step] at h
    split at h
    · next hcall => exact moved_record hcall h
    · cases h
  | abandon id =>
    cases h
    exact .ended id rfl rfl fun _ _ _ _ => Or.inl rfl

end Sys

end EnjiGuard.Audit
