import EnjiGuard.Audit.Guards
import EnjiGuard.Foundation.Locking

/-!
# The lock of the ledger

Each cycle of reading, changing and writing the ledger file is a section. A ledger object has a
reentrant lock for the threads of its process, and the outermost section of one takes the lock of
the file, which excludes other objects and other processes. So the processes that share a ledger
can be taken to do each transaction at once.
-/

namespace EnjiGuard.Audit

open Foundation Relation

/-- How the write of a transaction ends; one that fails may have replaced the file. -/
inductive WriteFate
  | done
  | failed (replaced : Bool)
  deriving DecidableEq, Repr

/-- How a call on the ledger ends. -/
inductive LedgerOutcome
  | recorded
  | reported (runs : List AuditRun)
  | failed (error : AuditError)

abbrev LedgerCode := Code (Option FileText) LedgerOutcome

/-- A call on the ledger, with what happens to it: the fate of its write, and the answers about
tasks. -/
inductive LedgerCall
  | recordStarted (entry : AuditLedgerEntry) (fate : WriteFate)
  | reconcile (repoId : String) (upstream : List AuditRun) (now : Datetime)
      (taskLookup : String → TaskReply) (fate : WriteFate)

/-! ### The code -/

/-- A section that reads the file and perhaps writes it, and what comes after it. -/
def transaction (body : Option FileText → Option (Option FileText) × LedgerCode) : LedgerCode :=
  .enter
    (.access id fun file =>
      match body file with
      | (none, next) => .leave next
      | (some file', next) => .access (fun _ => file') fun _ => .leave next)
    (.done (.failed (.other "OSError")))

/-- The end of a transaction that writes. -/
def WriteFate.write (fate : WriteFate) (file : Option FileText) (entries : List AuditLedgerEntry)
    (outcome : LedgerOutcome) : Option (Option FileText) × LedgerCode :=
  match fate with
  | .done => (some (some (.json (ledgerPayload entries))), .done outcome)
  | .failed replaced =>
    (some (if replaced then some (.json (ledgerPayload entries)) else file),
      .done (.failed (.other "OSError")))

/-- Records a run that has started. -/
def recordCode (entry : AuditLedgerEntry) (fate : WriteFate) : LedgerCode :=
  transaction fun file =>
    match readLedger file with
    | .error e => (none, .done (.failed e))
    | .ok entries => fate.write file (recordStarted entries entry) .recorded

/-- Fetches task details with no lock held. -/
def lookupCode (taskLookup : String → TaskReply)
    (next : List (String × TaskLookupResult) → LedgerCode) :
    List String → List (String × TaskLookupResult) → LedgerCode :=
  resolveEach .pause (fun e => .done (.failed e)) taskLookup next

section

variable (codec : StatusCodec) (settings : LedgerSettings) (repoId : String)
variable (upstream : List AuditRun) (now : Datetime) (taskLookup : String → TaskReply)
variable (fate : WriteFate)

/-- Applies the lookups to a freshly read ledger. -/
def commitCode (cache : List (String × TaskLookupResult)) : LedgerCode :=
  transaction fun file =>
    match readLedger file with
    | .error e => (none, .done (.failed e))
    | .ok entries =>
      let commit := commitReconciliation codec settings repoId upstream cache now entries
      let runs := reconciledRuns codec upstream commit
      if commit.changed then fate.write file commit.retained (.reported runs)
      else (none, .done (.reported runs))

def readCode (next : List AuditLedgerEntry → LedgerCode) : LedgerCode :=
  transaction fun file =>
    match readLedger file with
    | .error e => (none, .done (.failed e))
    | .ok entries => (none, next entries)

/-- The rounds of lookups, and the commit. -/
def reconcileCode : Nat → List (String × TaskLookupResult) → LedgerCode :=
  resolveRounds codec readCode (lookupCode taskLookup) repoId now
    (commitCode codec settings repoId upstream now fate)

end

def LedgerCall.code (codec : StatusCodec) (settings : LedgerSettings) : LedgerCall → LedgerCode
  | recordStarted entry fate => recordCode entry fate
  | reconcile repoId upstream now taskLookup fate =>
    reconcileCode codec settings repoId upstream now taskLookup fate maxLookupRounds []

/-- The processes that begin the calls. -/
def ledgerThreads (codec : StatusCodec) (settings : LedgerSettings) (file : Option FileText)
    (calls : Nat → Option LedgerCall) : Locked (Option FileText) LedgerOutcome :=
  Locked.initial file fun t => (calls t).map (LedgerCall.code codec settings)

/-- The calls before anything has happened. -/
def begunCalls (codec : StatusCodec) (settings : LedgerSettings) (file : Option FileText)
    (calls : Nat → Option LedgerCall) : Serial (Option FileText) LedgerOutcome :=
  ⟨file, fun t => (calls t).map (LedgerCall.code codec settings)⟩

/-- What happens to calls whose transactions happen at once: one of them looks up a task, its next
transaction is refused or happens as a whole, or a process crashes, and a transaction that it was in
has happened or not. -/
inductive LedgerStep (layout : Layout) (a : Serial (Option FileText) LedgerOutcome) :
    Serial (Option FileText) LedgerOutcome → Prop
  | lookedUp {t : Nat} {next : LedgerCode} (hcode : a.codes t = some (.pause next)) :
      LedgerStep layout a { a with codes := Function.update a.codes t (some next) }
  | refused {t : Nat} {body : Option FileText → Option (Option FileText) × LedgerCode}
      (hcode : a.codes t = some (transaction body)) :
      LedgerStep layout a { a with
        codes := Function.update a.codes t (some (.done (.failed (.other "OSError")))) }
  | transacted {t : Nat} {body : Option FileText → Option (Option FileText) × LedgerCode}
      (hcode : a.codes t = some (transaction body)) :
      LedgerStep layout a ⟨(body a.shared).1.getD a.shared,
        Function.update a.codes t (some (body a.shared).2)⟩
  | crashed (process : Nat) {file : Option FileText}
      (hfile : file = a.shared ∨ ∃ t body, layout.process (layout.object t) = process ∧
        a.codes t = some (transaction body) ∧ file = (body a.shared).1.getD a.shared) :
      LedgerStep layout a ⟨file, fun t => if layout.process (layout.object t) = process then none
        else a.codes t⟩

/-- No call is in a transaction. -/
def Quiet (s : Locked (Option FileText) LedgerOutcome) : Prop :=
  ∀ t th, s.threads t = some th → th.frames = []

/-! ### Transactions are sections -/

variable {codec : StatusCodec} {settings : LedgerSettings}

/-- Code that keeps to sections outside of transactions. -/
lemma bracketed_transaction {body : Option FileText → Option (Option FileText) × LedgerCode}
    (h : ∀ file, (body file).2.Bracketed 0) : (transaction body).Bracketed 0 := by
  refine ⟨⟨Nat.one_pos, fun file => ?_⟩, fun _ => rfl⟩
  have hnext := h file
  beta_reduce
  rcases hbody : body file with ⟨_ | file', next⟩ <;> rw [hbody] at hnext
  · exact ⟨Nat.one_pos, hnext⟩
  · exact ⟨Nat.one_pos, fun _ => ⟨Nat.one_pos, hnext⟩⟩

lemma bracketed_write (fate : WriteFate) (file : Option FileText)
    (entries : List AuditLedgerEntry) (outcome : LedgerOutcome) :
    (fate.write file entries outcome).2.Bracketed 0 := by
  cases fate <;> rfl

lemma bracketed_recordCode (entry : AuditLedgerEntry) (fate : WriteFate) :
    (recordCode entry fate).Bracketed 0 := by
  refine bracketed_transaction fun file => ?_
  rcases readLedger file with e | entries
  · rfl
  · exact bracketed_write ..

lemma bracketed_lookupCode {taskLookup : String → TaskReply}
    {next : List (String × TaskLookupResult) → LedgerCode} (h : ∀ cache, (next cache).Bracketed 0)
    (taskIds : List String) (cache : List (String × TaskLookupResult)) :
    (lookupCode taskLookup next taskIds cache).Bracketed 0 := by
  induction taskIds generalizing cache with
  | nil => exact h cache
  | cons taskId taskIds ih =>
    rw [lookupCode, resolveEach, Code.Bracketed]
    rcases taskDetail taskId (taskLookup taskId) with e | detail
    · simp only
      split_ifs
      · exact ih _
      · rfl
    · exact ih _

lemma bracketed_commitCode (repoId : String) (upstream : List AuditRun) (now : Datetime)
    (fate : WriteFate) (cache : List (String × TaskLookupResult)) :
    (commitCode codec settings repoId upstream now fate cache).Bracketed 0 := by
  refine bracketed_transaction fun file => ?_
  rcases readLedger file with e | entries
  · rfl
  · simp only
    split_ifs
    · exact bracketed_write ..
    · rfl

lemma bracketed_reconcileCode (repoId : String) (upstream : List AuditRun) (now : Datetime)
    (taskLookup : String → TaskReply) (fate : WriteFate) (rounds : Nat)
    (cache : List (String × TaskLookupResult)) :
    (reconcileCode codec settings repoId upstream now taskLookup fate rounds
      cache).Bracketed 0 := by
  induction rounds generalizing cache with
  | zero => exact bracketed_commitCode ..
  | succ rounds ih =>
    refine bracketed_transaction fun file => ?_
    rcases readLedger file with e | entries
    · rfl
    · simp only
      split_ifs
      · exact bracketed_commitCode ..
      · exact bracketed_lookupCode ih _ _

/-- Every call accesses the ledger in transactions only, and leaves each of them. -/
lemma bracketed_code (call : LedgerCall) : (call.code codec settings).Bracketed 0 := by
  cases call with
  | recordStarted entry fate => exact bracketed_recordCode entry fate
  | reconcile repoId upstream now taskLookup fate => exact bracketed_reconcileCode ..

/-- What a part of a section does: nothing, or a step and then a part of what is left of it. -/
lemma cases_within {n m : Nat} {code code' : LedgerCode} {file file' : Option FileText}
    (h : Code.Within (n, code, file) (m, code', file')) :
    (n = m ∧ code = code' ∧ file = file') ∨
      ∃ next, 0 < n ∧ Code.advance (n, code, file) = some next ∧
        Code.Within next (m, code', file') := by
  rcases h.cases_head with heq | ⟨next, ⟨hpos, hadvance⟩, hrest⟩
  · cases heq
    exact .inl ⟨rfl, rfl, rfl⟩
  · exact .inr ⟨next, hpos, hadvance, hrest⟩

/-- At the end of a section nothing is left of it. -/
lemma within_leave {n : Nat} {next code : LedgerCode} {file file' : Option FileText}
    (h : Code.Within (1, .leave next, file) (n, code, file')) :
    file' = file ∧ (n = 0 → code = next) := by
  rcases cases_within h with ⟨rfl, -, rfl⟩ | ⟨_, -, hadvance, hrest⟩
  · exact ⟨rfl, fun hzero => by cases hzero⟩
  · cases hadvance
    rcases cases_within hrest with ⟨-, rfl, rfl⟩ | ⟨_, hpos, -⟩
    · exact ⟨rfl, fun _ => rfl⟩
    · cases hpos

/-- What a part of a transaction may have done to the file. -/
lemma within_transaction {body : Option FileText → Option (Option FileText) × LedgerCode}
    {next refused code : LedgerCode} {n : Nat} {file file' : Option FileText}
    (hcode : transaction body = .enter next refused)
    (h : Code.Within (1, next, file) (n, code, file')) :
    (file' = file ∨ file' = (body file).1.getD file) ∧
      (n = 0 → code = (body file).2 ∧ file' = (body file).1.getD file) := by
  cases hcode
  rcases cases_within h with ⟨rfl, -, rfl⟩ | ⟨_, -, hadvance, hrest⟩
  · exact ⟨.inl rfl, fun hzero => by cases hzero⟩
  · cases hadvance
    simp only [id] at hrest
    rcases hbody : body file with ⟨_ | written, after⟩ <;> simp only [hbody] at hrest
    · obtain ⟨rfl, hleft⟩ := within_leave hrest
      exact ⟨.inl rfl, fun hzero => ⟨hleft hzero, rfl⟩⟩
    · rcases cases_within hrest with ⟨rfl, -, rfl⟩ | ⟨_, -, hadvance, hrest⟩
      · exact ⟨.inl rfl, fun hzero => by cases hzero⟩
      · cases hadvance
        obtain ⟨rfl, hleft⟩ := within_leave hrest
        exact ⟨.inr rfl, fun hzero => ⟨hleft hzero, rfl⟩⟩

/-! ### Calls whose transactions happen at once -/

section

variable (codec : StatusCodec) (settings : LedgerSettings)

/-- The code of a call, and where the call stands in the system of transactions. A call that is no
more, or has ended, may still stand there; a reconciliation may not have been noted yet. -/
inductive Tracks : Option LedgerCode → Option Call → Prop
  | gone (call : Option Call) : Tracks none call
  | ended (outcome : LedgerOutcome) (call : Option Call) : Tracks (some (.done outcome)) call
  | recording (entry : AuditLedgerEntry) (fate : WriteFate) :
      Tracks (some (recordCode entry fate)) none
  | waiting (repoId : String) (upstream : List AuditRun) (now : Datetime)
      (taskLookup : String → TaskReply) (fate : WriteFate) :
      Tracks (some (reconcileCode codec settings repoId upstream now taskLookup fate
        maxLookupRounds [])) none
  | reconciling (r : Reconciliation) (taskLookup : String → TaskReply) (fate : WriteFate) :
      Tracks (some (lookupCode taskLookup (reconcileCode codec settings r.repoId r.upstream r.now
        taskLookup fate r.rounds) r.pending r.cache)) (some (.observing r))

/-- The two systems have one ledger, and their calls stand alike. -/
structure Follows (a : Serial (Option FileText) LedgerOutcome) (sys : Sys) : Prop where
  file : sys.file = a.shared
  calls : ∀ t, Tracks codec settings (a.codes t) (sys.calls t)

end

variable {a a' : Serial (Option FileText) LedgerOutcome} {sys sys' : Sys} {t : Nat}

/-- Steps of the system of transactions. -/
abbrev Sys.Runs (codec : StatusCodec) (settings : LedgerSettings) (sys sys' : Sys) : Prop :=
  ∃ ls, Path (Sys.step codec settings) (fun _ _ => True) sys ls sys'

lemma Sys.Runs.refl : Sys.Runs codec settings sys sys := ⟨[], .nil _⟩

lemma Sys.Runs.single {l : Label} (h : Sys.step codec settings sys l = some sys') :
    Sys.Runs codec settings sys sys' :=
  ⟨[l], .cons True.intro h (.nil _)⟩

lemma Sys.Runs.trans {sys'' : Sys} (h : Sys.Runs codec settings sys sys')
    (h' : Sys.Runs codec settings sys' sys'') : Sys.Runs codec settings sys sys'' := by
  obtain ⟨ls, hpath⟩ := h
  obtain ⟨ls', hpath'⟩ := h'
  exact ⟨ls ++ ls', hpath.append hpath'⟩

/-- Threads may be no more, or have ended. -/
lemma Follows.forget (h : Follows codec settings a sys) {codes : Nat → Option LedgerCode}
    (hcodes : ∀ t, codes t = a.codes t ∨ codes t = none ∨
      ∃ outcome, codes t = some (.done outcome)) :
    Follows codec settings ⟨a.shared, codes⟩ sys := by
  refine ⟨h.file, fun t => ?_⟩
  simp only
  rcases hcodes t with heq | heq | ⟨outcome, heq⟩ <;> rw [heq]
  · exact h.calls t
  · exact .gone _
  · exact .ended _ _

/-- A call does something, and the others stand as they did. -/
lemma Follows.put (h : Follows codec settings a sys) {file : Option FileText} {code : LedgerCode}
    {call : Option Call} (hfile : sys'.file = file)
    (hcalls : sys'.calls = Function.update sys.calls t call)
    (htracks : Tracks codec settings (some code) call) :
    Follows codec settings ⟨file, Function.update a.codes t (some code)⟩ sys' := by
  refine ⟨hfile, fun t' => ?_⟩
  simp only [hcalls]
  by_cases ht : t' = t
  · rw [ht, Function.update_self, Function.update_self]
    exact htracks
  · rw [Function.update_of_ne ht, Function.update_of_ne ht]
    exact h.calls t'

/-- What follows a transaction that ends a call without a trace. -/
lemma Follows.end_call (h : Follows codec settings a sys) (outcome : LedgerOutcome) :
    Follows codec settings ⟨a.shared, Function.update a.codes t (some (.done outcome))⟩ sys := by
  refine h.forget fun t' => ?_
  by_cases ht : t' = t
  · exact .inr (.inr ⟨outcome, ht ▸ Function.update_self ..⟩)
  · exact .inl (Function.update_of_ne ht ..)

/-- Recording a run. -/
lemma Follows.record (h : Follows codec settings a sys) (hcall : sys.calls t = none)
    (entry : AuditLedgerEntry) (fate : WriteFate) :
    ∃ body, recordCode entry fate = transaction body ∧ ∃ sys', Sys.Runs codec settings sys sys' ∧
      Follows codec settings ⟨(body a.shared).1.getD a.shared,
        Function.update a.codes t (some (body a.shared).2)⟩ sys' := by
  refine ⟨_, rfl, ?_⟩
  rcases hread : readLedger a.shared with e | entries
  · exact ⟨sys, .refl, h.end_call _⟩
  · have hstep : Sys.step codec settings sys (.recordStarted entry) =
        some { sys with file := some (.json (ledgerPayload (recordStarted entries entry))) } := by
      simp [Sys.step, recordTransaction, h.file, hread, bind, Except.bind, pure, Except.pure]
    have hwritten : ∀ outcome, Follows codec settings
        ⟨some (.json (ledgerPayload (recordStarted entries entry))),
          Function.update a.codes t (some (.done outcome))⟩
        { sys with file := some (.json (ledgerPayload (recordStarted entries entry))) } :=
      fun outcome => h.put rfl (Function.update_eq_self_iff.2 hcall.symm).symm (.ended _ _)
    cases fate with
    | done => exact ⟨_, .single hstep, hwritten _⟩
    | failed replaced =>
      cases replaced with
      | true => exact ⟨_, .single hstep, hwritten _⟩
      | false => exact ⟨sys, .refl, h.end_call _⟩

variable {r : Reconciliation} {taskLookup : String → TaskReply} {fate : WriteFate}

/-- A round of a reconciliation reads the ledger. -/
lemma Follows.round (h : Follows codec settings a sys) (hcall : sys.calls t = some (.observing r))
    (hpending : r.pending = []) {rounds : Nat} (hrounds : r.rounds = rounds + 1) :
    ∃ body, reconcileCode codec settings r.repoId r.upstream r.now taskLookup fate (rounds + 1)
        r.cache = transaction body ∧ ∃ sys', Sys.Runs codec settings sys sys' ∧
      Follows codec settings ⟨(body a.shared).1.getD a.shared,
        Function.update a.codes t (some (body a.shared).2)⟩ sys' := by
  refine ⟨_, rfl, ?_⟩
  rcases hread : readLedger a.shared with e | entries
  · exact ⟨sys, .refl, h.end_call _⟩
  · simp only [Option.getD_none]
    have hstep : Sys.step codec settings sys (.readPending t) =
        some (sys.put t (some (.observing { r with
          pending := pendingLookups codec r.repoId r.now r.cache entries
          rounds := if pendingLookups codec r.repoId r.now r.cache entries = [] then 0
            else rounds }))) := by
      simp [Sys.step, hcall, Call.reconciliation?, Sys.readPending, hpending, hrounds, h.file,
        hread, Call.withReconciliation]
    refine ⟨_, .single hstep, h.put h.file rfl ?_⟩
    split_ifs with hnone
    · rw [hnone]
      exact .reconciling { r with pending := [], rounds := 0 } taskLookup fate
    · exact .reconciling { r with
        pending := pendingLookups codec r.repoId r.now r.cache entries
        rounds := rounds } taskLookup fate

/-- A reconciliation applies its lookups. -/
lemma Follows.commit (h : Follows codec settings a sys)
    (hcall : sys.calls t = some (.observing r)) (hpending : r.pending = [])
    (hrounds : r.rounds = 0) :
    ∃ body, commitCode codec settings r.repoId r.upstream r.now fate r.cache = transaction body ∧
      ∃ sys', Sys.Runs codec settings sys sys' ∧
        Follows codec settings ⟨(body a.shared).1.getD a.shared,
          Function.update a.codes t (some (body a.shared).2)⟩ sys' := by
  refine ⟨_, rfl, ?_⟩
  rcases hread : readLedger a.shared with e | entries
  · exact ⟨sys, .refl, h.end_call _⟩
  · simp only
    have hstep : Sys.step codec settings sys (.commit t) = some { sys.put t none with
        file := if (commitReconciliation codec settings r.repoId r.upstream r.cache r.now
            entries).changed then
          some (.json (ledgerPayload (commitReconciliation codec settings r.repoId r.upstream
            r.cache r.now entries).retained)) else a.shared } := by
      simp [Sys.step, hcall, Call.reconciliation?, Sys.commit, hpending, hrounds,
        commitTransaction, h.file, hread, Call.afterCommit, bind, Except.bind, pure, Except.pure]
    split_ifs at hstep ⊢ with hchanged
    · cases fate with
      | done => exact ⟨_, .single hstep, h.put rfl rfl (.ended _ _)⟩
      | failed replaced =>
        cases replaced with
        | true => exact ⟨_, .single hstep, h.put rfl rfl (.ended _ _)⟩
        | false => exact ⟨sys, .refl, h.end_call _⟩
    · exact ⟨_, .single hstep, h.put rfl rfl (.ended _ _)⟩

/-- Before its first step a reconciliation is noted. -/
lemma Follows.observe (h : Follows codec settings a sys) (hcall : sys.calls t = none)
    {repoId : String} {upstream : List AuditRun} {now : Datetime}
    (hcode : a.codes t = some (reconcileCode codec settings repoId upstream now taskLookup fate
      maxLookupRounds [])) :
    ∃ sys', Sys.Runs codec settings sys sys' ∧ Follows codec settings a sys' ∧
      sys'.calls t = some (.observing { repoId := repoId, upstream := upstream, now := now }) := by
  have hstep : Sys.step codec settings sys (.observe t repoId upstream now) = some (sys.put t
      (some (.observing { repoId := repoId, upstream := upstream, now := now }))) := by
    simp [Sys.step, Sys.beginCall, hcall]
  have hput : Follows codec settings ⟨a.shared, Function.update a.codes t (some (reconcileCode
      codec settings repoId upstream now taskLookup fate maxLookupRounds []))⟩ (sys.put t (some
        (.observing { repoId := repoId, upstream := upstream, now := now }))) :=
    h.put h.file rfl (.reconciling { repoId := repoId, upstream := upstream, now := now }
      taskLookup fate)
  rw [Function.update_eq_self_iff.2 hcode.symm] at hput
  exact ⟨_, .single hstep, hput, Sys.put_calls_self ..⟩

/-- Where a thread enters a section, it begins a transaction of its call. -/
lemma Follows.enter (h : Follows codec settings a sys) {next refused : LedgerCode}
    (hcode : a.codes t = some (.enter next refused)) :
    ∃ body, transaction body = .enter next refused ∧ ∃ sys', Sys.Runs codec settings sys sys' ∧
      Follows codec settings ⟨(body a.shared).1.getD a.shared,
        Function.update a.codes t (some (body a.shared).2)⟩ sys' := by
  have htracks := h.calls t
  generalize hcall : sys.calls t = call at htracks
  generalize hc : a.codes t = code at htracks
  rw [hc] at hcode
  cases htracks with
  | gone => cases hcode
  | ended => cases hcode
  | recording entry fate =>
    obtain ⟨body, hbody, hrest⟩ := h.record hcall entry fate
    rw [hbody] at hcode
    exact ⟨body, Option.some.inj hcode, hrest⟩
  | waiting repoId upstream now taskLookup fate =>
    obtain ⟨sys₁, hrun, hfollows, hcall₁⟩ := h.observe hcall hc
    obtain ⟨body, hbody, sys', hrun', hrest⟩ := hfollows.round hcall₁ rfl rfl
    rw [maxLookupRounds, hbody] at hcode
    exact ⟨body, Option.some.inj hcode, sys', hrun.trans hrun', hrest⟩
  | reconciling r taskLookup fate =>
    rcases hpending : r.pending with _ | ⟨taskId, taskIds⟩ <;>
      rw [hpending, lookupCode, resolveEach] at hcode
    · rcases hrounds : r.rounds with _ | rounds <;> rw [hrounds] at hcode
      · obtain ⟨body, hbody, hrest⟩ := h.commit hcall hpending hrounds
        rw [reconcileCode, resolveRounds, hbody] at hcode
        exact ⟨body, Option.some.inj hcode, hrest⟩
      · obtain ⟨body, hbody, hrest⟩ := h.round hcall hpending hrounds
        rw [hbody] at hcode
        exact ⟨body, Option.some.inj hcode, hrest⟩
    · cases hcode

/-- Where a thread pauses, it looks up a task of its reconciliation. -/
lemma Follows.pause (h : Follows codec settings a sys) {next : LedgerCode}
    (hcode : a.codes t = some (.pause next)) :
    ∃ sys', Sys.Runs codec settings sys sys' ∧
      Follows codec settings ⟨a.shared, Function.update a.codes t (some next)⟩ sys' := by
  have htracks := h.calls t
  generalize hcall : sys.calls t = call at htracks
  generalize hc : a.codes t = code at htracks
  rw [hc] at hcode
  cases htracks with
  | gone => cases hcode
  | ended => cases hcode
  | recording => cases hcode
  | waiting => cases hcode
  | reconciling r taskLookup fate =>
    rcases hpending : r.pending with _ | ⟨taskId, taskIds⟩ <;>
      rw [hpending, lookupCode, resolveEach] at hcode
    · rcases hrounds : r.rounds with _ | rounds <;> rw [hrounds] at hcode <;> cases hcode
    · cases hcode
      have hstep : Sys.step codec settings sys (.lookUp t (taskLookup taskId)) =
          sys.lookUp t (.observing r) r (taskLookup taskId) := by
        simp [Sys.step, hcall, Call.reconciliation?]
      rcases hdetail : taskDetail taskId (taskLookup taskId) with e | detail
      · by_cases hkept : e.isLookupError = true
        · simp only [Sys.lookUp, hpending, hdetail, hkept, if_true] at hstep ⊢
          refine ⟨_, .single hstep, h.put h.file rfl ?_⟩
          exact .reconciling { r with
            cache := (taskId, .error e) :: r.cache, pending := taskIds } taskLookup fate
        · simp only [Sys.lookUp, hpending, hdetail, hkept, Bool.false_eq_true, if_false] at hstep ⊢
          exact ⟨_, .single hstep, h.put h.file rfl (.ended _ _)⟩
      · simp only [Sys.lookUp, hpending, hdetail, if_true] at hstep ⊢
        refine ⟨_, .single hstep, h.put h.file rfl ?_⟩
        exact .reconciling { r with
          cache := (taskId, .ok detail) :: r.cache, pending := taskIds } taskLookup fate

/-- What happens to the threads happens to the transactions. -/
lemma Follows.step {layout : Layout} (h : Follows codec settings a sys)
    (hstep : Serial.Step layout a a') :
    LedgerStep layout a a' ∧ ∃ sys', Sys.Runs codec settings sys sys' ∧
      Follows codec settings a' sys' := by
  cases hstep with
  | paused hcode => exact ⟨.lookedUp hcode, h.pause hcode⟩
  | @refused t next refused hcode =>
    obtain ⟨body, hbody, -⟩ := h.enter hcode
    cases hbody
    exact ⟨.refused hcode, sys, .refl, h.end_call _⟩
  | @passed t next refused code s hcode hwithin =>
    obtain ⟨body, hbody, sys', hrun, hfollows⟩ := h.enter hcode
    obtain ⟨-, hpassed⟩ := within_transaction hbody hwithin
    obtain ⟨rfl, rfl⟩ := hpassed rfl
    exact ⟨.transacted (hcode.trans (congrArg some hbody.symm)), sys', hrun, hfollows⟩
  | @crashed process s hpart =>
    have hcodes : ∀ t, (if layout.process (layout.object t) = process then none else a.codes t) =
        a.codes t ∨ (if layout.process (layout.object t) = process then none else a.codes t) =
          none := by
      intro t
      split_ifs
      · exact .inr rfl
      · exact .inl rfl
    have hunchanged : Follows codec settings ⟨a.shared, fun t =>
        if layout.process (layout.object t) = process then none else a.codes t⟩ sys :=
      h.forget fun t => (hcodes t).imp_right .inl
    rcases hpart with rfl | ⟨t, next, refused, n, code, hprocess, hcode, hwithin⟩
    · exact ⟨.crashed process (.inl rfl), sys, .refl, hunchanged⟩
    · obtain ⟨body, hbody, sys', hrun, hfollows⟩ := h.enter hcode
      rcases (within_transaction hbody hwithin).1 with rfl | rfl
      · exact ⟨.crashed process (.inl rfl), sys, .refl, hunchanged⟩
      · refine ⟨.crashed process (.inr ⟨t, body, hprocess,
          hcode.trans (congrArg some hbody.symm), rfl⟩), sys', hrun, hfollows.forget fun t' => ?_⟩
        by_cases ht : t' = t
        · exact .inr (.inl (if_pos (ht ▸ hprocess)))
        · simp only [Function.update_of_ne ht]
          exact (hcodes t').imp_right .inl

lemma Follows.run {layout : Layout} (h : Follows codec settings a sys)
    (hrun : ReflTransGen (Serial.Step layout) a a') :
    ReflTransGen (LedgerStep layout) a a' ∧ ∃ sys', Sys.Runs codec settings sys sys' ∧
      Follows codec settings a' sys' := by
  induction hrun with
  | refl => exact ⟨.refl, sys, .refl, h⟩
  | tail _ hstep ih =>
    obtain ⟨hserial, sys₁, hrun₁, hfollows₁⟩ := ih
    obtain ⟨hnext, sys₂, hrun₂, hfollows₂⟩ := hfollows₁.step hstep
    exact ⟨hserial.tail hnext, sys₂, hrun₁.trans hrun₂, hfollows₂⟩

/-! ### The processes that share a ledger -/

variable {layout : Layout} {calls : Nat → Option LedgerCall} {file : Option FileText}
variable {ls : List LockLabel} {s : Locked (Option FileText) LedgerOutcome}

lemma bracketed_calls (t : Nat) (code : LedgerCode)
    (hcode : (calls t).map (LedgerCall.code codec settings) = some code) : code.Bracketed 0 := by
  obtain ⟨call, -, rfl⟩ := Option.map_eq_some_iff.1 hcode
  exact bracketed_code call

lemma follows_initial : Follows codec settings (begunCalls codec settings file calls)
    { file := file, calls := fun _ => none, answers := [], creates := [],
      unanswered := [] } := by
  refine ⟨rfl, fun t => ?_⟩
  simp only [begunCalls]
  rcases calls t with _ | call
  · exact .gone _
  · cases call with
    | recordStarted entry fate => exact .recording entry fate
    | reconcile repoId upstream now taskLookup fate =>
      exact .waiting repoId upstream now taskLookup fate

/-- **Transactions on the ledger happen at once**: any number of threads and processes that record
and reconcile runs under the locks, in any order, with sections refused, writes that fail and
processes that crash in the middle of a transaction, leave the file, and are themselves left, as by
some order in which the transactions of these calls happen one at a time. So is the file by a run of
the system in which each transaction is one step. -/
theorem exists_transactions
    (hpath : Path (Locked.step layout) (fun _ _ => True) (ledgerThreads codec settings file calls)
      ls s) (hquiet : Quiet s) :
    ∃ a, ReflTransGen (LedgerStep layout) (begunCalls codec settings file calls) a ∧
      a.shared = s.shared ∧ (∀ t, a.codes t = (s.threads t).map Thread.code) ∧
      ∃ start ls' sys, start.Initial ∧ start.file = file ∧
        Path (Sys.step codec settings) (fun _ _ => True) start ls' sys ∧ sys.file = s.shared := by
  obtain ⟨a, hserial, hagrees⟩ := Locked.exists_serial bracketed_calls hpath
  obtain ⟨htransactions, sys, ⟨ls', hrun⟩, hfollows⟩ := follows_initial.run hserial
  exact ⟨a, htransactions, hagrees.shared hquiet, fun t => hagrees.outside t (hquiet t), _, ls',
    sys, ⟨fun _ => rfl, rfl, rfl, rfl⟩, rfl, hrun, hfollows.file.trans (hagrees.shared hquiet)⟩

/-- A process that records a run, and one that reconciles. -/
def recordAndReconcile : Nat → Option LedgerCall
  | 0 => some (.recordStarted Sys.sampleEntry .done)
  | 1 => some (.reconcile "repo" [] Sys.dawn (fun _ => .notFound) .done)
  | _ => none

/-- A process for each thread. -/
def twoProcesses : Layout := ⟨id, id⟩

/-- The first process crashes after its write, and then the second one reads the file. -/
def crashAndRead : List LockLabel :=
  [.enter 0, .enter 1, .lock 0, .work 0, .work 0, .crash 0, .lock 1, .work 1, .leave 1]

theorem exists_transactions_crashed :
    ∃ a, ReflTransGen (LedgerStep twoProcesses) (begunCalls plainStatusCodec {} none
        recordAndReconcile) a ∧ a.shared = Sys.written [Sys.sampleEntry] ∧ a.codes 0 = none ∧
      ∃ start ls' sys, start.Initial ∧ start.file = none ∧
        Path (Sys.step plainStatusCodec {}) (fun _ _ => True) start ls' sys ∧
          sys.file = Sys.written [Sys.sampleEntry] := by
  obtain ⟨s, hs, hleft⟩ := Option.map_eq_some_iff.1 (show
    (replay (Locked.step twoProcesses) (fun _ _ => true) (ledgerThreads plainStatusCodec {} none
      recordAndReconcile) crashAndRead).map (fun s => (s.shared, s.threads 0,
        (s.threads 1).map Thread.frames, fun t => s.threads (t + 2))) =
        some (Sys.written [Sys.sampleEntry], none, some [], fun _ => none) from rfl)
  simp only [Prod.mk.injEq] at hleft
  obtain ⟨hwritten, hthread, hframes, hothers⟩ := hleft
  have hpath : Path (Locked.step twoProcesses) (fun _ _ => True) (ledgerThreads plainStatusCodec {}
      none recordAndReconcile) crashAndRead s := Path.of_replay (fun _ _ _ _ => True.intro) hs
  have hquiet : Quiet s := by
    intro t th hth
    rcases t with _ | _ | t
    · rw [hthread] at hth
      cases hth
    · rw [hth] at hframes
      exact Option.some.inj hframes
    · rw [congrFun hothers t] at hth
      cases hth
  obtain ⟨a, hserial, hshared, hcodes, start, ls', sys, hinitial, hstart, hrun, hfile⟩ :=
    exists_transactions hpath hquiet
  exact ⟨a, hserial, hshared.trans hwritten, by rw [hcodes, hthread]; rfl, start, ls', sys,
    hinitial, hstart, hrun, hfile.trans hwritten⟩

/-- What holds of the threads whatever they do. -/
structure Excludes (layout : Layout) (s : Locked (Option FileText) LedgerOutcome) : Prop where
  /-- At most one of them is in a transaction. -/
  exclusive : ∀ t t' th th', s.threads t = some th → s.threads t' = some th' → th.frames ≠ [] →
    th'.frames ≠ [] → t = t'
  /-- A transaction has the lock of the file and that of its object. -/
  locked : ∀ t th, s.threads t = some th → th.frames ≠ [] →
    s.holder = some (layout.object t) ∧ s.owner (layout.object t) = some (t, th.frames.length)
  /-- While one of them is not done, one of them goes on. -/
  progress : ∀ t th, s.threads t = some th → ¬ Locked.Finished th →
    ∃ l, Locked.Smooth l ∧ (Locked.step layout s l).isSome = true

/-- **One transaction at a time, and no deadlock**: in every state that threads of any number of
processes come to, also after refusals, failed writes and crashes. -/
theorem excludes_of_path
    (hpath : Path (Locked.step layout) (fun _ _ => True) (ledgerThreads codec settings file calls)
      ls s) : Excludes layout s := by
  have hsound := Locked.sound_of_path bracketed_calls hpath
  constructor
  · intro t t' th th' hth hth' hne hne'
    exact hsound.exclusive hth hth' hne hne'
  · intro t th hth hne
    have hthread := hsound.threads t th hth
    refine ⟨hsound.held t th hth hne, ?_⟩
    rw [hsound.owned t th hth (hthread.count_pos hne), hthread.count_eq hne]
  · intro t th hth hopen
    exact hsound.exists_step hth hopen

theorem excludes_of_path_crashed :
    ∃ s : Locked (Option FileText) LedgerOutcome, s.shared = Sys.written [Sys.sampleEntry] ∧
      (s.threads 0).isNone = true ∧ (s.threads 1).map Thread.frames = some [.outer] ∧
      Excludes twoProcesses s := by
  obtain ⟨s, hs, hleft⟩ := Option.map_eq_some_iff.1 (show
    (replay (Locked.step twoProcesses) (fun _ _ => true) (ledgerThreads plainStatusCodec {} none
      recordAndReconcile) crashAndRead.dropLast).map (fun s =>
        (s.shared, (s.threads 0).isNone, (s.threads 1).map Thread.frames)) =
        some (Sys.written [Sys.sampleEntry], true, some [.outer]) from rfl)
  simp only [Prod.mk.injEq] at hleft
  obtain ⟨hfile, hcrashed, hframes⟩ := hleft
  exact ⟨s, hfile, hcrashed, hframes,
    excludes_of_path (Path.of_replay (fun _ _ _ _ => True.intro) hs)⟩

end EnjiGuard.Audit
