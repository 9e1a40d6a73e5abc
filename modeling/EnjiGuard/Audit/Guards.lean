import EnjiGuard.Audit.System

/-!
# What the ledger remembers

A recorded entry stays in the ledger until something releases it. Every step leaves the entries in
their order, takes out only entries that it releases and adds only the entry it records; a run of
any number of calls does the same.
-/

namespace EnjiGuard.Audit

open Foundation

/-! ### What a transaction keeps -/

section Transactions

variable (codec : StatusCodec) (settings : LedgerSettings)

/-- A detail that reports a task as queued or running. -/
def AuditTaskDetail.isActive (detail : AuditTaskDetail) : Bool :=
  let lifecycle := taskLifecycle codec detail.status detail.startedAt detail.completedAt
  lifecycle = .queued || lifecycle = .running

/-- Whether the commit of a reconciliation keeps an entry. -/
def keeps (repoId : String) (cache : List (String × TaskLookupResult)) (now : Datetime)
    (entry : AuditLedgerEntry) : Bool :=
  entry.repoId ≠ repoId ||
    (!expired entry now && !isTerminalStatus codec entry.taskStatus &&
      (reconcileEntry codec settings entry (entry.taskId.bind fun taskId => cache.lookup taskId) now
        false).retained)

variable {codec settings} {entry : AuditLedgerEntry} {repoId : String} {now : Datetime}
variable {upstream : List AuditRun} {cache : List (String × TaskLookupResult)}

lemma sameIdentity_iff {left right : AuditLedgerEntry} : sameIdentity left right = true ↔
    left.repoId = right.repoId ∧ left.auditKey = right.auditKey ∧ left.taskId = right.taskId := by
  unfold sameIdentity
  rcases left.taskId with _ | l <;> rcases right.taskId with _ | r <;> simp [and_assoc]

lemma sameIdentity_self (entry : AuditLedgerEntry) : sameIdentity entry entry = true :=
  sameIdentity_iff.2 ⟨rfl, rfl, rfl⟩

/-- The upstream rows have no say in whether an entry is kept. -/
lemma reconcileEntry_retained (result : Option TaskLookupResult) (hasUpstream : Bool) :
    (reconcileEntry codec settings entry result now hasUpstream).retained =
      (reconcileEntry codec settings entry result now false).retained := by
  unfold reconcileEntry
  cases entry.taskId with
  | none => rfl
  | some taskId => rfl

/-- A commit keeps some of the entries, in their order. -/
lemma commitReconciliation_retained (entries : List AuditLedgerEntry) :
    (commitReconciliation codec settings repoId upstream cache now entries).retained =
      entries.filter (keeps codec settings repoId cache now) := by
  induction entries with
  | nil => rfl
  | cons entry entries ih =>
    rw [commitReconciliation, List.filter_cons, ← ih]
    by_cases hrepo : entry.repoId = repoId
    · by_cases hgone : expired entry now = true ∨ isTerminalStatus codec entry.taskStatus = true
      · have hkeeps : keeps codec settings repoId cache now entry = false := by
          rcases hgone with h | h <;> simp [keeps, hrepo, h]
        simp [hrepo, hgone, hkeeps]
      · have hgone' := not_or.1 hgone
        have hkeeps : keeps codec settings repoId cache now entry =
            (reconcileEntry codec settings entry
              (entry.taskId.bind fun taskId => cache.lookup taskId) now
              (hasUpstream codec upstream entry.auditKey)).retained := by
          rw [reconcileEntry_retained]
          simp [keeps, hrepo, hgone'.1, hgone'.2]
        rw [hkeeps]
        rcases hretained : (reconcileEntry codec settings entry
          (entry.taskId.bind fun taskId => cache.lookup taskId) now
          (hasUpstream codec upstream entry.auditKey)).retained <;>
          simp [hrepo, hgone'.1, hgone'.2, hretained]
    · simp [hrepo, keeps]

/-- A commit that changes nothing keeps every entry. -/
lemma retained_eq_of_not_changed (entries : List AuditLedgerEntry)
    (h : (commitReconciliation codec settings repoId upstream cache now entries).changed = false) :
    (commitReconciliation codec settings repoId upstream cache now entries).retained = entries := by
  induction entries with
  | nil => rfl
  | cons entry entries ih =>
    rw [commitReconciliation] at h ⊢
    by_cases hrepo : entry.repoId = repoId
    · by_cases hgone : expired entry now = true ∨ isTerminalStatus codec entry.taskStatus = true
      · simp [hrepo, hgone] at h
      · have hgone' := not_or.1 hgone
        simp only [hrepo, ne_eq, not_true_eq_false, if_false, hgone'.1, hgone'.2, Bool.or_self,
          Bool.false_eq_true] at h ⊢
        split_ifs at h ⊢ with hretained
        exact congrArg (entry :: ·) (ih h)
    · simp only [ne_eq, hrepo, not_false_eq_true, if_true] at h ⊢
      exact congrArg (entry :: ·) (ih h)

/-- A run that a detail makes inactive is reported so by the detail itself. -/
lemma not_isActive_of_project {detail : AuditTaskDetail}
    (hentry : isTerminalStatus codec entry.taskStatus = false)
    (h : isActiveRun codec (project entry (some detail)) = false) :
    detail.isActive codec = false := by
  have hstatus : codec.normalize ((project entry (some detail)).status.getD "") ∈
      failureStatuses ++ terminalStatuses →
      codec.normalize (detail.status.getD "") ∈ failureStatuses ++ terminalStatuses := by
    by_cases hempty : detail.status.getD "" = ""
    · intro hmem
      have hterminal : codec.normalize (entry.taskStatus.getD "") ∈ terminalStatuses := by
        have hmem' : codec.normalize (entry.taskStatus.getD "") ∈
            failureStatuses ++ terminalStatuses := by
          simpa [project, orText, hempty] using hmem
        rcases List.mem_append.1 hmem' with h' | h'
        · exact List.mem_append.2 (Or.inr h')
        · exact h'
      simp [isTerminalStatus, hterminal] at hentry
    · simp [project, orText, hempty]
  have hcompleted : (project entry (some detail)).completedAt = detail.completedAt := rfl
  simp only [isActiveRun, AuditRun.lifecycle, AuditTaskDetail.isActive, taskLifecycle,
    hcompleted, List.mem_append] at h hstatus ⊢
  by_cases hfailure : codec.normalize (detail.status.getD "") ∈ failureStatuses
  · simp [hfailure]
  · by_cases hdone : detail.completedAt ≠ none ∨
      codec.normalize (detail.status.getD "") ∈ terminalStatuses
    · simp [hfailure, hdone]
    · obtain ⟨hnone, hterminal⟩ := not_or.1 hdone
      have hproject := fun hmem => not_or.2 ⟨hfailure, hterminal⟩ (hstatus hmem)
      obtain ⟨hfailure', hterminal'⟩ := not_or.1 hproject
      simp only [hfailure', hnone, hterminal', if_false, or_self] at h
      split_ifs at h <;> simp at h

/-- Why a commit does not keep an entry. -/
lemma keeps_eq_false (h : keeps codec settings repoId cache now entry = false) :
    entry.repoId = repoId ∧
      (entry.expiresAt ≤ now ∨ isTerminalStatus codec entry.taskStatus = true ∨
        ∃ taskId, entry.taskId = some taskId ∧
          ((∃ detail, cache.lookup taskId = some (.ok detail) ∧ detail.isActive codec = false) ∨
            ∃ text, cache.lookup taskId = some (.error (.notFound text)) ∧
              Timedelta.seconds settings.lookupGraceSeconds < now.sub entry.observedAt)) := by
  by_cases hrepo : entry.repoId = repoId
  · refine ⟨hrepo, ?_⟩
    by_cases hexpired : entry.expiresAt ≤ now
    · exact Or.inl hexpired
    · cases hterminal : isTerminalStatus codec entry.taskStatus with
      | true => exact Or.inr (Or.inl rfl)
      | false =>
        refine Or.inr (Or.inr ?_)
        have hretained : (reconcileEntry codec settings entry
            (entry.taskId.bind fun taskId => cache.lookup taskId) now false).retained = false := by
          simpa [keeps, hrepo, expired, hexpired, hterminal] using h
        unfold reconcileEntry at hretained
        rcases htask : entry.taskId with _ | taskId
        · simp [htask] at hretained
        · refine ⟨taskId, rfl, ?_⟩
          simp only [htask, Option.bind_some] at hretained
          rcases hresult : cache.lookup taskId with _ | (e | detail)
          · simp [hresult] at hretained
          · simp only [hresult] at hretained
            cases e with
            | notFound text =>
              refine Or.inr ⟨text, rfl, ?_⟩
              by_contra hgrace
              simp [hgrace] at hretained
            | upstream | malformed | repositoryUnusable | actionUnusable | other =>
              simp at hretained
          · refine Or.inl ⟨detail, rfl, not_isActive_of_project hterminal ?_⟩
            by_contra hactive
            simp [hresult, Bool.not_eq_false _ ▸ hactive] at hretained
  · simp [keeps, hrepo] at h

end Transactions

namespace Sys

variable (codec : StatusCodec) (settings : LedgerSettings)

/-! ### What the calls know -/

/-- What a call keeps of its lookups was answered by the upstream service. -/
structure Informed (s : Sys) : Prop where
  cached : ∀ id call r, s.calls id = some call → call.reconciliation? = some r →
    ∀ result ∈ r.cache, result ∈ s.answers
  replied : ∀ result ∈ s.answers, ∃ reply, result.2 = taskDetail result.1 reply

variable {codec settings} {s s' : Sys} {l : Label}

lemma reconciliation?_withReconciliation {call : Call} {r r' : Reconciliation}
    (h : call.reconciliation? = some r) :
    (call.withReconciliation r').reconciliation? = some r' := by
  cases call <;> simp_all [Call.reconciliation?, Call.withReconciliation]

lemma Informed.put (h : s.Informed) {id : Nat} {call : Option Call}
    (hcall : ∀ c r, call = some c → c.reconciliation? = some r →
      ∀ result ∈ r.cache, result ∈ s.answers) : (s.put id call).Informed := by
  refine ⟨?_, h.replied⟩
  intro other c r hc hr
  by_cases hother : other = id
  · rw [hother, put_calls_self] at hc
    exact hcall c r hc hr
  · rw [put_calls_of_ne s call hother] at hc
    exact h.cached other c r hc hr

lemma Informed.withFile (h : s.Informed) (file : Option FileText) :
    ({ s with file := file } : Sys).Informed := ⟨h.cached, h.replied⟩

lemma Informed.withCreates (h : s.Informed) (creates : List AuditRunStart) :
    ({ s with creates := creates } : Sys).Informed := ⟨h.cached, h.replied⟩

lemma Informed.lose (h : s.Informed) (lost : List AuditRunStart) : (s.lose lost).Informed :=
  ⟨h.cached, h.replied⟩

lemma Informed.moved (h : s.Informed) (hmoved : Moved codec settings s l s') : s'.Informed := by
  cases hmoved with
  | noted => exact h.withFile _
  | observed => exact h.put fun c r hc hr => by cases hc; cases hr; simp
  | started => exact h.put fun c r hc hr => by cases hc; cases hr; simp
  | round pending rounds hcall hr =>
    apply h.put
    intro c r' hc hr'
    cases hc
    rw [reconciliation?_withReconciliation hr, Option.some.injEq] at hr'
    rw [← hr']
    exact fun result => h.cached _ _ _ hcall hr result
  | @answered id call r taskId pending reply hcall hr hpending =>
    refine ⟨?_, ?_⟩
    · intro other c r' hc hr' result hresult
      by_cases hother : other = id
      · rw [hother] at hc
        simp only [put_calls_self, Option.some.injEq] at hc
        rw [← hc, reconciliation?_withReconciliation hr, Option.some.injEq] at hr'
        rw [← hr'] at hresult
        rcases List.mem_cons.1 hresult with hresult | hresult
        · rw [hresult]
          exact List.mem_cons_self
        · exact List.mem_cons_of_mem _ (h.cached _ _ _ hcall hr _ hresult)
      · simp only [put_calls_of_ne s _ hother] at hc
        exact List.mem_cons_of_mem _ (h.cached other c r' hc hr' _ hresult)
    · intro result hresult
      rcases List.mem_cons.1 hresult with rfl | hresult
      · exact ⟨reply, rfl⟩
      · exact h.replied result hresult
  | @committed id call r es commit hcall hr hread hcommit =>
    refine Informed.withFile (h.put ?_) _
    intro c r' hc hr'
    cases call <;> cases hc
    cases hr'
  | decided call _ _ hafter =>
    refine (h.put fun c r hc hr => ?_).lose _
    rw [hafter c hc] at hr
    cases hr
  | created => exact (h.put fun c r hc hr => by cases hc; cases hr).withCreates _
  | recorded => exact (h.put fun c r hc hr => by cases hc; cases hr).withFile _
  | ended id => exact h.put fun c r hc hr => by cases hc

/-! ### What a step does to the entries -/

variable (codec settings)

/-- The repository whose transaction a step is. -/
def repoOf (s : Sys) (l : Label) : Option String :=
  ((s.recorded settings l).map AuditLedgerEntry.repoId).or
    ((s.reconciled l).map Reconciliation.repoId)

/-- What releases an entry: another record of the same run, or a reconciliation of its repository
that finds the entry out of date or its task at an end. -/
inductive Released (s : Sys) (l : Label) (entry : AuditLedgerEntry) : Prop
  | replaced (other : AuditLedgerEntry) (hrecorded : s.recorded settings l = some other)
      (hsame : sameIdentity entry other = true)
  | expired (r : Reconciliation) (hreconciled : s.reconciled l = some r)
      (hrepo : entry.repoId = r.repoId) (hexpired : entry.expiresAt ≤ r.now)
  | terminal (r : Reconciliation) (hreconciled : s.reconciled l = some r)
      (hrepo : entry.repoId = r.repoId)
      (hterminal : isTerminalStatus codec entry.taskStatus = true)
  | inactive (r : Reconciliation) (taskId : String) (detail : AuditTaskDetail)
      (hreconciled : s.reconciled l = some r) (hrepo : entry.repoId = r.repoId)
      (htask : entry.taskId = some taskId) (hcached : (taskId, .ok detail) ∈ r.cache)
      (hanswer : (taskId, .ok detail) ∈ s.answers)
      (hown : detail.taskId = taskId) (hdetail : detail.isActive codec = false)
  | notFound (r : Reconciliation) (taskId : String) (hreconciled : s.reconciled l = some r)
      (hrepo : entry.repoId = r.repoId) (htask : entry.taskId = some taskId)
      (hcached : (taskId, .error (.notFound taskId)) ∈ r.cache)
      (hanswer : (taskId, .error (.notFound taskId)) ∈ s.answers)
      (hgrace : Timedelta.seconds settings.lookupGraceSeconds < r.now.sub entry.observedAt)

/-- A step takes out only what it releases, and adds only what it records. -/
structure Keeps (s : Sys) (l : Label) (s' : Sys) (kept : AuditLedgerEntry → Bool) : Prop where
  entries : s'.entries = s.entries.filter kept ++
    (s.recorded settings l).toList.filter fun entry => entry.Named
  released : ∀ entry ∈ s.entries, kept entry = false → Released codec settings s l entry
  replaced : ∀ entry other, s.recorded settings l = some other →
    sameIdentity entry other = true → kept entry = false
  others : ∀ entry : AuditLedgerEntry, s.repoOf settings l ≠ some entry.repoId → kept entry = true

variable {codec settings}

lemma taskDetail_ok {taskId : String} {reply : TaskReply} {detail : AuditTaskDetail}
    (h : taskDetail taskId reply = .ok detail) : detail.taskId = taskId := by
  cases reply <;> simp only [taskDetail, reduceCtorEq] at h
  split_ifs at h
  cases h
  rfl

lemma taskDetail_notFound {taskId text : String} {reply : TaskReply}
    (h : taskDetail taskId reply = .error (.notFound text)) : text = taskId := by
  cases reply <;> simp only [taskDetail, reduceCtorEq, Except.error.injEq,
    AuditError.notFound.injEq] at h
  · split_ifs at h
    cases h
  · exact h.symm

lemma mem_of_lookup {taskId : String} {result : TaskLookupResult}
    {cache : List (String × TaskLookupResult)} (h : cache.lookup taskId = some result) :
    (taskId, result) ∈ cache := by
  induction cache with
  | nil => cases h
  | cons head cache ih =>
    obtain ⟨key, value⟩ := head
    rw [List.lookup_cons] at h
    by_cases hkey : taskId = key
    · simp only [hkey, beq_self_eq_true, Option.some.injEq] at h
      simp [hkey, h]
    · simp only [beq_eq_false_iff_ne.2 hkey] at h
      exact List.mem_cons_of_mem _ (ih h)

/-- A commit that does not keep an entry releases it. -/
lemma Informed.released (h : s.Informed) {id : Nat} {call : Call} {r : Reconciliation}
    {entry : AuditLedgerEntry} (hcall : s.calls id = some call) (hr : call.reconciliation? = some r)
    (hkeeps : keeps codec settings r.repoId r.cache r.now entry = false) :
    Released codec settings s (.commit id) entry := by
  have hreconciled : s.reconciled (.commit id) = some r := by
    rw [reconciled, hcall]
    exact hr
  obtain ⟨hrepo, hexpired | hterminal | ⟨taskId, htask, hresult⟩⟩ := keeps_eq_false hkeeps
  · exact .expired r hreconciled hrepo hexpired
  · exact .terminal r hreconciled hrepo hterminal
  · rcases hresult with ⟨detail, hlookup, hdetail⟩ | ⟨text, hlookup, hgrace⟩
    · have hcached := mem_of_lookup hlookup
      have hanswer := h.cached _ _ _ hcall hr _ hcached
      obtain ⟨reply, hreply⟩ := h.replied _ hanswer
      exact .inactive r taskId detail hreconciled hrepo htask hcached hanswer
        (taskDetail_ok hreply.symm) hdetail
    · have hcached := mem_of_lookup hlookup
      have hanswer := h.cached _ _ _ hcall hr _ hcached
      obtain ⟨reply, hreply⟩ := h.replied _ hanswer
      have htext := taskDetail_notFound hreply.symm
      rw [htext] at hcached hanswer
      exact .notFound r taskId hreconciled hrepo htask hcached hanswer hgrace

/-- A step that neither records nor reconciles leaves the entries alone. -/
lemma keeps_of_same_file (hfile : s'.file = s.file) (hrecorded : s.recorded settings l = none) :
    Keeps codec settings s l s' fun _ => true := by
  refine ⟨?_, by simp, ?_, by simp⟩
  · rw [entries_congr hfile, hrecorded]
    simp
  · intro _ other hother
    rw [hrecorded] at hother
    cases hother

lemma named_of_entries {entry : AuditLedgerEntry} (h : entry ∈ s.entries) : entry.Named := by
  unfold entries at h
  split at h
  · next hread => exact named_of_readLedger hread entry h
  · cases h

/-- A record takes out the entry of the same run and adds the new one. -/
lemma keeps_of_recorded {entry : AuditLedgerEntry} {es : List AuditLedgerEntry}
    (hread : readLedger s.file = .ok es) (hrecorded : s.recorded settings l = some entry)
    (hfile : s'.file = written (recordStarted es entry)) :
    Keeps codec settings s l s' fun item => !sameIdentity item entry := by
  have hes := entries_of_readLedger hread
  refine ⟨?_, ?_, ?_, ?_⟩
  · have hread' : readLedger s'.file =
        .ok ((recordStarted es entry).filter fun entry => entry.Named) := by
      rw [hfile]
      exact readLedger_ledgerPayload _
    have hnamed : (es.filter fun item => !sameIdentity item entry).filter
        (fun entry => entry.Named) = es.filter fun item => !sameIdentity item entry := by
      apply List.filter_eq_self.2
      intro item hitem
      exact decide_eq_true (named_of_readLedger hread item (List.mem_filter.1 hitem).1)
    rw [entries_of_readLedger hread', recordStarted, List.filter_append, hnamed, hes, hrecorded]
    rfl
  · intro item _ hsame
    exact .replaced entry hrecorded (by simpa using hsame)
  · intro item other hother hsame
    rw [hrecorded, Option.some.injEq] at hother
    rw [hother, hsame]
    rfl
  · intro item hitem
    rw [repoOf, hrecorded] at hitem
    have hrepo : item.repoId ≠ entry.repoId := fun h => hitem (by simp [h])
    simp [sameIdentity, hrepo]

/-- A commit writes what it keeps. -/
lemma keeps_of_committed (h : s.Informed) {id : Nat} {call : Call} {r : Reconciliation}
    {es : List AuditLedgerEntry} {committed : ReconciliationCommit} (hcall : s.calls id = some call)
    (hr : call.reconciliation? = some r) (hread : readLedger s.file = .ok es)
    (hcommitted : committed =
      commitReconciliation codec settings r.repoId r.upstream r.cache r.now es)
    (hfile : s'.file = if committed.changed then written committed.retained else s.file) :
    Keeps codec settings s (.commit id) s' (keeps codec settings r.repoId r.cache r.now) := by
  have hes := entries_of_readLedger hread
  have hretained : committed.retained =
      es.filter (keeps codec settings r.repoId r.cache r.now) := by
    rw [hcommitted, commitReconciliation_retained]
  refine ⟨?_, ?_, ?_, ?_⟩
  · have hentries : s'.entries = committed.retained := by
      cases hchanged : committed.changed with
      | true =>
        rw [hchanged, if_pos rfl] at hfile
        apply entries_of_readLedger
        rw [hfile]
        apply readLedger_of_named
        intro entry hentry
        rw [hretained] at hentry
        exact named_of_readLedger hread entry (List.mem_filter.1 hentry).1
      | false =>
        rw [hchanged, if_neg Bool.false_ne_true] at hfile
        rw [entries_congr hfile, hes, hcommitted]
        rw [hcommitted] at hchanged
        exact (retained_eq_of_not_changed es hchanged).symm
    rw [hentries, hretained, hes]
    simp [recorded]
  · intro entry _ hkeeps
    exact h.released hcall hr hkeeps
  · intro _ other hother
    cases hother
  · intro entry hentry
    have hrepo : entry.repoId ≠ r.repoId := by
      intro h
      apply hentry
      simp [repoOf, recorded, reconciled, hcall, hr, h]
    simp [keeps, hrepo]

/-- Every step takes out only what it releases, and adds only what it records. -/
theorem keeps_of_moved (h : s.Informed) (hmoved : Moved codec settings s l s') :
    ∃ kept, Keeps codec settings s l s' kept := by
  cases hmoved with
  | noted hread => exact ⟨_, keeps_of_recorded hread rfl rfl⟩
  | observed => exact ⟨_, keeps_of_same_file rfl rfl⟩
  | started => exact ⟨_, keeps_of_same_file rfl rfl⟩
  | round => exact ⟨_, keeps_of_same_file rfl rfl⟩
  | answered => exact ⟨_, keeps_of_same_file rfl rfl⟩
  | committed _ hcall hr hread hcommitted =>
    exact ⟨_, keeps_of_committed h hcall hr hread hcommitted rfl⟩
  | decided => exact ⟨_, keeps_of_same_file rfl rfl⟩
  | created => exact ⟨_, keeps_of_same_file rfl rfl⟩
  | recorded hcall hentry hread =>
    exact ⟨_, keeps_of_recorded hread (by simp only [Sys.recorded, hcall, hentry]) rfl⟩
  | ended id hrecorded => exact ⟨_, keeps_of_same_file rfl hrecorded⟩

/-! ### Runs -/

lemma Informed.initial (h : s.Initial) : s.Informed := by
  refine ⟨?_, by simp [h.answers]⟩
  intro id call r hcall
  rw [h.calls id] at hcall
  cases hcall

lemma Informed.step (h : s.Informed) (hstep : s.step codec settings l = some s') : s'.Informed :=
  h.moved (step_moved hstep)

variable (codec settings)

/-- Every state the calls of any number of processes lead to. -/
abbrev Reached (s : Sys) : Prop :=
  Reachable Sys.Initial (Sys.step codec settings) (fun _ _ => True) s

/-- A run of the calls of any number of processes. -/
abbrev Run (s : Sys) (ls : List Label) (s' : Sys) : Prop :=
  Path (Sys.step codec settings) (fun _ _ => True) s ls s'

/-- A step and the run after it keep the guards of the ledger, as far as the step records an entry
that is meant. -/
structure GuardsKept (meant : AuditLedgerEntry → Prop) (s : Sys) (l : Label) (s₁ : Sys)
    (ls : List Label) (s₂ : Sys) : Prop where
  /-- A recorded entry stays until a later step releases it. -/
  recorded : ∀ entry, s.recorded settings l = some entry → meant entry →
    entry ∈ s₂.entries ∨
      Happens (Sys.step codec settings) (fun s l => Released codec settings s l entry) s₁ ls
  /-- So does every entry that is in the ledger. -/
  stays : ∀ entry ∈ s.entries, entry ∈ s₂.entries ∨
    Happens (Sys.step codec settings) (fun s l => Released codec settings s l entry) s (l :: ls)
  /-- Entries that stay keep their order. -/
  order : ∀ a b, [a, b].Sublist s.entries → [a, b].Sublist s₂.entries ∨
    Happens (Sys.step codec settings)
      (fun s l => Released codec settings s l a ∨ Released codec settings s l b) s (l :: ls)
  /-- A transaction leaves the entries of other repositories as they are. -/
  others : ∀ repoId, s.repoOf settings l ≠ some repoId →
    (s₁.entries.filter fun entry => entry.repoId = repoId) =
      s.entries.filter fun entry => entry.repoId = repoId
  /-- Only a record brings in an entry that is not there. -/
  notBroughtBack : ∀ entry ∉ s.entries, entry ∈ s₂.entries →
    Happens (Sys.step codec settings) (fun s l => s.recorded settings l = some entry) s (l :: ls)

variable {codec settings} {kept : AuditLedgerEntry → Bool} {entry : AuditLedgerEntry}

lemma Keeps.mem (h : Keeps codec settings s l s' kept) (hentry : entry ∈ s.entries) :
    entry ∈ s'.entries ∨ Released codec settings s l entry := by
  cases hkept : kept entry with
  | true =>
    rw [h.entries]
    exact Or.inl (List.mem_append_left _ (List.mem_filter.2 ⟨hentry, hkept⟩))
  | false => exact Or.inr (h.released entry hentry hkept)

lemma Keeps.mem_recorded (h : Keeps codec settings s l s' kept)
    (hrecorded : s.recorded settings l = some entry) (hnamed : entry.Named) :
    entry ∈ s'.entries := by
  rw [h.entries, hrecorded]
  exact List.mem_append_right _ (by simp [hnamed])

lemma Keeps.sublist (h : Keeps codec settings s l s' kept) {a b : AuditLedgerEntry}
    (hab : [a, b].Sublist s.entries) : [a, b].Sublist s'.entries ∨
      (Released codec settings s l a ∨ Released codec settings s l b) := by
  have ha : a ∈ s.entries := hab.subset List.mem_cons_self
  have hb : b ∈ s.entries := hab.subset (by simp)
  cases hkepta : kept a with
  | false => exact Or.inr (Or.inl (h.released a ha hkepta))
  | true =>
    cases hkeptb : kept b with
    | false => exact Or.inr (Or.inr (h.released b hb hkeptb))
    | true =>
      have hfilter : [a, b].filter kept = [a, b] := by simp [hkepta, hkeptb]
      rw [h.entries, ← hfilter]
      exact Or.inl ((hab.filter kept).trans (List.sublist_append_left _ _))

lemma Keeps.of_mem (h : Keeps codec settings s l s' kept) (hentry : entry ∈ s'.entries) :
    entry ∈ s.entries ∨ s.recorded settings l = some entry := by
  rw [h.entries] at hentry
  rcases List.mem_append.1 hentry with hentry | hentry
  · exact Or.inl (List.mem_filter.1 hentry).1
  · exact Or.inr (Option.mem_toList.1 (List.mem_filter.1 hentry).1)

lemma Keeps.filter_other (h : Keeps codec settings s l s' kept) {repoId : String}
    (hrepo : s.repoOf settings l ≠ some repoId) :
    (s'.entries.filter fun entry => entry.repoId = repoId) =
      s.entries.filter fun entry => entry.repoId = repoId := by
  have hkept : (s.entries.filter kept).filter (fun entry => entry.repoId = repoId) =
      s.entries.filter fun entry => entry.repoId = repoId := by
    rw [List.filter_filter]
    apply List.filter_congr
    intro entry _
    by_cases hentry : entry.repoId = repoId
    · simp [hentry, h.others entry (hentry ▸ hrepo)]
    · simp [hentry]
  have hnew : ((s.recorded settings l).toList.filter (fun entry => entry.Named)).filter
      (fun entry => entry.repoId = repoId) = [] := by
    rcases hrecorded : s.recorded settings l with _ | entry
    · rfl
    · have hentry : entry.repoId ≠ repoId := by
        intro heq
        apply hrepo
        simp [repoOf, hrecorded, heq]
      simp [List.filter_filter, hentry]
  rw [h.entries, List.filter_append, hkept, hnew, List.append_nil]

/-- What every step does to the entries, a run does step by step. -/
theorem Run.keeps_unless {I : Sys → Prop} {P : Sys → Label → Prop} {ls : List Label}
    (h : Run codec settings s ls s') (hinformed : s.Informed) (h₀ : I s)
    (hstep : ∀ s l s' kept, Keeps codec settings s l s' kept → I s → I s' ∨ P s l) :
    I s' ∨ Happens (Sys.step codec settings) P s ls := by
  refine (h.strengthen hinformed fun s l s' hs _ hs' => hs.step hs').keeps_unless h₀ ?_
  intro s l s' hI hok hs'
  obtain ⟨kept, hkept⟩ := keeps_of_moved hok.2 (step_moved hs')
  exact hstep s l s' kept hkept hI

lemma Reached.informed (h : Reached codec settings s) : s.Informed :=
  h.invariant (fun _ => Informed.initial) fun _ _ _ hs _ hstep => hs.step hstep

/-- In every run a recorded entry stays in the ledger until it is released, when it names its
repository, its project and its audit; no other entry is lost, moved or brought back. -/
theorem guardsKept_of_reached {s₁ s₂ : Sys} {ls : List Label} (h : Reached codec settings s)
    (hstep : s.step codec settings l = some s₁) (hrun : Run codec settings s₁ ls s₂) :
    GuardsKept codec settings AuditLedgerEntry.Named s l s₁ ls s₂ := by
  have hinformed := h.informed
  have hwhole : Run codec settings s (l :: ls) s₂ := .cons trivial hstep hrun
  obtain ⟨kept, hkept⟩ := keeps_of_moved hinformed (step_moved hstep)
  constructor
  case recorded =>
    intro entry hrecorded hnamed
    exact Run.keeps_unless (I := fun s => entry ∈ s.entries) hrun (hinformed.step hstep)
      (hkept.mem_recorded hrecorded hnamed) fun _ _ _ _ hkeeps => hkeeps.mem
  case stays =>
    intro entry hentry
    exact Run.keeps_unless (I := fun s => entry ∈ s.entries) hwhole hinformed hentry
      fun _ _ _ _ hkeeps => hkeeps.mem
  case order =>
    intro a b hab
    exact Run.keeps_unless (I := fun s => [a, b].Sublist s.entries) hwhole hinformed hab
      fun _ _ _ _ hkeeps => hkeeps.sublist
  case others =>
    intro repoId hrepo
    exact hkept.filter_other hrepo
  case notBroughtBack =>
    intro entry hentry hentry'
    rcases Run.keeps_unless (I := fun s => entry ∉ s.entries) hwhole hinformed hentry
      (fun s l s' kept hkeeps hs => by
        by_cases hs' : entry ∈ s'.entries
        · exact Or.inr ((hkeeps.of_mem hs').resolve_left hs)
        · exact Or.inl hs') with hnew | hhappens
    · exact absurd hentry' hnew
    · exact hhappens

/-! ### Concrete runs -/

/-- No calls and no ledger file. -/
def empty : Sys where
  file := none
  calls := fun _ => none
  answers := []
  creates := []
  unanswered := []

lemma empty_initial : empty.Initial := ⟨fun _ => rfl, rfl, rfl, rfl⟩

/-- The moment the sample runs start at. -/
def dawn : Datetime := ⟨63900021600000000, by decide⟩

/-- A number of seconds later. -/
def dawnAfter (seconds : Int) : Datetime :=
  (dawn.add? (Timedelta.seconds seconds)).getD dawn

/-- The entry of a run that was started at dawn. -/
def sampleEntry : AuditLedgerEntry where
  repoId := "repo"
  projectId := "project"
  auditKey := "security"
  taskId := some "task"
  taskStatus := some "queued"
  currentHeadSha := some "head"
  auditedHeadSha := none
  observedAt := dawn
  startedAt := none
  expiresAt := dawnAfter 21600

/-- A reconciliation that finds the run under way, beside the record of another one. -/
def sampleReconciliation : List Label :=
  [.observe 0 "repo" [] dawn, .readPending 0, .recordStarted { sampleEntry with repoId := "other" },
    .lookUp 0 (.task (some "task") (some "running") none none none), .readPending 0, .commit 0]

theorem guardsKept_of_reached_sample :
    ∃ s, s.entries.map AuditLedgerEntry.repoId = ["repo", "other"] ∧
      GuardsKept plainStatusCodec {} AuditLedgerEntry.Named empty (.recordStarted sampleEntry)
        { empty with file := written [sampleEntry] } sampleReconciliation s := by
  have hreplay : replay (Sys.step plainStatusCodec {}) (fun _ _ => true)
      { empty with file := written [sampleEntry] } sampleReconciliation = some _ := rfl
  refine ⟨_, ?_, guardsKept_of_reached (.start empty_initial) rfl
    (.of_replay (fun _ _ _ _ => trivial) hreplay)⟩
  decide +kernel

/-- An entry without a project is recorded and not read back. -/
theorem not_guardsKept_unnamed :
    ¬ ∀ codec settings s l s₁ ls s₂, Reached codec settings s →
      s.step codec settings l = some s₁ → Run codec settings s₁ ls s₂ →
      GuardsKept codec settings (fun _ => True) s l s₁ ls s₂ := by
  intro h
  let entry : AuditLedgerEntry := { sampleEntry with projectId := "" }
  have hkept := h plainStatusCodec {} empty (.recordStarted entry)
    { empty with file := written [entry] } [] _ (.start empty_initial) rfl (.nil _)
  rcases hkept.recorded entry rfl trivial with hmem | hhappens
  · exact (named_of_entries hmem).2.1 rfl
  · exact hhappens

end Sys

end EnjiGuard.Audit
