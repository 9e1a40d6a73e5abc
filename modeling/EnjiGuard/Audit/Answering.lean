import EnjiGuard.Audit.Guards

/-!
# Later starts

A start call that begins after a run was recorded finds a run that stands for the recorded one, so
it answers that there is a run already and creates none. The ledger keeps the entry, its commit
projects it, and the reduction to one row for each run does not hide it.
-/

namespace EnjiGuard.Audit

open Foundation

/-! ### Runs that stand for an entry -/

section Evidence

variable (codec : StatusCodec) (settings : LedgerSettings)

/-- An active run of the action of an entry that is not known to be of another head. -/
def Stands (entry : AuditLedgerEntry) (run : AuditRun) : Prop :=
  run.actionKey = some entry.auditKey ∧ isActiveRun codec run = true ∧
    (entry.currentHeadSha = none ∨ run.currentHeadSha = none ∨
      run.currentHeadSha = entry.currentHeadSha)

/-- What a reconciliation reduces to one row for each run: the projected entries, and the upstream
rows that no entry answers for. -/
def evidence (r : Reconciliation) (entries : List AuditLedgerEntry) : List AuditRun :=
  let commit := commitReconciliation codec settings r.repoId r.upstream r.cache r.now entries
  commit.projected ++ unsuppressed r.upstream commit.suppressTaskIds

/-- A row stands for the entry, and so does every active row that is taken for the same run. -/
def Evident (entry : AuditLedgerEntry) (rows : List AuditRun) : Prop :=
  ∃ run ∈ rows, Stands codec entry run ∧
    ∀ other ∈ rows, runIdentity other = runIdentity run → isActiveRun codec other = true →
      Stands codec entry other

variable {codec settings} {entry : AuditLedgerEntry} {rows : List AuditRun} {run : AuditRun}

lemma priority_of_isActiveRun :
    isActiveRun codec run = true ↔ 3 ≤ (run.lifecycle codec).priority := by
  rw [isActiveRun_iff]
  cases run.lifecycle codec <;> simp [AuditTaskLifecycle.priority]

/-- Of several projections of one run an active one is shown, when there is one. -/
lemma isActiveRun_representative {rep : AuditRun}
    (hrep : representativeProjection codec rows = some rep) (hrun : run ∈ rows)
    (hactive : isActiveRun codec run = true) : isActiveRun codec rep = true := by
  rw [priority_of_isActiveRun] at hactive ⊢
  have hrank : ∀ other ∈ rows,
      (other.lifecycle codec).priority ≤ (rep.lifecycle codec).priority := by
    refine rank_le_maxOf? ?_ ?_ hrep
    · intro a b hab
      have hlt : (projectionSortKey codec a.projection).priority <
          (projectionSortKey codec b.projection).priority := hab
      simp [SortKey.lt, hlt]
    · intro a b hab
      have hle : (projectionSortKey codec a.projection).priority ≤
          (projectionSortKey codec b.projection).priority := by
        simp only [SortKey.lt, Bool.or_eq_true, Bool.and_eq_true, decide_eq_true_eq] at hab
        rcases hab with hlt | ⟨heq, -⟩
        · exact hlt.le
        · exact heq.le
      exact hle
  exact hactive.trans (hrank run hrun)

/-- The reduction to one row for each run shows a row that stands for the entry. -/
lemma exists_stands_of_evident (h : Evident codec entry rows) :
    ∃ run ∈ dedupeRuns codec rows, Stands codec entry run := by
  obtain ⟨run, hrun, hstands, hsame⟩ := h
  rcases hrep : representativeProjection codec
    (rows.filter fun other => runIdentity other = runIdentity run) with _ | rep
  · rw [representativeProjection_eq_none, List.filter_eq_nil_iff] at hrep
    exact absurd (decide_eq_true rfl) (hrep run hrun)
  · obtain ⟨hmem, hidentity⟩ := List.mem_filter.1 (representativeProjection_mem hrep)
    have hactive := isActiveRun_representative hrep
      (List.mem_filter.2 ⟨hrun, decide_eq_true rfl⟩) hstands.2.1
    refine ⟨rep, ?_, hsame rep hmem (of_decide_eq_true hidentity) hactive⟩
    refine List.mem_filterMap.2 ⟨runIdentity run, ?_, hrep⟩
    rw [List.mem_eraseDups]
    exact List.mem_map_of_mem hrun

/-! ### What a commit projects -/

variable {repoId : String} {now : Datetime} {upstream : List AuditRun}
variable {cache : List (String × TaskLookupResult)} {entries : List AuditLedgerEntry}

/-- What becomes of an entry in a commit. -/
abbrev outcome (codec : StatusCodec) (settings : LedgerSettings) (upstream : List AuditRun)
    (cache : List (String × TaskLookupResult)) (now : Datetime) (entry : AuditLedgerEntry) :
    EntryReconciliation :=
  reconcileEntry codec settings entry (entry.taskId.bind fun taskId => cache.lookup taskId) now
    (hasUpstream codec upstream entry.auditKey)

/-- The projected rows are those of the entries that are kept. -/
lemma mem_projected :
    run ∈ (commitReconciliation codec settings repoId upstream cache now entries).projected ↔
      ∃ entry ∈ entries, entry.repoId = repoId ∧
        keeps codec settings repoId cache now entry = true ∧
        (outcome codec settings upstream cache now entry).projected = some run := by
  induction entries with
  | nil => simp [commitReconciliation]
  | cons entry entries ih =>
    rw [List.exists_mem_cons_iff, ← ih, commitReconciliation]
    by_cases hrepo : entry.repoId = repoId
    · by_cases hgone : expired entry now = true ∨ isTerminalStatus codec entry.taskStatus = true
      · have hkeeps : keeps codec settings repoId cache now entry = false := by
          rcases hgone with h | h <;> simp [keeps, hrepo, h]
        simp [hrepo, hgone, hkeeps]
      · have hgone' := not_or.1 hgone
        have hkeeps : keeps codec settings repoId cache now entry =
            (outcome codec settings upstream cache now entry).retained := by
          rw [outcome, reconcileEntry_retained]
          simp [keeps, hrepo, hgone'.1, hgone'.2]
        rw [hkeeps]
        rcases hretained : (outcome codec settings upstream cache now entry).retained <;>
          simp [hrepo, hgone'.1, hgone'.2, hretained, Option.mem_toList]
    · simp [hrepo]

/-- A kept entry suppresses the upstream rows of its task. -/
lemma mem_suppressTaskIds {taskId : String} (hentry : entry ∈ entries)
    (hrepo : entry.repoId = repoId) (hkeeps : keeps codec settings repoId cache now entry = true)
    (hsuppress : (outcome codec settings upstream cache now entry).suppressTaskId = some taskId) :
    taskId ∈
      (commitReconciliation codec settings repoId upstream cache now entries).suppressTaskIds := by
  induction entries with
  | nil => cases hentry
  | cons other entries ih =>
    rw [commitReconciliation]
    rcases List.mem_cons.1 hentry with rfl | hentry
    · have hgone : ¬ (expired entry now = true ∨
          isTerminalStatus codec entry.taskStatus = true) := by
        rintro (h | h) <;> simp [keeps, hrepo, h] at hkeeps
      have hgone' := not_or.1 hgone
      rcases hretained : (outcome codec settings upstream cache now entry).retained <;>
        simp [hrepo, hgone'.1, hgone'.2, hretained, hsuppress]
    · have hmem := ih hentry
      by_cases hother : other.repoId = repoId
      · by_cases hgone : expired other now = true ∨
          isTerminalStatus codec other.taskStatus = true
        · simp [hother, hgone, hmem]
        · have hgone' := not_or.1 hgone
          rcases hretained : (outcome codec settings upstream cache now other).retained <;>
            simp [hother, hgone'.1, hgone'.2, hretained, hmem]
      · simp [hother, hmem]

/-- The row of an entry without a detail is active, while the entry has no terminal status. -/
lemma isActiveRun_project_none (h : isTerminalStatus codec entry.taskStatus = false) :
    isActiveRun codec (project entry none) = true := by
  have hterminal : codec.normalize (entry.taskStatus.getD "") ∉ terminalStatuses :=
    of_decide_eq_false h
  have hfailure : codec.normalize (entry.taskStatus.getD "") ∉ failureStatuses :=
    fun hmem => hterminal (List.mem_append.2 (Or.inr hmem))
  simp only [isActiveRun, AuditRun.lifecycle, taskLifecycle, project, orText, Option.map_none,
    Option.bind_none, Option.getD_none, if_true, hterminal, hfailure, if_false, ne_eq,
    not_true_eq_false, or_self]
  split_ifs <;> simp

/-- A cache whose details are of the tasks they were asked for. -/
def OwnDetails (cache : List (String × TaskLookupResult)) : Prop :=
  ∀ taskId detail, cache.lookup taskId = some (.ok detail) → detail.taskId = taskId

/-- The row that is projected is an active one of the action, the head and the task of the entry. -/
lemma projected_spec (hown : OwnDetails cache)
    (hterminal : isTerminalStatus codec entry.taskStatus = false)
    (h : (outcome codec settings upstream cache now entry).projected = some run) :
    run.actionKey = some entry.auditKey ∧ run.currentHeadSha = entry.currentHeadSha ∧
      run.taskId = entry.taskId ∧ isActiveRun codec run = true := by
  have hnone : ∀ run, some (project entry none) = some run →
      run.actionKey = some entry.auditKey ∧ run.currentHeadSha = entry.currentHeadSha ∧
        run.taskId = entry.taskId ∧ isActiveRun codec run = true := by
    intro run hrun
    cases hrun
    exact ⟨rfl, rfl, by simp [project, orText], isActiveRun_project_none hterminal⟩
  unfold outcome reconcileEntry at h
  rcases htask : entry.taskId with _ | taskId
  · simp only [htask] at h
    split_ifs at h
    rw [← htask]
    exact hnone run h
  · simp only [htask, Option.bind_some] at h
    rw [← htask]
    rcases hresult : cache.lookup taskId with _ | (e | detail) <;> simp only [hresult] at h
    · exact hnone run h
    · split at h
      · split_ifs at h
        exact hnone run h
      · exact hnone run h
    · split_ifs at h with hactive
      cases h
      refine ⟨rfl, rfl, ?_, hactive⟩
      have hdetail := hown taskId detail hresult
      by_cases hempty : taskId = ""
      · simp [project, orText, hdetail, hempty]
      · simp [project, orText, hdetail, hempty, htask]

/-- A kept entry with a task id is projected, and suppresses the upstream rows of its task. -/
lemma projected_of_task (upstream : List AuditRun) {taskId : String}
    (htask : entry.taskId = some taskId)
    (hrepo : entry.repoId = repoId) (hkeeps : keeps codec settings repoId cache now entry = true) :
    (∃ run, (outcome codec settings upstream cache now entry).projected = some run) ∧
      (outcome codec settings upstream cache now entry).suppressTaskId = some taskId := by
  have hretained : (outcome codec settings upstream cache now entry).retained = true := by
    rw [outcome, reconcileEntry_retained]
    simp only [keeps, hrepo, ne_eq, not_true_eq_false, decide_false, Bool.false_or,
      Bool.and_eq_true] at hkeeps
    exact hkeeps.2
  unfold outcome reconcileEntry at hretained ⊢
  simp only [htask, Option.bind_some] at hretained ⊢
  rcases hresult : cache.lookup taskId with _ | (e | detail) <;> simp only [hresult] at hretained ⊢
  · exact ⟨⟨_, rfl⟩, trivial⟩
  · split at hretained
    · split_ifs at hretained ⊢
      exact ⟨⟨_, rfl⟩, rfl⟩
    · exact ⟨⟨_, rfl⟩, rfl⟩
  · split_ifs at hretained ⊢
    exact ⟨⟨_, rfl⟩, rfl⟩

lemma not_terminal_of_keeps (hrepo : entry.repoId = repoId)
    (hkeeps : keeps codec settings repoId cache now entry = true) :
    isTerminalStatus codec entry.taskStatus = false := by
  cases hterminal : isTerminalStatus codec entry.taskStatus with
  | false => rfl
  | true => simp [keeps, hrepo, hterminal] at hkeeps

/-- An entry that guards what another one does, and as long: of the same run and head, readable,
without a terminal status and not older. -/
structure Covers (codec : StatusCodec) (entry other : AuditLedgerEntry) : Prop where
  named : other.Named
  identity : sameIdentity other entry = true
  head : other.currentHeadSha = entry.currentHeadSha
  live : isTerminalStatus codec other.taskStatus = false
  observed : entry.observedAt ≤ other.observedAt
  expires : entry.expiresAt ≤ other.expiresAt

/-- The reduction to one row for each run does not hide an entry: no other audit claims its task;
or it has no task, and the upstream rows show no active run of its action or the rows that are
reduced make one evident. -/
def Unhidden (codec : StatusCodec) (settings : LedgerSettings) (r : Reconciliation)
    (entries : List AuditLedgerEntry) (entry : AuditLedgerEntry) : Prop :=
  match entry.taskId with
  | some taskId => ∀ other ∈ entries, other.repoId = entry.repoId →
      other.taskId = some taskId → other.auditKey = entry.auditKey
  | none => hasUpstream codec r.upstream entry.auditKey = false ∨
      Evident codec entry (evidence codec settings r entries)

/-- A row of another run than the entry's is not taken for it. -/
lemma runIdentity_eq {other : AuditRun} (h : runIdentity other = runIdentity run) :
    other.taskId = run.taskId ∧ (run.taskId = none → other.actionKey = run.actionKey) := by
  unfold runIdentity at h
  rcases hother : other.taskId with _ | o <;> rcases hrun : run.taskId with _ | t <;>
    simp_all

lemma mem_evidence {r : Reconciliation} : run ∈ evidence codec settings r entries ↔
    (∃ other ∈ entries, other.repoId = r.repoId ∧
      keeps codec settings r.repoId r.cache r.now other = true ∧
      (outcome codec settings r.upstream r.cache r.now other).projected = some run) ∨
    run ∈ unsuppressed r.upstream (commitReconciliation codec settings r.repoId r.upstream r.cache
      r.now entries).suppressTaskIds := by
  simp only [evidence, List.mem_append, mem_projected]

/-- A commit makes an entry that it keeps and nothing hides evident. -/
lemma evident_of_unhidden {r : Reconciliation} {other : AuditLedgerEntry}
    (hown : OwnDetails r.cache) (hrepo : entry.repoId = r.repoId) (hother : other ∈ entries)
    (hcovers : Covers codec entry other)
    (honly : ∀ item ∈ entries, sameIdentity item entry = true → Covers codec entry item)
    (hkeeps : keeps codec settings r.repoId r.cache r.now other = true)
    (h : Unhidden codec settings r entries entry) :
    Evident codec entry (evidence codec settings r entries) := by
  obtain ⟨hotherRepo, haction, htaskEq⟩ := sameIdentity_iff.1 hcovers.identity
  have hotherRepo' : other.repoId = r.repoId := hotherRepo.trans hrepo
  -- what the row of an entry of the same run stands for
  have hstands : ∀ item ∈ entries, item.repoId = r.repoId → item.auditKey = entry.auditKey →
      item.taskId = entry.taskId → ∀ row,
      (outcome codec settings r.upstream r.cache r.now item).projected = some row →
      Stands codec entry row ∧ row.taskId = entry.taskId := by
    intro item hitem hitemRepo hitemAction hitemTask row hrow
    have hitemCovers := honly item hitem
      (sameIdentity_iff.2 ⟨hitemRepo.trans hrepo.symm, hitemAction, hitemTask⟩)
    obtain ⟨hrowAction, hrowHead, hrowTask, hrowActive⟩ := projected_spec hown hitemCovers.live hrow
    refine ⟨⟨by rw [hrowAction, hitemAction], hrowActive, Or.inr (Or.inr ?_)⟩, ?_⟩
    · rw [hrowHead, hitemCovers.head]
    · rw [hrowTask, hitemTask]
  unfold Unhidden at h
  rcases htask : entry.taskId with _ | taskId <;> simp only [htask] at h
  case some =>
    have hotherTask : other.taskId = some taskId := htaskEq.trans htask
    obtain ⟨⟨run, hrun⟩, hsuppress⟩ :=
      projected_of_task r.upstream hotherTask hotherRepo' hkeeps
    obtain ⟨hrunStands, hrunTask⟩ := hstands other hother hotherRepo' haction htaskEq run hrun
    refine ⟨run, mem_evidence.2 (Or.inl ⟨other, hother, hotherRepo', hkeeps, hrun⟩), hrunStands, ?_⟩
    intro row hrow hidentity _
    have hrowTask : row.taskId = some taskId := by
      rw [(runIdentity_eq hidentity).1, hrunTask, htask]
    rcases mem_evidence.1 hrow with ⟨item, hitem, hitemRepo, hitemKeeps, hitemRow⟩ | hrow
    · have hlive := not_terminal_of_keeps hitemRepo hitemKeeps
      have hitemTask : item.taskId = some taskId :=
        (projected_spec hown hlive hitemRow).2.2.1.symm.trans hrowTask
      have hitemAction := h item hitem (hitemRepo.trans hrepo.symm) hitemTask
      exact (hstands item hitem hitemRepo hitemAction (hitemTask.trans htask.symm) row hitemRow).1
    · have hmem := (List.mem_filter.1 hrow).2
      simp only [hrowTask, decide_eq_true_eq] at hmem
      exact absurd (mem_suppressTaskIds hother hotherRepo' hkeeps hsuppress) hmem
  case none =>
    rcases h with hquiet | hevident
    · have hotherTask : other.taskId = none := htaskEq.trans htask
      have hrun : (outcome codec settings r.upstream r.cache r.now other).projected =
          some (project other none) := by
        simp only [outcome, reconcileEntry, hotherTask, haction, hquiet, if_neg Bool.false_ne_true]
      obtain ⟨hrunStands, hrunTask⟩ := hstands other hother hotherRepo' haction htaskEq _ hrun
      refine ⟨_, mem_evidence.2 (Or.inl ⟨other, hother, hotherRepo', hkeeps, hrun⟩), hrunStands, ?_⟩
      intro row hrow hidentity hactive
      obtain ⟨hrowTask, hrowAction⟩ := runIdentity_eq hidentity
      rw [hrunTask, htask] at hrowTask hrowAction
      have hrowAction' : row.actionKey = some entry.auditKey :=
        (hrowAction rfl).trans hrunStands.1
      rcases mem_evidence.1 hrow with ⟨item, hitem, hitemRepo, hitemKeeps, hitemRow⟩ | hrow
      · have hlive := not_terminal_of_keeps hitemRepo hitemKeeps
        obtain ⟨hitemAction, -, hitemTask, -⟩ := projected_spec hown hlive hitemRow
        refine (hstands item hitem hitemRepo ?_ ?_ row hitemRow).1
        · exact Option.some.inj (hitemAction.symm.trans hrowAction')
        · rw [← hitemTask, hrowTask, htask]
      · have hmem := (List.mem_filter.1 hrow).1
        have hshown : hasUpstream codec r.upstream entry.auditKey = true :=
          List.any_eq_true.2 ⟨row, hmem, by simp [hrowAction', hactive]⟩
        rw [hquiet] at hshown
        cases hshown
    · exact hevident

end Evidence

namespace Sys

variable (codec : StatusCodec) (settings : LedgerSettings)

/-! ### Steps that leave a guard in place -/

/-- The upstream service has not reported the task of an entry as ended, and has reported it as not
found only within its grace. -/
structure Unreported (entry : AuditLedgerEntry) (s : Sys) (l : Label) : Prop where
  active : ∀ taskId detail, entry.taskId = some taskId → (taskId, .ok detail) ∈ s.answers →
    detail.isActive codec = true
  grace : ∀ r taskId, s.reconciled l = some r → entry.repoId = r.repoId →
    entry.taskId = some taskId → (taskId, .error (.notFound taskId)) ∈ r.cache →
    ¬ Timedelta.seconds settings.lookupGraceSeconds < r.now.sub entry.observedAt

/-- A step does not take the guard of an entry away: a later record of the same run covers it, a
reconciliation of its repository reads a clock within its lifetime, and one that a start of its
repository and head waits for does not hide it. -/
structure Guards (entry : AuditLedgerEntry) (s : Sys) (l : Label) : Prop where
  recorded : ∀ other, s.recorded settings l = some other → sameIdentity other entry = true →
    Covers codec entry other
  lifetime : ∀ r, s.reconciled l = some r → entry.repoId = r.repoId → ¬ entry.expiresAt ≤ r.now
  shown : ∀ id start r, l = .commit id → s.calls id = some (.checking start r) →
    r.repoId = entry.repoId → start.rerunState.currentHeadSha = entry.currentHeadSha →
    Unhidden codec settings r s.entries entry

/-- The ledger holds an entry that covers another one, and none of the same run that does not. -/
structure Guarded (entry : AuditLedgerEntry) (s : Sys) : Prop where
  holds : ∃ other ∈ s.entries, sameIdentity other entry = true
  covers : ∀ other ∈ s.entries, sameIdentity other entry = true → Covers codec entry other

variable {codec settings} {s s' : Sys} {l : Label} {entry other : AuditLedgerEntry}
variable {kept : AuditLedgerEntry → Bool}

lemma sameIdentity_trans {a b c : AuditLedgerEntry} (hab : sameIdentity a b = true)
    (hbc : sameIdentity b c = true) : sameIdentity a c = true := by
  rw [sameIdentity_iff] at hab hbc ⊢
  exact ⟨hab.1.trans hbc.1, hab.2.1.trans hbc.2.1, hab.2.2.trans hbc.2.2⟩

lemma sameIdentity_symm {a b : AuditLedgerEntry} (h : sameIdentity a b = true) :
    sameIdentity b a = true := by
  rw [sameIdentity_iff] at h ⊢
  exact ⟨h.1.symm, h.2.1.symm, h.2.2.symm⟩

lemma sub_le_sub {now a b : Datetime} (h : a ≤ b) : now.sub b ≤ now.sub a := by
  have hmicros : a.micros ≤ b.micros := h
  exact Int.sub_le_sub_left (Int.ofNat_le.2 hmicros) _

/-- Only a record of the same run releases an entry that covers a guarded one. -/
lemma replaced_of_released (hcovers : Covers codec entry other)
    (hreport : Unreported codec settings entry s l) (hguards : Guards codec settings entry s l)
    (h : Released codec settings s l other) :
    ∃ item, s.recorded settings l = some item ∧ sameIdentity item entry = true := by
  obtain ⟨hrepo, -, htask⟩ := sameIdentity_iff.1 hcovers.identity
  cases h with
  | replaced item hrecorded hsame =>
    exact ⟨item, hrecorded, sameIdentity_trans (sameIdentity_symm hsame) hcovers.identity⟩
  | expired r hreconciled hr hexpired =>
    have hlater : entry.expiresAt ≤ r.now := Nat.le_trans hcovers.expires hexpired
    exact absurd hlater (hguards.lifetime r hreconciled (hrepo.symm.trans hr))
  | terminal r _ _ hterminal =>
    rw [hcovers.live] at hterminal
    cases hterminal
  | inactive r taskId detail _ _ htask' _ hanswer _ hdetail =>
    rw [hreport.active taskId detail (htask.symm.trans htask') hanswer] at hdetail
    cases hdetail
  | notFound r taskId hreconciled hr htask' hcached _ hgrace =>
    have hage : r.now.sub other.observedAt ≤ r.now.sub entry.observedAt :=
      sub_le_sub hcovers.observed
    exact absurd (Int.lt_of_lt_of_le hgrace hage) (hreport.grace r taskId hreconciled
      (hrepo.symm.trans hr) (htask.symm.trans htask') hcached)

/-- A step that leaves the guard in place keeps the ledger guarded. -/
lemma Guarded.step (h : Guarded codec entry s) (hkept : Keeps codec settings s l s' kept)
    (hreport : Unreported codec settings entry s l) (hguards : Guards codec settings entry s l) :
    Guarded codec entry s' := by
  constructor
  · obtain ⟨other, hother, hsame⟩ := h.holds
    rcases hkept.mem hother with hstays | hreleased
    · exact ⟨other, hstays, hsame⟩
    · obtain ⟨item, hrecorded, hitem⟩ :=
        replaced_of_released (h.covers other hother hsame) hreport hguards hreleased
      have hnamed := (hguards.recorded item hrecorded hitem).named
      exact ⟨item, hkept.mem_recorded hrecorded hnamed, hitem⟩
  · intro other hother hsame
    rcases hkept.of_mem hother with hbefore | hrecorded
    · exact h.covers other hbefore hsame
    · exact hguards.recorded other hrecorded hsame

/-- After a record the ledger holds the entry, and no other one of the same run. -/
lemma eq_of_recorded (hkept : Keeps codec settings s l s' kept)
    (hrecorded : s.recorded settings l = some entry) (hother : other ∈ s'.entries)
    (hsame : sameIdentity other entry = true) : other = entry := by
  rw [hkept.entries, hrecorded] at hother
  rcases List.mem_append.1 hother with hother | hother
  · have hstays := (List.mem_filter.1 hother).2
    rw [hkept.replaced other entry hrecorded hsame] at hstays
    cases hstays
  · simpa using (List.mem_filter.1 hother).1

lemma covers_self (hnamed : entry.Named)
    (hlive : isTerminalStatus codec entry.taskStatus = false) : Covers codec entry entry :=
  ⟨hnamed, sameIdentity_self entry, rfl, hlive, Nat.le_refl _, Nat.le_refl _⟩

/-- A record begins to guard its entry. -/
lemma guarded_of_recorded (hkept : Keeps codec settings s l s' kept)
    (hrecorded : s.recorded settings l = some entry) (hnamed : entry.Named)
    (hlive : isTerminalStatus codec entry.taskStatus = false) : Guarded codec entry s' := by
  constructor
  · exact ⟨entry, hkept.mem_recorded hrecorded hnamed, sameIdentity_self entry⟩
  · intro other hother hsame
    rw [eq_of_recorded hkept hrecorded hother hsame]
    exact covers_self hnamed hlive

/-! ### The call that begins later -/

def begins : Label → Option Nat
  | .observe id _ _ _ => some id
  | .start id _ _ _ => some id
  | _ => none

/-- A call is about the head of an entry, and what it has found stands for the entry. -/
def OnTrack (codec : StatusCodec) (entry : AuditLedgerEntry) : Option Call → Prop
  | some (.checking start r) =>
    start.rerunState.currentHeadSha = entry.currentHeadSha ∧ r.repoId = entry.repoId
  | some (.starting start activeRuns) =>
    start.rerunState.currentHeadSha = entry.currentHeadSha ∧
      ∃ run ∈ activeRuns, Stands codec entry run
  | some (.recording start activeRuns _) =>
    start.rerunState.currentHeadSha = entry.currentHeadSha ∧
      ∃ run ∈ activeRuns, Stands codec entry run
  | _ => True

lemma onTrack_put {id id' : Nat} {call : Option Call} (h : OnTrack codec entry (s.calls id))
    (hcall : id = id' → OnTrack codec entry call) :
    OnTrack codec entry ((s.put id' call).calls id) := by
  by_cases hid : id = id'
  · rw [hid, put_calls_self]
    exact hcall hid
  · rwa [put_calls_of_ne s call hid]

lemma ownDetails_of_informed (hinformed : s.Informed) {id : Nat} {call : Call} {r : Reconciliation}
    (hcall : s.calls id = some call) (hr : call.reconciliation? = some r) : OwnDetails r.cache := by
  intro taskId detail hlookup
  obtain ⟨reply, hreply⟩ :=
    hinformed.replied _ (hinformed.cached _ _ _ hcall hr _ (mem_of_lookup hlookup))
  exact taskDetail_ok hreply.symm

/-- The commit a start waits for returns a run that stands for the entry. -/
lemma exists_stands_of_commit (hinformed : s.Informed) (hguarded : Guarded codec entry s)
    {id : Nat} {start : StartCall} {r : Reconciliation} {es : List AuditLedgerEntry}
    (hcall : s.calls id = some (.checking start r)) (hread : readLedger s.file = .ok es)
    (hhead : start.rerunState.currentHeadSha = entry.currentHeadSha)
    (hrepo : r.repoId = entry.repoId)
    (hreport : Unreported codec settings entry s (.commit id))
    (hguards : Guards codec settings entry s (.commit id)) :
    ∃ run ∈ reconciledRuns codec r.upstream
      (commitReconciliation codec settings r.repoId r.upstream r.cache r.now es),
      Stands codec entry run := by
  have hes := entries_of_readLedger hread
  obtain ⟨other, hother, hsame⟩ := hguarded.holds
  have hcovers := hguarded.covers other hother hsame
  have hkeeps : keeps codec settings r.repoId r.cache r.now other = true := by
    by_contra hkeeps
    have hreleased : Released codec settings s (.commit id) other :=
      hinformed.released hcall rfl (Bool.not_eq_true _ ▸ hkeeps)
    obtain ⟨item, hrecorded, -⟩ := replaced_of_released hcovers hreport hguards hreleased
    cases hrecorded
  have hunhidden := hguards.shown id start r rfl hcall hrepo hhead
  have hcovers' := hguarded.covers
  rw [hes] at hother hunhidden hcovers'
  exact exists_stands_of_evident (evident_of_unhidden (ownDetails_of_informed hinformed hcall rfl)
    hrepo.symm hother hcovers hcovers' hkeeps hunhidden)

lemma onTrack_withReconciliation {call : Call} {r r' : Reconciliation}
    (hr : call.reconciliation? = some r) (hrepo : r'.repoId = r.repoId)
    (h : OnTrack codec entry (some call)) :
    OnTrack codec entry (some (call.withReconciliation r')) := by
  cases call with
  | observing => trivial
  | checking start r₀ =>
    cases hr
    exact ⟨h.1, hrepo.trans h.2⟩
  | starting => cases hr
  | recording => cases hr

/-- No step that leaves the guard in place leads a call astray. -/
lemma onTrack_moved {id : Nat} (h : OnTrack codec entry (s.calls id)) (hinformed : s.Informed)
    (hguarded : Guarded codec entry s) (hmoved : Moved codec settings s l s')
    (hbegins : begins l ≠ some id) (hreport : Unreported codec settings entry s l)
    (hguards : Guards codec settings entry s l) : OnTrack codec entry (s'.calls id) := by
  cases hmoved with
  | noted => exact h
  | observed => exact onTrack_put h fun hid => absurd (congrArg some hid.symm) hbegins
  | started => exact onTrack_put h fun hid => absurd (congrArg some hid.symm) hbegins
  | round pending rounds hcall hr =>
    refine onTrack_put h fun hid => ?_
    rw [hid, hcall] at h
    exact onTrack_withReconciliation hr rfl h
  | answered hcall hr =>
    refine onTrack_put h fun hid => ?_
    rw [hid, hcall] at h
    exact onTrack_withReconciliation hr rfl h
  | @committed id' call r es commit hcall hr hread hcommit =>
    refine onTrack_put h fun hid => ?_
    rw [hid, hcall] at h
    cases call with
    | observing => trivial
    | checking start r₀ =>
      cases hr
      refine ⟨h.1, ?_⟩
      rw [hcommit]
      exact exists_stands_of_commit hinformed hguarded hcall hread h.1 h.2 hreport hguards
    | starting => cases hr
    | recording => cases hr
  | @decided id' start activeRuns audit audits body created accepted lost call hcall haudits
      hafter =>
    show OnTrack codec entry ((s.put id' call).calls id)
    refine onTrack_put h fun hid => ?_
    rw [hid, hcall] at h
    cases call with
    | none => trivial
    | some c =>
      rw [hafter c rfl]
      exact h
  | created hcall =>
    refine onTrack_put h fun hid => ?_
    rw [hid, hcall] at h
    exact h
  | recorded hcall =>
    refine onTrack_put h fun hid => ?_
    rw [hid, hcall] at h
    exact h
  | ended => exact onTrack_put h fun _ => trivial

variable (codec settings)

/-- Whatever the task body and the create request would give, the next audit of a call, if it is
the one, is answered by a run that is there already, and nothing is created. -/
def AnswersAlready (s : Sys) (id : Nat) (auditKey : String) : Prop :=
  ∀ start activeRuns audit audits, s.calls id = some (.starting start activeRuns) →
    start.audits = audit :: audits → audit.actionKey = auditKey →
    ∀ body created, ∃ item, startOneAudit codec start.repoId start.projectId audit start.rerunState
      activeRuns body created = .ok (item, none) ∧ item.state.already = true

/-- A run in which every step is one that is meant for an entry. -/
abbrev Within (meant : AuditLedgerEntry → Sys → Label → Prop) (entry : AuditLedgerEntry)
    (s : Sys) (ls : List Label) (s' : Sys) : Prop :=
  Path (Sys.step codec settings) (meant entry) s ls s'

/-- A step records an entry, and a call of its repository and head begins after a run from there,
within its lifetime; the rest of the run ends in the last state. -/
structure LaterStart (meant : AuditLedgerEntry → Sys → Label → Prop) (entry : AuditLedgerEntry)
    (id : Nat) (s : Sys) : Prop where
  story : ∃ s₀ l s₁ ls₁ s₂ call upstream now s₃ ls₃,
    Reached codec settings s₀ ∧ s₀.recorded settings l = some entry ∧
      s₀.step codec settings l = some s₁ ∧ Within codec settings meant entry s₁ ls₁ s₂ ∧
      call.repoId = entry.repoId ∧ call.rerunState.currentHeadSha = entry.currentHeadSha ∧
      now < entry.expiresAt ∧ s₂.step codec settings (.start id call upstream now) = some s₃ ∧
      Within codec settings meant entry s₃ ls₃ s ∧ ∀ l ∈ ls₃, begins l ≠ some id

variable {codec settings}

lemma answersAlready_of_onTrack {id : Nat} (h : OnTrack codec entry (s.calls id)) :
    AnswersAlready codec s id entry.auditKey := by
  intro start activeRuns audit audits hcall haudits haction body created
  rw [hcall] at h
  obtain ⟨hhead, run, hrun, hstands⟩ := h
  have hmatching : run ∈ matchingRuns codec activeRuns audit.actionKey
      start.rerunState.currentHeadSha := by
    rw [mem_matchingRuns, haction, hhead]
    exact ⟨hrun, hstands.1, hstands.2.1, hstands.2.2⟩
  obtain ⟨item, hplan, halready⟩ := startPlan_already_iff.2 (List.ne_nil_of_mem hmatching)
  exact ⟨item, by simp only [startOneAudit, hplan], halready⟩

lemma Reached.next (h : Reached codec settings s) (hstep : s.step codec settings l = some s') :
    Reached codec settings s' := Reachable.next h trivial hstep

/-- What a later start relies on. -/
structure OnCourse (codec : StatusCodec) (entry : AuditLedgerEntry) (s : Sys) : Prop where
  informed : s.Informed
  guarded : Guarded codec entry s

/-- A step that leaves the guard in place. -/
abbrev Undisturbed (codec : StatusCodec) (settings : LedgerSettings) (entry : AuditLedgerEntry)
    (s : Sys) (l : Label) : Prop :=
  Unreported codec settings entry s l ∧ Guards codec settings entry s l

lemma OnCourse.step (h : OnCourse codec entry s) (hok : Undisturbed codec settings entry s l)
    (hstep : s.step codec settings l = some s') : OnCourse codec entry s' := by
  obtain ⟨kept, hkept⟩ := keeps_of_moved h.informed (step_moved hstep)
  exact ⟨h.informed.step hstep, h.guarded.step hkept hok.1 hok.2⟩

/-- A start call that begins after a run was recorded, and within the lifetime of the entry, answers
that there is a run already, when nothing disturbs the guard in between. -/
theorem answersAlready_of_undisturbed {id : Nat} (hnamed : entry.Named)
    (hlive : isTerminalStatus codec entry.taskStatus = false)
    (h : LaterStart codec settings (Undisturbed codec settings) entry id s) :
    AnswersAlready codec s id entry.auditKey := by
  obtain ⟨s₀, l, s₁, ls₁, s₂, call, upstream, now, s₃, ls₃, hreached, hrecorded, hstep, hbefore,
    hrepo, hhead, _, hstart, hafter, hbegins⟩ := h.story
  obtain ⟨kept, hkept⟩ := keeps_of_moved hreached.informed (step_moved hstep)
  have h₁ : OnCourse codec entry s₁ :=
    ⟨hreached.informed.step hstep, guarded_of_recorded hkept hrecorded hnamed hlive⟩
  have h₂ : OnCourse codec entry s₂ := hbefore.invariant h₁ fun _ _ _ hs hok hs' => hs.step hok hs'
  obtain ⟨-, rfl⟩ := moved_beginCall hstart
  have hguarded : Guarded codec entry (s₂.put id (some (.checking call
      { repoId := call.repoId, upstream := upstream, now := now }))) :=
    ⟨h₂.guarded.holds, h₂.guarded.covers⟩
  have h₃ : OnCourse codec entry (s₂.put id (some (.checking call
      { repoId := call.repoId, upstream := upstream, now := now }))) :=
    ⟨h₂.informed.step hstart, hguarded⟩
  have htrack : OnTrack codec entry ((s₂.put id (some (.checking call
      { repoId := call.repoId, upstream := upstream, now := now }))).calls id) := by
    rw [put_calls_self]
    exact ⟨hhead, hrepo⟩
  -- along the rest of the run the guard stays, and the call finds what stands for the entry
  have hrest : ∀ ls t u, Path (Sys.step codec settings) (Undisturbed codec settings entry) t ls u →
      (∀ l ∈ ls, begins l ≠ some id) → OnCourse codec entry t → OnTrack codec entry (t.calls id) →
      OnTrack codec entry (u.calls id) := by
    intro ls t u hpath
    induction hpath with
    | nil => exact fun _ _ h => h
    | cons hok hs _ ih =>
      intro hls ht htrack
      refine ih (fun l hl => hls l (List.mem_cons_of_mem _ hl)) (ht.step hok hs) ?_
      exact onTrack_moved htrack ht.informed ht.guarded (step_moved hs)
        (hls _ List.mem_cons_self) hok.1 hok.2
  exact answersAlready_of_onTrack (hrest ls₃ _ _ hafter hbegins h₃ htrack)

/-! ### A guard that is hidden -/

lemma step_readPending {id : Nat} {call : Call} {r : Reconciliation} {es : List AuditLedgerEntry}
    (hcall : s.calls id = some call) (hr : call.reconciliation? = some r) (hnone : r.pending = [])
    (hrounds : 0 < r.rounds) (hread : readLedger s.file = .ok es)
    (hpending : pendingLookups codec r.repoId r.now r.cache es = []) :
    s.step codec settings (.readPending id) =
      some (s.put id (some (call.withReconciliation { r with pending := [], rounds := 0 }))) := by
  have hround : s.readPending codec id call r =
      some (s.put id (some (call.withReconciliation { r with pending := [], rounds := 0 }))) := by
    simp only [readPending, hnone, hrounds, and_self, if_true, hread, hpending]
  simp only [step, hcall, hr, Option.bind_eq_bind, Option.bind_some, hround]

lemma step_commit {id : Nat} {call : Call} {r : Reconciliation} {es : List AuditLedgerEntry}
    (hcall : s.calls id = some call) (hr : call.reconciliation? = some r) (hnone : r.pending = [])
    (hrounds : r.rounds = 0) (hread : readLedger s.file = .ok es)
    (hchanged : (commitReconciliation codec settings r.repoId r.upstream r.cache r.now
      es).changed = false) :
    s.step codec settings (.commit id) =
      some (s.put id (call.afterCommit (reconciledRuns codec r.upstream
        (commitReconciliation codec settings r.repoId r.upstream r.cache r.now es)))) := by
  have htransaction : commitTransaction codec settings s.file r.repoId r.upstream r.cache r.now =
      .ok (s.file, commitReconciliation codec settings r.repoId r.upstream r.cache r.now es) := by
    simp [commitTransaction, hread, hchanged, bind, Except.bind, pure, Except.pure]
  have hcommit : s.commit codec settings id call r =
      some (s.put id (call.afterCommit (reconciledRuns codec r.upstream
        (commitReconciliation codec settings r.repoId r.upstream r.cache r.now es)))) := by
    simp only [Sys.commit, hnone, hrounds, and_self, if_true, htransaction]
    rfl
  simp only [step, hcall, hr, Option.bind_eq_bind, Option.bind_some, hcommit]

lemma step_start {id : Nat} {call : StartCall} {upstream : List AuditRun} {now : Datetime}
    (hfree : s.calls id = none) : s.step codec settings (.start id call upstream now) =
      some (s.put id (some (.checking call
        { repoId := call.repoId, upstream := upstream, now := now }))) := by
  simp [step, beginCall, hfree]

lemma step_record {id : Nat} {start : StartCall} {activeRuns : List AuditRun} {run : AuditRunStart}
    {now : Datetime} {es : List AuditLedgerEntry}
    (hcall : s.calls id = some (.recording start activeRuns run))
    (hentry : newEntry run now settings.ttlSeconds = some entry)
    (hread : readLedger s.file = .ok es) :
    s.step codec settings (.record id now) =
      some { s.put id (some (.starting start activeRuns)) with
        file := written (recordStarted es entry) } := by
  have htransaction : recordTransaction s.file entry = .ok (written (recordStarted es entry)) := by
    simp only [recordTransaction, hread]
    rfl
  simp only [step, hcall, record, hentry, htransaction]

/-- The call of a start after its reconciliation has found nothing to look up. -/
def checked (codec : StatusCodec) (settings : LedgerSettings) (start : StartCall)
    (r : Reconciliation) (entries : List AuditLedgerEntry) : Call :=
  .starting start (reconciledRuns codec r.upstream
    (commitReconciliation codec settings r.repoId r.upstream r.cache r.now entries))

/-- A start with nothing to look up and nothing to change goes through its reconciliation. -/
lemma path_check {ok : Sys → Label → Prop} {id : Nat} {start : StartCall} {r : Reconciliation}
    {es : List AuditLedgerEntry} (hok : ok s (.readPending id))
    (hok' : ok (s.put id (some (.checking start { r with pending := [], rounds := 0 })))
      (.commit id))
    (hcall : s.calls id = some (.checking start r)) (hnone : r.pending = [])
    (hrounds : 0 < r.rounds) (hread : readLedger s.file = .ok es)
    (hpending : pendingLookups codec r.repoId r.now r.cache es = [])
    (hchanged : (commitReconciliation codec settings r.repoId r.upstream r.cache r.now
      es).changed = false) :
    ∃ s', Path (Sys.step codec settings) ok s [.readPending id, .commit id] s' ∧
      s'.calls id = some (checked codec settings start r es) := by
  refine ⟨_, .cons hok (step_readPending hcall rfl hnone hrounds hread hpending)
    (.cons hok' (step_commit (put_calls_self ..) rfl rfl rfl hread hchanged) (.nil _)), ?_⟩
  rw [put_calls_self]
  rfl

/-- An audit of the published catalog. -/
def sampleAudit : AuditDefinition := ⟨"security", "Security", none⟩

/-- A call that starts the audit of a head that was never audited. -/
def sampleCall (head : String) : StartCall where
  repoId := "repo"
  projectId := "project"
  rerunState := { currentHeadSha := some head }
  audits := [sampleAudit]

/-- An active run of the audit that the upstream service shows. -/
def sampleRow (taskId head : String) : AuditRun where
  taskId := some taskId
  actionKey := some "security"
  status := some "running"
  createdAt := none
  startedAt := none
  completedAt := none
  currentHeadSha := some head

/-- The entry of a run whose create response had no task id. -/
def sampleIdless : AuditLedgerEntry := { sampleEntry with taskId := none }

/-- The run of a create response without a task id. -/
def idlessRun : AuditRunStart where
  repoId := "repo"
  projectId := "project"
  actionKey := "security"
  taskId := none
  taskStatus := some "queued"
  currentHeadSha := some "head"
  lastAuditedHeadSha := none

/-- The steps of a start on an empty ledger up to the record of the run it creates. -/
def firstStart : List Label :=
  [.start 0 (sampleCall "head") [] dawn, .readPending 0, .commit 0,
    .decide 0 (.ok ()) (.ok ⟨none, some "queued"⟩) true]

/-- A start on an empty ledger comes to create a run. -/
lemma exists_reached_recording : ∃ s, Reached plainStatusCodec {} s ∧ s.file = none ∧
    s.calls 1 = none ∧
    s.calls 0 = some (.recording { sampleCall "head" with audits := [] } [] idlessRun) := by
  have hreplay : replay (Sys.step plainStatusCodec {}) (fun _ _ => true) empty firstStart =
      some _ := rfl
  exact ⟨_, ⟨_, _, empty_initial, .of_replay (fun _ _ _ _ => trivial) hreplay⟩, rfl, rfl, rfl⟩

/-- The reconciliation of a later call, while the upstream service shows a run of another head. -/
def laterCheck : Reconciliation where
  repoId := "repo"
  upstream := [sampleRow "other" "newer"]
  now := dawn

/-- The guard of a run without a task id is hidden from a later call. -/
lemma checked_hidden : checked plainStatusCodec {} (sampleCall "head") laterCheck [sampleIdless] =
    .starting (sampleCall "head") [sampleRow "other" "newer"] := by
  have hruns : reconciledRuns plainStatusCodec [sampleRow "other" "newer"]
      (commitReconciliation plainStatusCodec {} "repo" [sampleRow "other" "newer"] [] dawn
        [sampleIdless]) = [sampleRow "other" "newer"] := by decide
  exact congrArg (Call.starting (sampleCall "head")) hruns

lemma unreported_idless (s : Sys) (l : Label) :
    Unreported plainStatusCodec {} sampleIdless s l := by
  constructor
  · intro taskId _ htask
    cases htask
  · intro _ taskId _ _ htask
    cases htask

/-- The system when the run was recorded. -/
def afterRecord (s : Sys) : Sys :=
  { s.put 0 (some (.starting { sampleCall "head" with audits := [] } [])) with
    file := written [sampleIdless] }

lemma readLedger_afterRecord (s : Sys) : readLedger (afterRecord s).file = .ok [sampleIdless] :=
  readLedger_of_named (by simp [sampleIdless, sampleEntry, AuditLedgerEntry.Named])

lemma newEntry_idless :
    newEntry idlessRun dawn ({} : LedgerSettings).ttlSeconds = some sampleIdless := by
  decide +kernel

lemma step_afterRecord (hfile : s.file = none)
    (hcall : s.calls 0 = some (.recording { sampleCall "head" with audits := [] } [] idlessRun)) :
    s.step plainStatusCodec {} (.record 0 dawn) = some (afterRecord s) := by
  have hread : readLedger s.file = .ok [] := by
    rw [hfile]
    rfl
  exact step_record hcall newEntry_idless hread

/-- While the upstream service shows an active run of another head, the guard of a run without a
task id is hidden, and a later start for its head creates another run. -/
theorem not_answersAlready_hidden :
    ¬ ∀ codec settings entry id s,
      LaterStart codec settings (Unreported codec settings) entry id s →
        AnswersAlready codec s id entry.auditKey := by
  intro h
  obtain ⟨s, hreached, hfile, hfree, hcall⟩ := exists_reached_recording
  have hrecorded : s.recorded {} (.record 0 dawn) = some sampleIdless := by
    simp only [Sys.recorded, hcall]
    decide +kernel
  have hfree' : (afterRecord s).calls 1 = none := hfree
  have hcheck : ∃ t, Path (Sys.step plainStatusCodec {})
      (Unreported plainStatusCodec {} sampleIdless)
      ((afterRecord s).put 1 (some (.checking (sampleCall "head") laterCheck)))
      [.readPending 1, .commit 1] t ∧
        t.calls 1 =
          some (checked plainStatusCodec {} (sampleCall "head") laterCheck [sampleIdless]) :=
    path_check (unreported_idless _ _) (unreported_idless _ _) (put_calls_self ..) rfl (by decide)
      (readLedger_afterRecord s) rfl rfl
  obtain ⟨t, hpath, hchecked⟩ := hcheck
  have hlater := h plainStatusCodec {} sampleIdless 1 t
    ⟨s, .record 0 dawn, afterRecord s, [], afterRecord s, sampleCall "head",
      [sampleRow "other" "newer"], dawn, _, [.readPending 1, .commit 1], hreached, hrecorded,
      step_afterRecord hfile hcall, .nil _, rfl, rfl, by decide +kernel, step_start hfree', hpath,
      by simp [begins]⟩
  rw [checked_hidden] at hchecked
  obtain ⟨item, hitem, -⟩ := hlater _ _ sampleAudit [] hchecked rfl rfl (.ok ())
    (.ok ⟨some "second", some "queued"⟩)
  cases hitem

/-- The reconciliation of a later call, while the upstream service shows no run. -/
def quietCheck : Reconciliation where
  repoId := "repo"
  upstream := []
  now := dawn

/-- A step that records nothing and commits at most a quiet reconciliation keeps the guard. -/
lemma guards_quiet {s : Sys} {l : Label} (hrecorded : s.recorded {} l = none)
    (hreconciled : ∀ r, s.reconciled l = some r → r.now = dawn ∧ r.upstream = []) :
    Guards plainStatusCodec {} sampleIdless s l := by
  constructor
  · intro other hother
    rw [hrecorded] at hother
    cases hother
  · intro r hr _
    rw [(hreconciled r hr).1]
    decide +kernel
  · intro id start r hl hcall _ _
    have hr : s.reconciled l = some r := by
      rw [hl, Sys.reconciled, hcall]
      rfl
    refine Or.inl ?_
    rw [(hreconciled r hr).2]
    rfl

/-- A run of one audit that is recorded without a task id answers a later start. -/
theorem answersAlready_of_undisturbed_quiet :
    ∃ s activeRuns, s.calls 1 = some (.starting (sampleCall "head") activeRuns) ∧
      AnswersAlready plainStatusCodec s 1 "security" := by
  obtain ⟨s, hreached, hfile, hfree, hcall⟩ := exists_reached_recording
  have hrecorded : s.recorded {} (.record 0 dawn) = some sampleIdless := by
    simp only [Sys.recorded, hcall]
    decide +kernel
  have hfree' : (afterRecord s).calls 1 = none := hfree
  have hcheck : ∃ t, Path (Sys.step plainStatusCodec {})
      (Undisturbed plainStatusCodec {} sampleIdless)
      ((afterRecord s).put 1 (some (.checking (sampleCall "head") quietCheck)))
      [.readPending 1, .commit 1] t ∧
        t.calls 1 =
          some (checked plainStatusCodec {} (sampleCall "head") quietCheck [sampleIdless]) := by
    refine path_check ⟨unreported_idless _ _, guards_quiet rfl ?_⟩
      ⟨unreported_idless _ _, guards_quiet rfl ?_⟩ (put_calls_self ..) rfl (by decide)
      (readLedger_afterRecord s) rfl rfl
    · intro r hr
      cases hr
    · intro r hr
      simp only [Sys.reconciled, put_calls_self, Option.bind_some, Call.reconciliation?,
        Option.some.injEq] at hr
      rw [← hr]
      exact ⟨rfl, rfl⟩
  obtain ⟨t, hpath, hchecked⟩ := hcheck
  have hlater : LaterStart plainStatusCodec {} (Undisturbed plainStatusCodec {}) sampleIdless 1 t :=
    ⟨s, .record 0 dawn, afterRecord s, [], afterRecord s, sampleCall "head", [], dawn, _,
      [.readPending 1, .commit 1], hreached, hrecorded, step_afterRecord hfile hcall, .nil _, rfl,
      rfl, by decide +kernel, step_start hfree', hpath, by simp [begins]⟩
  exact ⟨t, _, hchecked, answersAlready_of_undisturbed (by decide) (by decide) hlater⟩

end Sys

end EnjiGuard.Audit
