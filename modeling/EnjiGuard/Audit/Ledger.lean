import EnjiGuard.Audit.Runs
import EnjiGuard.Foundation.IsoFormat
import EnjiGuard.Foundation.Json

/-!
# The ledger of started runs

A local file of the runs that were started and that the upstream service may not show yet. Reading
the file, the transactions of recording a run and of committing a reconciliation, and how the
entries and the upstream rows are reduced to the active runs of a repository.
-/

namespace EnjiGuard.Audit

open Foundation

/-- One run the ledger remembers. -/
structure AuditLedgerEntry where
  repoId : String
  projectId : String
  auditKey : String
  taskId : Option String
  taskStatus : Option String
  currentHeadSha : Option String
  auditedHeadSha : Option String
  observedAt : Datetime
  startedAt : Option String
  expiresAt : Datetime
  deriving DecidableEq, Repr

/-- The lifetime of an entry and the grace of a task that is not found, in seconds. -/
structure LedgerSettings where
  ttlSeconds : Int := 21600
  lookupGraceSeconds : Int := 300

/-! ### The file -/

def entryFields (entry : AuditLedgerEntry) : List (String × Json) := [
    ("repo_id", .str entry.repoId),
    ("project_id", .str entry.projectId),
    ("audit_key", .str entry.auditKey),
    ("task_id", .ofOptionalStr entry.taskId),
    ("task_status", .ofOptionalStr entry.taskStatus),
    ("current_head_sha", .ofOptionalStr entry.currentHeadSha),
    ("audited_head_sha", .ofOptionalStr entry.auditedHeadSha),
    ("observed_at", .str (isoformat entry.observedAt)),
    ("started_at", .ofOptionalStr entry.startedAt),
    ("expires_at", .str (isoformat entry.expiresAt))]

/-- The entry as the file holds it. -/
def encodeEntry (entry : AuditLedgerEntry) : Json :=
  .obj (entryFields entry)

/-- The payload of the file. -/
def ledgerPayload (entries : List AuditLedgerEntry) : Json :=
  .obj [("entries", .arr (entries.map encodeEntry))]

/-- A text that is there and not empty. -/
def requiredText (payload : List (String × Json)) (key : String) : Option String :=
  match Json.lookup key payload with
  | .str text => if text = "" then none else some text
  | _ => none

/-- A timestamp in UTC; one without an offset is taken to be in UTC. -/
def utcOf (parsed : IsoDatetime) : Except AuditError Datetime :=
  match IsoDatetime.toUtc? parsed (parsed.offset.getD 0) with
  | some t => .ok t
  | none => .error (.other "OverflowError")

/-- Reads an entry; an item that is none is skipped. -/
def decodeEntry : Json → Except AuditError (Option AuditLedgerEntry)
  | .obj payload =>
    match requiredText payload "repo_id", requiredText payload "project_id",
      requiredText payload "audit_key", requiredText payload "observed_at",
      requiredText payload "expires_at" with
    | some repoId, some projectId, some auditKey, some observedAt, some expiresAt =>
      match fromIsoformat observedAt, fromIsoformat expiresAt with
      | some observed, some expires => do
        let observed ← utcOf observed
        let expires ← utcOf expires
        return some { repoId := repoId
                      projectId := projectId
                      auditKey := auditKey
                      taskId := (Json.lookup "task_id" payload).str?
                      taskStatus := (Json.lookup "task_status" payload).str?
                      currentHeadSha := (Json.lookup "current_head_sha" payload).str?
                      auditedHeadSha := (Json.lookup "audited_head_sha" payload).str?
                      observedAt := observed
                      startedAt := (Json.lookup "started_at" payload).str?
                      expiresAt := expires }
      | _, _ => .ok none
    | _, _, _, _, _ => .ok none
  | _ => .ok none

/-- Reads the entries of a list of items. -/
def decodeEntries : List Json → Except AuditError (List AuditLedgerEntry)
  | [] => .ok []
  | item :: items => do
    let entry ← decodeEntry item
    let entries ← decodeEntries items
    return entry.toList ++ entries

/-- Reads the file; one that is missing or no JSON holds no entries. -/
def readLedger : Option FileText → Except AuditError (List AuditLedgerEntry)
  | none => .ok []
  | some .notUtf8 => .error (.other "UnicodeDecodeError")
  | some (.notJson _) => .ok []
  | some (.refused typeName) => .error (.other typeName)
  | some (.json (.obj payload)) =>
    match Json.lookup "entries" payload with
    | .arr items => decodeEntries items
    | _ => .ok []
  | some (.json _) => .ok []

/-- An entry that names its repository, its project and its audit. -/
def AuditLedgerEntry.Named (entry : AuditLedgerEntry) : Prop :=
  entry.repoId ≠ "" ∧ entry.projectId ≠ "" ∧ entry.auditKey ≠ ""

instance (entry : AuditLedgerEntry) : Decidable entry.Named := by
  unfold AuditLedgerEntry.Named; infer_instance

/-! ### Recording a run -/

/-- The entry of a run that has just started; none when its expiry is no representable time. -/
def newEntry (started : AuditRunStart) (observedAt : Datetime) (ttlSeconds : Int) :
    Option AuditLedgerEntry :=
  (observedAt.add? (Timedelta.seconds ttlSeconds)).map fun expiresAt =>
    { repoId := started.repoId
      projectId := started.projectId
      auditKey := started.actionKey
      taskId := started.taskId
      taskStatus := started.taskStatus
      currentHeadSha := started.currentHeadSha
      auditedHeadSha := started.lastAuditedHeadSha
      observedAt := observedAt
      startedAt := none
      expiresAt := expiresAt }

/-- Whether two entries are about the same run; entries without a task id are so for an action. -/
def sameIdentity (left right : AuditLedgerEntry) : Bool :=
  left.repoId = right.repoId && left.auditKey = right.auditKey &&
    match left.taskId, right.taskId with
    | some l, some r => l = r
    | none, none => true
    | _, _ => false

def recordStarted (entries : List AuditLedgerEntry) (entry : AuditLedgerEntry) :
    List AuditLedgerEntry :=
  (entries.filter fun item => !sameIdentity item entry) ++ [entry]

/-! ### Task lookups -/

/-- The task fields a reconciliation needs. -/
structure AuditTaskDetail where
  taskId : String
  status : Option String
  createdAt : Option String := none
  startedAt : Option String := none
  completedAt : Option String := none
  deriving DecidableEq, Repr

/-- What the upstream service answers to a task lookup. -/
inductive TaskReply
  | task (id status createdAt startedAt completedAt : Option String)
  | notFound
  | malformed
  | refused
  | failed (typeName : String)
  deriving DecidableEq, Repr

/-- The detail of a task, checked by the gateway. -/
def taskDetail (taskId : String) : TaskReply → Except AuditError AuditTaskDetail
  | .task id status createdAt startedAt completedAt =>
    if id = some taskId ∧ status ≠ none then
      .ok ⟨taskId, status, createdAt, startedAt, completedAt⟩
    else .error (.malformed taskId)
  | .notFound => .error (.notFound taskId)
  | .malformed => .error (.malformed taskId)
  | .refused => .error (.upstream taskId)
  | .failed typeName => .error (.other typeName)

/-- Whether a reconciliation keeps the error of a lookup. -/
def AuditError.isLookupError : AuditError → Bool
  | notFound _ | upstream _ | malformed _ => true
  | _ => false

/-- The result of a lookup as a reconciliation keeps it. -/
abbrev TaskLookupResult := Except AuditError AuditTaskDetail

/-! ### Reconciling -/

variable (codec : StatusCodec) (settings : LedgerSettings)

def expired (entry : AuditLedgerEntry) (now : Datetime) : Bool := entry.expiresAt ≤ now

/-- The task ids of a repository that still need a detail, in the order of the entries. -/
def pendingLookups (repoId : String) (now : Datetime) (cache : List (String × TaskLookupResult))
    (entries : List AuditLedgerEntry) : List String :=
  (entries.filterMap fun entry =>
    match entry.taskId with
    | none => none
    | some taskId =>
      if (cache.lookup taskId).isSome || entry.repoId ≠ repoId || expired entry now ||
          isTerminalStatus codec entry.taskStatus then none
      else some taskId).eraseDups

/-! ### The loops of a reconciliation -/

/-- Fetches task details one after the other and goes on with what is found; an error that is not
kept ends the calls. The caller says what a call is and how an error ends it. -/
def resolveEach {β : Type} (fetch : β → β) (fail : AuditError → β) (taskLookup : String → TaskReply)
    (next : List (String × TaskLookupResult) → β) :
    List String → List (String × TaskLookupResult) → β
  | [], cache => next cache
  | taskId :: taskIds, cache =>
    fetch <|
      match taskDetail taskId (taskLookup taskId) with
      | .ok detail => resolveEach fetch fail taskLookup next taskIds ((taskId, .ok detail) :: cache)
      | .error e =>
        if e.isLookupError then
          resolveEach fetch fail taskLookup next taskIds ((taskId, .error e) :: cache)
        else fail e

/-- The rounds of lookups; each reads which tasks still need a detail. The caller says how the
entries are read and the lookups made. -/
def resolveRounds {β : Type} (read : (List AuditLedgerEntry → β) → β)
    (resolve : (List (String × TaskLookupResult) → β) →
      List String → List (String × TaskLookupResult) → β)
    (repoId : String) (now : Datetime) (next : List (String × TaskLookupResult) → β) :
    Nat → List (String × TaskLookupResult) → β
  | 0, cache => next cache
  | rounds + 1, cache =>
    read fun entries =>
      let pending := pendingLookups codec repoId now cache entries
      if pending = [] then next cache
      else resolve (resolveRounds read resolve repoId now next rounds) pending cache

/-! ### What becomes of the entries -/

/-- The first text that is there and not empty. -/
def orText (text other : Option String) : Option String :=
  if text.getD "" = "" then other else text

/-- The run an entry stands for, with the detail of its task if there is one. -/
def project (entry : AuditLedgerEntry) (detail : Option AuditTaskDetail) : AuditRun where
  taskId := orText (detail.map AuditTaskDetail.taskId) entry.taskId
  actionKey := some entry.auditKey
  status := orText (detail.bind AuditTaskDetail.status) entry.taskStatus
  createdAt := orText (detail.bind AuditTaskDetail.createdAt) (some (isoformat entry.observedAt))
  startedAt := orText (detail.bind AuditTaskDetail.startedAt) entry.startedAt
  completedAt := detail.bind AuditTaskDetail.completedAt
  projectionSource := some "local_started_task_ledger"
  projectionStatusSource := some (if detail.isSome then "task_by_id" else "ledger")
  expiresAt := some (isoformat entry.expiresAt)
  currentHeadSha := entry.currentHeadSha
  lastAuditedHeadSha := entry.auditedHeadSha

/-- What becomes of one entry. -/
structure EntryReconciliation where
  retained : Bool
  suppressTaskId : Option String := none
  projected : Option AuditRun := none
  deriving DecidableEq, Repr

def reconcileEntry (entry : AuditLedgerEntry) (result : Option TaskLookupResult) (now : Datetime)
    (hasUpstream : Bool) : EntryReconciliation :=
  match entry.taskId with
  | none =>
    { retained := true, projected := if hasUpstream then none else some (project entry none) }
  | some taskId =>
    match result with
    | none =>
      { retained := true, suppressTaskId := some taskId, projected := some (project entry none) }
    | some (.error e) =>
      match e with
      | .notFound _ =>
        if Timedelta.seconds settings.lookupGraceSeconds < now.sub entry.observedAt then
          { retained := false }
        else
          { retained := true, suppressTaskId := some taskId,
            projected := some (project entry none) }
      | _ =>
        { retained := true, suppressTaskId := some taskId, projected := some (project entry none) }
    | some (.ok detail) =>
      if isActiveRun codec (project entry (some detail)) then
        { retained := true, suppressTaskId := some taskId,
          projected := some (project entry (some detail)) }
      else { retained := false, suppressTaskId := some taskId }

/-- What the transaction of a reconciliation makes of the entries. -/
structure ReconciliationCommit where
  retained : List AuditLedgerEntry := []
  projected : List AuditRun := []
  suppressTaskIds : List String := []
  changed : Bool := false

/-- Whether the upstream rows show an active run of an action. -/
def hasUpstream (upstream : List AuditRun) (actionKey : String) : Bool :=
  upstream.any fun run => run.actionKey = some actionKey && isActiveRun codec run

/-- Applies the lookups to the entries. -/
def commitReconciliation (repoId : String) (upstream : List AuditRun)
    (cache : List (String × TaskLookupResult)) (now : Datetime) :
    List AuditLedgerEntry → ReconciliationCommit
  | [] => {}
  | entry :: entries =>
    let rest := commitReconciliation repoId upstream cache now entries
    if entry.repoId ≠ repoId then { rest with retained := entry :: rest.retained }
    else if expired entry now || isTerminalStatus codec entry.taskStatus then
      { rest with changed := true }
    else
      let outcome := reconcileEntry codec settings entry
        (entry.taskId.bind fun taskId => cache.lookup taskId) now
        (hasUpstream codec upstream entry.auditKey)
      let suppress := outcome.suppressTaskId.toList ++ rest.suppressTaskIds
      if !outcome.retained then { rest with suppressTaskIds := suppress, changed := true }
      else
        { rest with
          retained := entry :: rest.retained
          projected := outcome.projected.toList ++ rest.projected
          suppressTaskIds := suppress }

/-- What two projections of one run have in common: the task, or the action when there is none. -/
def runIdentity (run : AuditRun) : Option String × Option String :=
  match run.taskId with
  | some taskId => (some taskId, none)
  | none => (none, run.actionKey)

/-- One representative for each run. -/
def dedupeRuns (runs : List AuditRun) : List AuditRun :=
  (runs.map runIdentity).eraseDups.filterMap fun identity =>
    representativeProjection codec (runs.filter fun run => runIdentity run = identity)

/-- The upstream rows of tasks the ledger does not answer for. -/
def unsuppressed (upstream : List AuditRun) (suppressTaskIds : List String) : List AuditRun :=
  upstream.filter fun run =>
    match run.taskId with
    | none => true
    | some taskId => decide (taskId ∉ suppressTaskIds)

/-- The active runs a reconciliation returns. -/
def reconciledRuns (upstream : List AuditRun) (commit : ReconciliationCommit) : List AuditRun :=
  dedupeRuns codec (commit.projected ++ unsuppressed upstream commit.suppressTaskIds)

/-! ### Transactions -/

def recordTransaction (file : Option FileText) (entry : AuditLedgerEntry) :
    Except AuditError (Option FileText) := do
  let entries ← readLedger file
  return some (.json (ledgerPayload (recordStarted entries entry)))

/-- The transaction that commits a reconciliation; it writes only what it has changed. -/
def commitTransaction (file : Option FileText) (repoId : String) (upstream : List AuditRun)
    (cache : List (String × TaskLookupResult)) (now : Datetime) :
    Except AuditError (Option FileText × ReconciliationCommit) := do
  let entries ← readLedger file
  let commit := commitReconciliation codec settings repoId upstream cache now entries
  return (if commit.changed then some (.json (ledgerPayload commit.retained)) else file, commit)

/-! ### Reading what was written -/

variable {codec settings} {entry other : AuditLedgerEntry} {entries : List AuditLedgerEntry}

lemma utcOf_of_toUtc? {parsed : IsoDatetime} {offset : Timedelta} {t : Datetime}
    (hoffset : parsed.offset = some offset)
    (h : IsoDatetime.toUtc? parsed offset = some t) : utcOf parsed = .ok t := by
  simp only [utcOf, hoffset, Option.getD_some, h]

lemma utcOf_isoformat (t : Datetime) : utcOf ⟨t.micros, some 0⟩ = .ok t :=
  utcOf_of_toUtc? rfl (toUtc?_zero t _)

lemma str?_ofOptionalStr (text : Option String) : (Json.ofOptionalStr text).str? = text := by
  cases text <;> rfl

lemma requiredText_entryFields (entry : AuditLedgerEntry) :
    requiredText (entryFields entry) "repo_id" =
        (if entry.repoId = "" then none else some entry.repoId) ∧
      requiredText (entryFields entry) "project_id" =
        (if entry.projectId = "" then none else some entry.projectId) ∧
      requiredText (entryFields entry) "audit_key" =
        (if entry.auditKey = "" then none else some entry.auditKey) ∧
      requiredText (entryFields entry) "observed_at" = some (isoformat entry.observedAt) ∧
      requiredText (entryFields entry) "expires_at" = some (isoformat entry.expiresAt) := by
  have hobserved := isoformat_ne_empty entry.observedAt
  have hexpires := isoformat_ne_empty entry.expiresAt
  refine ⟨?_, ?_, ?_, ?_, ?_⟩ <;>
    simp [requiredText, entryFields, Json.lookup, hobserved, hexpires]

lemma str?_entryFields (entry : AuditLedgerEntry) :
    (Json.lookup "task_id" (entryFields entry)).str? = entry.taskId ∧
      (Json.lookup "task_status" (entryFields entry)).str? = entry.taskStatus ∧
      (Json.lookup "current_head_sha" (entryFields entry)).str? = entry.currentHeadSha ∧
      (Json.lookup "audited_head_sha" (entryFields entry)).str? = entry.auditedHeadSha ∧
      (Json.lookup "started_at" (entryFields entry)).str? = entry.startedAt := by
  refine ⟨?_, ?_, ?_, ?_, ?_⟩ <;> simp [entryFields, Json.lookup, str?_ofOptionalStr]

/-- An entry that was written is read back when it is named, and skipped otherwise. -/
lemma decodeEntry_encodeEntry (entry : AuditLedgerEntry) :
    decodeEntry (encodeEntry entry) = .ok (if entry.Named then some entry else none) := by
  obtain ⟨hrepo, hproject, haudit, hobserved, hexpires⟩ := requiredText_entryFields entry
  obtain ⟨htask, hstatus, hcurrent, haudited, hstarted⟩ := str?_entryFields entry
  simp only [encodeEntry, decodeEntry, hrepo, hproject, haudit, hobserved, hexpires, htask,
    hstatus, hcurrent, haudited, hstarted]
  by_cases h₁ : entry.repoId = ""
  · simp [AuditLedgerEntry.Named, h₁]
  · by_cases h₂ : entry.projectId = ""
    · simp [AuditLedgerEntry.Named, h₁, h₂]
    · by_cases h₃ : entry.auditKey = ""
      · simp [AuditLedgerEntry.Named, h₁, h₂, h₃]
      · have hnamed : entry.Named := ⟨h₁, h₂, h₃⟩
        simp only [if_neg h₁, if_neg h₂, if_neg h₃, if_pos hnamed, fromIsoformat_isoformat,
          utcOf_isoformat]
        rfl

lemma decodeEntries_encodeEntries (entries : List AuditLedgerEntry) :
    decodeEntries (entries.map encodeEntry) = .ok (entries.filter (·.Named)) := by
  induction entries with
  | nil => rfl
  | cons entry entries ih =>
    simp only [List.map_cons, decodeEntries, decodeEntry_encodeEntry, ih]
    by_cases h : entry.Named
    · simp [h, bind, Except.bind, pure, Except.pure]
    · simp [h, bind, Except.bind, pure, Except.pure]

/-- The entries of a file that was written are the named ones. -/
lemma readLedger_ledgerPayload (entries : List AuditLedgerEntry) :
    readLedger (some (.json (ledgerPayload entries))) = .ok (entries.filter (·.Named)) := by
  simp [readLedger, ledgerPayload, Json.lookup, decodeEntries_encodeEntries]

lemma ne_empty_of_requiredText {payload : List (String × Json)} {key text : String}
    (h : requiredText payload key = some text) : text ≠ "" := by
  unfold requiredText at h
  split at h
  · split_ifs at h with hempty
    cases h
    exact hempty
  · cases h

/-- What is read is named. -/
lemma named_of_decodeEntry {item : Json} (h : decodeEntry item = .ok (some entry)) :
    entry.Named := by
  rcases item with _ | _ | _ | _ | _ | _ | payload
  case obj =>
    simp only [decodeEntry] at h
    split at h
    · next hrepo hproject haudit _ _ =>
      split at h
      · next observed expires _ _ =>
        rcases hutc : utcOf observed with e | observed' <;>
          rcases hutc' : utcOf expires with e' | expires' <;>
          simp only [hutc, hutc', bind, Except.bind, pure, Except.pure, reduceCtorEq,
            Except.ok.injEq, Option.some.injEq] at h
        rw [← h]
        exact ⟨ne_empty_of_requiredText hrepo, ne_empty_of_requiredText hproject,
          ne_empty_of_requiredText haudit⟩
      · simp at h
    · simp at h
  all_goals cases h

lemma named_of_decodeEntries {items : List Json} (h : decodeEntries items = .ok entries) :
    ∀ entry ∈ entries, entry.Named := by
  induction items generalizing entries with
  | nil =>
    cases h
    simp
  | cons item items ih =>
    rcases hitem : decodeEntry item with e | entry
    · simp [decodeEntries, hitem, bind, Except.bind] at h
    · rcases hitems : decodeEntries items with e | rest
      · simp [decodeEntries, hitem, hitems, bind, Except.bind] at h
      · simp only [decodeEntries, hitem, hitems, bind, Except.bind, pure, Except.pure,
          Except.ok.injEq] at h
        intro other hother
        rw [← h, List.mem_append, Option.mem_toList] at hother
        rcases hother with hother | hother
        · rw [Option.mem_def.1 hother] at hitem
          exact named_of_decodeEntry hitem
        · exact ih hitems other hother

/-- Every entry of a file is named. -/
lemma named_of_readLedger {file : Option FileText} (h : readLedger file = .ok entries) :
    ∀ entry ∈ entries, entry.Named := by
  unfold readLedger at h
  split at h
  · cases h
    simp
  · cases h
  · cases h
    simp
  · cases h
  · split at h
    · exact named_of_decodeEntries h
    · cases h
      simp
  · cases h
    simp

/-- Entries that were read are read back when they are written again. -/
lemma readLedger_of_named (h : ∀ entry ∈ entries, entry.Named) :
    readLedger (some (.json (ledgerPayload entries))) = .ok entries := by
  rw [readLedger_ledgerPayload, List.filter_eq_self.2]
  simpa using h

end EnjiGuard.Audit
