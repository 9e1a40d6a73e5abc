import EnjiGuard.Audit.Ledger
import EnjiGuard.Foundation.Dictionary
import EnjiGuard.Foundation.Traversing
import Mathlib.Data.List.Perm.Basic

/-!
# The bytes of the ledger file

Entries are written as a JSON document with its keys in order, and are read back as they were. Any
other content of the file is read as the entries of its document, unless it is no UTF-8 text, its
text is refused as something other than a syntax error, or an entry has a timestamp that has no
place in UTC; then the reader raises instead.
-/

namespace EnjiGuard.Audit

open Foundation

/-! ### Reading and writing bytes -/

/-- What becomes of a text that is loaded as JSON: a document, a syntax error, or another error of
the reader. -/
inductive LoadedJson
  | document (value : Json)
  | notJson
  | refused (typeName : String)

/-- The JSON operations of the language. -/
structure JsonText where
  loads : String → LoadedJson
  dumps : Json → String

/-- The document of entries with its keys in order, as it is written. -/
def sortedPayload (entries : List AuditLedgerEntry) : Json :=
  .obj [("entries", .arr (entries.map fun entry =>
    .obj (Dictionary.sortedItems (entryFields entry))))]

section

variable (text : JsonText)

def fileText (content : ByteArray) : FileText :=
  match String.fromUTF8? content with
  | none => .notUtf8
  | some decoded =>
    match text.loads decoded with
    | .document value => .json value
    | .notJson => .notJson ""
    | .refused typeName => .refused typeName

def readContent (content : Option ByteArray) : Except AuditError (List AuditLedgerEntry) :=
  readLedger (content.map (fileText text))

def writeContent (entries : List AuditLedgerEntry) : ByteArray :=
  (text.dumps (sortedPayload entries) ++ "\n").toUTF8

/-! ### What a content holds -/

/-- The document of a content, if it has one. -/
def documentOf (content : ByteArray) : Option Json :=
  match (String.fromUTF8? content).map text.loads with
  | some (.document value) => some value
  | _ => none

/-- The items that a document lists as entries. -/
def itemsOf : Json → List Json
  | .obj payload =>
    match Json.lookup "entries" payload with
    | .arr items => items
    | _ => []
  | _ => []

/-- The entry that an item is, if it is one. -/
def entryOf? (item : Json) : Option AuditLedgerEntry :=
  match decodeEntry item with
  | .ok entry => entry
  | .error _ => none

/-- The entries of a content: those of its document that decode. -/
def entriesOf (content : Option ByteArray) : List AuditLedgerEntry :=
  ((content.bind (documentOf text)).map fun document =>
    (itemsOf document).filterMap entryOf?).getD []

/-- A timestamp that has a place in UTC. -/
def HasUtc (timestamp : IsoDatetime) : Prop :=
  (IsoDatetime.toUtc? timestamp (timestamp.offset.getD 0)).isSome = true

/-- An item has the texts of an entry and two timestamps, one of which has no place in UTC. -/
def OutOfRange (item : Json) : Prop :=
  ∃ payload observedAt expiresAt observed expires, item = .obj payload ∧
    (∀ key ∈ ["repo_id", "project_id", "audit_key"], (requiredText payload key).isSome = true) ∧
    requiredText payload "observed_at" = some observedAt ∧
    requiredText payload "expires_at" = some expiresAt ∧
    fromIsoformat observedAt = some observed ∧ fromIsoformat expiresAt = some expires ∧
    ¬ (HasUtc observed ∧ HasUtc expires)

/-- A content that can be read: it is UTF-8 text, loading it fails with a syntax error at most, and
no item is out of range. -/
def Readable (content : Option ByteArray) : Prop :=
  ∀ bytes, content = some bytes → ∃ decoded, String.fromUTF8? bytes = some decoded ∧
    (∀ typeName, text.loads decoded ≠ .refused typeName) ∧
    ∀ document, text.loads decoded = .document document →
      ∀ item ∈ itemsOf document, ¬ OutOfRange item

end

/-! ### Items that decode -/

section Items

variable {item : Json} {items : List Json} {entries : List AuditLedgerEntry}

lemma utcOf_eq_error_iff {timestamp : IsoDatetime} :
    (∃ e, utcOf timestamp = .error e) ↔ ¬ HasUtc timestamp := by
  rw [utcOf, HasUtc]
  rcases IsoDatetime.toUtc? timestamp (timestamp.offset.getD 0) with _ | t
  · simp
  · simp

/-- Decoding an item raises exactly when it is out of range. -/
lemma decodeEntry_eq_error_iff : (∃ e, decodeEntry item = .error e) ↔ OutOfRange item := by
  cases item with
  | obj payload =>
    rw [decodeEntry]
    rcases hrepo : requiredText payload "repo_id" with _ | repoId
    · simp [OutOfRange, hrepo]
    rcases hproject : requiredText payload "project_id" with _ | projectId
    · simp [OutOfRange, hproject]
    rcases haudit : requiredText payload "audit_key" with _ | auditKey
    · simp [OutOfRange, haudit]
    rcases hobservedAt : requiredText payload "observed_at" with _ | observedAt
    · simp [OutOfRange, hobservedAt]
    rcases hexpiresAt : requiredText payload "expires_at" with _ | expiresAt
    · simp [OutOfRange, hexpiresAt]
    rcases hobserved : fromIsoformat observedAt with _ | observed
    · simp [OutOfRange, hobservedAt, hobserved]
    rcases hexpires : fromIsoformat expiresAt with _ | expires
    · simp [OutOfRange, hexpiresAt, hexpires]
    have hrange : OutOfRange (.obj payload) ↔ ¬ (HasUtc observed ∧ HasUtc expires) := by
      simp [OutOfRange, hrepo, hproject, haudit, hobservedAt, hexpiresAt, hobserved, hexpires]
    rw [hrange, not_and_or, ← utcOf_eq_error_iff, ← utcOf_eq_error_iff]
    simp only [hobserved, hexpires]
    rcases utcOf observed with e | observed
    · simp [bind, Except.bind]
    · rcases utcOf expires with e | expires
      · simp [bind, Except.bind]
      · simp [bind, Except.bind, pure, Except.pure]
  | _ => simp [decodeEntry, OutOfRange]

/-- The items of a list decode to their entries exactly when none is out of range. -/
lemma decodeEntries_eq_ok_iff :
    decodeEntries items = .ok (items.filterMap entryOf?) ↔ ∀ item ∈ items, ¬ OutOfRange item := by
  induction items with
  | nil => simp [decodeEntries]
  | cons item items ih =>
    rw [decodeEntries, List.forall_mem_cons, ← ih, ← decodeEntry_eq_error_iff]
    rcases hentry : decodeEntry item with e | entry
    · simp [bind, Except.bind]
    · rcases hrest : decodeEntries items with e | rest
      · simp [bind, Except.bind]
      · cases entry <;>
          simp [bind, Except.bind, pure, Except.pure, entryOf?, hentry]

end Items

/-! ### Contents that are read -/

section Contents

variable {text : JsonText} {content : Option ByteArray} {entries : List AuditLedgerEntry}

lemma lookup_eq_getD (key : String) (fields : List (String × Json)) :
    Json.lookup key fields = (fields.lookup key).getD .null := by
  induction fields with
  | nil => rfl
  | cons field fields ih =>
    obtain ⟨k, v⟩ := field
    rw [Json.lookup, List.lookup_cons]
    by_cases hkey : k = key
    · simp [hkey]
    · simp [hkey, beq_false_of_ne (Ne.symm hkey), ih]

/-- Ordering distinct keys changes no value. -/
lemma lookup_sortedItems {fields : List (String × Json)} (h : (fields.map Prod.fst).Nodup)
    (key : String) :
    Json.lookup key (Dictionary.sortedItems fields) = Json.lookup key fields := by
  have hperm := Dictionary.sortedItems_perm fields
  have hsorted : ((Dictionary.sortedItems fields).map Prod.fst).Nodup :=
    (hperm.map Prod.fst).nodup_iff.2 h
  have hlookup : (Dictionary.sortedItems fields).lookup key = fields.lookup key := by
    apply Option.ext
    intro value
    rw [Dictionary.lookup_eq_some_iff_mem hsorted, Dictionary.lookup_eq_some_iff_mem h,
      hperm.mem_iff]
  rw [lookup_eq_getD, lookup_eq_getD, hlookup]

/-- The keys of an entry may come in any order. -/
lemma decodeEntry_congr {payload payload' : List (String × Json)}
    (h : ∀ key, Json.lookup key payload = Json.lookup key payload') :
    decodeEntry (.obj payload) = decodeEntry (.obj payload') := by
  simp only [decodeEntry, requiredText, h]

/-- Reading a document. -/
lemma readLedger_document (document : Json) :
    readLedger (some (.json document)) = decodeEntries (itemsOf document) := by
  cases document with
  | obj payload =>
    rw [readLedger, itemsOf]
    cases Json.lookup "entries" payload <;> rfl
  | _ => rfl

/-- Entries that are written with their keys in order are read back. -/
lemma readLedger_sortedPayload (h : ∀ entry ∈ entries, entry.Named) :
    readLedger (some (.json (sortedPayload entries))) = .ok entries := by
  have hentry : ∀ entry : AuditLedgerEntry,
      decodeEntry (.obj (Dictionary.sortedItems (entryFields entry))) =
        decodeEntry (encodeEntry entry) := fun entry =>
    decodeEntry_congr (lookup_sortedItems (by simp [entryFields]))
  have hitems : decodeEntries (entries.map fun entry =>
      .obj (Dictionary.sortedItems (entryFields entry))) =
        decodeEntries (entries.map encodeEntry) := by
    clear h
    induction entries with
    | nil => rfl
    | cons entry entries ih => simp only [List.map_cons, decodeEntries, hentry, ih]
  rw [readLedger_document]
  exact hitems.trans ((readLedger_document _).symm.trans (readLedger_of_named h))

/-- The text of a content that is read. -/
lemma readContent_some {bytes : ByteArray} {decoded : String}
    (h : String.fromUTF8? bytes = some decoded) :
    readContent text (some bytes) = match text.loads decoded with
      | .document document => decodeEntries (itemsOf document)
      | .notJson => .ok []
      | .refused typeName => .error (.other typeName) := by
  rw [readContent, Option.map_some, fileText, h]
  dsimp only
  rcases text.loads decoded with document | _ | typeName
  · exact readLedger_document document
  · rfl
  · rfl

lemma entriesOf_some {bytes : ByteArray} {decoded : String}
    (h : String.fromUTF8? bytes = some decoded) :
    entriesOf text (some bytes) = match text.loads decoded with
      | .document document => (itemsOf document).filterMap entryOf?
      | _ => [] := by
  rw [entriesOf, Option.bind_some, documentOf, h, Option.map_some]
  rcases text.loads decoded with document | _ | typeName <;> rfl

/-- A content is read as the entries of its document exactly when it can be read. -/
lemma readContent_eq_ok_iff :
    readContent text content = .ok (entriesOf text content) ↔ Readable text content := by
  rcases content with _ | bytes
  · simp [Readable, readContent, readLedger, entriesOf]
  rcases hdecoded : String.fromUTF8? bytes with _ | decoded
  · have hrefused : readContent text (some bytes) = .error (.other "UnicodeDecodeError") := by
      rw [readContent, Option.map_some, fileText, hdecoded]
      rfl
    simp [hrefused, Readable, hdecoded]
  · have hreadable : Readable text (some bytes) ↔
        (∀ typeName, text.loads decoded ≠ .refused typeName) ∧
          ∀ document, text.loads decoded = .document document →
            ∀ item ∈ itemsOf document, ¬ OutOfRange item := by
      simp [Readable, hdecoded]
    rw [hreadable, readContent_some hdecoded, entriesOf_some hdecoded]
    rcases text.loads decoded with document | _ | typeName
    · simp [decodeEntries_eq_ok_iff]
    · simp
    · simp

/-- Entries that are written are read back, and any other content is read as the entries of its
document exactly when it can be read. -/
theorem readContent_spec (text : JsonText) :
    (∀ entries : List AuditLedgerEntry, (∀ entry ∈ entries, entry.Named) →
      text.loads (text.dumps (sortedPayload entries) ++ "\n") = .document (sortedPayload entries) →
        readContent text (some (writeContent text entries)) = .ok entries) ∧
    ∀ content, readContent text content = .ok (entriesOf text content) ↔
      Readable text content := by
  refine ⟨fun entries hnamed hloads => ?_, fun _ => readContent_eq_ok_iff⟩
  have hdecoded : String.fromUTF8? (writeContent text entries) =
      some (text.dumps (sortedPayload entries) ++ "\n") := by
    rw [writeContent, String.toUTF8, String.fromUTF8?, dif_pos (String.isValidUTF8 _)]
    rfl
  rw [readContent_some hdecoded, hloads]
  exact (readLedger_document _).symm.trans (readLedger_sortedPayload hnamed)

/-- A run that is still known to the ledger only, and one that has started. -/
def queuedEntry : AuditLedgerEntry where
  repoId := "repo"
  projectId := "project"
  auditKey := "audit.security"
  taskId := some "task"
  taskStatus := some "queued"
  currentHeadSha := none
  auditedHeadSha := none
  observedAt := ⟨63907963200000000, by decide⟩
  startedAt := none
  expiresAt := ⟨63907984800000000, by decide⟩

def runningEntry : AuditLedgerEntry where
  repoId := "other"
  projectId := "project"
  auditKey := "audit.tests"
  taskId := none
  taskStatus := some "running"
  currentHeadSha := some "head"
  auditedHeadSha := some "base"
  observedAt := ⟨63907963200000000, by decide⟩
  startedAt := some "2026-03-01T11:59:00+00:00"
  expiresAt := ⟨63907984800000000, by decide⟩

/-- The text of a ledger with both. -/
def entriesText : String :=
  "\x7b\"entries\": [\x7b\"audit_key\": \"audit.security\", \"audited_head_sha\": null, " ++
    "\"current_head_sha\": null, \"expires_at\": \"2026-03-01T18:00:00+00:00\", " ++
    "\"observed_at\": \"2026-03-01T12:00:00+00:00\", \"project_id\": \"project\", " ++
    "\"repo_id\": \"repo\", \"started_at\": null, \"task_id\": \"task\", " ++
    "\"task_status\": \"queued\"\x7d, " ++
    "\x7b\"audit_key\": \"audit.tests\", \"audited_head_sha\": \"base\", " ++
    "\"current_head_sha\": \"head\", \"expires_at\": \"2026-03-01T18:00:00+00:00\", " ++
    "\"observed_at\": \"2026-03-01T12:00:00+00:00\", \"project_id\": \"project\", " ++
    "\"repo_id\": \"other\", \"started_at\": \"2026-03-01T11:59:00+00:00\", " ++
    "\"task_id\": null, \"task_status\": \"running\"\x7d]\x7d"

def entriesJson : JsonText where
  loads text :=
    if text = entriesText ++ "\n" then .document (sortedPayload [queuedEntry, runningEntry])
    else .notJson
  dumps _ := entriesText

lemma loads_entriesText :
    entriesJson.loads (entriesJson.dumps (sortedPayload [queuedEntry, runningEntry]) ++ "\n") =
      .document (sortedPayload [queuedEntry, runningEntry]) := by
  simp only [entriesJson, if_true]

theorem readContent_entries :
    readContent entriesJson (some (writeContent entriesJson [queuedEntry, runningEntry])) =
      .ok [queuedEntry, runningEntry] :=
  (readContent_spec entriesJson).1 [queuedEntry, runningEntry]
    (by simp [AuditLedgerEntry.Named, queuedEntry, runningEntry]) loads_entriesText

/-- A byte that is no UTF-8 text raises an error, where its content holds no entries. -/
theorem not_readContent_of_byte :
    ¬ readContent entriesJson (some ⟨#[0xFF]⟩) = .ok (entriesOf entriesJson (some ⟨#[0xFF]⟩)) := by
  have hdecoded : String.fromUTF8? ⟨#[0xFF]⟩ = none := by decide +kernel
  rw [readContent, Option.map_some, fileText, hdecoded]
  exact nofun

end Contents

end EnjiGuard.Audit
