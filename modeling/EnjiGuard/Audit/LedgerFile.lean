import EnjiGuard.Audit.Guards
import EnjiGuard.Storage.AtomicJson

/-!
# The ledger under file failures

The file operations of a transaction can fail one by one. A reconciliation never loses an entry
that is live. Recording a run loses the live entries of other runs in one case, which is when the
read fails and the write goes through: the failed read counts as an empty ledger.
-/

namespace EnjiGuard.Audit

open Foundation Foundation.Action Storage

/-- How an operation on the ledger file fails. -/
inductive LedgerError
  | storage (error : WriteError)
  | audit (error : AuditError)

namespace FileAuditLedger

/-! ### The operations -/

section Operations

variable (env : DiskEnv FileText) {α : Type}

/-- Passes an `OSError` on. -/
def os (p : Action OsError (Disk FileText) α) : Action LedgerError (Disk FileText) α :=
  Action.tryCatch p fun e => Action.raise (.storage (.osError e))

/-- One locked cycle of reading, changing and writing. -/
def transaction (body : Action LedgerError (Disk FileText) α) :
    Action LedgerError (Disk FileText) α := do
  os (perform env "ledger_directory_mkdir" quiet)
  os (perform env "lock_open" quiet)
  Action.ensure
    (do
      os (perform env "lock" quiet)
      Action.ensure body (os (perform env "unlock" quiet)))
    (os (perform env "lock_close" quiet))

def readText : Action OsError (Disk FileText) (Option FileText) := do
  perform env "read" quiet
  let d ← Action.state
  return d.destination

/-- Reads the entries; a file that cannot be read is like one that is missing. -/
def read : Action LedgerError (Disk FileText) (List AuditLedgerEntry) := do
  let file ← Action.tryCatch (readText env) fun _ => return none
  Action.ofExcept ((readLedger file).mapError .audit)

def write (entries : List AuditLedgerEntry) : Action LedgerError (Disk FileText) Unit :=
  Action.tryCatch (writeAtomicJson env (.json (ledgerPayload entries))) fun e =>
    Action.raise (.storage e)

def recordStarted (entry : AuditLedgerEntry) : Action LedgerError (Disk FileText) Unit :=
  transaction env do
    let entries ← read env
    write env (Audit.recordStarted entries entry)

/-- The lookups of a round. -/
def resolveLookups (reply : String → TaskReply)
    (next : List (String × TaskLookupResult) →
      Action LedgerError (Disk FileText) (List (String × TaskLookupResult))) :
    List String → List (String × TaskLookupResult) →
      Action LedgerError (Disk FileText) (List (String × TaskLookupResult)) :=
  resolveEach id (fun e => Action.raise (.audit e)) reply next

variable (codec : StatusCodec) (settings : LedgerSettings) (reply : String → TaskReply)

/-- The rounds of lookups, with no lock held. -/
def lookupRounds (repoId : String) (now : Datetime) :
    Nat → List (String × TaskLookupResult) →
      Action LedgerError (Disk FileText) (List (String × TaskLookupResult)) :=
  resolveRounds codec (fun next => transaction env (read env) >>= next) (resolveLookups reply)
    repoId now fun cache => return cache

/-- Applies the lookups to entries that are read once more. -/
def commitReconciliation (repoId : String) (upstream : List AuditRun)
    (cache : List (String × TaskLookupResult)) (now : Datetime) :
    Action LedgerError (Disk FileText) ReconciliationCommit :=
  transaction env do
    let entries ← read env
    let commit := Audit.commitReconciliation codec settings repoId upstream cache now entries
    if commit.changed then write env commit.retained
    return commit

def reconcile (repoId : String) (upstream : List AuditRun) (now : Datetime) :
    Action LedgerError (Disk FileText) (List AuditRun) := do
  let cache ← lookupRounds env codec reply repoId now maxLookupRounds []
  let commit ← commitReconciliation env codec settings repoId upstream cache now
  return reconciledRuns codec upstream commit

end Operations

/-! ### What a transaction leaves behind -/

/-- The operations a transaction begins with. -/
def beforeBody : List String := ["ledger_directory_mkdir", "lock_open", "lock"]

/-- The operations from a position on lead into a transaction. -/
def Begun (env : DiskEnv FileText) (n : Nat) : Prop :=
  ∀ i operation, beforeBody[i]? = some operation → env.fate (n + i) operation = .done

variable {env : DiskEnv FileText} {d : Disk FileText} {operation : String} {α : Type}

@[simp] lemma length_record (d : Disk FileText) (operation : String) (fate : Fate) :
    (d.record operation fate).operations.length = d.operations.length + 1 := by
  simp [Disk.record]

/-- An operation that changes no file goes through or not, and is noted. -/
lemma leaves_os {P : Disk FileText → Prop}
    (hfailed : env.fate d.operations.length operation ≠ .done →
      ∀ fate, P (d.record operation fate)) :
    Leaves (os (perform env operation quiet)) d
      (fun _ d' => env.fate d.operations.length operation = .done ∧
        d' = d.record operation .done)
      (fun _ d' => P d') P := by
  refine Leaves.tryCatch (E := fun _ d' => P d') ?_ fun _ _ h => Leaves.raise h
  apply leaves_perform
  · intro hfate
    exact ⟨hfate, rfl⟩
  · intro detail progress hfate
    exact hfailed (by simp [hfate]) _
  · intro progress hfate
    exact hfailed (by simp [hfate]) _

/-- What holds of the files holds after an operation that changes none. -/
lemma leaves_os_of {Q P : Disk FileText → Prop} (hQ : Q (d.record operation .done))
    (hP : ∀ fate, P (d.record operation fate)) :
    Leaves (os (perform env operation quiet)) d (fun _ => Q) (fun _ d' => P d') P := by
  refine (leaves_os fun _ => hP).weaken ?_ (fun _ _ h => h) fun _ h => h
  rintro _ d' ⟨-, rfl⟩
  exact hQ

/-- A transaction does what its body does, or nothing at all. -/
lemma leaves_transaction {body : Action LedgerError (Disk FileText) α}
    {Q : α → Option FileText → Option FileText → Prop} {P : Option FileText → Prop}
    (hbefore : ¬ Begun env d.operations.length → P d.destination)
    (hbody : Begun env d.operations.length → ∀ d' : Disk FileText,
      d'.destination = d.destination → d'.temporary = d.temporary →
      d'.operations.length = d.operations.length + 3 →
      Leaves body d' (fun a d'' => Q a d''.destination d''.temporary ∧ P d''.destination)
        (fun _ d'' => P d''.destination) (fun d'' => P d''.destination)) :
    Leaves (transaction env body) d
      (fun a d'' => Q a d''.destination d''.temporary ∧ P d''.destination)
      (fun _ d'' => P d''.destination) (fun d'' => P d''.destination) := by
  have hfirst : ∀ {i : Nat} {operation : String}, beforeBody[i]? = some operation →
      env.fate (d.operations.length + i) operation ≠ .done → P d.destination :=
    fun hi hfate => hbefore fun hbegun => hfate (hbegun _ _ hi)
  refine (leaves_os fun hfate _ => hfirst (i := 0) rfl hfate).bind ?_
  rintro _ d₁ ⟨hdone₀, rfl⟩
  refine (leaves_os fun hfate _ => hfirst (i := 1) rfl (by simpa using hfate)).bind ?_
  rintro _ d₂ ⟨hdone₁, rfl⟩
  -- whatever the body does, the lock is released and its file closed
  refine Leaves.ensure (Q := fun a d'' => Q a d''.destination d''.temporary ∧ P d''.destination)
    (E := fun _ d'' => P d''.destination) ?_ ?_ ?_
  · refine (leaves_os fun hfate _ => hfirst (i := 2) rfl (by simpa using hfate)).bind ?_
    rintro _ d₃ ⟨hdone₂, rfl⟩
    have hbegun : Begun env d.operations.length := by
      intro i operation hi
      rcases i with _ | _ | _ | i <;> cases hi
      · exact hdone₀
      · simpa using hdone₁
      · simpa using hdone₂
    refine (hbody hbegun (((d.record _ _).record _ _).record _ _) rfl rfl (by simp)).ensure ?_ ?_
    · intro a d₄ h
      exact leaves_os_of h fun _ => h.2
    · intro e d₄ h
      exact leaves_os_of h fun _ => h
  · intro a d₄ h
    exact leaves_os_of h fun _ => h.2
  · intro e d₄ h
    exact leaves_os_of h fun _ => h

/-! ### Reading and writing -/

/-- A read returns the entries, or none after a failure of the operation itself. -/
lemma leaves_read : Leaves (read env) d
    (fun entries d' => d'.destination = d.destination ∧ d'.temporary = d.temporary ∧
      d'.operations.length = d.operations.length + 1 ∧
      ((∃ detail progress, env.fate d.operations.length "read" = .failed detail progress) ∧
          entries = [] ∨
        env.fate d.operations.length "read" = .done ∧ readLedger d.destination = .ok entries))
    (fun _ d' => d'.destination = d.destination ∧
      env.fate d.operations.length "read" = .done)
    (fun d' => d'.destination = d.destination ∧
      ∃ progress, env.fate d.operations.length "read" = .crashed progress) := by
  refine Leaves.bind (Q := fun file d' => d'.destination = d.destination ∧
    d'.temporary = d.temporary ∧ d'.operations.length = d.operations.length + 1 ∧
    ((∃ detail progress, env.fate d.operations.length "read" = .failed detail progress) ∧
        file = none ∨
      env.fate d.operations.length "read" = .done ∧ file = d.destination)) ?_ ?_
  · refine Leaves.tryCatch (E := fun _ d' => d'.destination = d.destination ∧
      d'.temporary = d.temporary ∧ d'.operations.length = d.operations.length + 1 ∧
      ∃ detail progress, env.fate d.operations.length "read" = .failed detail progress) ?_ ?_
    · refine Leaves.bind (Q := fun _ d' => d' = d.record "read" .done ∧
        env.fate d.operations.length "read" = .done) ?_ ?_
      · apply leaves_perform
        · intro hfate
          exact ⟨rfl, hfate⟩
        · intro detail progress hfate
          exact ⟨rfl, rfl, by simp [quiet], detail, progress, hfate⟩
        · intro progress hfate
          exact ⟨rfl, progress, hfate⟩
      · rintro _ d' ⟨rfl, hfate⟩
        exact ⟨rfl, rfl, by simp, .inr ⟨hfate, rfl⟩⟩
    · rintro e d' ⟨hdestination, htemporary, hlength, hfate⟩
      exact ⟨hdestination, htemporary, hlength, .inl ⟨hfate, rfl⟩⟩
  · rintro file d' ⟨hdestination, htemporary, hlength, ⟨hfate, rfl⟩ | ⟨hfate, rfl⟩⟩
    · exact ⟨hdestination, htemporary, hlength, .inl ⟨hfate, rfl⟩⟩
    · cases hread : readLedger d.destination with
      | error e => exact ⟨hdestination, hfate⟩
      | ok entries => exact ⟨hdestination, htemporary, hlength, .inr ⟨hfate, rfl⟩⟩

/-- A write replaces the file or leaves it, depending on how far its operations go. -/
lemma leaves_write {entries : List AuditLedgerEntry} {P : Disk FileText → Prop}
    (hd : d.temporary = none)
    (hP : ∀ d' : Disk FileText,
      (d'.destination = Sys.written entries ∧ Publishes env d.operations.length ∨
        d'.destination = d.destination ∧ ¬ Publishes env d.operations.length) → P d') :
    Leaves (write env entries) d (fun _ => P) (fun _ d' => P d') P := by
  refine Leaves.tryCatch (E := fun _ d' => P d') ?_ fun _ _ h => Leaves.raise h
  refine (leaves_writeAtomicJson hd).weaken ?_ ?_ ?_
  · intro _ d' h
    exact hP d' (.inl ⟨h.destination, h.publishes (by decide)⟩)
  · rintro e d' ⟨ops, h, -⟩
    exact hP d' h.destination.symm
  · rintro d' ⟨ops, h⟩
    exact hP d' h.destination.symm

/-! ### Recording -/

/-- The read fails, and everything from there to the replacement of the file goes through. -/
structure ReadLost (env : DiskEnv FileText) : Prop where
  begun : Begun env 0
  failed : ∃ detail progress, env.fate 3 "read" = .failed detail progress
  publishes : Publishes env 4

variable {file : Option FileText} {entry : AuditLedgerEntry}

/-- The file after a record. -/
lemma destination_recordStarted (env : DiskEnv FileText) (file : Option FileText)
    (entry : AuditLedgerEntry) :
    (ReadLost env ∧ (recordStarted env entry ⟨file, none, []⟩).2.destination =
        Sys.written [entry]) ∨
      ¬ ReadLost env ∧ ((recordStarted env entry ⟨file, none, []⟩).2.destination = file ∨
        ∃ entries, readLedger file = .ok entries ∧
          (recordStarted env entry ⟨file, none, []⟩).2.destination =
            Sys.written (Audit.recordStarted entries entry)) := by
  let P : Option FileText → Prop := fun file' =>
    ReadLost env ∧ file' = Sys.written [entry] ∨
      ¬ ReadLost env ∧ (file' = file ∨ ∃ entries, readLedger file = .ok entries ∧
        file' = Sys.written (Audit.recordStarted entries entry))
  have hunlost : ¬ ReadLost env → P file := fun hlost => .inr ⟨hlost, .inl rfl⟩
  have hleaves : Leaves (recordStarted env entry) ⟨file, none, []⟩
      (fun _ d => True ∧ P d.destination) (fun _ d => P d.destination)
      (fun d => P d.destination) := by
    refine leaves_transaction (Q := fun _ _ _ => True) (P := P) ?_ ?_
    · intro hbegun
      exact hunlost fun hlost => hbegun hlost.begun
    · rintro hbegun d rfl htemporary hlength
      have hlength : d.operations.length = 3 := hlength
      refine (leaves_read.weaken (fun _ _ h => h) ?_ ?_).bind ?_
      · rintro e d' ⟨hd', hfate⟩
        rw [hlength] at hfate
        rw [hd']
        refine hunlost fun hlost => ?_
        obtain ⟨detail, progress, hfailed⟩ := hlost.failed
        rw [hfate] at hfailed
        cases hfailed
      · rintro d' ⟨hd', progress, hfate⟩
        rw [hlength] at hfate
        rw [hd']
        refine hunlost fun hlost => ?_
        obtain ⟨detail, progress, hfailed⟩ := hlost.failed
        rw [hfate] at hfailed
        cases hfailed
      · rintro entries d' ⟨hd', htemporary', hlength', hread⟩
        rw [hlength] at hlength' hread
        refine (leaves_write (P := fun d => P d.destination) (htemporary'.trans htemporary)
          ?_).weaken (fun _ _ h => ⟨trivial, h⟩) (fun _ _ h => h) fun _ h => h
        intro d'' hd''
        rw [hlength', hd'] at hd''
        rcases hread with ⟨hfailed, rfl⟩ | ⟨hfate, hread⟩
        · rcases hd'' with ⟨hwritten, hpublishes⟩ | ⟨hsame, hpublishes⟩
          · exact .inl ⟨⟨hbegun, hfailed, hpublishes⟩, hwritten⟩
          · rw [hsame]
            exact hunlost fun hlost => hpublishes hlost.publishes
        · have hlost : ¬ ReadLost env := by
            intro hlost
            obtain ⟨detail, progress, hfailed⟩ := hlost.failed
            rw [hfate] at hfailed
            cases hfailed
          rcases hd'' with ⟨hwritten, -⟩ | ⟨hsame, -⟩
          · exact .inr ⟨hlost, .inr ⟨entries, hread, hwritten⟩⟩
          · rw [hsame]
            exact hunlost hlost
  exact hleaves.elim (P := fun _ d => P d.destination) (fun _ _ h => h.2) (fun _ _ h => h)
    fun _ h => h

/-! ### Reconciling -/

/-- What a reconciliation keeps of its lookups is what the service answers. -/
def Answered (reply : String → TaskReply) (cache : List (String × TaskLookupResult)) : Prop :=
  ∀ taskId result, cache.lookup taskId = some result → result = taskDetail taskId (reply taskId)

variable {codec : StatusCodec} {settings : LedgerSettings} {reply : String → TaskReply}
variable {repoId : String} {upstream : List AuditRun} {now : Datetime}
variable {cache : List (String × TaskLookupResult)}

lemma Answered.cons {taskId : String} {result : TaskLookupResult} (h : Answered reply cache)
    (hresult : taskDetail taskId (reply taskId) = result) :
    Answered reply ((taskId, result) :: cache) := by
  intro other result' hlookup
  rw [List.lookup_cons] at hlookup
  by_cases hother : other = taskId
  · simp only [hother, beq_self_eq_true, Option.some.injEq] at hlookup
    rw [hother, hresult, hlookup]
  · simp only [beq_eq_false_iff_ne.2 hother] at hlookup
    exact h other result' hlookup

/-- The lookups of a round change no file; what comes after them starts from their answers. -/
lemma leaves_resolveLookups {taskIds : List String}
    {next : List (String × TaskLookupResult) →
      Action LedgerError (Disk FileText) (List (String × TaskLookupResult))}
    {Q : List (String × TaskLookupResult) → Disk FileText → Prop}
    {E : LedgerError → Disk FileText → Prop} {P : Disk FileText → Prop}
    (hfailed : ∀ e, E (.audit e) d)
    (hnext : ∀ cache, Answered reply cache → Leaves (next cache) d Q E P)
    (h : Answered reply cache) : Leaves (resolveLookups reply next taskIds cache) d Q E P := by
  induction taskIds generalizing cache with
  | nil => exact hnext cache h
  | cons taskId taskIds ih =>
    rw [resolveLookups, resolveEach, id]
    split
    · next detail hdetail => exact ih (h.cons hdetail)
    · next e he =>
      split_ifs
      · exact ih (h.cons he)
      · exact Leaves.raise (hfailed e)

/-- The rounds of lookups leave the file alone. -/
lemma leaves_lookupRounds (rounds : Nat) (h : Answered reply cache) :
    Leaves (lookupRounds env codec reply repoId now rounds cache) d
      (fun cache' d' => Answered reply cache' ∧ d'.destination = d.destination ∧
        d'.temporary = d.temporary)
      (fun _ d' => d'.destination = d.destination) (fun d' => d'.destination = d.destination) := by
  induction rounds generalizing cache d with
  | zero => exact Leaves.pure ⟨h, rfl, rfl⟩
  | succ rounds ih =>
    have hread : Leaves (transaction env (read env)) d
        (fun _ d' => d'.temporary = d.temporary ∧ d'.destination = d.destination)
        (fun _ d' => d'.destination = d.destination)
        (fun d' => d'.destination = d.destination) := by
      refine leaves_transaction (Q := fun _ _ temporary => temporary = d.temporary)
        (P := fun file => file = d.destination) (fun _ => rfl) ?_
      intro _ d' hd' htemporary _
      refine leaves_read.weaken ?_ ?_ ?_
      · rintro entries d'' ⟨hd'', htemporary', -⟩
        exact ⟨htemporary'.trans htemporary, hd''.trans hd'⟩
      · rintro e d'' ⟨hd'', -⟩
        exact hd''.trans hd'
      · rintro d'' ⟨hd'', -⟩
        exact hd''.trans hd'
    refine hread.bind fun entries d' hd' => ?_
    simp only
    split_ifs
    · exact Leaves.pure ⟨h, hd'.2, hd'.1⟩
    · refine leaves_resolveLookups (fun _ => hd'.2) (fun cache' hcache' => ?_) h
      refine (ih hcache').weaken ?_ ?_ ?_
      · rintro cache'' d'' ⟨hcache'', hd'', htemporary⟩
        exact ⟨hcache'', hd''.trans hd'.2, htemporary.trans hd'.1⟩
      · intro e d'' hd''
        exact hd''.trans hd'.2
      · intro d'' hd''
        exact hd''.trans hd'.2

/-- The commit of a reconciliation leaves the file, or writes the entries it keeps. -/
lemma leaves_commitReconciliation (hd : d.temporary = none) :
    Leaves (commitReconciliation env codec settings repoId upstream cache now) d
      (fun _ d' => True ∧ (d'.destination = d.destination ∨
        ∃ entries, readLedger d.destination = .ok entries ∧
          d'.destination = Sys.written (entries.filter (keeps codec settings repoId cache now))))
      (fun _ d' => d'.destination = d.destination ∨
        ∃ entries, readLedger d.destination = .ok entries ∧
          d'.destination = Sys.written (entries.filter (keeps codec settings repoId cache now)))
      (fun d' => d'.destination = d.destination ∨
        ∃ entries, readLedger d.destination = .ok entries ∧
          d'.destination =
            Sys.written (entries.filter (keeps codec settings repoId cache now))) := by
  refine leaves_transaction (Q := fun _ _ _ => True)
    (P := fun file => file = d.destination ∨ ∃ entries, readLedger d.destination = .ok entries ∧
      file = Sys.written (entries.filter (keeps codec settings repoId cache now)))
    (fun _ => .inl rfl) ?_
  intro _ d₁ hd₁ htemporary _
  refine (leaves_read.weaken (fun _ _ h => h) ?_ ?_).bind ?_
  · rintro e d' ⟨hd', -⟩
    exact .inl (hd'.trans hd₁)
  · rintro d' ⟨hd', -⟩
    exact .inl (hd'.trans hd₁)
  · rintro entries d₂ ⟨hd₂, htemporary₂, -, hread⟩
    have hsame : d₂.destination = d.destination := hd₂.trans hd₁
    simp only
    split_ifs with hchanged
    · refine (leaves_write (htemporary₂.trans (htemporary.trans hd)) ?_).bind
        (Q := fun _ d' => d'.destination = d.destination ∨
          ∃ entries, readLedger d.destination = .ok entries ∧
            d'.destination = Sys.written (entries.filter (keeps codec settings repoId cache now)))
        fun _ _ h => Leaves.pure ⟨trivial, h⟩
      rintro d₃ (⟨hwritten, -⟩ | ⟨hkept, -⟩)
      · rcases hread with ⟨-, rfl⟩ | ⟨-, hread⟩
        · -- without entries there is nothing to change
          cases hchanged
        · rw [hd₁] at hread
          rw [commitReconciliation_retained] at hwritten
          exact .inr ⟨entries, hread, hwritten⟩
      · exact .inl (hkept.trans hsame)
    · exact Leaves.pure ⟨trivial, .inl hsame⟩

/-- The file after a reconciliation. -/
lemma destination_reconcile (env : DiskEnv FileText) (codec : StatusCodec)
    (settings : LedgerSettings) (reply : String → TaskReply) (file : Option FileText)
    (repoId : String) (upstream : List AuditRun) (now : Datetime) :
    (reconcile env codec settings reply repoId upstream now ⟨file, none, []⟩).2.destination =
        file ∨
      ∃ cache entries, Answered reply cache ∧ readLedger file = .ok entries ∧
        (reconcile env codec settings reply repoId upstream now ⟨file, none, []⟩).2.destination =
          Sys.written (entries.filter (keeps codec settings repoId cache now)) := by
  let P : Option FileText → Prop := fun file' => file' = file ∨
    ∃ cache entries, Answered reply cache ∧ readLedger file = .ok entries ∧
      file' = Sys.written (entries.filter (keeps codec settings repoId cache now))
  have hleaves : Leaves (reconcile env codec settings reply repoId upstream now) ⟨file, none, []⟩
      (fun _ d => P d.destination) (fun _ d => P d.destination) (fun d => P d.destination) := by
    have hempty : Answered reply [] := by
      intro taskId result h
      cases h
    refine ((leaves_lookupRounds maxLookupRounds hempty).weaken (fun _ _ h => h) ?_ ?_).bind ?_
    · exact fun _ _ h => .inl h
    · exact fun _ h => .inl h
    · rintro cache d ⟨hcache, hdestination, htemporary⟩
      have hcommitted : ∀ file', (file' = d.destination ∨
          ∃ entries, readLedger d.destination = .ok entries ∧
            file' = Sys.written (entries.filter (keeps codec settings repoId cache now))) →
          P file' := by
        rw [hdestination]
        rintro file' (hsame | ⟨entries, hread, hwritten⟩)
        · exact .inl hsame
        · exact .inr ⟨cache, entries, hcache, hread, hwritten⟩
      refine ((leaves_commitReconciliation htemporary).weaken ?_ ?_ ?_).bind
        (Q := fun _ d => P d.destination) fun _ _ h => Leaves.pure h
      · exact fun _ d' h => hcommitted d'.destination h.2
      · exact fun _ d' h => hcommitted d'.destination h
      · exact fun d' h => hcommitted d'.destination h
  exact hleaves.elim (P := fun _ d => P d.destination) (fun _ _ h => h) (fun _ _ h => h)
    fun _ h => h

/-! ### Guards -/

def ledgerItems : Option FileText → List Json
  | some (.json (.obj payload)) =>
    match Json.lookup "entries" payload with
    | .arr items => items
    | _ => []
  | _ => []

/-- An entry is recorded in a file. -/
def Holds (file : Option FileText) (entry : AuditLedgerEntry) : Prop :=
  ∃ item ∈ ledgerItems file, decodeEntry item = .ok (some entry)

variable (codec settings reply now)

/-- An entry guards a run at a moment: it has not expired, its task is not known to be over, and
the service does not say so either. -/
structure Live (entry : AuditLedgerEntry) : Prop where
  unexpired : now < entry.expiresAt
  unfinished : isTerminalStatus codec entry.taskStatus = false
  active : ∀ taskId detail, entry.taskId = some taskId →
    taskDetail taskId (reply taskId) = .ok detail → detail.isActive codec = true
  found : ∀ taskId text, entry.taskId = some taskId →
    taskDetail taskId (reply taskId) = .error (.notFound text) →
      now.sub entry.observedAt ≤ Timedelta.seconds settings.lookupGraceSeconds

variable {codec settings reply now}

/-- A call either raises and leaves the file, or leaves a file with all the entries that are to
stay. -/
def KeepsGuards (staying : AuditLedgerEntry → Prop) (file : Option FileText)
    (ended : Outcome LedgerError α × Disk FileText) : Prop :=
  ((∃ e, ended.1 = .raised e) ∧ ended.2.destination = file) ∨
    ∀ entry, Holds file entry → staying entry → Holds ended.2.destination entry

variable (env codec settings reply now)

/-- The two calls that update the ledger keep its guards; a record replaces the entry of its own
run. -/
structure UpdatesAtomic (file : Option FileText) (entry : AuditLedgerEntry) (repoId : String)
    (upstream : List AuditRun) : Prop where
  recorded : KeepsGuards
    (fun other => Live codec settings reply now other ∧ sameIdentity other entry = false) file
    (recordStarted env entry ⟨file, none, []⟩)
  reconciled : KeepsGuards (Live codec settings reply now) file
    (reconcile env codec settings reply repoId upstream now ⟨file, none, []⟩)

variable {env codec settings reply now} {entries : List AuditLedgerEntry}
variable {other : AuditLedgerEntry}

lemma mem_decodeEntries {items : List Json} (h : decodeEntries items = .ok entries) :
    other ∈ entries ↔ ∃ item ∈ items, decodeEntry item = .ok (some other) := by
  induction items generalizing entries with
  | nil =>
    cases h
    simp
  | cons item items ih =>
    rcases hitem : decodeEntry item with e | decoded
    · simp [decodeEntries, hitem, bind, Except.bind] at h
    · rcases hitems : decodeEntries items with e | rest
      · simp [decodeEntries, hitem, hitems, bind, Except.bind] at h
      · simp only [decodeEntries, hitem, hitems, bind, Except.bind, pure, Except.pure,
          Except.ok.injEq] at h
        rw [← h, List.mem_append, ih hitems, Option.mem_toList]
        simp [hitem]

/-- What is recorded in a file that can be read is what is read. -/
lemma holds_iff (h : readLedger file = .ok entries) : Holds file other ↔ other ∈ entries := by
  rcases file with _ | _ | detail | typeName | payload
  · cases h
    simp [Holds, ledgerItems]
  · cases h
  · cases h
    simp [Holds, ledgerItems]
  · cases h
  · cases payload with
    | obj fields =>
      simp only [readLedger] at h
      rcases hlookup : Json.lookup "entries" fields with _ | _ | _ | _ | _ | items | _ <;>
        simp only [hlookup] at h <;> simp only [Holds, ledgerItems, hlookup]
      case arr => exact (mem_decodeEntries h).symm
      all_goals
        cases h
        simp
    | _ =>
      cases h
      simp [Holds, ledgerItems]

lemma holds_written : Holds (Sys.written entries) other ↔ other ∈ entries ∧ other.Named := by
  rw [Sys.written, holds_iff (readLedger_ledgerPayload entries), List.mem_filter]
  simp

/-- A commit keeps the live entries. -/
lemma Live.keeps (h : Live codec settings reply now other) (hcache : Answered reply cache) :
    keeps codec settings repoId cache now other = true := by
  by_contra hkeeps
  obtain ⟨-, hexpired | hterminal | ⟨taskId, htask, hanswer⟩⟩ :=
    keeps_eq_false (Bool.not_eq_true _ ▸ hkeeps)
  · exact absurd h.unexpired (not_lt_of_ge hexpired)
  · rw [h.unfinished] at hterminal
    cases hterminal
  · rcases hanswer with ⟨detail, hlookup, hactive⟩ | ⟨text, hlookup, hgrace⟩
    · have hreply := hcache taskId _ hlookup
      rw [h.active taskId detail htask hreply.symm] at hactive
      cases hactive
    · have hreply := hcache taskId _ hlookup
      exact absurd hgrace (Int.not_lt.2 (h.found taskId text htask hreply.symm))

/-- Whatever fails, a reconciliation keeps the live entries. -/
lemma keepsGuards_reconcile :
    KeepsGuards (Live codec settings reply now) file
      (reconcile env codec settings reply repoId upstream now ⟨file, none, []⟩) := by
  refine .inr fun other hholds hlive => ?_
  rcases destination_reconcile env codec settings reply file repoId upstream now with
    hsame | ⟨cache, entries, hcache, hread, hwritten⟩
  · rw [hsame]
    exact hholds
  · have hmem := (holds_iff hread).1 hholds
    rw [hwritten, holds_written, List.mem_filter]
    exact ⟨⟨hmem, hlive.keeps hcache⟩, named_of_readLedger hread other hmem⟩

/-- A record keeps the entries of the other runs, unless the read is lost. -/
lemma keepsGuards_recordStarted {staying : AuditLedgerEntry → Prop} :
    KeepsGuards (fun other => staying other ∧ sameIdentity other entry = false) file
        (recordStarted env entry ⟨file, none, []⟩) ↔
      ¬ (ReadLost env ∧
        ∃ other, Holds file other ∧ staying other ∧ sameIdentity other entry = false) := by
  rcases destination_recordStarted env file entry with
    ⟨hlost, hwritten⟩ | ⟨hlost, hsame | ⟨entries, hread, hwritten⟩⟩
  · constructor
    · rintro hkeeps ⟨-, other, hholds, hstaying, hother⟩
      have hgone : ¬ Holds (Sys.written [entry]) other := by
        intro h
        rw [holds_written, List.mem_singleton] at h
        rw [h.1, sameIdentity_self] at hother
        cases hother
      rcases hkeeps with ⟨-, hsame⟩ | hkept
      · rw [← hsame, hwritten] at hholds
        exact hgone hholds
      · have hkept' := hkept other hholds ⟨hstaying, hother⟩
        rw [hwritten] at hkept'
        exact hgone hkept'
    · intro hnone
      refine .inr fun other hholds hstaying => ?_
      exact absurd ⟨hlost, other, hholds, hstaying.1, hstaying.2⟩ hnone
  · refine iff_of_true (.inr fun other hholds _ => ?_) fun h => hlost h.1
    rw [hsame]
    exact hholds
  · refine iff_of_true (.inr fun other hholds hstaying => ?_) fun h => hlost h.1
    have hmem := (holds_iff hread).1 hholds
    rw [hwritten, holds_written, Audit.recordStarted]
    refine ⟨List.mem_append_left _ (List.mem_filter.2 ⟨hmem, ?_⟩),
      named_of_readLedger hread other hmem⟩
    rw [hstaying.2]
    rfl

/-- The updates keep every live guard exactly when no read that fails is followed by a record that
goes through while the ledger has a live entry of another run. -/
theorem updatesAtomic_iff (env : DiskEnv FileText) (codec : StatusCodec)
    (settings : LedgerSettings) (reply : String → TaskReply) (now : Datetime)
    (file : Option FileText) (entry : AuditLedgerEntry) (repoId : String)
    (upstream : List AuditRun) :
    UpdatesAtomic env codec settings reply now file entry repoId upstream ↔
      ¬ (ReadLost env ∧ ∃ other, Holds file other ∧ Live codec settings reply now other ∧
        sameIdentity other entry = false) := by
  rw [← keepsGuards_recordStarted]
  exact ⟨fun h => h.recorded, fun h => ⟨h, keepsGuards_reconcile⟩⟩

/-- A disk that fails only to read. -/
def readFailing : DiskEnv FileText where
  fate := fun _ operation => if operation = "read" then .failed "EIO" 0 else .done
  cut := fun content _ => content

lemma readFailing_readLost : ReadLost readFailing := by
  refine ⟨?_, ⟨"EIO", 0, rfl⟩, ?_, rfl⟩
  · intro i operation hi
    rcases i with _ | _ | _ | i <;> cases hi <;> rfl
  · intro i operation hi
    rcases i with _ | _ | _ | _ | _ | _ | _ | i <;> cases hi <;> rfl

/-- One read that fails, and the guard of another run is gone. -/
theorem not_updatesAtomic :
    ¬ ∀ env codec settings reply now file entry repoId upstream,
      UpdatesAtomic env codec settings reply now file entry repoId upstream := by
  intro h
  let other : AuditLedgerEntry := { Sys.sampleEntry with taskId := some "other" }
  have hholds : Holds (Sys.written [other]) other := by
    rw [holds_written]
    exact ⟨List.mem_singleton_self _, by decide⟩
  have hlive : Live plainStatusCodec {} (fun _ => .malformed) Sys.dawn other := by
    refine ⟨by decide +kernel, by decide, ?_, ?_⟩
    · intro taskId detail _ hdetail
      cases hdetail
    · intro taskId text _ hanswer
      cases hanswer
  have hkept := (h readFailing plainStatusCodec {} (fun _ => .malformed) Sys.dawn
    (Sys.written [other]) Sys.sampleEntry "repo" []).recorded
  exact keepsGuards_recordStarted.1 hkept
    ⟨readFailing_readLost, other, hholds, hlive, by decide⟩

end FileAuditLedger

end EnjiGuard.Audit
