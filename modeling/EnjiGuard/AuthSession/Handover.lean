import EnjiGuard.AuthSession.Telemetry
import EnjiGuard.AuthSession.Retention

/-!
# What becomes of a received successor

A commit that has received a complete successor stores it, journals its rotation or hands it to
the caller, whatever single operation fails. It loses the successor before its first durable write
where it raises something other than an error of the operating system: when the diagnostics cannot
be prepared, when the credential or the journal cannot be looked at, and when the journal cannot be
written and the temporary file of the attempt cannot be removed either.
-/

namespace EnjiGuard.AuthSession

open Foundation Action Relation

variable {codec : CookieCodec} {env : Env} {w : World} {r : Run} {E : PyError → Run → Prop}

/-! ### Operations of a live process -/

namespace Env

/-- The process lives on: an operation may fail, but none is the last thing it does. -/
def Lives (env : Env) : Prop := ∀ n operation, env.fault n operation ≠ .crash

/-- The operation at a position succeeds. -/
def Works (env : Env) (n : Nat) (operation : String) : Prop := env.fault n operation = .none

/-- The operation at a position fails. -/
def Fails (env : Env) (n : Nat) (operation : String) : Prop :=
  ∃ detail, env.fault n operation = .error detail

/-- The position of the first operation that fails, of some that begin at a position. -/
def firstFailure (env : Env) : Nat → List String → Option Nat
  | _, [] => none
  | n, operation :: operations =>
    match env.fault n operation with
    | .none => env.firstFailure (n + 1) operations
    | _ => some n

lemma Works.not_fails {n : Nat} {operation : String} (h : env.Works n operation) :
    ¬ env.Fails n operation := by
  rintro ⟨detail, hdetail⟩
  rw [Works, hdetail] at h
  cases h

lemma firstFailure_of_works {n : Nat} {operation : String} {operations : List String}
    (h : env.Works n operation) :
    env.firstFailure n (operation :: operations) = env.firstFailure (n + 1) operations := by
  rw [firstFailure, h]

lemma firstFailure_of_fails {n : Nat} {operation : String} {operations : List String}
    (h : env.Fails n operation) : env.firstFailure n (operation :: operations) = some n := by
  obtain ⟨detail, hdetail⟩ := h
  rw [firstFailure, hdetail]

end Env

/-- A run after one more storage operation. -/
def Run.triggered (r : Run) : Run :=
  { r with cursor := { r.cursor with faults := r.cursor.faults + 1 } }

@[simp] lemma Run.triggered_world (r : Run) : r.triggered.world = r.world := rfl

@[simp] lemma Run.triggered_faults (r : Run) :
    r.triggered.cursor.faults = r.cursor.faults + 1 := rfl

/-- An operation of a live process succeeds, or fails with an error of the operating system. -/
lemma ends_trigger_live (hlives : env.Lives) (operation : String) (r : Run) :
    Ends (trigger env operation) r
      (fun _ r' => r' = r.triggered ∧ env.Works r.cursor.faults operation)
      (fun e r' => r' = r.triggered ∧ env.Fails r.cursor.faults operation ∧
        ∃ detail, e = .osError detail) := by
  unfold Ends trigger
  rcases hfault : env.fault r.cursor.faults operation with _ | detail | _
  · exact ⟨rfl, hfault⟩
  · exact ⟨rfl, ⟨detail, hfault⟩, detail, rfl⟩
  · exact absurd hfault (hlives _ _)

/-- An operation of a live process before some others, by the first of them that fails. -/
lemma ends_trigger_then_live {α : Type} (hlives : env.Lives) {operation : String}
    {operations : List String} {p : Auth α} {Q : Option Nat → α → Run → Prop}
    {E : Option Nat → PyError → Run → Prop}
    (hp : ∀ failure, env.firstFailure r.triggered.cursor.faults operations = failure →
      Ends p r.triggered (Q failure) (E failure))
    (hE : ∀ detail, E (some r.cursor.faults) (.osError detail) r.triggered)
    {failure : Option Nat}
    (hfailure : env.firstFailure r.cursor.faults (operation :: operations) = failure) :
    Ends (trigger env operation >>= fun _ => p) r (Q failure) (E failure) := by
  refine ((ends_trigger_live hlives operation r).weaken (fun _ _ h => h) ?_).bind
    fun _ r' h => ?_
  · rintro e r' ⟨rfl, hfails, detail, rfl⟩
    rw [Env.firstFailure_of_fails hfails] at hfailure
    exact hfailure ▸ hE detail
  · obtain ⟨rfl, hworks⟩ := h
    rw [Env.firstFailure_of_works hworks] at hfailure
    exact hp failure hfailure

/-! ### Writing the journal -/

/-- The operations of an atomic write while there is a temporary file and no rename yet. -/
def temporaryOperations : List String := ["write", "file_fsync", "temporary_chmod", "rename"]

/-- The operations of a journal write up to the rename. -/
def journalOperations : List String :=
  "before_write_journal" :: "parent_directory_mkdir" :: "parent_directory_chmod" ::
    "temporary_file" :: temporaryOperations

/-- How an atomic write fails: after the rename, or before it and without a trace in the files.
Where the temporary file is there and cannot be removed, the error is a group. -/
def WriteFails (env : Env) (r : Run) (w : World) (temporary : Nat) (failure : Option Nat)
    (e : PyError) (r' : Run) : Prop :=
  match failure with
  | none => r'.world = w
  | some k => r'.world = r.world ∧
    (e.isOsError = true ∧ ¬ (temporary ≤ k ∧ env.Fails (k + 1) "unlink") ∨
      e.isOsError = false ∧ temporary ≤ k ∧ env.Fails (k + 1) "unlink" ∧
        r'.cursor.faults = k + 2)

/-- How the part of an atomic write fails that has a temporary file. -/
def TemporaryFails (r : Run) (w : World) (temporary : Nat) (failure : Option Nat) (e : PyError)
    (r' : Run) : Prop :=
  (∃ detail, e = .osError detail) ∧
    match failure with
    | none => r'.world = w
    | some k => r'.world = r.world ∧ temporary ≤ k ∧ r'.cursor.faults = k + 1

/-- An atomic write has put its file in place. -/
def Renamed (w : World) (failure : Option Nat) (_ : Unit) (r' : Run) : Prop :=
  failure = none ∧ r'.world = w

/-- A failure after the rename leaves the file replaced. -/
lemma ends_renamed (hlives : env.Lives) :
    Ends (do trigger env "destination_chmod"; fsyncDirectory env) r
      (fun _ r' => r'.world = r.world)
      (fun e r' => r'.world = r.world ∧ ∃ detail, e = .osError detail) := by
  have htrigger : ∀ operation (r₁ : Run), r₁.world = r.world →
      Ends (trigger env operation) r₁ (fun _ r' => r'.world = r.world)
        (fun e r' => r'.world = r.world ∧ ∃ detail, e = .osError detail) := by
    intro operation r₁ hsame
    refine (ends_trigger_live hlives operation r₁).weaken ?_ ?_
    · rintro _ r' ⟨rfl, -⟩
      exact hsame
    · rintro e r' ⟨rfl, -, hdetail⟩
      exact ⟨hsame, hdetail⟩
  refine (htrigger _ r rfl).bind fun _ r₁ h₁ => (htrigger _ r₁ h₁).bind fun _ r₂ h₂ => ?_
  exact (htrigger _ r₂ h₂).ensure_raising (fun _ r₃ h₃ => htrigger _ r₃ h₃) fun e r₃ h₃ =>
    (htrigger _ r₃ h₃.1).weaken (fun _ _ h => ⟨h, h₃.2⟩) fun _ _ h => h

/-- The clean-up after a failure. -/
lemma ends_cleanUp (hlives : env.Lives) (detail : String) :
    Ends (α := Unit) (do
        Action.tryCatch (trigger env "unlink") fun cleanup => match cleanup with
          | .osError cleanupDetail => Action.raise (.exceptionGroup [detail, cleanupDetail])
          | e => Action.raise e
        Action.raise (.osError detail)) r (fun _ _ => False)
      (fun e r' => r'.world = r.world ∧
        (e.isOsError = true ∧ ¬ env.Fails r.cursor.faults "unlink" ∨
          e.isOsError = false ∧ env.Fails r.cursor.faults "unlink" ∧
            r'.cursor.faults = r.cursor.faults + 1)) := by
  refine Ends.bind (Q := fun _ r' => r' = r.triggered ∧ env.Works r.cursor.faults "unlink")
    (Ends.tryCatch (ends_trigger_live hlives "unlink" r) ?_) ?_
  · rintro e r' ⟨rfl, hfails, cleanupDetail, rfl⟩
    exact Ends.raise ⟨rfl, .inr ⟨rfl, hfails, rfl⟩⟩
  · rintro _ r' ⟨rfl, hworks⟩
    exact Ends.raise ⟨rfl, .inl ⟨rfl, hworks.not_fails⟩⟩

/-- An atomic write of a live process, by the first failure up to its rename. -/
lemma ends_writeAtomicJson_live (hlives : env.Lives)
    {replace : World → Option Datetime → World} {temporary : Nat} {failure : Option Nat}
    (htemporary : temporary = r.cursor.faults + 3)
    (hfailure : env.firstFailure r.cursor.faults ("parent_directory_mkdir" ::
      "parent_directory_chmod" :: "temporary_file" :: temporaryOperations) = failure) :
    Ends (writeAtomicJson env replace) r (Renamed (replace r.world (r.lastReading env)) failure)
      (WriteFails env r (replace r.world (r.lastReading env)) temporary failure) := by
  obtain ⟨w, hw⟩ : ∃ w, w = replace r.world (r.lastReading env) := ⟨_, rfl⟩
  rw [← hw]
  have hearly : ∀ k detail (r' : Run), k < temporary → r'.world = r.world →
      WriteFails env r w temporary (some k) (.osError detail) r' := fun k detail r' hk hsame =>
    ⟨hsame, .inl ⟨rfl, fun hlate => absurd hlate.1 (Nat.not_le.2 hk)⟩⟩
  have hlate : ∀ detail (r' : Run), r'.world = r.world → temporary < r'.cursor.faults →
      TemporaryFails r w temporary (some (r'.cursor.faults - 1)) (.osError detail) r' :=
    fun detail r' hsame hlt => ⟨⟨detail, rfl⟩, hsame, by omega, by omega⟩
  refine ends_trigger_then_live (Q := Renamed w) (E := WriteFails env r w temporary) hlives
    (fun failure hfailure => ?_) (fun detail => hearly _ _ _ (by omega) rfl) hfailure
  refine ends_trigger_then_live (r := r.triggered) (Q := Renamed w)
    (E := WriteFails env r w temporary) hlives (fun failure hfailure => ?_)
    (fun detail => hearly _ _ _ (by simp; omega) rfl) hfailure
  refine ends_trigger_then_live (r := r.triggered.triggered) (Q := Renamed w)
    (E := WriteFails env r w temporary) hlives (fun failure hfailure => ?_)
    (fun detail => hearly _ _ _ (by simp; omega) rfl) hfailure
  -- now there is a temporary file
  obtain ⟨r₃, hr₃⟩ : ∃ r₃, r₃ = r.triggered.triggered.triggered := ⟨_, rfl⟩
  have hsame : r₃.world = r.world := by rw [hr₃]; rfl
  have hreading : r₃.lastReading env = r.lastReading env := by rw [hr₃]; rfl
  have hbegun : r₃.cursor.faults = temporary := by rw [hr₃, htemporary]; rfl
  rw [← hr₃] at hfailure ⊢
  refine Ends.tryCatch (E := TemporaryFails r w temporary failure) ?_ ?_
  · refine ends_trigger_then_live (Q := Renamed w) (E := TemporaryFails r w temporary) hlives
      (fun failure hfailure => ?_) (fun detail => hlate detail _ hsame (by simp; omega)) hfailure
    refine ends_trigger_then_live (r := r₃.triggered) (Q := Renamed w)
      (E := TemporaryFails r w temporary) hlives (fun failure hfailure => ?_)
      (fun detail => hlate detail _ hsame (by simp; omega)) hfailure
    refine ends_trigger_then_live (r := r₃.triggered.triggered) (Q := Renamed w)
      (E := TemporaryFails r w temporary) hlives (fun failure hfailure => ?_)
      (fun detail => hlate detail _ hsame (by simp; omega)) hfailure
    refine ends_trigger_then_live (r := r₃.triggered.triggered.triggered) (Q := Renamed w)
      (E := TemporaryFails r w temporary) hlives (fun failure hfailure => ?_)
      (fun detail => hlate detail _ hsame (by simp; omega)) hfailure
    cases hfailure
    refine Ends.bind (Ends.update (Q := fun _ r' => r'.world = w) ?_) fun _ r' h' => ?_
    · exact (hw.trans (by rw [← hsame, ← hreading]; rfl)).symm
    · exact (ends_renamed hlives).weaken (fun _ _ h => ⟨rfl, h.trans h'⟩)
        fun _ _ h => ⟨h.2, h.1.trans h'⟩
  · rintro e r' ⟨⟨detail, rfl⟩, hleft⟩
    refine (ends_cleanUp hlives detail).weaken (fun _ _ h => h.elim) fun e r'' h => ?_
    obtain ⟨hworld, hend⟩ := h
    cases failure with
    | none => exact hworld.trans hleft
    | some k =>
      obtain ⟨hsame', hk, hfaults⟩ := hleft
      rw [hfaults] at hend
      refine ⟨hworld.trans hsame', hend.imp ?_ ?_⟩
      · exact fun h => ⟨h.1, fun hfails => h.2 hfails.2⟩
      · exact fun h => ⟨h.1, hk, h.2.1, h.2.2⟩

/-- A journal write of a live process, by the first failure up to its rename. -/
lemma ends_writeJournal_live (hlives : env.Lives) {state : JournalState} {enqueued : Bool}
    {attempt : RotationAttempt} {failure : Option Nat}
    (hfailure : env.firstFailure r.cursor.faults journalOperations = failure) :
    Ends (writeJournal env state enqueued attempt) r
      (Renamed (r.world.setJournal state enqueued attempt (r.lastReading env)) failure)
      (WriteFails env r (r.world.setJournal state enqueued attempt (r.lastReading env))
        (r.cursor.faults + 4) failure) := by
  refine ends_trigger_then_live (Q := Renamed _) (E := WriteFails env r _ (r.cursor.faults + 4))
    hlives (fun failure hfailure => ?_) (fun detail => ⟨rfl, .inl ⟨rfl, ?_⟩⟩) hfailure
  · refine ((ends_writeAtomicJson_live (r := r.triggered) hlives rfl hfailure).weaken
      (fun _ _ h => h) fun _ _ h => h).bind fun _ r' h' => ?_
    obtain ⟨rfl, hworld⟩ := h'
    refine (ends_trigger_live hlives "after_write_journal" r').weaken ?_ ?_
    · rintro _ _ ⟨rfl, -⟩
      exact ⟨rfl, hworld⟩
    · rintro _ _ ⟨rfl, -⟩
      exact hworld
  · exact fun hlate => absurd hlate.1 (by omega)

/-! ### Keeping a successor -/

/-- A successor cookie of a source. -/
structure Successor where
  source : String
  header : String
  revision : String

variable {x : Successor}

/-- The journal record of its rotation. -/
def Successor.rotated (x : Successor) : TerminalState := .rotated x.source x.header x.revision

namespace World

/-- The successor is in the credential file. -/
def Stored (w : World) (x : Successor) : Prop :=
  ∃ auth, w.Holds auth ∧ auth.revision = x.revision ∧ auth.credential = .cookie x.header

/-- The successor is in the journal. -/
def Journaled (w : World) (x : Successor) : Prop :=
  ∃ enqueued attempt, w.JournalHolds (.terminal x.rotated) enqueued attempt

/-- The files hold the successor. -/
def Keeps (w : World) (x : Successor) : Prop := w.Stored x ∨ w.Journaled x

end World

/-- Recording a rotation leaves its stored successor alone. -/
lemma finally_recordStored {attempt : RotationAttempt} (h : r.world.Stored x) :
    Finally (recordTerminalOutcome env x.rotated attempt false) r
      fun r' => r'.world.Stored x := by
  have hprojected : r.world.Projected x.rotated := by
    obtain ⟨auth, hheld, hrevision, -⟩ := h
    rintro successor ⟨⟩
    exact ⟨auth, hheld, hrevision⟩
  have htracks : Tracks Run.world (RecordStep x.rotated attempt fun _ => True)
      (recordTerminalOutcome env x.rotated attempt false) r _ _ :=
    tracks_recordTerminalOutcome (fun _ => True) (fun _ _ _ _ => trivial) (fun _ => trivial)
      (by rintro ⟨⟩) hprojected
  refine Finally.of_tracks (P := fun w => w.Stored x) htracks h ?_
  rintro w w' hstep ⟨auth, hheld, hsame⟩
  exact ⟨auth, hstep.sameDispatches.holds.2 hheld, hsame⟩

/-- From the journal record on the successor is kept, however the commit ends. -/
lemma finally_project {attempt : RotationAttempt} (h : r.world.Journaled x) :
    Finally (do
      match ← casReplaceCookie env x.source x.header x.revision with
      | .written auth => do
        recordTerminalOutcome env x.rotated attempt false
        return auth
      | .superseded _ => currentOrRaise env) r fun r' => r'.world.Keeps x := by
  refine Finally.bind_tracks (P := fun w => w.Keeps x) (tracks_casReplaceCookie
    (R := fun _ w' => w'.Stored x) fun current auth _ _ hrevision hcookie => ?_) (.inr h)
      (fun _ _ hstored _ => .inl hstored) fun result r' hr' => ?_
  · exact ⟨auth, World.holds_setCredential _ _ _, hrevision, hcookie⟩
  · cases result with
    | written auth =>
      obtain ⟨hrevision, hcookie, -, hreplaced⟩ := hr'
      have hstored : r'.world.Stored x := by
        rw [hreplaced.world]
        exact ⟨auth, World.holds_setCredential _ _ _, hrevision, hcookie⟩
      exact ((finally_recordStored hstored).weaken fun _ h => .inl h).seq
        fun _ _ h => h
    | superseded revision =>
      have hkept : r'.world.Keeps x := .inr (hr'.world ▸ h)
      exact Finally.of_tracks (P := fun w => w.Keeps x) (leaves_currentOrRaise env r') hkept
        fun _ _ hstep => hstep.elim

/-! ### What the readers raise -/

/-- A computation raises no error of the operating system. -/
def Unfailing {α : Type} (p : Except PyError α) : Prop := ∀ e, p = .error e → e.isOsError = false

namespace Unfailing

variable {α β : Type}

lemma ok {a : α} : Unfailing (.ok a) := by rintro e ⟨⟩

lemma error {e : PyError} (h : e.isOsError = false) : Unfailing (.error e : Except PyError α) := by
  rintro e' ⟨⟩
  exact h

lemma bind {p : Except PyError α} {f : α → Except PyError β} (hp : Unfailing p)
    (hf : ∀ a, Unfailing (f a)) : Unfailing (p >>= f) := by
  rcases p with e | a
  · exact error (hp e rfl)
  · exact hf a

lemma map {p : Except PyError α} {f : α → β} (hp : Unfailing p) : Unfailing (p.map f) := by
  rcases p with e | a
  · exact error (hp e rfl)
  · exact ok

lemma ite {p q : Except PyError α} {P : Prop} [Decidable P] (hp : Unfailing p)
    (hq : Unfailing q) : Unfailing (if P then p else q) := by
  split_ifs
  · exact hp
  · exact hq

/-- A value that is computed in one of two ways. -/
lemma either {p q : Except PyError α} {f : α → Except PyError β} {P : Prop} [Decidable P]
    (hp : Unfailing p) (hq : Unfailing q) (hf : ∀ a, Unfailing (f a)) :
    Unfailing (if P then p >>= f else q >>= f) := (hp.bind hf).ite (hq.bind hf)

end Unfailing

lemma unfailing_validateImportedAt (value : String) (now : Datetime) :
    Unfailing (validateImportedAt value now) := by
  intro e h
  rw [validateImportedAt] at h
  rcases hparsed : parseUtcTimestamp value with _ | parsed <;> rw [hparsed] at h
  · cases h
  · rcases hlatest : now.add? importedAtFutureTolerance with _ | latest <;> rw [hlatest] at h
    · cases h
      rfl
    · cases h

lemma unfailing_authOf (now : Datetime) (file : Option FileText) : Unfailing (authOf now file) := by
  rcases file with _ | _ | detail | typeName | payload <;> simp only [authOf]
  · exact .ok
  · exact .ok
  · exact .ok
  · exact .error (by simp)
  · unfold parseAuth
    split
    · refine .ite ?_ .ok
      split
      · exact .ok
      · refine .bind (unfailing_validateImportedAt _ _) fun refused => ?_
        split
        · exact .ok
        · split <;> exact .ok
    · exact .ok

lemma unfailing_rawMemberOf (raw : Json) (texts : List String) :
    Unfailing (rawMemberOf raw texts) := by
  unfold rawMemberOf
  split
  · exact .ok
  · exact .error rfl

lemma unfailing_validRecoveryWindow (notBefore deadline : Option String) :
    Unfailing (validRecoveryWindow notBefore deadline) := by
  unfold validRecoveryWindow
  split
  · split
    · split
      · exact .ok
      · exact .error rfl
    · exact .ok
  · exact .ok

lemma unfailing_attemptStateError (raw : Json) (attempt : RotationAttempt) :
    Unfailing (attemptStateError raw attempt) := by
  have hmember : ∀ {texts} {f : Bool → Bool}, Unfailing ((rawMemberOf raw texts).map f) :=
    .map (unfailing_rawMemberOf _ _)
  have hwindow : ∀ {notBefore deadline} {f : Bool → Bool},
      Unfailing ((validRecoveryWindow notBefore deadline).map f) :=
    .map (unfailing_validRecoveryWindow _ _)
  unfold attemptStateError
  dsimp only
  refine .either hmember .ok fun strayOwner => ?_
  refine .ite .ok (.ite .ok ?_)
  refine .either hwindow .ok fun badWindow => ?_
  refine .ite .ok ?_
  exact .either hmember .ok fun badStop => .ite .ok (.ite .ok .ok)

lemma unfailing_journalFields (payload : List (String × Json)) :
    Unfailing (journalFields payload) := by
  refine .bind ?_ fun detail => ?_
  · unfold journalFieldError
    split
    · exact .ok
    · split
      · exact .ok
      · exact unfailing_attemptStateError _ _
  · split
    · exact .ok
    · split
      · exact .ok
      · split
        · exact .ok
        · exact .error rfl

lemma unfailing_parseV2Journal (payload : List (String × Json)) :
    Unfailing (parseV2Journal payload) := by
  unfold parseV2Journal
  split
  · exact .ok
  · refine .ite .ok ?_
    dsimp only
    split
    · exact .ok
    · refine .bind (unfailing_rawMemberOf _ _) fun active => .ite .ok ?_
      split <;> exact .ok

lemma unfailing_journalOf (file : Option FileText) : Unfailing (journalOf file) := by
  rcases file with _ | _ | detail | typeName | payload <;> simp only [journalOf]
  · exact .ok
  · exact .ok
  · exact .ok
  · exact .error (by simp)
  · unfold parseJournal
    split
    · refine .ite (unfailing_parseV2Journal _) (.ite ?_ .ok)
      refine .bind (unfailing_journalFields _) fun fields => ?_
      split
      · exact .ok
      · split <;> exact .ok
    · exact .ok

/-! ### The locked part of a commit -/

namespace Env

def credentialLook (env : Env) (w : World) (reads wall : Nat) : Except PyError AuthLoadResult :=
  match env.readFault .credential reads with
  | some detail => .ok (.ioFailure "read credential" detail)
  | none => authOf (env.wall wall) w.credential

/-- The first look at the credential, at a reading of the wall clock, finds a revision. -/
def Sees (env : Env) (w : World) (wall : Nat) (revision : String) : Prop :=
  ∃ auth, env.credentialLook w 0 wall = .ok (.loaded auth) ∧ auth.revision = revision

/-- The first look at the journal comes to a result, be it that there is none to be had. -/
def journalLook (env : Env) (w : World) : Except PyError Unit :=
  match env.readFault .journal 0 with
  | some _ => .ok ()
  | none => (journalOf w.journal).map fun _ => ()

/-- A commit that has the lock ends without a durable write and without an error that is caught,
before it releases the lock at a position: the source is not found, the reader of the journal
raises, or the write of the journal fails and leaves its temporary file. -/
inductive Forgets (env : Env) (w : World) (wall : Nat) (source : String) : Nat → Prop
  | unseen (hunseen : ¬ env.Sees w wall source) : Forgets env w wall source 2
  | unread (hseen : env.Sees w wall source) {e : PyError} (hlook : env.journalLook w = .error e) :
      Forgets env w wall source 2
  | littered (hseen : env.Sees w wall source) (hlook : env.journalLook w = .ok ()) {k : Nat}
      (hwrite : env.firstFailure 2 journalOperations = some k) (hlate : 6 ≤ k)
      (hunlink : env.Fails (k + 1) "unlink") : Forgets env w wall source (k + 2)

/-- A commit gets the lock, forgets its successor under it, and releases it. -/
def Drops (env : Env) (w : World) (wall : Nat) (source : String) : Prop :=
  env.Works 0 "lock_open" ∧ env.Works 1 "lock" ∧
    ∃ n, env.Forgets w wall source n ∧ env.Works n "unlock"

variable {wall n m : Nat} {source : String}

lemma forgets_iff_of_look (hseen : env.Sees w wall source) (hlook : env.journalLook w = .ok ()) :
    env.Forgets w wall source n ↔ ∃ k, env.firstFailure 2 journalOperations = some k ∧ 6 ≤ k ∧
      env.Fails (k + 1) "unlink" ∧ n = k + 2 := by
  constructor
  · rintro (hunseen | ⟨-, hlook'⟩ | ⟨-, -, hwrite, hlate, hunlink⟩)
    · exact absurd hseen hunseen
    · rw [hlook] at hlook'
      cases hlook'
    · exact ⟨_, hwrite, hlate, hunlink, rfl⟩
  · rintro ⟨k, hwrite, hlate, hunlink, rfl⟩
    exact .littered hseen hlook hwrite hlate hunlink

lemma Forgets.unique (h : env.Forgets w wall source n) (h' : env.Forgets w wall source m) :
    n = m := by
  by_cases hseen : env.Sees w wall source
  · rcases hlook : env.journalLook w with e | _
    · rcases h with hunseen | - | ⟨-, hlook', -⟩
      · exact absurd hseen hunseen
      · rcases h' with hunseen | - | ⟨-, hlook', -⟩
        · exact absurd hseen hunseen
        · rfl
        · rw [hlook] at hlook'
          cases hlook'
      · rw [hlook] at hlook'
        cases hlook'
    · obtain ⟨k, hk, -, -, rfl⟩ := (forgets_iff_of_look hseen hlook).1 h
      obtain ⟨k', hk', -, -, rfl⟩ := (forgets_iff_of_look hseen hlook).1 h'
      rw [hk] at hk'
      cases hk'
      rfl
  · rcases h with - | ⟨hseen', -⟩ | ⟨hseen', -⟩
    · rcases h' with - | ⟨hseen', -⟩ | ⟨hseen', -⟩
      · rfl
      · exact absurd hseen' hseen
      · exact absurd hseen' hseen
    · exact absurd hseen' hseen
    · exact absurd hseen' hseen

end Env

/-- Two runs agree on the files and on the storage operations and journal reads used. -/
structure Run.Looked (r r' : Run) : Prop where
  world : r'.world = r.world
  faults : r'.cursor.faults = r.cursor.faults
  journalReads : r'.cursor.journalReads = r.cursor.journalReads

/-- Loading the credential is a look at it. -/
lemma ends_loadAuth_look :
    Ends (loadAuth env) r
      (fun loaded r' => r.Looked r' ∧
        env.credentialLook r.world r.cursor.credentialReads r.cursor.wall = .ok loaded)
      (fun e r' => r.Looked r' ∧
        env.credentialLook r.world r.cursor.credentialReads r.cursor.wall = .error e) := by
  rw [loadAuth]
  rcases hread : env.readFault .credential r.cursor.credentialReads with _ | detail
  · have htext : readText env .credential r = (.ok (.ok r.world.credential),
        { r with cursor := r.cursor.countRead .credential }) := by
      simp only [readText, Cursor.reads, hread]
      rfl
    have hlook : env.credentialLook r.world r.cursor.credentialReads r.cursor.wall =
        authOf (env.wall r.cursor.wall) r.world.credential := by rw [Env.credentialLook, hread]
    rw [hlook]
    refine Ends.resume (bind_of_ok htext) ?_
    refine Ends.bind (Q := fun now r' => r.Looked r' ∧ now = env.wall r.cursor.wall)
      (Ends.of_run rfl ⟨⟨rfl, rfl, rfl⟩, rfl⟩) ?_
    rintro _ r' ⟨hlooked, rfl⟩
    exact Ends.ofExcept (fun loaded h => ⟨hlooked, h⟩) fun e h => ⟨hlooked, h⟩
  · have htext : readText env .credential r = (.ok (.error detail),
        { r with cursor := r.cursor.countRead .credential }) := by
      simp only [readText, Cursor.reads, hread]
    exact Ends.resume (bind_of_ok htext)
      (Ends.pure ⟨⟨rfl, rfl, rfl⟩, by rw [Env.credentialLook, hread]⟩)

lemma unfailing_credentialLook (env : Env) (w : World) (reads wall : Nat) :
    Unfailing (env.credentialLook w reads wall) := by
  unfold Env.credentialLook
  split
  · exact .ok
  · exact unfailing_authOf _ _

/-- A source that is not found counts as superseded, unless the reader raises. -/
lemma ends_isSuperseded_look {source : String} (hunread : r.cursor.credentialReads = 0) :
    Ends (isSuperseded env source) r
      (fun superseded r' => r.Looked r' ∧
        (superseded = false ↔ env.Sees r.world r.cursor.wall source))
      (fun e r' => r.Looked r' ∧ ¬ env.Sees r.world r.cursor.wall source ∧
        e.isOsError = false) := by
  have hlook := @ends_loadAuth_look env r
  rw [hunread] at hlook
  refine (hlook.weaken (fun _ _ h => h) ?_).bind fun loaded r' h => Ends.pure ⟨h.1, ?_⟩
  · rintro e r' ⟨hlooked, herror⟩
    refine ⟨hlooked, ?_, unfailing_credentialLook _ _ _ _ _ herror⟩
    rintro ⟨auth, hloaded, -⟩
    rw [herror] at hloaded
    cases hloaded
  · obtain ⟨-, hloaded⟩ := h
    constructor
    · intro hnot
      cases loaded with
      | loaded auth => exact ⟨auth, hloaded, by simpa [isSupersededResult] using hnot⟩
      | _ => cases hnot
    · rintro ⟨auth, hauth, hrevision⟩
      rw [hloaded] at hauth
      cases hauth
      simp [isSupersededResult, hrevision]

/-- Whatever is stored is returned, or the error is none of the operating system. -/
lemma ends_currentOrRaise_look :
    Ends (currentOrRaise env) r (fun _ => r.Looked)
      (fun e r' => r.Looked r' ∧ e.isOsError = false) := by
  refine (ends_loadAuth_look.weaken (fun _ _ h => h) fun e _ h =>
    ⟨h.1, unfailing_credentialLook _ _ _ _ _ h.2⟩).bind fun loaded r' h => ?_
  cases loaded with
  | loaded auth => exact Ends.ret h.1
  | _ => exact Ends.raise ⟨h.1, rfl⟩

lemma Run.Looked.trans {r' r'' : Run} (h : r.Looked r') (h' : r'.Looked r'') : r.Looked r'' :=
  ⟨h'.world.trans h.world, h'.faults.trans h.faults, h'.journalReads.trans h.journalReads⟩

/-- The attempt of a commit is found when the journal can be looked at. -/
lemma ends_attemptForSource_look {source : String} (hunread : r.cursor.journalReads = 0) :
    Ends (attemptForSource env source) r
      (fun _ r' => r'.world = r.world ∧ r'.cursor.faults = r.cursor.faults ∧
        env.journalLook r.world = .ok ())
      (fun e r' => r'.world = r.world ∧ r'.cursor.faults = r.cursor.faults ∧
        env.journalLook r.world = .error e) := by
  rw [attemptForSource]
  rcases hread : env.readFault .journal 0 with _ | detail
  · have htext : readText env .journal r = (.ok (.ok r.world.journal),
        { r with cursor := r.cursor.countRead .journal }) := by
      simp only [readText, Cursor.reads, hunread, hread]
      rfl
    have hlook : env.journalLook r.world = (journalOf r.world.journal).map fun _ => () := by
      rw [Env.journalLook, hread]
    refine Ends.bind (Q := fun _ r' => r'.world = r.world ∧ r'.cursor.faults = r.cursor.faults ∧
        env.journalLook r.world = .ok ()) ?_ fun _ _ h => Ends.pure h
    rw [loadJournal, loadJournalFor]
    refine Ends.resume (bind_of_ok htext) ?_
    refine Ends.ofExcept (fun loaded hjournal => ⟨rfl, rfl, ?_⟩) fun e hjournal => ⟨rfl, rfl, ?_⟩
    · rw [hlook, hjournal]
      rfl
    · rw [hlook, hjournal]
      rfl
  · have htext : readText env .journal r = (.ok (.error detail),
        { r with cursor := r.cursor.countRead .journal }) := by
      simp only [readText, Cursor.reads, hunread, hread]
    have hlook : env.journalLook r.world = .ok () := by rw [Env.journalLook, hread]
    refine Ends.bind (Q := fun _ r' => r'.world = r.world ∧ r'.cursor.faults = r.cursor.faults ∧
        env.journalLook r.world = .ok ()) ?_ fun _ _ h => Ends.pure h
    rw [loadJournal, loadJournalFor]
    exact Ends.resume (bind_of_ok htext) (Ends.ret ⟨rfl, rfl, hlook⟩)

/-- How the locked part of a commit ends: the files keep the successor, or an error is raised that
is caught, or the successor is forgotten. -/
inductive LockedEnd (env : Env) (w : World) (wall : Nat) (x : Successor) :
    Outcome PyError StoredAuth → Run → Prop
  | kept {o : Outcome PyError StoredAuth} {r' : Run} (hkept : r'.world.Keeps x)
      (hnot : ∀ n, ¬ env.Forgets w wall x.source n) : LockedEnd env w wall x o r'
  | caught {e : PyError} {r' : Run} (he : e.isOsError = true)
      (hnot : ∀ n, ¬ env.Forgets w wall x.source n) : LockedEnd env w wall x (.raised e) r'
  | forgotten {o : Outcome PyError StoredAuth} {r' : Run} (hworld : r'.world = w)
      (hforgets : env.Forgets w wall x.source r'.cursor.faults)
      (ho : (∃ auth, o = .ok auth) ∨ ∃ e, o = .raised e ∧ e.isOsError = false) :
      LockedEnd env w wall x o r'

/-- The part of a commit of a successor that runs under the lock. -/
def lockedCommit (env : Env) (x : Successor) : Auth StoredAuth := do
  if ← isSuperseded env x.source then currentOrRaise env
  else
    let found ← attemptForSource env x.source
    let attempt := withoutOwner found
    writeJournal env (.terminal x.rotated) false attempt
    match ← casReplaceCookie env x.source x.header x.revision with
    | .written auth => do
      recordTerminalOutcome env x.rotated attempt false
      return auth
    | .superseded _ => currentOrRaise env

lemma commitSuccessor_eq (env : Env) (x : Successor) :
    commitSuccessor env x.source x.header x.revision = withAuthFileLock env (lockedCommit env x) :=
  rfl

lemma World.journaled_setJournal (w : World) (x : Successor) (enqueued : Bool)
    (attempt : RotationAttempt) (clock : Option Datetime) :
    (w.setJournal (.terminal x.rotated) enqueued attempt clock).Journaled x :=
  ⟨enqueued, attempt, w.journalHolds_setJournal _ _ _ _⟩

/-- The locked part from the journal write on, of a source that is found. -/
lemma lockedEnd_write (hlives : env.Lives) {wall : Nat} {found : RotationAttempt}
    (hseen : env.Sees w wall x.source) (hlook : env.journalLook w = .ok ())
    (hworld : r.world = w) (hfaults : r.cursor.faults = 2) :
    let p : Auth StoredAuth := do
      writeJournal env (.terminal x.rotated) false (withoutOwner found)
      match ← casReplaceCookie env x.source x.header x.revision with
      | .written auth => do
        recordTerminalOutcome env x.rotated (withoutOwner found) false
        return auth
      | .superseded _ => currentOrRaise env
    LockedEnd env w wall x (p r).1 (p r).2 := by
  intro p
  have hforgets := fun n => @Env.forgets_iff_of_look env w wall n x.source hseen hlook
  have hwrite := @ends_writeJournal_live env r hlives (.terminal x.rotated) false
    (withoutOwner found) _ rfl
  rw [hfaults] at hwrite
  rcases hwrite.cases with ⟨_, r₁, hrun₁, hnone, hworld₁⟩ | ⟨e, r₁, hrun₁, hfails⟩
  · rw [show p r = _ from bind_of_ok hrun₁]
    refine .kept (finally_project (hworld₁ ▸ World.journaled_setJournal ..)) fun n h => ?_
    obtain ⟨k, hk, -⟩ := (hforgets n).1 h
    rw [hnone] at hk
    cases hk
  · rw [show p r = _ from bind_of_raised hrun₁]
    rcases hfailure : env.firstFailure 2 journalOperations with _ | k <;>
      rw [hfailure] at hfails hforgets
    · refine .kept (.inr (hfails ▸ World.journaled_setJournal ..)) fun n h => ?_
      obtain ⟨k, hk, -⟩ := (hforgets n).1 h
      cases hk
    · obtain ⟨hworld₁, ⟨he, hnot⟩ | ⟨he, hlate, hunlink, hfaults₁⟩⟩ := hfails
      · refine .caught he fun n h => ?_
        obtain ⟨k', hk', hlate, hunlink, -⟩ := (hforgets n).1 h
        cases hk'
        exact hnot ⟨hlate, hunlink⟩
      · exact .forgotten (hworld₁.trans hworld)
          ((hforgets _).2 ⟨k, rfl, hlate, hunlink, hfaults₁⟩) (.inr ⟨e, rfl, he⟩)

/-- The locked part of a commit of a live process, whatever fails. -/
lemma lockedEnd_lockedCommit (hlives : env.Lives) (hfaults : r.cursor.faults = 2)
    (hunread : r.cursor.credentialReads = 0) (hunread' : r.cursor.journalReads = 0) :
    LockedEnd env r.world r.cursor.wall x (lockedCommit env x r).1 (lockedCommit env x r).2 := by
  rw [lockedCommit]
  have hunseen : ∀ {o : Outcome PyError StoredAuth} {r' : Run}, r.Looked r' →
      ¬ env.Sees r.world r.cursor.wall x.source →
      ((∃ auth, o = .ok auth) ∨ ∃ e, o = .raised e ∧ e.isOsError = false) →
      LockedEnd env r.world r.cursor.wall x o r' := by
    intro o r' hlooked hnot ho
    refine .forgotten hlooked.world ?_ ho
    rw [hlooked.faults.trans hfaults]
    exact .unseen hnot
  rcases (ends_isSuperseded_look hunread).cases with
    ⟨superseded, r₁, hrun₁, hlooked₁, hseen⟩ | ⟨e, r₁, hrun₁, hlooked₁, hnot, he⟩
  · rw [bind_of_ok hrun₁]
    cases superseded with
    | true =>
      have hnot : ¬ env.Sees r.world r.cursor.wall x.source :=
        fun h => Bool.noConfusion (hseen.2 h)
      rw [if_pos rfl]
      rcases ends_currentOrRaise_look.cases with
        ⟨auth, r₂, hrun₂, hlooked₂⟩ | ⟨e, r₂, hrun₂, hlooked₂, he⟩
      · rw [hrun₂]
        exact hunseen (hlooked₁.trans hlooked₂) hnot (.inl ⟨_, rfl⟩)
      · rw [hrun₂]
        exact hunseen (hlooked₁.trans hlooked₂) hnot (.inr ⟨_, rfl, he⟩)
    | false =>
      have hseen := hseen.1 rfl
      rw [if_neg Bool.false_ne_true]
      have hlook := @ends_attemptForSource_look env r₁ x.source
        (hlooked₁.journalReads.trans hunread')
      rw [hlooked₁.world, hlooked₁.faults, hfaults] at hlook
      rcases hlook.cases with ⟨found, r₂, hrun₂, hworld₂, hfaults₂, hlook⟩ |
        ⟨e, r₂, hrun₂, hworld₂, hfaults₂, hlook⟩
      · rw [bind_of_ok hrun₂]
        exact lockedEnd_write hlives hseen hlook hworld₂ hfaults₂
      · rw [bind_of_raised hrun₂]
        refine .forgotten hworld₂ (hfaults₂ ▸ .unread hseen hlook) (.inr ⟨e, rfl, ?_⟩)
        unfold Env.journalLook at hlook
        split at hlook
        · cases hlook
        · exact (unfailing_journalOf _).map _ hlook
  · rw [bind_of_raised hrun₁]
    exact hunseen hlooked₁ hnot (.inr ⟨e, rfl, he⟩)

/-! ### The lock -/

/-- How a commit under the lock ends: the files keep the successor, or an error is raised that is
caught, or the successor is dropped. -/
inductive CommitEnd (env : Env) (w : World) (wall : Nat) (x : Successor) :
    Outcome PyError StoredAuth → Run → Prop
  | kept {o : Outcome PyError StoredAuth} {r' : Run} (hkept : r'.world.Keeps x)
      (hnot : ¬ env.Drops w wall x.source) : CommitEnd env w wall x o r'
  | caught {e : PyError} {r' : Run} (he : e.isOsError = true)
      (hnot : ¬ env.Drops w wall x.source) : CommitEnd env w wall x (.raised e) r'
  | dropped {o : Outcome PyError StoredAuth} {r' : Run} (hworld : r'.world = w)
      (hdrops : env.Drops w wall x.source)
      (ho : (∃ auth, o = .ok auth) ∨ ∃ e, o = .raised e ∧ e.isOsError = false) :
      CommitEnd env w wall x o r'

/-- The release of the lock, after the locked part. -/
lemma commitEnd_release (hlives : env.Lives) {wall : Nat} {p : Auth StoredAuth} {r₀ : Run}
    {o : Outcome PyError StoredAuth} (hopened : env.Works 0 "lock_open")
    (hlocked : env.Works 1 "lock") (hrun : p r₀ = (o, r)) (h : LockedEnd env w wall x o r) :
    CommitEnd env w wall x (Action.ensure p (trigger env "unlock") r₀).1
      (Action.ensure p (trigger env "unlock") r₀).2 := by
  have hdrops : (∀ n, ¬ env.Forgets w wall x.source n) → ¬ env.Drops w wall x.source := by
    rintro hnot ⟨-, -, n, hforgets, -⟩
    exact hnot n hforgets
  rw [ensure_apply, hrun]
  rcases (ends_trigger_live hlives "unlock" r).cases with
    ⟨_, _, hunlock, rfl, hworks⟩ | ⟨_, _, hunlock, rfl, hfails, detail, rfl⟩
  · -- the outcome of the locked part stands
    have hstands : ∀ q : Auth StoredAuth, q r.triggered = (o, r.triggered) →
        CommitEnd env w wall x (andThen (trigger env "unlock") (fun _ => q) r).1
          (andThen (trigger env "unlock") (fun _ => q) r).2 := by
      intro q hq
      have hsame : andThen (trigger env "unlock") (fun _ => q) r = (o, r.triggered) :=
        (bind_of_ok hunlock).trans hq
      rw [hsame]
      rcases h with ⟨hkept, hnot⟩ | ⟨he, hnot⟩ | ⟨hworld, hforgets, ho⟩
      · exact .kept hkept (hdrops hnot)
      · exact .caught he (hdrops hnot)
      · exact .dropped hworld ⟨hopened, hlocked, _, hforgets, hworks⟩ ho
    rcases o with auth | e | _
    · exact hstands _ rfl
    · exact hstands _ rfl
    · rcases h with ⟨hkept, hnot⟩ | - | ⟨-, -, ⟨auth, ⟨⟩⟩ | ⟨e, ⟨⟩, -⟩⟩
      exact .kept hkept (hdrops hnot)
  · -- the error of the release takes its place
    have hraised : ∀ q : Auth StoredAuth,
        CommitEnd env w wall x (andThen (trigger env "unlock") (fun _ => q) r).1
          (andThen (trigger env "unlock") (fun _ => q) r).2 := by
      intro q
      have hsame : andThen (trigger env "unlock") (fun _ => q) r =
          (.raised (.osError detail), r.triggered) := bind_of_raised hunlock
      rw [hsame]
      rcases h with ⟨hkept, hnot⟩ | ⟨-, hnot⟩ | ⟨hworld, hforgets, -⟩
      · exact .kept hkept (hdrops hnot)
      · exact .caught rfl (hdrops hnot)
      · refine .caught rfl ?_
        rintro ⟨-, -, n, hforgets', hworks⟩
        rw [← hforgets.unique hforgets'] at hworks
        exact hworks.not_fails hfails
    rcases o with auth | e | _
    · exact hraised _
    · exact hraised _
    · rcases h with ⟨hkept, hnot⟩ | - | ⟨-, -, ⟨auth, ⟨⟩⟩ | ⟨e, ⟨⟩, -⟩⟩
      exact .kept hkept (hdrops hnot)

/-- The commit of a successor under the lock by a live process, whatever fails. -/
lemma commitEnd_commitSuccessor (hlives : env.Lives) (hfaults : r.cursor.faults = 0)
    (hunread : r.cursor.credentialReads = 0) (hunread' : r.cursor.journalReads = 0) :
    CommitEnd env r.world r.cursor.wall x
      (commitSuccessor env x.source x.header x.revision r).1
      (commitSuccessor env x.source x.header x.revision r).2 := by
  rw [commitSuccessor_eq, withAuthFileLock]
  rcases (ends_trigger_live hlives "lock_open" r).cases with
    ⟨_, r₁, hrun₁, rfl, hopened⟩ | ⟨e, r₁, hrun₁, rfl, hfails, detail, rfl⟩
  · rw [bind_of_ok hrun₁]
    rw [hfaults] at hopened
    rcases (ends_trigger_live hlives "lock" r.triggered).cases with
      ⟨_, r₂, hrun₂, rfl, hlocked⟩ | ⟨e, r₂, hrun₂, rfl, hfails, detail, rfl⟩
    · rw [bind_of_ok hrun₂]
      rw [Run.triggered_faults, hfaults] at hlocked
      have hend := @lockedEnd_lockedCommit env r.triggered.triggered x hlives
        (by simp [hfaults]) hunread hunread'
      exact commitEnd_release hlives hopened hlocked rfl hend
    · rw [bind_of_raised hrun₂]
      refine .caught rfl ?_
      rintro ⟨-, hlocked, -⟩
      rw [Run.triggered_faults, hfaults] at hfails
      exact hlocked.not_fails hfails
  · rw [bind_of_raised hrun₁]
    refine .caught rfl ?_
    rintro ⟨hopened, -⟩
    rw [hfaults] at hfails
    exact hopened.not_fails hfails

/-! ### The diagnostics before it -/

section Diagnostics

variable (codec : CookieCodec)

/-- The diagnostics of a successor can be prepared at a time. -/
def Observes (env : Env) (w : World) (source : StoredAuth) (header : String) (now : Datetime) :
    Prop :=
  env.eventSink = true →
    (env.readFault .observation 0 = none → ∃ loaded, journalOf w.journal = .ok loaded) ∧
      ∃ fields, refreshDiagnosticFields codec source (some header) now = .ok fields

/-- Two runs agree on everything a commit under the lock depends on. -/
structure Run.Aside (r r' : Run) : Prop where
  world : r'.world = r.world
  faults : r'.cursor.faults = r.cursor.faults
  credentialReads : r'.cursor.credentialReads = r.cursor.credentialReads
  journalReads : r'.cursor.journalReads = r.cursor.journalReads
  wall : r'.cursor.wall = r.cursor.wall

variable {codec} {source : StoredAuth} {header : String} {response : EnjiHttpResponse}

/-- The part of the diagnostics that looks at the tokens. -/
lemma ends_diagnosticFields {r' : Run} (hsink : env.eventSink = true) (haside : r.Aside r')
    (hnow : r'.cursor.now = r.cursor.now)
    (hjournal : env.readFault .observation 0 = none →
      ∃ loaded, journalOf r.world.journal = .ok loaded) :
    Ends (do
        let now ← nowFn env
        let _ ← Action.ofExcept (refreshDiagnosticFields codec source (some header) now)
        return () : Auth Unit) r'
      (fun _ r'' => r.Aside r'' ∧ Observes codec env r.world source header (env.now r.cursor.now))
      (fun _ r'' => r''.world = r.world ∧
        ¬ Observes codec env r.world source header (env.now r.cursor.now)) := by
  refine Ends.bind (Q := fun now r'' => r.Aside r'' ∧ now = env.now r.cursor.now)
    (Ends.of_run rfl ⟨⟨haside.world, haside.faults, haside.credentialReads,
      haside.journalReads, haside.wall⟩, by rw [hnow]⟩) ?_
  rintro _ r₁ ⟨haside₁, rfl⟩
  refine Ends.bind (Q := fun _ r₂ => r.Aside r₂ ∧
    Observes codec env r.world source header (env.now r.cursor.now)) (Ends.ofExcept
      (fun fields h => ⟨haside₁, fun _ => ⟨hjournal, fields, h⟩⟩)
      fun e h => ⟨haside₁.world, fun hobserves => ?_⟩) fun _ _ h => Ends.pure h
  obtain ⟨-, fields, hok⟩ := hobserves hsink
  rw [h] at hok
  cases hok

/-- The diagnostics of a successor are prepared, or raise. -/
lemma ends_emitRefreshObservation_success (hstatus : response.statusCode = 200)
    (hunread : r.cursor.observationReads = 0) :
    Ends (emitRefreshObservation codec env source (some response) (some header)) r
      (fun _ r' => r.Aside r' ∧ Observes codec env r.world source header (env.now r.cursor.now))
      (fun _ r' => r'.world = r.world ∧
        ¬ Observes codec env r.world source header (env.now r.cursor.now)) := by
  simp only [emitRefreshObservation, deliverEvent_eq]
  cases hsink : env.eventSink with
  | false =>
    refine Ends.ret ⟨⟨rfl, rfl, rfl, rfl, rfl⟩, fun h => ?_⟩
    rw [hsink] at h
    cases h
  | true =>
    have hclass : normalizedResponseClass response = .ok "success_or_incomplete_success" := by
      rw [normalizedResponseClass, if_pos hstatus]
    simp only [Bool.not_true, Bool.false_eq_true, if_false, hclass]
    rcases hread : env.readFault .observation 0 with _ | detail
    · have htext : readText env .observation r = (.ok (.ok r.world.journal),
          { r with cursor := r.cursor.countRead .observation }) := by
        simp only [readText, Cursor.reads, hunread, hread]
        rfl
      refine Ends.bind (Q := fun _ r' => (r.Aside r' ∧ r'.cursor.now = r.cursor.now) ∧
        ∃ loaded, journalOf r.world.journal = .ok loaded) ?_ ?_
      · rw [loadJournalFor]
        refine Ends.resume (bind_of_ok htext) ?_
        refine Ends.ofExcept (fun loaded h => ⟨⟨⟨rfl, rfl, rfl, rfl, rfl⟩, rfl⟩, loaded, h⟩)
          fun e h => ⟨rfl, fun hobserves => ?_⟩
        obtain ⟨loaded, hok⟩ := (hobserves hsink).1 hread
        rw [h] at hok
        cases hok
      · rintro _ r' ⟨⟨haside, hnow⟩, hjournal⟩
        exact ends_diagnosticFields hsink haside hnow fun _ => hjournal
    · have htext : readText env .observation r = (.ok (.error detail),
          { r with cursor := r.cursor.countRead .observation }) := by
        simp only [readText, Cursor.reads, hunread, hread]
      refine Ends.bind (Q := fun _ r' => r.Aside r' ∧ r'.cursor.now = r.cursor.now) ?_ ?_
      · rw [loadJournalFor]
        exact Ends.resume (bind_of_ok htext) (Ends.ret ⟨⟨rfl, rfl, rfl, rfl, rfl⟩, rfl⟩)
      · rintro _ r' ⟨haside, hnow⟩
        refine ends_diagnosticFields hsink haside hnow fun h => ?_
        rw [hread] at h
        cases h

end Diagnostics

/-! ### A received successor -/

section Receiving

variable (codec : CookieCodec)

/-- The loop retains a successor that is handed to it. -/
def LoopRetains (retained : RetainedRefreshSuccessor) : Prop :=
  ∀ settings (s : LoopState) (x : Turn) auth, s.retainedSuccessor = none →
    scheduledCookieAuth codec settings x = .ok (some auth) →
    x.refreshed = .error (.postDispatchPersistence retained) →
      ∃ s', Retains codec settings s x retained s'

/-- A retained successor stands for one. -/
def Successor.Retained (x : Successor) (retained : RetainedRefreshSuccessor) : Prop :=
  retained.sourceRevision = x.source ∧ retained.auth.revision = x.revision ∧
    retained.auth.credential = .cookie x.header

/-- A commit that ended has kept a successor: it is in the files, or it is handed to the caller,
and the loop retains it. -/
def KeptBy (x : Successor) (o : Outcome CommitError StoredAuth) (r : Run) : Prop :=
  r.world.Keeps x ∨ ∃ retained, o = .raised (.postDispatchPersistence retained) ∧
    x.Retained retained ∧ LoopRetains codec retained

/-- A live process has received a response, and a complete successor was extracted from it before
a run of the commit goes on. Its revision is new. -/
structure Received (env : Env) (w : World) (source : StoredAuth) (response : EnjiHttpResponse)
    (header : String) (r : Run) : Prop where
  lives : env.Lives
  complete : successfulReplacement codec env source response (Run.start w) =
    (.ok (some header), r)
  fresh : ∀ x : Successor, x.revision = env.minted 0 → ¬ w.Keeps x

variable {codec} {source : StoredAuth} {header : String} {response : EnjiHttpResponse}

lemma loopRetains (retained : RetainedRefreshSuccessor) : LoopRetains codec retained := by
  intro settings s t auth hnone hscheduled hrefreshed
  refine ⟨{ retainedSuccessor := some retained, waits := s.waits + 1 }, hnone, ?_, rfl⟩
  rw [turn, hnone]
  simp only [refreshTurn, hscheduled, hrefreshed]
  rfl

end Receiving

section Receiving

variable {source : StoredAuth} {header : String} {response : EnjiHttpResponse}

/-- The successor a commit begins with makes. -/
def Env.successor (env : Env) (source : StoredAuth) (header : String) : Successor :=
  ⟨source.revision, header, env.minted 0⟩

/-- How a commit under the lock is handed on to the caller. -/
def handedOn (source successor : StoredAuth) : Outcome PyError StoredAuth →
    Outcome CommitError StoredAuth
  | .ok auth => .ok auth
  | .raised e =>
    if e.isOsError then .raised (.postDispatchPersistence ⟨source.revision, successor⟩)
    else .raised (.plain e)
  | .crashed => .crashed

/-- A commit goes on from its diagnostics to the lock, and hands on what becomes of it. -/
lemma commitExchange_of_observed {r₀ r₁ r₂ : Run}
    (hcomplete : successfulReplacement codec env source response r = (.ok (some header), r₀))
    (hemit : emitRefreshObservation codec env source (some response) (some header)
      { r₀ with cursor := { r₀.cursor with minted := r₀.cursor.minted + 1 } } = (.ok (), r₁))
    {o : Outcome PyError StoredAuth}
    (hcommit : commitSuccessor env source.revision header (env.minted r₀.cursor.minted)
      { r₁ with cursor := { r₁.cursor with wall := r₁.cursor.wall + 1 } } = (o, r₂)) :
    commitExchange codec env source (.response response) r =
      (handedOn source ⟨env.minted r₀.cursor.minted, source.baseUrl, .cookie header,
        isoformat (env.wall r₁.cursor.wall)⟩ o, r₂) := by
  have hresponse : commitResponse codec env source response r =
      commitSuccess codec env source header response r₀ :=
    commitResponse_of_merged rfl hcomplete
  have hmint : Auth.plain (mintRevision env) r₀ = (.ok (env.minted r₀.cursor.minted),
      { r₀ with cursor := { r₀.cursor with minted := r₀.cursor.minted + 1 } }) := rfl
  have htransition : ∀ r' : Run, Auth.plain (transitionOrRaise
      (.journaled (.requested source.revision))
      (.exchangeSucceeded header (env.minted r₀.cursor.minted))) r' =
        (.ok (.journaled (.terminal (.rotated source.revision header
          (env.minted r₀.cursor.minted)))), r') := fun _ => rfl
  have hstored : Auth.plain (storedAuth env source.baseUrl (.cookie header)
      (some (env.minted r₀.cursor.minted))) r₁ =
        (.ok ⟨env.minted r₀.cursor.minted, source.baseUrl, .cookie header,
          isoformat (env.wall r₁.cursor.wall)⟩,
          { r₁ with cursor := { r₁.cursor with wall := r₁.cursor.wall + 1 } }) := rfl
  have hsuccess : commitSuccess codec env source header response r₀ =
      (handedOn source ⟨env.minted r₀.cursor.minted, source.baseUrl, .cookie header,
        isoformat (env.wall r₁.cursor.wall)⟩ o, r₂) := by
    rw [commitSuccess, bind_of_ok hmint, bind_of_ok (htransition _)]
    change (Auth.plain _ >>= _) _ = _
    rw [bind_of_ok (plain_of_ok hemit), bind_of_ok hstored, tryCatch_apply, hcommit]
    rcases o with auth | e | _
    · rfl
    · simp only [handedOn]
      split_ifs <;> rfl
    · rfl
  rw [commitExchange, tryCatch_apply, hresponse, hsuccess]
  rcases o with auth | e | _
  · rfl
  · rcases hos : e.isOsError with _ | _ <;> simp [handedOn, hos]
  · rfl

/-- A commit whose diagnostics raise leaves the files alone and hands on no successor. -/
lemma commitExchange_of_unobserved {r₀ r₁ : Run} {e : PyError}
    (hcomplete : successfulReplacement codec env source response r = (.ok (some header), r₀))
    (hemit : emitRefreshObservation codec env source (some response) (some header)
      { r₀ with cursor := { r₀.cursor with minted := r₀.cursor.minted + 1 } } = (.raised e, r₁)) :
    ∃ e', commitExchange codec env source (.response response) r = (.raised (.plain e'), r₁) :=
  ⟨_, commitExchange_of_raised ((commitResponse_of_merged rfl hcomplete).trans
    (commitSuccess_of_raised hemit))⟩

/-- How a commit of a received successor ends: its diagnostics raise and leave the files alone, or
what becomes of it under the lock is handed on. -/
inductive Handed (codec : CookieCodec) (env : Env) (w : World) (wall : Nat) (source : StoredAuth)
    (header : String) : Outcome CommitError StoredAuth → Run → Prop
  | unobserved {e : PyError} {r : Run}
      (hnot : ¬ Observes codec env w source header (env.now 0)) (hworld : r.world = w) :
      Handed codec env w wall source header (.raised (.plain e)) r
  | committed {successor : StoredAuth} {o : Outcome PyError StoredAuth} {r : Run}
      (hobserves : Observes codec env w source header (env.now 0))
      (hrevision : successor.revision = env.minted 0)
      (hcookie : successor.credential = .cookie header)
      (hend : CommitEnd env w wall (env.successor source header) o r) :
      Handed codec env w wall source header (handedOn source successor o) r

lemma handed_of_received {r₀ : Run} (h : Received codec env w source response header r₀) :
    Handed codec env w (r₀.cursor.wall + 1) source header
      (commitExchange codec env source (.response response) (Run.start w)).1
      (commitExchange codec env source (.response response) (Run.start w)).2 := by
  have hidle : (Run.start w).Idle r₀ := by
    have hreturns := (@idles_successfulReplacement codec env source response (Run.start w)).returns
    rw [h.complete] at hreturns
    exact hreturns _ rfl
  rw [Run.Idle] at hidle
  have hcursor : r₀.cursor.minted = 0 := by rw [hidle]; rfl
  obtain ⟨r₁, hr₁⟩ : ∃ r₁, r₁ =
      { r₀ with cursor := { r₀.cursor with minted := r₀.cursor.minted + 1 } } := ⟨_, rfl⟩
  have hworld₁ : r₁.world = w := by rw [hr₁, hidle]; rfl
  have hnow₁ : r₁.cursor.now = 0 := by rw [hr₁, hidle]; rfl
  have hemit := @ends_emitRefreshObservation_success env r₁ codec source header response
    (statusCode_of_successfulReplacement h.complete) (by rw [hr₁, hidle]; rfl)
  rw [hworld₁, hnow₁] at hemit
  rcases hemit.cases with ⟨_, r₂, hrun₂, haside, hobserves⟩ | ⟨e, r₂, hrun₂, hworld₂, hnot⟩
  · obtain ⟨r₃, hr₃⟩ : ∃ r₃, r₃ =
        { r₂ with cursor := { r₂.cursor with wall := r₂.cursor.wall + 1 } } := ⟨_, rfl⟩
    have hworld₃ : r₃.world = w := by rw [hr₃]; exact haside.world.trans hworld₁
    have hwall₃ : r₃.cursor.wall = r₀.cursor.wall + 1 := by
      rw [hr₃]
      exact congrArg (· + 1) (haside.wall.trans (by rw [hr₁]))
    have hend := @commitEnd_commitSuccessor env r₃ (env.successor source header) h.lives
      (by rw [hr₃]; exact haside.faults.trans (by rw [hr₁, hidle]; rfl))
      (by rw [hr₃]; exact haside.credentialReads.trans (by rw [hr₁, hidle]; rfl))
      (by rw [hr₃]; exact haside.journalReads.trans (by rw [hr₁, hidle]; rfl))
    obtain ⟨o, r₄, hcommit⟩ : ∃ o r₄, commitSuccessor env (env.successor source header).source
        (env.successor source header).header (env.successor source header).revision r₃ =
          (o, r₄) := ⟨_, _, rfl⟩
    rw [hcommit, hworld₃, hwall₃] at hend
    have hresult : commitExchange codec env source (.response response) (Run.start w) =
        (handedOn source ⟨env.minted r₀.cursor.minted, source.baseUrl, .cookie header,
          isoformat (env.wall r₂.cursor.wall)⟩ o, r₄) := by
      refine commitExchange_of_observed h.complete (hr₁ ▸ hrun₂) ?_
      rw [hcursor, ← hr₃]
      exact hcommit
    rw [hresult]
    exact .committed hobserves (congrArg env.minted hcursor) rfl hend
  · obtain ⟨e', hresult⟩ := commitExchange_of_unobserved h.complete (hr₁ ▸ hrun₂)
    rw [hresult]
    exact .unobserved hnot hworld₂

/-- A successor that was handed on is kept when its diagnostics were prepared and it was not
dropped, and only then. -/
lemma Handed.keptBy_iff {wall : Nat} {o : Outcome CommitError StoredAuth}
    (h : Handed codec env w wall source header o r)
    (hfresh : ¬ w.Keeps (env.successor source header)) :
    KeptBy codec (env.successor source header) o r ↔
      Observes codec env w source header (env.now 0) ∧ ¬ env.Drops w wall source.revision := by
  cases h with
  | unobserved hnot hworld =>
    refine ⟨fun hkept => ?_, fun hobserves => absurd hobserves.1 hnot⟩
    rcases hkept with hkept | ⟨retained, ⟨⟩, -⟩
    exact absurd (hworld ▸ hkept) hfresh
  | @committed successor o r hobserves hrevision hcookie hend =>
    rcases hend with ⟨hkept, hnot⟩ | ⟨he, hnot⟩ | ⟨hworld, hdrops, ho⟩
    · exact ⟨fun _ => ⟨hobserves, hnot⟩, fun _ => .inl hkept⟩
    · refine ⟨fun _ => ⟨hobserves, hnot⟩, fun _ => .inr ⟨⟨source.revision, successor⟩, ?_,
        ⟨rfl, hrevision, hcookie⟩, loopRetains _⟩⟩
      simp only [handedOn, he, if_true]
    · refine ⟨fun hkept => ?_, fun hnot => absurd hdrops hnot.2⟩
      rcases hkept with hkept | ⟨retained, hretained, -⟩
      · exact absurd (hworld ▸ hkept) hfresh
      · rcases ho with ⟨auth, rfl⟩ | ⟨e, rfl, he⟩
        · cases hretained
        · simp [handedOn, he] at hretained

/-- A commit of a live process keeps the successor it has received exactly when its diagnostics
can be prepared and it does not drop the successor under the lock. -/
theorem keptBy_commitExchange_iff {r₀ : Run}
    (h : Received codec env w source response header r₀) :
    let result := commitExchange codec env source (.response response) (Run.start w)
    KeptBy codec (env.successor source header) result.1 result.2 ↔
      Observes codec env w source header (env.now 0) ∧
        ¬ env.Drops w (r₀.cursor.wall + 1) source.revision :=
  (handed_of_received h).keptBy_iff (h.fresh _ rfl)

end Receiving

/-- A full disk: the write of the journal fails, and the temporary file can be removed. -/
def fullDisk : Env := (Env.calm (worker 1) launch "r1").failing 6

/-- A live process that finds the calm files receives the successor. -/
lemma exists_received {env : Env} (hlives : env.Lives) (hwall : env.wall = fun _ => launch)
    (hminted : env.minted 0 = "r1") : ∃ r₀, Received plainCodec env firstRequested firstAuth
      successResponse "access_token=c; refresh_token=d" r₀ := by
  have hmerged : mergedHeader plainCodec "access_token=a; refresh_token=b"
      successResponse.setCookieHeaders = some "access_token=c; refresh_token=d" := by
    decide +kernel
  obtain ⟨r₀, hrun, -⟩ := @exists_merged plainCodec firstAuth _ _
    (Run.start firstRequested) rfl (complete_successResponse _ _) hmerged
  refine ⟨r₀, hlives, ?_, ?_⟩
  · rw [@successfulReplacement_congr plainCodec (.calm (worker 1) launch "r1") firstAuth env hwall]
    exact hrun
  · rintro x hx (⟨auth, hheld, hrevision, -⟩ | ⟨enqueued, attempt, hjournal⟩)
    · have hsame := hheld.unique (finds_firstRequested (worker 1) "r1").holds
      rw [hsame, hx, hminted] at hrevision
      exact absurd hrevision (by decide)
    · have hstate := (hjournal.unique (World.journalHolds_of_journalOf
        journalOf_firstRequested)).1
      cases hstate

lemma received_firstRequested : ∃ r₀, Received plainCodec fullDisk firstRequested firstAuth
    successResponse "access_token=c; refresh_token=d" r₀ := by
  refine exists_received (fun n operation => ?_) rfl rfl
  simp only [fullDisk, Env.failing]
  split_ifs <;> simp

theorem keptBy_commitExchange_fullDisk :
    let result := commitExchange plainCodec fullDisk firstAuth (.response successResponse)
      (Run.start firstRequested)
    KeptBy plainCodec (fullDisk.successor firstAuth "access_token=c; refresh_token=d") result.1
      result.2 := by
  obtain ⟨r₀, hreceived⟩ := received_firstRequested
  refine (keptBy_commitExchange_iff hreceived).2 ⟨by rintro ⟨⟩, ?_⟩
  rintro ⟨-, -, n, hforgets, -⟩
  have hseen : fullDisk.Sees firstRequested (r₀.cursor.wall + 1) firstAuth.revision :=
    ⟨firstAuth, authOf_firstAuth, rfl⟩
  have hlook : fullDisk.journalLook firstRequested = .ok () := by
    have hread : fullDisk.readFault .journal 0 = none := rfl
    rw [Env.journalLook, hread]
    simp only [journalOf_firstRequested]
    rfl
  obtain ⟨k, hwrite, -, ⟨detail, hunlink⟩, -⟩ := (Env.forgets_iff_of_look hseen hlook).1 hforgets
  have hfirst : fullDisk.firstFailure 2 journalOperations = some 6 := rfl
  rw [hfirst] at hwrite
  cases hwrite
  cases hunlink

end EnjiGuard.AuthSession
