import EnjiGuard.Foundation.Crashing
import Mathlib.Tactic.Common

/-!
# Atomic replacement of a file

The new content is written to a temporary file, which is then renamed. Every operation can fail or
be the last of the process, and may have made some progress when it does. Whatever happens, the
destination holds its old content or all of the new one, and which of the two is decided by the
operations up to the rename.
-/

namespace EnjiGuard.Storage

open Foundation Foundation.Action

/-- What happens at an operation; one that is cut short may have made some progress. -/
inductive Fate
  | done
  | failed (detail : String) (progress : Nat)
  | crashed (progress : Nat)
  deriving DecidableEq, Repr

/-- Whether an operation without intermediate states took place. -/
def Fate.tookPlace : Fate → Bool
  | done => true
  | failed _ progress => 0 < progress
  | crashed progress => 0 < progress

/-- An `OSError`; the one about a missing file is told apart. -/
inductive OsError
  | fileNotFound
  | other (detail : String)
  deriving DecidableEq, Repr

/-- How a write fails. -/
inductive WriteError
  | osError (error : OsError)
  /-- The exception group of a failure and the failure of the cleanup after it. -/
  | persistenceAndCleanup (original cleanup : OsError)
  deriving DecidableEq, Repr

variable {γ : Type}

/-- The files a write works on, and the operations so far. -/
@[ext]
structure Disk (γ : Type) where
  destination : Option γ
  temporary : Option γ := none
  operations : List (String × Fate) := []

/-- What the operations find outside the files. -/
structure DiskEnv (γ : Type) where
  /-- The fate of each operation, by its position. -/
  fate : Nat → String → Fate
  /-- A content of which only so much was written. -/
  cut : γ → Nat → γ

/-- Notes an operation. -/
def Disk.record (d : Disk γ) (operation : String) (fate : Fate) : Disk γ :=
  { d with operations := d.operations ++ [(operation, fate)] }

def perform (env : DiskEnv γ) (operation : String) (effect : Fate → Disk γ → Disk γ) :
    Action OsError (Disk γ) Unit := fun d =>
  let fate := env.fate d.operations.length operation
  let d' := effect fate (d.record operation fate)
  match fate with
  | .done => (.ok (), d')
  | .failed detail _ => (.raised (.other detail), d')
  | .crashed _ => (.crashed, d')

/-! ### Effects -/

/-- An operation that changes no file. -/
def quiet (_ : Fate) (d : Disk γ) : Disk γ := d

/-- The temporary file is created; a failure leaves none behind. -/
def createTemporary (empty : γ) (fate : Fate) (d : Disk γ) : Disk γ :=
  match fate with
  | .failed .. => d
  | fate => if fate.tookPlace then { d with temporary := some empty } else d

def writeTemporary (env : DiskEnv γ) (content : γ) (fate : Fate) (d : Disk γ) : Disk γ :=
  match fate with
  | .done => { d with temporary := some content }
  | .failed _ progress | .crashed progress =>
    { d with temporary := some (env.cut content progress) }

/-- The temporary file takes the place of the destination. -/
def renameTemporary (fate : Fate) (d : Disk γ) : Disk γ :=
  if fate.tookPlace then { d with destination := d.temporary, temporary := none } else d

def removeTemporary (fate : Fate) (d : Disk γ) : Disk γ :=
  if fate.tookPlace then { d with temporary := none } else d

/-! ### Writing -/

variable (env : DiskEnv γ)

/-- Syncs the directory after a change of its entries. -/
def fsyncDirectory : Action OsError (Disk γ) Unit := do
  perform env "parent_directory_open" quiet
  Action.ensure (perform env "parent_directory_fsync" quiet)
    (perform env "parent_directory_close" quiet)

/-- Removes the temporary file, which may be gone. -/
def unlinkTemporary : Action OsError (Disk γ) Unit := do
  let d ← Action.state
  perform env "unlink" removeTemporary
  match d.temporary with
  | none => Action.raise .fileNotFound
  | some _ => return ()

/-- The steps after the temporary file was created. -/
def replaceByTemporary (content : γ) : Action OsError (Disk γ) Unit := do
  Action.ensure
    (do
      perform env "write" (writeTemporary env content)
      perform env "file_fsync" quiet)
    (perform env "temporary_close" quiet)
  perform env "temporary_chmod" quiet
  perform env "rename" renameTemporary
  perform env "destination_chmod" quiet
  fsyncDirectory env

/-- The cleanup after a failure. -/
def cleanUp (original : OsError) : Action WriteError (Disk γ) Unit := do
  Action.tryCatch (unlinkTemporary env) fun cleanup =>
    match cleanup with
    | .fileNotFound => return ()
    | cleanup => Action.raise (.persistenceAndCleanup original cleanup)
  Action.raise (.osError original)

/-- Replaces a file by a new content. -/
def writeAtomicJson (content : γ) : Action WriteError (Disk γ) Unit := do
  Action.tryCatch
    (do
      perform env "parent_directory_mkdir" quiet
      perform env "parent_directory_chmod" quiet
      perform env "temporary_file" (createTemporary (env.cut content 0)))
    fun e => Action.raise (.osError e)
  -- from here on there is a temporary file, which a failure removes
  Action.tryCatch (replaceByTemporary env content) (cleanUp env)

/-! ### What an operation does -/

/-- The operations before the rename, in their order. -/
def beforeRename : List String :=
  ["parent_directory_mkdir", "parent_directory_chmod", "temporary_file", "write", "file_fsync",
    "temporary_close", "temporary_chmod"]

/-- The operations of a write that goes through, in their order. -/
def writeOperations : List String :=
  beforeRename ++ ["rename", "destination_chmod", "parent_directory_open",
    "parent_directory_fsync", "parent_directory_close"]

/-- The operations from a position on go as far as the rename, and the rename takes place. -/
structure Publishes (n : Nat) : Prop where
  prepared : ∀ i operation, beforeRename[i]? = some operation →
    env.fate (n + i) operation = .done
  renamed : (env.fate (n + 7) "rename").tookPlace = true

/-- The operations from a position on have the fates that were theirs. -/
def Dictated (n : Nat) (ops : List (String × Fate)) : Prop :=
  ∀ i op, ops[i]? = some op → env.fate (n + i) op.1 = op.2

/-- None of the operations was the last of the process. -/
def Alive (ops : List (String × Fate)) : Prop := ∀ op ∈ ops, ∀ progress, op.2 ≠ .crashed progress

variable {env} {start d d' : Disk γ} {content : γ} {operation : String} {n k : Nat}
variable {effect : Fate → Disk γ → Disk γ} {ops : List (String × Fate)} {fate : Fate}

lemma Dictated.snoc (h : Dictated env n ops)
    (hfate : env.fate (n + ops.length) operation = fate) :
    Dictated env n (ops ++ [(operation, fate)]) := by
  intro i op hop
  rcases Nat.lt_trichotomy i ops.length with hi | rfl | hi
  · rw [List.getElem?_append_left hi] at hop
    exact h i op hop
  · rw [List.getElem?_concat_length] at hop
    cases hop
    exact hfate
  · rw [List.getElem?_eq_none (by rw [List.length_append]; exact hi)] at hop
    cases hop

lemma Alive.snoc (h : Alive ops) (hfate : ∀ progress, fate ≠ .crashed progress) :
    Alive (ops ++ [(operation, fate)]) := by
  intro op hop
  rcases List.mem_append.1 hop with hop | hop
  · exact h op hop
  · rw [List.mem_singleton.1 hop]
    exact hfate

lemma leaves_perform {Q : Unit → Disk γ → Prop} {E : OsError → Disk γ → Prop}
    {C : Disk γ → Prop}
    (hdone : env.fate d.operations.length operation = .done →
      Q () (effect .done (d.record operation .done)))
    (hfailed : ∀ detail progress,
      env.fate d.operations.length operation = .failed detail progress →
        E (.other detail)
          (effect (.failed detail progress) (d.record operation (.failed detail progress))))
    (hcrashed : ∀ progress, env.fate d.operations.length operation = .crashed progress →
      C (effect (.crashed progress) (d.record operation (.crashed progress)))) :
    Leaves (perform env operation effect) d Q E C := by
  rcases hfate : env.fate d.operations.length operation with _ | ⟨detail, progress⟩ | progress <;>
    simp only [Leaves, perform, hfate]
  · exact hdone hfate
  · exact hfailed detail progress hfate
  · exact hcrashed progress hfate

/-! ### The operations that went through -/

variable (env start)

/-- The first operations went through. -/
structure Through (k : Nat) (d : Disk γ) : Prop where
  operations : d.operations =
    start.operations ++ (writeOperations.take k).map fun operation => (operation, Fate.done)
  fates : ∀ i operation, i < k → writeOperations[i]? = some operation →
    env.fate (start.operations.length + i) operation = .done

variable {env start}

lemma through_zero : Through env start 0 start :=
  ⟨by simp, fun i _ hi => absurd hi (Nat.not_lt_zero i)⟩

lemma lt_of_writeOperations (hoperation : writeOperations[k]? = some operation) : k < 12 := by
  obtain ⟨hk, -⟩ := List.getElem?_eq_some_iff.1 hoperation
  exact hk

lemma ne_unlink_of_mem (h : operation ∈ writeOperations) : operation ≠ "unlink" := by
  rintro rfl
  revert h
  decide

lemma Through.length (h : Through env start k d) (hk : k ≤ 12) :
    d.operations.length = start.operations.length + k := by
  have hlength : writeOperations.length = 12 := rfl
  rw [h.operations, List.length_append, List.length_map, List.length_take, hlength]
  omega

/-- One more operation goes through. -/
lemma Through.next (h : Through env start k d) (hoperation : writeOperations[k]? = some operation)
    (hfate : env.fate d.operations.length operation = .done)
    (hoperations : d'.operations = (d.record operation .done).operations) :
    Through env start (k + 1) d' where
  operations := by
    rw [hoperations, Disk.record, h.operations, List.take_add_one, hoperation]
    simp
  fates := by
    intro i operation' hi hoperation'
    rcases Nat.lt_succ_iff_lt_or_eq.1 hi with hi | rfl
    · exact h.fates i operation' hi hoperation'
    · rw [hoperation] at hoperation'
      cases hoperation'
      rw [← h.length (Nat.le_of_lt (lt_of_writeOperations hoperation))]
      exact hfate

lemma Through.mem (h : (operation, fate) ∈ (writeOperations.take k).map fun operation =>
    (operation, Fate.done)) : operation ∈ writeOperations ∧ fate = .done := by
  obtain ⟨name, hname, heq⟩ := List.mem_map.1 h
  cases heq
  exact ⟨List.mem_of_mem_take hname, rfl⟩

lemma Through.dictated (h : Through env start k d) : Dictated env start.operations.length
    ((writeOperations.take k).map fun operation => (operation, Fate.done)) := by
  intro i op hop
  rw [List.getElem?_map, Option.map_eq_some_iff] at hop
  obtain ⟨name, hname, rfl⟩ := hop
  have hi : i < k := by
    by_contra hle
    rw [List.getElem?_take, if_neg hle] at hname
    cases hname
  rw [List.getElem?_take_of_lt hi] at hname
  exact h.fates i name hi hname

lemma writeOperations_of_beforeRename {i : Nat} (h : beforeRename[i]? = some operation) :
    i < 7 ∧ writeOperations[i]? = some operation := by
  obtain ⟨hi, -⟩ := List.getElem?_eq_some_iff.1 h
  rw [writeOperations, List.getElem?_append_left hi]
  exact ⟨hi, h⟩

/-- After the rename the new content is published. -/
lemma Through.publishes (h : Through env start k d) (hk : 7 < k) :
    Publishes env start.operations.length where
  prepared := by
    intro i operation hoperation
    obtain ⟨hi, hwrite⟩ := writeOperations_of_beforeRename hoperation
    exact h.fates i operation (Nat.lt_trans hi hk) hwrite
  renamed := by
    rw [h.fates 7 "rename" hk rfl]
    rfl

/-! ### What a write leaves behind -/

variable (env start content)

/-- The first operations went through, and the destination is untouched. -/
structure Staged (k : Nat) (temporary : Option γ) (d : Disk γ) : Prop extends
    Through env start k d where
  destination : d.destination = start.destination
  temporary : d.temporary = temporary

/-- The first operations went through, and the new content is in place. -/
structure Published (k : Nat) (d : Disk γ) : Prop extends Through env start k d where
  destination : d.destination = some content
  temporary : d.temporary = none

/-- The destination is as it was or has the new content, and which of them is decided by what
happened up to the rename. -/
structure Whole (ops : List (String × Fate)) (d : Disk γ) : Prop where
  operations : d.operations = start.operations ++ ops
  fates : Dictated env start.operations.length ops
  destination : d.destination = start.destination ∧ ¬ Publishes env start.operations.length ∨
    d.destination = some content ∧ Publishes env start.operations.length
  untouched : (∀ op ∈ ops, op.1 ≠ "rename") → d.destination = start.destination

/-- A write that failed with an error and was not cleaned up after yet. -/
structure Broken (error : OsError) (ops : List (String × Fate)) (d : Disk γ) : Prop extends
    Whole env start content ops d where
  failed : ∃ op ∈ ops, ∃ detail progress,
    op.2 = .failed detail progress ∧ error = .other detail
  alive : Alive ops
  uncleaned : ∀ op ∈ ops, op.1 ≠ "unlink"

/-- A write that was cut off. -/
structure Cut (ops : List (String × Fate)) (d : Disk γ) : Prop extends
    Whole env start content ops d where
  crashed : ∃ op ∈ ops, ∃ progress, op.2 = .crashed progress

variable {env start content}

/-- Noting one more operation keeps a write whole. -/
lemma Whole.record (h : Whole env start content ops d)
    (hfate : env.fate d.operations.length operation = fate) :
    Whole env start content (ops ++ [(operation, fate)]) (d.record operation fate) where
  operations := by
    rw [Disk.record, h.operations, List.append_assoc]
  fates := by
    refine h.fates.snoc ?_
    rwa [h.operations, List.length_append] at hfate
  destination := h.destination
  untouched := by
    intro hnone
    exact h.untouched fun op hop => hnone op (List.mem_append_left _ hop)

lemma Whole.cut {progress : Nat}
    (h : Whole env start content (ops ++ [(operation, .crashed progress)]) d) :
    Cut env start content (ops ++ [(operation, .crashed progress)]) d :=
  ⟨h, (operation, .crashed progress), by simp, progress, rfl⟩

/-- A write that stops after the operations that went through. -/
lemma Whole.broken {detail : String} {progress : Nat}
    (h : Whole env start content ((writeOperations.take k).map (fun operation =>
      (operation, Fate.done)) ++ [(operation, .failed detail progress)]) d)
    (hmem : operation ∈ writeOperations) :
    Broken env start content (.other detail) ((writeOperations.take k).map (fun operation =>
      (operation, Fate.done)) ++ [(operation, .failed detail progress)]) d where
  toWhole := h
  failed := ⟨(operation, .failed detail progress), by simp, detail, progress, rfl, rfl⟩
  alive := by
    refine Alive.snoc (fun op hop progress => ?_) fun progress => by simp
    rw [(Through.mem hop).2]
    simp
  uncleaned := by
    intro op hop
    rcases List.mem_append.1 hop with hop | hop
    · exact ne_unlink_of_mem (Through.mem hop).1
    · rw [List.mem_singleton.1 hop]
      exact ne_unlink_of_mem hmem

/-- A step up to the rename that does not go through leaves the destination alone. -/
lemma Staged.whole {temporary : Option γ} (h : Staged env start k temporary d)
    (hoperation : beforeRename[k]? = some operation)
    (hfate : env.fate d.operations.length operation = fate) (hne : fate ≠ .done)
    (hdestination : d'.destination = d.destination)
    (hoperations : d'.operations = (d.record operation fate).operations) :
    Whole env start content
      ((writeOperations.take k).map (fun operation => (operation, Fate.done)) ++
        [(operation, fate)]) d' := by
  obtain ⟨hk, -⟩ := writeOperations_of_beforeRename hoperation
  have hlength := h.length (by omega)
  refine ⟨?_, ?_, .inl ⟨hdestination.trans h.destination, fun hpublishes => hne ?_⟩,
    fun _ => hdestination.trans h.destination⟩
  · rw [hoperations, Disk.record, h.operations, List.append_assoc]
  · refine h.dictated.snoc ?_
    rw [← hfate, h.operations, List.length_append]
  · rw [← hfate, hlength]
    exact hpublishes.prepared k operation hoperation

/-- A step before the rename. -/
lemma Staged.next {temporary temporary' : Option γ} (h : Staged env start k temporary d)
    (hoperation : beforeRename[k]? = some operation)
    (hdestination : ∀ fate d, (effect fate d).destination = d.destination)
    (hoperations : ∀ fate d, (effect fate d).operations = d.operations)
    (htemporary : ∀ d : Disk γ, d.temporary = temporary →
      (effect .done d).temporary = temporary') :
    Leaves (perform env operation effect) d
      (fun _ => Staged env start (k + 1) temporary')
      (fun e d' => ∃ ops, Broken env start content e ops d')
      (fun d' => ∃ ops, Cut env start content ops d') := by
  obtain ⟨-, hwrite⟩ := writeOperations_of_beforeRename hoperation
  have hwhole : ∀ fate, env.fate d.operations.length operation = fate → fate ≠ .done →
      Whole env start content
        ((writeOperations.take k).map (fun operation => (operation, Fate.done)) ++
          [(operation, fate)]) (effect fate (d.record operation fate)) :=
    fun fate hfate hne => h.whole hoperation hfate hne (hdestination _ _) (hoperations _ _)
  apply leaves_perform
  · intro hfate
    exact ⟨h.toThrough.next hwrite hfate (hoperations _ _), (hdestination _ _).trans h.destination,
      htemporary _ h.temporary⟩
  · intro detail progress hfate
    exact ⟨_, (hwhole _ hfate (by simp)).broken (List.mem_of_getElem? hwrite)⟩
  · intro progress hfate
    exact ⟨_, (hwhole _ hfate (by simp)).cut⟩

/-- The rename publishes the new content, unless it does not take place. -/
lemma Staged.rename (h : Staged env start 7 (some content) d) :
    Leaves (perform env "rename" renameTemporary) d
      (fun _ => Published env start content 8)
      (fun e d' => ∃ ops, Broken env start content e ops d')
      (fun d' => ∃ ops, Cut env start content ops d') := by
  have hlength := h.length (by decide)
  have hsame : ∀ fate, (renameTemporary fate (d.record "rename" fate)).operations =
      (d.record "rename" fate).operations := by
    intro fate
    unfold renameTemporary
    split_ifs <;> rfl
  have hprepared : ∀ i operation, beforeRename[i]? = some operation →
      env.fate (start.operations.length + i) operation = .done := by
    intro i operation hoperation
    obtain ⟨hi, hwrite⟩ := writeOperations_of_beforeRename hoperation
    exact h.fates i operation hi hwrite
  have hwhole : ∀ fate, env.fate d.operations.length "rename" = fate →
      Whole env start content
        ((writeOperations.take 7).map (fun operation => (operation, Fate.done)) ++
          [("rename", fate)]) (renameTemporary fate (d.record "rename" fate)) := by
    intro fate hfate
    refine ⟨?_, h.dictated.snoc ?_, ?_, fun hnone => absurd rfl (hnone ("rename", fate) (by simp))⟩
    · rw [hsame, Disk.record, h.operations, List.append_assoc]
    · rw [← hfate, h.operations, List.length_append]
    · by_cases htook : fate.tookPlace = true
      · refine .inr ⟨?_, hprepared, ?_⟩
        · rw [renameTemporary, if_pos htook]
          exact h.temporary
        · rw [← hlength, hfate]
          exact htook
      · refine .inl ⟨?_, fun hpublishes => htook ?_⟩
        · rw [renameTemporary, if_neg htook]
          exact h.destination
        · rw [← hfate, hlength]
          exact hpublishes.renamed
  apply leaves_perform
  · intro hfate
    exact ⟨h.toThrough.next rfl hfate (hsame .done), h.temporary, rfl⟩
  · intro detail progress hfate
    exact ⟨_, (hwhole _ hfate).broken (by decide)⟩
  · intro progress hfate
    exact ⟨_, (hwhole _ hfate).cut⟩

lemma Published.whole (h : Published env start content k d) (hk : 7 < k) :
    Whole env start content ((writeOperations.take k).map fun operation => (operation, Fate.done))
      d where
  operations := h.operations
  fates := h.dictated
  destination := .inr ⟨h.destination, h.publishes hk⟩
  untouched := by
    intro hnone
    have hrename : "rename" ∈ writeOperations.take k := by
      refine List.mem_of_getElem? (i := 7) ?_
      rw [List.getElem?_take_of_lt hk]
      rfl
    exact absurd rfl (hnone ("rename", .done) (List.mem_map_of_mem hrename))

/-- A step after the rename. -/
lemma Published.next (h : Published env start content k d) (hk : 7 < k)
    (hoperation : writeOperations[k]? = some operation) : Leaves (perform env operation quiet) d
      (fun _ => Published env start content (k + 1))
      (fun e d' => ∃ ops, Broken env start content e ops d')
      (fun d' => ∃ ops, Cut env start content ops d') := by
  apply leaves_perform
  · intro hfate
    exact ⟨h.toThrough.next hoperation hfate rfl, h.destination, h.temporary⟩
  · intro detail progress hfate
    exact ⟨_, ((h.whole hk).record hfate).broken (List.mem_of_getElem? hoperation)⟩
  · intro progress hfate
    exact ⟨_, ((h.whole hk).record hfate).cut⟩

/-- A file is closed after a failure; if that fails too, its error is the one that counts. -/
lemma Broken.close {e : OsError} (h : Broken env start content e ops d)
    (hunlink : operation ≠ "unlink") : Leaves (perform env operation quiet) d
      (fun _ d' => ∃ ops, Broken env start content e ops d')
      (fun e d' => ∃ ops, Broken env start content e ops d')
      (fun d' => ∃ ops, Cut env start content ops d') := by
  have huncleaned : ∀ fate, ∀ op ∈ ops ++ [(operation, fate)], op.1 ≠ "unlink" := by
    intro fate op hop
    rcases List.mem_append.1 hop with hop | hop
    · exact h.uncleaned op hop
    · rw [List.mem_singleton.1 hop]
      exact hunlink
  obtain ⟨failed, hmem, detail, progress, hfailed, he⟩ := h.failed
  apply leaves_perform
  · intro hfate
    exact ⟨_, h.toWhole.record hfate,
      ⟨failed, List.mem_append_left _ hmem, detail, progress, hfailed, he⟩,
      h.alive.snoc fun progress => by simp, huncleaned _⟩
  · intro detail progress hfate
    exact ⟨_, h.toWhole.record hfate,
      ⟨(operation, .failed detail progress), by simp, detail, progress, rfl, rfl⟩,
      h.alive.snoc fun progress => by simp, huncleaned _⟩
  · intro progress hfate
    exact ⟨_, (h.toWhole.record hfate).cut⟩

/-! ### The whole write -/

lemma leaves_fsyncDirectory (h : Published env start content 9 d) :
    Leaves (fsyncDirectory env) d
      (fun _ => Published env start content 12)
      (fun e d' => ∃ ops, Broken env start content e ops d')
      (fun d' => ∃ ops, Cut env start content ops d') := by
  refine (h.next (by decide) rfl).bind fun _ d₁ h₁ => ?_
  refine (h₁.next (by decide) rfl).ensure ?_ ?_
  · intro _ d₂ h₂
    exact h₂.next (by decide) rfl
  · rintro e d₂ ⟨ops₂, h₂⟩
    exact h₂.close (by decide)

/-- The steps after the creation of the temporary file. -/
lemma leaves_replaceByTemporary (h : Staged env start 3 (some (env.cut content 0)) d) :
    Leaves (replaceByTemporary env content) d
      (fun _ => Published env start content 12)
      (fun e d' => ∃ ops, Broken env start content e ops d')
      (fun d' => ∃ ops, Cut env start content ops d') := by
  have hclosed : Leaves (Action.ensure
      (perform env "write" (writeTemporary env content) >>= fun _ =>
        perform env "file_fsync" quiet)
      (perform env "temporary_close" quiet)) d
      (fun _ => Staged env start 6 (some content))
      (fun e d' => ∃ ops, Broken env start content e ops d')
      (fun d' => ∃ ops, Cut env start content ops d') := by
    refine Leaves.ensure (Q := fun _ => Staged env start 5 (some content))
      (E := fun e d' => ∃ ops, Broken env start content e ops d') ?_ ?_ ?_
    · refine Leaves.bind (Q := fun _ => Staged env start 4 (some content)) ?_ ?_
      · refine h.next rfl ?_ ?_ fun _ _ => rfl
        · intro fate d
          cases fate <;> rfl
        · intro fate d
          cases fate <;> rfl
      · intro _ d₁ h₁
        exact h₁.next rfl (fun _ _ => rfl) (fun _ _ => rfl) fun _ h => h
    · intro _ d₁ h₁
      exact h₁.next rfl (fun _ _ => rfl) (fun _ _ => rfl) fun _ h => h
    · rintro e d₁ ⟨ops, h₁⟩
      exact h₁.close (by decide)
  refine hclosed.bind fun _ d₁ h₁ => ?_
  refine Leaves.bind (Q := fun _ => Staged env start 7 (some content)) ?_ ?_
  · exact h₁.next rfl (fun _ _ => rfl) (fun _ _ => rfl) fun _ h => h
  · intro _ d₂ h₂
    refine h₂.rename.bind fun _ d₃ h₃ => ?_
    refine (h₃.next (by decide) rfl).bind fun _ d₄ h₄ => ?_
    exact leaves_fsyncDirectory h₄

variable (env start content)

/-- How a failed write is reported: by the error that ended it once the temporary file is gone, or
together with the error of the cleanup. -/
inductive Reported (ops : List (String × Fate)) (d : Disk γ) : WriteError → Prop
  | osError (detail : String) (hfailed : ∃ op ∈ ops, ∃ progress, op.2 = .failed detail progress)
      (hcleaned : ∀ fate, ("unlink", fate) ∈ ops → fate = .done) (hgone : d.temporary = none) :
      Reported ops d (.osError (.other detail))
  | persistenceAndCleanup (before : List (String × Fate)) (detail cleanup : String)
      (progress : Nat) (hops : ops = before ++ [("unlink", .failed cleanup progress)])
      (hfailed : ∃ op ∈ before, ∃ progress, op.2 = .failed detail progress) :
      Reported ops d (.persistenceAndCleanup (.other detail) (.other cleanup))

variable {env start content}

/-- What is reported has happened. -/
lemma Reported.exists_failed {e : WriteError} (h : Reported ops d e) :
    ∃ op ∈ ops, ∃ detail progress, op.2 = .failed detail progress := by
  cases h with
  | osError detail hfailed =>
    obtain ⟨op, hop, progress, hfate⟩ := hfailed
    exact ⟨op, hop, detail, progress, hfate⟩
  | persistenceAndCleanup before detail cleanup progress hops =>
    exact ⟨("unlink", .failed cleanup progress), by simp [hops], cleanup, progress, rfl⟩

/-- The cleanup ends with a report, unless it is cut off. -/
lemma leaves_cleanUp {e : OsError} (h : Broken env start content e ops d) :
    Leaves (cleanUp env e) d (fun _ _ => False)
      (fun e d' => ∃ ops, Whole env start content ops d' ∧ Alive ops ∧ Reported ops d' e)
      (fun d' => ∃ ops, Cut env start content ops d') := by
  obtain ⟨failed, hmem, detail, progress, hfate, rfl⟩ := h.failed
  have hwhole : ∀ fate, env.fate d.operations.length "unlink" = fate →
      Whole env start content (ops ++ [("unlink", fate)])
        (removeTemporary fate (d.record "unlink" fate)) := by
    intro fate hunlink
    have hrecord := h.toWhole.record hunlink
    unfold removeTemporary
    split_ifs
    · exact ⟨hrecord.operations, hrecord.fates, hrecord.destination, hrecord.untouched⟩
    · exact hrecord
  have hdone : ∀ fate, ("unlink", fate) ∈ ops ++ [("unlink", Fate.done)] → fate = .done := by
    intro fate hfate
    rcases List.mem_append.1 hfate with hfate | hfate
    · exact absurd rfl (h.uncleaned _ hfate)
    · cases List.mem_singleton.1 hfate
      rfl
  -- what is known when the temporary file is gone
  have hcleaned : env.fate d.operations.length "unlink" = .done → ∃ ops',
      Whole env start content ops' (removeTemporary .done (d.record "unlink" .done)) ∧
        Alive ops' ∧
        Reported ops' (removeTemporary .done (d.record "unlink" .done))
          (.osError (.other detail)) :=
    fun hunlink => ⟨_, hwhole .done hunlink, h.alive.snoc fun progress => by simp,
      .osError detail ⟨failed, List.mem_append_left _ hmem, progress, hfate⟩ hdone rfl⟩
  refine Leaves.bind (Q := fun _ d' => ∃ ops', Whole env start content ops' d' ∧ Alive ops' ∧
    Reported ops' d' (.osError (.other detail))) ?_ ?_
  · refine Leaves.tryCatch (E := fun cleanup d' =>
      (cleanup = .fileNotFound ∧ ∃ ops', Whole env start content ops' d' ∧ Alive ops' ∧
        Reported ops' d' (.osError (.other detail))) ∨
      ∃ cleanupDetail, cleanup = .other cleanupDetail ∧
        ∃ ops', Whole env start content ops' d' ∧ Alive ops' ∧
          Reported ops' d' (.persistenceAndCleanup (.other detail) cleanup)) ?_ ?_
    · refine (Leaves.state (Q := fun d' d'' => d' = d ∧ d'' = d) ⟨rfl, rfl⟩).bind ?_
      intro d₀ d₁ hread
      rw [hread.1, hread.2]
      refine Leaves.bind (Q := fun _ d' => ∃ ops', Whole env start content ops' d' ∧ Alive ops' ∧
        Reported ops' d' (.osError (.other detail))) ?_ ?_
      · apply leaves_perform
        · exact hcleaned
        · intro cleanupDetail progress' hunlink
          exact .inr ⟨cleanupDetail, rfl, _, hwhole _ hunlink,
            h.alive.snoc fun progress => by simp, .persistenceAndCleanup ops detail
              cleanupDetail progress' rfl ⟨failed, hmem, progress, hfate⟩⟩
        · intro progress' hunlink
          exact ⟨_, (hwhole _ hunlink).cut⟩
      · intro _ d' hd'
        cases d.temporary with
        | none => exact Leaves.raise (.inl ⟨rfl, hd'⟩)
        | some left => exact Leaves.pure hd'
    · rintro cleanup d' (⟨rfl, hd'⟩ | ⟨cleanupDetail, rfl, hd'⟩)
      · exact Leaves.pure hd'
      · exact Leaves.raise hd'
  · intro _ d' hd'
    exact Leaves.raise hd'

/-- An operation that keeps the temporary file away until it has gone through. -/
lemma leaves_perform_absent {Q : Unit → Disk γ → Prop} {E : OsError → Disk γ → Prop}
    {C : Disk γ → Prop} (h : Leaves (perform env operation effect) d Q E C)
    (habsent : ∀ detail progress (d : Disk γ), d.temporary = none →
      (effect (.failed detail progress) d).temporary = none) (hd : d.temporary = none) :
    Leaves (perform env operation effect) d Q (fun e d' => E e d' ∧ d'.temporary = none) C := by
  unfold Leaves at h ⊢
  rcases hfate : env.fate d.operations.length operation with _ | ⟨detail, progress⟩ | progress <;>
    simp only [perform, hfate] at h ⊢
  · exact h
  · exact ⟨h, habsent _ _ _ hd⟩
  · exact h

/-- What a write leaves behind, whatever happens to its operations. -/
lemma leaves_writeAtomicJson (hstart : start.temporary = none) :
    Leaves (writeAtomicJson env content) start
      (fun _ => Published env start content 12)
      (fun e d' => ∃ ops, Whole env start content ops d' ∧ Alive ops ∧ Reported ops d' e)
      (fun d' => ∃ ops, Cut env start content ops d') := by
  have hzero : Staged env start 0 none start := ⟨through_zero, rfl, hstart⟩
  refine Leaves.bind (Q := fun _ => Staged env start 3 (some (env.cut content 0))) ?_ ?_
  · refine Leaves.tryCatch (E := fun e d' => (∃ ops, Broken env start content e ops d') ∧
      d'.temporary = none) ?_ ?_
    · refine Leaves.bind (Q := fun _ => Staged env start 1 none) ?_ fun _ d₁ h₁ => ?_
      · refine leaves_perform_absent ?_ (fun _ _ _ h => h) hstart
        exact hzero.next rfl (fun _ _ => rfl) (fun _ _ => rfl) fun _ h => h
      · refine Leaves.bind (Q := fun _ => Staged env start 2 none) ?_ fun _ d₂ h₂ => ?_
        · refine leaves_perform_absent ?_ (fun _ _ _ h => h) h₁.temporary
          exact h₁.next rfl (fun _ _ => rfl) (fun _ _ => rfl) fun _ h => h
        · refine leaves_perform_absent ?_ (fun _ _ _ h => h) h₂.temporary
          refine h₂.next rfl ?_ ?_ fun _ _ => rfl
          · intro fate d
            unfold createTemporary
            split
            · rfl
            · split_ifs <;> rfl
          · intro fate d
            unfold createTemporary
            split
            · rfl
            · split_ifs <;> rfl
    · rintro e d' ⟨⟨ops, hbroken⟩, habsent⟩
      obtain ⟨op, hop, detail, progress, hfate, rfl⟩ := hbroken.failed
      exact Leaves.raise ⟨ops, hbroken.toWhole, hbroken.alive,
        .osError detail ⟨op, hop, progress, hfate⟩
          (fun fate hmem => absurd rfl (hbroken.uncleaned _ hmem)) habsent⟩
  · intro _ d₃ h₃
    refine (leaves_replaceByTemporary h₃).tryCatch ?_
    rintro e d' ⟨ops, hbroken⟩
    exact (leaves_cleanUp hbroken).weaken (fun _ _ h => h.elim) (fun _ _ h => h) fun _ h => h

/-- The new content is in place exactly when the operations go as far as the rename. -/
lemma destination_writeAtomicJson (hstart : start.temporary = none) :
    (writeAtomicJson env content start).2.destination = some content ∧
        Publishes env start.operations.length ∨
      (writeAtomicJson env content start).2.destination = start.destination ∧
        ¬ Publishes env start.operations.length := by
  refine (leaves_writeAtomicJson hstart).elim (P := fun _ d =>
    d.destination = some content ∧ Publishes env start.operations.length ∨
      d.destination = start.destination ∧ ¬ Publishes env start.operations.length) ?_ ?_ ?_
  · intro _ d h
    exact .inl ⟨h.destination, h.publishes (by decide)⟩
  · rintro _ d ⟨ops, h, -⟩
    exact h.destination.symm
  · rintro d ⟨ops, h⟩
    exact h.destination.symm

/-! ### Writes that go through -/

/-- An operation that is next, and goes through. -/
lemma leaves_perform_done
    (hall : ∀ i operation, writeOperations[i]? = some operation →
      env.fate (n + i) operation = .done)
    (hoperation : writeOperations[k]? = some operation)
    (hoperations : ∀ fate d, (effect fate d).operations = d.operations)
    (hd : d.operations.length = n + k) :
    Leaves (perform env operation effect) d (fun _ d' => d'.operations.length = n + (k + 1))
      (fun _ _ => False) (fun _ => False) := by
  have hdone : env.fate d.operations.length operation = .done := by
    rw [hd]
    exact hall k operation hoperation
  apply leaves_perform
  · intro _
    rw [hoperations, Disk.record, List.length_append, hd]
    rfl
  · intro detail progress hfate
    rw [hdone] at hfate
    cases hfate
  · intro progress hfate
    rw [hdone] at hfate
    cases hfate

/-- A write none of whose operations fails returns. -/
lemma writeAtomicJson_of_done
    (hall : ∀ i operation, writeOperations[i]? = some operation →
      env.fate (start.operations.length + i) operation = .done) :
    (writeAtomicJson env content start).1 = .ok () := by
  have hquiet : ∀ k {operation} {d : Disk γ}, writeOperations[k]? = some operation →
      d.operations.length = start.operations.length + k →
      Leaves (perform env operation quiet) d
        (fun _ d' => d'.operations.length = start.operations.length + (k + 1))
        (fun _ _ => False) (fun _ => False) :=
    fun _ _ _ hoperation hd => leaves_perform_done hall hoperation (fun _ _ => rfl) hd
  have hbegun : Leaves (Action.tryCatch
      (do
        perform env "parent_directory_mkdir" quiet
        perform env "parent_directory_chmod" quiet
        perform env "temporary_file" (createTemporary (env.cut content 0)))
      fun e => Action.raise (.osError e)) start
      (fun _ d => d.operations.length = start.operations.length + 3)
      (fun (_ : WriteError) _ => False) (fun _ => False) := by
    refine Leaves.tryCatch (E := fun _ _ => False) ?_ fun _ _ h => h.elim
    refine (hquiet 0 rfl rfl).bind fun _ d₁ h₁ => (hquiet 1 rfl h₁).bind fun _ d₂ h₂ => ?_
    refine leaves_perform_done (k := 2) hall rfl (fun fate d => ?_) h₂
    unfold createTemporary
    split
    · rfl
    · split_ifs <;> rfl
  have hwritten : ∀ d : Disk γ, d.operations.length = start.operations.length + 3 →
      Leaves (replaceByTemporary env content) d (fun _ _ => True) (fun _ _ => False)
        (fun _ => False) := by
    intro d hd
    refine Leaves.bind (Q := fun _ d' => d'.operations.length = start.operations.length + 6)
      (Leaves.ensure (E := fun _ _ => False) (Leaves.bind ?_ fun _ d₁ h₁ => hquiet 4 rfl h₁)
        (fun _ d₂ h₂ => hquiet 5 rfl h₂) fun _ _ h => h.elim) fun _ d₃ h₃ => ?_
    · refine leaves_perform_done (k := 3) hall rfl (fun fate d => ?_) hd
      cases fate <;> rfl
    · refine (hquiet 6 rfl h₃).bind fun _ d₄ h₄ => Leaves.bind
        (Q := fun _ d' => d'.operations.length = start.operations.length + 8) ?_
        fun _ d₅ h₅ => ?_
      · refine leaves_perform_done (k := 7) hall rfl (fun fate d => ?_) h₄
        unfold renameTemporary
        split_ifs <;> rfl
      · refine (hquiet 8 rfl h₅).bind fun _ d₆ h₆ => (hquiet 9 rfl h₆).bind fun _ d₇ h₇ => ?_
        refine ((hquiet 10 rfl h₇).ensure (fun _ d₈ h₈ => hquiet 11 rfl h₈) fun _ _ h =>
          h.elim).weaken (fun _ _ _ => True.intro) (fun _ _ h => h) fun _ h => h
  have hleaves : Leaves (writeAtomicJson env content) start (fun _ _ => True)
      (fun _ _ => False) (fun _ => False) :=
    hbegun.bind fun _ d hd => (hwritten d hd).tryCatch fun _ _ h => h.elim
  exact hleaves.elim (P := fun outcome _ => outcome = .ok ()) (fun _ _ _ => rfl)
    (fun _ _ h => h.elim) fun _ h => h.elim

/-- What holds after a write with an outcome. -/
structure WriteEnds (env : DiskEnv γ) (start : Disk γ) (content : γ)
    (outcome : Outcome WriteError Unit) (ops : List (String × Fate)) (d : Disk γ) : Prop where
  operations : d.operations = start.operations ++ ops
  fates : Dictated env start.operations.length ops
  /-- The operations up to the rename decide which content the destination has. -/
  atomic : d.destination = some content ∧ Publishes env start.operations.length ∨
    d.destination = start.destination ∧ ¬ Publishes env start.operations.length
  untouched : (∀ op ∈ ops, op.1 ≠ "rename") → d.destination = start.destination
  crashes : outcome = .crashed ↔ ¬ Alive ops
  raises : (∃ e, outcome = .raised e) ↔
    Alive ops ∧ ∃ op ∈ ops, ∃ detail progress, op.2 = .failed detail progress
  reported : ∀ e, outcome = .raised e → Reported ops d e
  returns : outcome = .ok () ↔ ∀ i operation, writeOperations[i]? = some operation →
    env.fate (start.operations.length + i) operation = .done
  returned : outcome = .ok () → d.destination = some content ∧ d.temporary = none

/-- Whatever fails and wherever the process ends, the destination has its old content or all of the
new one, an error is never swallowed, the process ends only where an operation is its last, the
write returns exactly when all of its operations go through, and a report of the error alone means
that the temporary file is gone. -/
theorem writeAtomicJson_ends (env : DiskEnv γ) (content : γ) (destination : Option γ)
    (before : List (String × Fate)) :
    ∃ ops, WriteEnds env ⟨destination, none, before⟩ content
      (writeAtomicJson env content ⟨destination, none, before⟩).1 ops
      (writeAtomicJson env content ⟨destination, none, before⟩).2 := by
  have hreturns := @writeAtomicJson_of_done γ env ⟨destination, none, before⟩ content
  have hatomic := @destination_writeAtomicJson γ env ⟨destination, none, before⟩ content rfl
  have hleaves : Leaves (writeAtomicJson env content) ⟨destination, none, before⟩ _ _ _ :=
    leaves_writeAtomicJson rfl
  revert hreturns hatomic
  refine hleaves.elim (P := fun outcome d =>
    ((∀ i operation, writeOperations[i]? = some operation →
      env.fate (before.length + i) operation = .done) → outcome = .ok ()) →
    (d.destination = some content ∧ Publishes env before.length ∨
      d.destination = destination ∧ ¬ Publishes env before.length) →
    ∃ ops, WriteEnds env ⟨destination, none, before⟩ content outcome ops d) ?_ ?_ ?_
  · intro _ d h hreturns hatomic
    have halive : Alive
        ((writeOperations.take 12).map fun operation => (operation, Fate.done)) := by
      intro op hop progress
      rw [(Through.mem hop).2]
      simp
    refine ⟨_, h.operations, h.dictated, hatomic, (h.whole (by decide)).untouched, ?_, ?_, by simp,
      ?_, fun _ => ⟨h.destination, h.temporary⟩⟩
    · simpa using halive
    · refine iff_of_false (by simp) ?_
      rintro ⟨-, op, hop, detail, progress, hfailed⟩
      rw [(Through.mem hop).2] at hfailed
      cases hfailed
    · exact iff_of_true rfl fun i operation hoperation =>
        h.fates i operation (lt_of_writeOperations hoperation) hoperation
  · rintro e d ⟨ops, h, halive, hreported⟩ hreturns hatomic
    refine ⟨ops, h.operations, h.fates, hatomic, h.untouched, ?_, ?_, ?_, ?_, by simp⟩
    · simpa using halive
    · exact iff_of_true ⟨e, rfl⟩ ⟨halive, hreported.exists_failed⟩
    · intro e' he'
      cases he'
      exact hreported
    · refine iff_of_false (by simp) fun hall => ?_
      cases hreturns hall
  · rintro d ⟨ops, h⟩ hreturns hatomic
    have hcut : ¬ Alive ops := by
      intro halive
      obtain ⟨op, hop, progress, hfate⟩ := h.crashed
      exact halive op hop progress hfate
    refine ⟨ops, h.operations, h.fates, hatomic, h.untouched, ?_, ?_, by simp, ?_, by simp⟩
    · exact iff_of_true rfl hcut
    · exact iff_of_false (by simp) fun hraised => hcut hraised.1
    · refine iff_of_false (by simp) fun hall => ?_
      cases hreturns hall

/-- A disk on which one operation fails, with a content of numbers. -/
def failingAt (failing : String) : DiskEnv Nat where
  fate _ operation := if operation = failing then .failed "EIO" 0 else .done
  cut content _ := content

example : (writeAtomicJson (failingAt "file_fsync") 1 ⟨some 0, none, []⟩).1 =
    .raised (.osError (.other "EIO")) := rfl

end EnjiGuard.Storage
