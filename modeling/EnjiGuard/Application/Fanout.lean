import EnjiGuard.Foundation.Pooling

/-!
# Bounded concurrent reads

Batch reads are handed to a pool of threads and come back in the order they were declared in. A
pool may take their steps in any order, and runs all of them even when one fails; a single read
needs no pool. For reads that leave the state alone none of this can be seen: a fanout returns what
reading one item after the other returns, up to the first error in the order of declaration.
-/

namespace EnjiGuard.Application

open Foundation

variable {S ε α ι : Type}

/-- The most reads that run at a time; a bound below one is refused. -/
structure BoundedFanout where
  maxConcurrency : Nat
  positive : 0 < maxConcurrency

/-- Runs operations one after the other, up to the first error. -/
def runInline : List (Program S ε α) → S → Except ε (List α) × S
  | [], s => (.ok [], s)
  | operation :: operations, s =>
    match operation.eval s with
    | (.error e, s') => (.error e, s')
    | (.ok a, s') =>
      match runInline operations s' with
      | (.error e, s'') => (.error e, s'')
      | (.ok as, s'') => (.ok (a :: as), s'')

namespace BoundedFanout

variable (fanout : BoundedFanout)

/-- The workers of the pool for so many operations. -/
def workers (operations : List (Program S ε α)) : Nat :=
  min fanout.maxConcurrency operations.length

/-- What a call can return, and the state it leaves. -/
def Runs (operations : List (Program S ε α)) (s : S) (result : Except ε (List α)) (s' : S) : Prop :=
  if operations.length ≤ 1 then (result, s') = runInline operations s
  else ∃ ls pool results,
    Path (Pool.step (fanout.workers operations)) (fun _ _ => True) (Pool.submit operations s) ls
      pool ∧
    pool.results? = some results ∧ pool.shared = s' ∧ result = results.mapM id

/-- What reading every item can return. -/
def Maps (items : List ι) (operation : ι → Program S ε α) (s : S) (result : Except ε (List α))
    (s' : S) : Prop :=
  fanout.Runs (items.map operation) s result s'

variable {fanout} {operations : List (Program S ε α)} {s s' : S} {result : Except ε (List α)}

lemma workers_pos (h : operations ≠ []) : 0 < fanout.workers operations :=
  lt_min fanout.positive (List.length_pos_iff.2 h)

lemma runInline_of_looks (hlooks : ∀ operation ∈ operations, operation.Looks s) :
    runInline operations s = (operations.mapM fun operation => (operation.eval s).1, s) := by
  induction operations with
  | nil => rfl
  | cons operation operations ih =>
    obtain ⟨hfirst, hrest⟩ := List.forall_mem_cons.1 hlooks
    rw [runInline, Program.eval_of_looks hfirst, List.mapM_cons]
    rcases (operation.eval s).1 with e | a
    · rfl
    · simp only [ih hrest]
      rcases operations.mapM fun operation : Program S ε α => (operation.eval s).1
        with e | as <;> rfl

/-- A pool every run of which ends in the same way returns that. -/
lemma runs_iff_of_pool {s₁ : S} (hmany : 1 < operations.length)
    (h : ∀ ls pool results, Path (Pool.step (fanout.workers operations)) (fun _ _ => True)
      (Pool.submit operations s) ls pool → pool.results? = some results →
        pool.shared = s₁ ∧
          results = operations.map fun operation : Program S ε α => (operation.eval s).1) :
    fanout.Runs operations s result s' ↔
      result = (operations.mapM fun operation => (operation.eval s).1) ∧ s' = s₁ := by
  have hresult : (operations.map fun operation : Program S ε α => (operation.eval s).1).mapM id =
      operations.mapM fun operation => (operation.eval s).1 := by
    rw [List.mapM_map]
    rfl
  rw [Runs, if_neg (Nat.not_le.2 hmany)]
  constructor
  · rintro ⟨ls, pool, results, hpath, hend, rfl, rfl⟩
    obtain ⟨hshared, rfl⟩ := h ls pool results hpath hend
    exact ⟨hresult, hshared⟩
  · rintro ⟨rfl, rfl⟩
    have hsome : operations ≠ [] := List.ne_nil_of_length_pos (Nat.zero_lt_of_lt hmany)
    obtain ⟨ls, pool, results, hpath, hend⟩ :=
      Pool.exists_end (workers_pos hsome) (Pool.submit operations s)
    obtain ⟨hshared, rfl⟩ := h ls pool results hpath hend
    exact ⟨ls, pool, _, hpath, hend, hshared, hresult.symm⟩

/-- A fanout of operations that look at the state cannot be told from running them in order. -/
lemma runs_iff_of_looks (hlooks : ∀ operation ∈ operations, operation.Looks s) :
    fanout.Runs operations s result s' ↔
      result = (operations.mapM fun operation => (operation.eval s).1) ∧ s' = s := by
  rcases Nat.lt_or_ge 1 operations.length with hmany | hfew
  · exact runs_iff_of_pool hmany fun ls pool results => Pool.eq_of_looks hlooks
  · rw [Runs, if_pos hfew, runInline_of_looks hlooks, Prod.mk.injEq]

/-- Nor can one of which a single operation works on the state. -/
lemma runs_iff_of_ignores {k : Nat} {program : Program S ε α} (hmany : 1 < operations.length)
    (hprogram : operations[k]? = some program)
    (hothers : ∀ i other, i ≠ k → operations[i]? = some other → ∃ result, other.Ignores result) :
    fanout.Runs operations s result s' ↔
      result = (operations.mapM fun operation => (operation.eval s).1) ∧
        s' = (program.eval s).2 :=
  runs_iff_of_pool hmany fun _ _ _ => Pool.eq_of_ignores hprogram hothers

/-- Every item is read as if it were read alone. -/
lemma maps_iff {items : List ι} {operation : ι → Program S ε α}
    (hlooks : ∀ item ∈ items, (operation item).Looks s) :
    fanout.Maps items operation s result s' ↔
      result = (items.mapM fun item => ((operation item).eval s).1) ∧ s' = s := by
  have hall : ∀ program ∈ items.map operation, program.Looks s := by
    intro program hmem
    obtain ⟨item, hitem, rfl⟩ := List.mem_map.1 hmem
    exact hlooks item hitem
  rw [Maps, runs_iff_of_looks hall, List.mapM_map]
  rfl

/-- No schedule of the pool for operations goes on for ever, and none is stuck before its end. -/
def EndsAlways (fanout : BoundedFanout) (operations : List (Program S ε α)) (s : S) : Prop :=
  ∀ ls pool, Path (Pool.step (fanout.workers operations)) (fun _ _ => True)
      (Pool.submit operations s) ls pool →
    Acc (fun later earlier : Pool S ε α =>
      ∃ l, Pool.step (fanout.workers operations) earlier l = some later) pool ∧
    (pool.results? = none → ∃ l pool', Pool.step (fanout.workers operations) pool l = some pool')

lemma endsAlways (hsome : operations ≠ []) : fanout.EndsAlways operations s := fun _ pool _ =>
  ⟨(Pool.wellFounded_step _).apply pool, Pool.exists_step (workers_pos hsome)⟩

/-- **A fanout cannot be told from reading in order**: whatever order the threads take, it returns
what reading one item after the other returns, and it does return. -/
theorem maps_iff_of_looks {items : List ι} {operation : ι → Program S ε α}
    (hlooks : ∀ item ∈ items, (operation item).Looks s) :
    (fanout.Maps items operation s result s' ↔
      result = (items.mapM fun item => ((operation item).eval s).1) ∧ s' = s) ∧
    (items ≠ [] → fanout.EndsAlways (items.map operation) s) :=
  ⟨maps_iff hlooks, fun hsome => endsAlways (by simpa using hsome)⟩

theorem maps_iff_of_looks_three :
    (⟨2, by decide⟩ : BoundedFanout).Maps [3, 1, 2]
      (fun item => Program.read fun n : Nat => if item = n then .error item else .ok (item + n)) 1
      (.error 1) 1 :=
  (maps_iff_of_looks fun _ _ => Program.looks_read _ _).1.2 ⟨rfl, rfl⟩

/-- What holds of every state of a pool that runs a call, by the steps that led to it. -/
structure Governed (fanout : BoundedFanout) (operations : List (Program S ε α))
    (ls : List Pool.Label) (pool : Pool S ε α) : Prop where
  bounded : pool.running ≤ fanout.maxConcurrency
  inOrder : ∀ i j : Nat, i < j → ∀ (program : Program S ε α) (slot : Slot S ε α),
    pool.slots[i]? = some (.waiting program) → pool.slots[j]? = some slot → slot.isWaiting = true
  complete : pool.slots.length = operations.length
  /-- Every operation has taken its own steps from its start on, each of them once. -/
  once : ∀ i operation, operations[i]? = some operation →
    ∃ slot : Slot S ε α, pool.slots[i]? = some slot ∧ slot.Stage operation (ls.count (.work i))
  begun : ls.count .start + pool.slots.countP Slot.isWaiting = operations.length
  ends : ∃ ls pool' results,
    Path (Pool.step (fanout.workers operations)) (fun _ _ => True) pool ls pool' ∧
      pool'.results? = some results
  finite : Acc (fun later earlier : Pool S ε α =>
    ∃ l, Pool.step (fanout.workers operations) earlier l = some later) pool

/-- **A pool keeps its bound and gets done**: whatever the operations do to the state, no more of
them run than are allowed, they begin in the order of declaration, every one of them runs once, and
every schedule comes to its end and none is stuck. -/
theorem governed_of_path {pool : Pool S ε α} {ls : List Pool.Label} (hsome : operations ≠ [])
    (hpath : Path (Pool.step (fanout.workers operations)) (fun _ _ => True)
      (Pool.submit operations s) ls pool) : fanout.Governed operations ls pool := by
  have horderly := hpath.invariant (Pool.orderly_submit operations s)
    fun _ _ _ h _ hstep => h.step hstep
  exact
    { bounded := horderly.bounded.trans (min_le_left _ _)
      inOrder := horderly.inOrder
      complete := Pool.length_of_path hpath
      once := fun _ _ hoperation => Pool.stage_of_path hpath hoperation
      begun := Pool.begun_of_path hpath
      ends := Pool.exists_end (workers_pos hsome) pool
      finite := (Pool.wellFounded_step _).apply pool }

theorem governed_of_path_two :
    ∃ pool : Pool Nat String Nat,
      (⟨2, by decide⟩ : BoundedFanout).Governed [.access fun n => (.ok n, n + 1), .call (.ok 5)]
        [.start, .start, .work 0, .work 0, .work 1] pool ∧ pool.shared = 1 := by
  obtain ⟨pool, hpool, hshared⟩ := Option.map_eq_some_iff.1 (show
    (replay (Pool.step 2) (fun _ _ => true) (Pool.submit [.access fun n => (.ok n, n + 1),
      .call (.ok 5)] 0) [.start, .start, .work 0, .work 0, .work 1]).map
        (Pool.shared : Pool Nat String Nat → Nat) = some 1 from rfl)
  exact ⟨pool, governed_of_path (s := 0) (by decide)
    (Path.of_replay (fun _ _ _ _ => True.intro) hpool), hshared⟩

end BoundedFanout

end EnjiGuard.Application
