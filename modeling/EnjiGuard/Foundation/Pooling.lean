import EnjiGuard.Foundation.Reachability
import Mathlib.Order.GameAdd
import Mathlib.Tactic.Common

/-!
# Bounded pools

A pool runs programs that share a state. They are begun in the order in which they were submitted,
at most so many run at once, and those that run take their atomic steps in any interleaving.

A program is verified on its own, under a relation its surroundings keep to (what it relies on) and
a relation its own steps keep to (what it guarantees). When every program guarantees what all the
others rely on, the postconditions hold together at the end of every run. A run gets to its end
whatever order it takes.
-/

namespace EnjiGuard.Foundation

variable {S ε α : Type}

/-! ### Lists one entry of which decreases -/

/-- One entry of a list is replaced by a lesser one. -/
def EntryDecreases {A : Type} (r : A → A → Prop) (as' as : List A) : Prop :=
  ∃ i a a', as[i]? = some a ∧ r a' a ∧ as' = as.set i a'

/-- Entries that cannot decrease for ever make lists that cannot. -/
lemma wellFounded_entryDecreases {A : Type} {r : A → A → Prop} (hr : WellFounded r) :
    WellFounded (EntryDecreases r) := by
  refine ⟨fun as => ?_⟩
  induction as with
  | nil =>
    refine Acc.intro _ ?_
    rintro _ ⟨i, a, a', ⟨⟩, -⟩
  | cons a as ih =>
    -- the head and the rest decrease independently
    have hpairs : ∀ q : A × List A, Acc (Prod.GameAdd r (EntryDecreases r)) q →
        Acc (EntryDecreases r) (q.1 :: q.2) := by
      intro q hq
      induction hq with
      | intro q _ ih =>
        refine Acc.intro _ ?_
        rintro _ ⟨_ | i, b, b', hget, hless, rfl⟩
        · cases hget
          exact ih (b', q.2) (.fst hless)
        · exact ih (q.1, q.2.set i b') (.snd ⟨i, b, b', hget, hless, rfl⟩)
    exact hpairs (a, as) ((hr.apply a).prod_gameAdd ih)

/-! ### Programs -/

/-- A computation on a shared state, one atomic step after the other. -/
inductive Program (S ε α : Type)
  | done (result : Except ε α)
  | step (effect : S → S) (next : S → Program S ε α)

namespace Program

/-- Runs a program with nothing beside it. -/
def eval : Program S ε α → S → Except ε α × S
  | .done result, s => (result, s)
  | .step effect next, s => (next s).eval (effect s)

/-- A single look at the state. -/
def read (f : S → Except ε α) : Program S ε α := .step id fun s => .done (f s)

/-- A single access to the state. -/
def access (f : S → Except ε α × S) : Program S ε α :=
  .step (fun s => (f s).2) fun s => .done (f s).1

/-- A call to something else, which neither reads nor changes the state. -/
def call (result : Except ε α) : Program S ε α := .step id fun _ => .done result

/-- A program neither reads nor changes the state, and has one result. -/
def Ignores (result : Except ε α) : Program S ε α → Prop
  | .done result' => result' = result
  | .step effect next => ∀ s, effect s = s ∧ (next s).Ignores result

/-- From a state on a program leaves the state as it is. -/
def Looks (s : S) : Program S ε α → Prop
  | .done _ => True
  | .step effect next => effect s = s ∧ (next s).Looks s

lemma looks_read (f : S → Except ε α) (s : S) : (read f).Looks s := ⟨rfl, True.intro⟩

lemma ignores_call (result : Except ε α) : (call result : Program S ε α).Ignores result :=
  fun _ => ⟨rfl, rfl⟩

lemma eval_of_ignores {program : Program S ε α} {result : Except ε α}
    (h : program.Ignores result) (s : S) : program.eval s = (result, s) := by
  induction program with
  | done result' => rw [eval, h]
  | step effect next ih =>
    obtain ⟨heffect, hnext⟩ := h s
    rw [eval, heffect]
    exact ih s hnext

lemma looks_of_ignores {program : Program S ε α} {result : Except ε α}
    (h : program.Ignores result) (s : S) : program.Looks s := by
  induction program with
  | done result' => exact True.intro
  | step effect next ih =>
    obtain ⟨heffect, hnext⟩ := h s
    exact ⟨heffect, ih s hnext⟩

lemma eval_of_looks {program : Program S ε α} {s : S} (h : program.Looks s) :
    program.eval s = ((program.eval s).1, s) := by
  induction program with
  | done result => rfl
  | step effect next ih =>
    rw [eval, h.1]
    exact ih s h.2

end Program

/-- What a program may rely on, what it guarantees, and what it ends in. -/
structure Contract (S ε α : Type) where
  rely : S → S → Prop
  guarantee : S → S → Prop
  post : Except ε α → S → Prop

/-- From the states in `P` on a program keeps to a contract. -/
inductive Contract.Met (c : Contract S ε α) : (S → Prop) → Program S ε α → Prop
  | done {P : S → Prop} {result : Except ε α} (hstable : ∀ s s', P s → c.rely s s' → P s')
      (hpost : ∀ s, P s → c.post result s) : Met c P (.done result)
  | step {P : S → Prop} {effect : S → S} {next : S → Program S ε α} (P' : S → S → Prop)
      (hstable : ∀ s s', P s → c.rely s s' → P s')
      (hguarantee : ∀ s, P s → c.guarantee s (effect s)) (hafter : ∀ s, P s → P' s (effect s))
      (hnext : ∀ s, P s → Met c (P' s) (next s)) : Met c P (.step effect next)

/-- An assertion a contract is met from survives what the surroundings do. -/
lemma Contract.Met.stable {c : Contract S ε α} {P : S → Prop} {p : Program S ε α}
    (h : c.Met P p) {s s' : S} (hs : P s) (hrely : c.rely s s') : P s' := by
  cases h with
  | done hstable => exact hstable s s' hs hrely
  | step _ hstable => exact hstable s s' hs hrely

/-! ### Pools -/

/-- A program that was submitted. -/
inductive Slot (S ε α : Type)
  | waiting (program : Program S ε α)
  | running (program : Program S ε α)
  | finished (result : Except ε α)

namespace Slot

def isWaiting : Slot S ε α → Bool
  | .waiting _ => true
  | _ => false

def isRunning : Slot S ε α → Bool
  | .running _ => true
  | _ => false

/-- The result of a program that has finished. -/
def result? : Slot S ε α → Option (Except ε α)
  | .finished result => some result
  | _ => none

/-- A running program takes a step. -/
def work : Slot S ε α → S → Option (Slot S ε α × S)
  | .running (.done result), s => some (.finished result, s)
  | .running (.step effect next), s => some (.running (next s), effect s)
  | _, _ => none

/-- A slot may follow another one. -/
inductive Later : Slot S ε α → Slot S ε α → Prop
  | began (program : Program S ε α) : Later (.running program) (.waiting program)
  | moved (effect : S → S) (next : S → Program S ε α) (s : S) :
      Later (.running (next s)) (.running (.step effect next))
  | ended (result : Except ε α) : Later (.finished result) (.running (.done result))

lemma wellFounded_later : WellFounded (Later : Slot S ε α → Slot S ε α → Prop) := by
  have hfinished : ∀ result : Except ε α, Acc Later (.finished result : Slot S ε α) :=
    fun _ => Acc.intro _ (by rintro _ ⟨⟩)
  have hrunning : ∀ program : Program S ε α, Acc Later (.running program) := by
    intro program
    induction program with
    | done result =>
      refine Acc.intro _ ?_
      rintro _ ⟨⟩
      exact hfinished result
    | step effect next ih =>
      refine Acc.intro _ ?_
      rintro _ ⟨⟩
      exact ih _
  refine ⟨fun slot => ?_⟩
  cases slot with
  | waiting program =>
    refine Acc.intro _ ?_
    rintro _ ⟨⟩
    exact hrunning program
  | running program => exact hrunning program
  | finished result => exact hfinished result

/-- The first program that waits begins. -/
def beginFirst : List (Slot S ε α) → Option (List (Slot S ε α))
  | [] => none
  | .waiting program :: slots => some (.running program :: slots)
  | slot :: slots => (beginFirst slots).map (slot :: ·)

end Slot

/-- The shared state and what was submitted, in order. -/
structure Pool (S ε α : Type) where
  shared : S
  slots : List (Slot S ε α)

/-- A program begins, or one that runs takes a step. -/
inductive Pool.Label
  | start
  | work (index : Nat)
  deriving DecidableEq, Repr

namespace Pool

variable {workers : Nat} {p p' : Pool S ε α} {l : Label} {s s' : S}

/-- A pool nothing of which has begun. -/
def submit (programs : List (Program S ε α)) (s : S) : Pool S ε α :=
  ⟨s, programs.map .waiting⟩

/-- The number of programs that run. -/
def running (p : Pool S ε α) : Nat := p.slots.countP Slot.isRunning

def step (workers : Nat) (p : Pool S ε α) : Label → Option (Pool S ε α)
  | .start =>
    if p.running < workers then
      (Slot.beginFirst p.slots).map fun slots => { p with slots := slots }
    else none
  | .work index =>
    (p.slots[index]?.bind fun slot => slot.work p.shared).map fun next =>
      ⟨next.2, p.slots.set index next.1⟩

/-- The results, once all programs have finished. -/
def results? (p : Pool S ε α) : Option (List (Except ε α)) := p.slots.mapM Slot.result?

/-- What a step does: it replaces one slot. -/
inductive Stepped (workers : Nat) (p : Pool S ε α) : Label → Pool S ε α → Prop
  | began {index : Nat} {program : Program S ε α} (hroom : p.running < workers)
      (hget : p.slots[index]? = some (.waiting program))
      (hfirst : ∀ i < index, ∀ slot, p.slots[i]? = some slot → slot.isWaiting = false) :
      Stepped workers p .start { p with slots := p.slots.set index (.running program) }
  | moved {index : Nat} {effect : S → S} {next : S → Program S ε α}
      (hget : p.slots[index]? = some (.running (.step effect next))) :
      Stepped workers p (.work index)
        ⟨effect p.shared, p.slots.set index (.running (next p.shared))⟩
  | ended {index : Nat} {result : Except ε α}
      (hget : p.slots[index]? = some (.running (.done result))) :
      Stepped workers p (.work index) { p with slots := p.slots.set index (.finished result) }

/-- The first waiting program of a list that has one begins. -/
lemma beginFirst_eq_some {slots slots' : List (Slot S ε α)}
    (h : Slot.beginFirst slots = some slots') :
    ∃ index program, slots[index]? = some (.waiting program) ∧
      (∀ i < index, ∀ slot, slots[i]? = some slot → slot.isWaiting = false) ∧
      slots' = slots.set index (.running program) := by
  induction slots generalizing slots' with
  | nil => cases h
  | cons slot slots ih =>
    have hlater : slot.isWaiting = false →
        (Slot.beginFirst slots).map (slot :: ·) = some slots' →
        ∃ index program, (slot :: slots)[index]? = some (.waiting program) ∧
          (∀ i < index, ∀ other, (slot :: slots)[i]? = some other → other.isWaiting = false) ∧
          slots' = (slot :: slots).set index (.running program) := by
      intro hslot hmap
      obtain ⟨rest, hrest, rfl⟩ := Option.map_eq_some_iff.1 hmap
      obtain ⟨index, program, hget, hfirst, rfl⟩ := ih hrest
      refine ⟨index + 1, program, hget, fun i hi other hother => ?_, rfl⟩
      cases i with
      | zero =>
        cases hother
        exact hslot
      | succ i => exact hfirst i (Nat.lt_of_succ_lt_succ hi) other hother
    cases slot with
    | waiting program =>
      cases h
      exact ⟨0, program, rfl, fun i hi => absurd hi (Nat.not_lt_zero i), rfl⟩
    | running program => exact hlater rfl h
    | finished result => exact hlater rfl h

lemma isSome_beginFirst {slots : List (Slot S ε α)} {slot : Slot S ε α} (hmem : slot ∈ slots)
    (hwaiting : slot.isWaiting = true) : (Slot.beginFirst slots).isSome = true := by
  induction slots with
  | nil => cases hmem
  | cons head slots ih =>
    cases head with
    | waiting program => rfl
    | running program | finished result =>
      rcases List.mem_cons.1 hmem with rfl | hmem
      · cases hwaiting
      · simpa [Slot.beginFirst] using ih hmem

lemma stepped_of_step (h : step workers p l = some p') : Stepped workers p l p' := by
  cases l with
  | start =>
    simp only [step] at h
    split_ifs at h with hroom
    obtain ⟨slots, hslots, rfl⟩ := Option.map_eq_some_iff.1 h
    obtain ⟨index, program, hget, hfirst, rfl⟩ := beginFirst_eq_some hslots
    exact .began hroom hget hfirst
  | work index =>
    obtain ⟨⟨slot', s'⟩, hwork, rfl⟩ := Option.map_eq_some_iff.1 h
    obtain ⟨slot, hget, hwork⟩ := Option.bind_eq_some_iff.1 hwork
    rcases slot with program | (result | ⟨effect, next⟩) | result
    · cases hwork
    · cases hwork
      exact .ended hget
    · cases hwork
      exact .moved hget
    · cases hwork

/-! ### Every run gets to its end -/

lemma results_eq_some {results : List (Except ε α)} :
    p.results? = some results ↔ p.slots = results.map .finished := by
  rw [results?]
  generalize p.slots = slots
  induction slots generalizing results with
  | nil => cases results <;> simp
  | cons slot slots ih =>
    rw [List.mapM_cons]
    constructor
    · intro h
      obtain ⟨result, hresult, hrest⟩ := Option.bind_eq_some_iff.1 h
      obtain ⟨rest, hslots, hend⟩ := Option.bind_eq_some_iff.1 hrest
      cases hend
      cases slot with
      | finished result' =>
        cases hresult
        rw [ih.1 hslots]
        rfl
      | _ => cases hresult
    · intro h
      cases results with
      | nil => cases h
      | cons result rest =>
        rw [List.map_cons, List.cons.injEq] at h
        obtain ⟨rfl, hslots⟩ := h
        rw [ih.2 hslots]
        rfl

/-- A pool that has not ended has a slot that is not finished. -/
lemma exists_open (h : p.results? = none) :
    ∃ (i : Nat) (slot : Slot S ε α), p.slots[i]? = some slot ∧ slot.result? = none := by
  rw [results?] at h
  generalize p.slots = slots at h
  induction slots with
  | nil => cases h
  | cons slot slots ih =>
    cases hresult : slot.result? with
    | none => exact ⟨0, slot, rfl, hresult⟩
    | some result =>
      cases hrest : slots.mapM Slot.result? with
      | none =>
        obtain ⟨i, slot', hget, hopen⟩ := ih hrest
        exact ⟨i + 1, slot', hget, hopen⟩
      | some rest => simp [List.mapM_cons, hresult, hrest] at h

/-- Every step makes one slot later. -/
lemma Stepped.later (h : Stepped workers p l p') : EntryDecreases Slot.Later p'.slots p.slots := by
  cases h with
  | began _ hget => exact ⟨_, _, _, hget, .began _, rfl⟩
  | moved hget => exact ⟨_, _, _, hget, .moved _ _ _, rfl⟩
  | ended hget => exact ⟨_, _, _, hget, .ended _, rfl⟩

/-- No run of a pool goes on for ever. -/
theorem wellFounded_step (workers : Nat) :
    WellFounded fun p' p : Pool S ε α => ∃ l, step workers p l = some p' := by
  refine Subrelation.wf ?_ (InvImage.wf slots (wellFounded_entryDecreases Slot.wellFounded_later))
  rintro p' p ⟨l, hstep⟩
  exact (stepped_of_step hstep).later

/-- A pool with a worker whose programs have not all finished takes a step. -/
lemma exists_step (hworkers : 0 < workers) (hopen : p.results? = none) :
    ∃ l p', step workers p l = some p' := by
  by_cases hrunning : ∃ (i : Nat) (program : Program S ε α),
      p.slots[i]? = some (.running program)
  · obtain ⟨i, _ | ⟨effect, next⟩, hget⟩ := hrunning
    · exact ⟨.work i, _, by rw [step, hget]; rfl⟩
    · exact ⟨.work i, _, by rw [step, hget]; rfl⟩
  · obtain ⟨i, slot, hget, hslot⟩ := exists_open hopen
    have hnone : p.running = 0 := by
      refine List.countP_eq_zero.2 fun other hmem hother => ?_
      obtain ⟨j, hj⟩ := List.mem_iff_getElem?.1 hmem
      cases other with
      | running program => exact hrunning ⟨j, program, hj⟩
      | _ => cases hother
    have hwaiting : slot.isWaiting = true := by
      cases slot with
      | waiting program => rfl
      | running program => exact absurd ⟨i, program, hget⟩ hrunning
      | finished result => cases hslot
    obtain ⟨slots, hslots⟩ := Option.isSome_iff_exists.1
      (isSome_beginFirst (List.mem_of_getElem? hget) hwaiting)
    exact ⟨.start, { p with slots := slots }, by rw [step, if_pos (hnone ▸ hworkers), hslots]; rfl⟩

/-- From every state some run gets to the end. -/
lemma exists_end (hworkers : 0 < workers) (p : Pool S ε α) :
    ∃ ls p' results, Path (step workers) (fun _ _ => True) p ls p' ∧
      p'.results? = some results := by
  induction p using (wellFounded_step workers).induction with
  | h p ih =>
    rcases hresults : p.results? with _ | results
    · obtain ⟨l, p₁, hstep⟩ := exists_step hworkers hresults
      obtain ⟨ls, p', results, hpath, hend⟩ := ih p₁ ⟨l, hstep⟩
      exact ⟨l :: ls, p', results, .cons trivial hstep hpath, hend⟩
    · exact ⟨[], p, results, .nil p, hresults⟩

/-! ### Order and bound -/

/-- At most so many programs run, and those that have begun were submitted before those that
have not. -/
structure Orderly (workers : Nat) (p : Pool S ε α) : Prop where
  bounded : p.running ≤ workers
  inOrder : ∀ i j : Nat, i < j → ∀ (program : Program S ε α) (slot : Slot S ε α),
    p.slots[i]? = some (.waiting program) → p.slots[j]? = some slot → slot.isWaiting = true

lemma orderly_submit (programs : List (Program S ε α)) (s : S) :
    Orderly workers (submit programs s) := by
  constructor
  · have hnone : (submit programs s).running = 0 := by
      refine List.countP_eq_zero.2 fun slot hmem => ?_
      obtain ⟨program, -, rfl⟩ := List.mem_map.1 hmem
      exact Bool.false_ne_true
    rw [hnone]
    exact Nat.zero_le _
  · intro i j _ program slot _ hget
    obtain ⟨program, -, rfl⟩ := List.mem_map.1 (List.mem_of_getElem? hget)
    rfl

/-- A slot that does not wait takes the place of one. -/
lemma Orderly.set (h : Orderly workers p) {index : Nat} {slot slot' : Slot S ε α}
    (hget : p.slots[index]? = some slot) (hslot' : slot'.isWaiting = false)
    (hfirst : ∀ i < index, ∀ program, p.slots[i]? ≠ some (.waiting program))
    (hbounded : (p.slots.set index slot').countP Slot.isRunning ≤ workers) (s' : S) :
    Orderly workers ⟨s', p.slots.set index slot'⟩ := by
  refine ⟨hbounded, fun i j hlt program other hi hj => ?_⟩
  have hlength : index < p.slots.length := (List.getElem?_eq_some_iff.1 hget).1
  have hne : index ≠ i := by
    rintro rfl
    rw [List.getElem?_set_self hlength] at hi
    cases hi
    cases hslot'
  rw [List.getElem?_set_ne hne] at hi
  by_cases hindex : index = j
  · exact absurd hi (hfirst i (hindex ▸ hlt) program)
  · rw [List.getElem?_set_ne hindex] at hj
    exact h.inOrder i j hlt program other hi hj

lemma Orderly.step (h : Orderly workers p) (hstep : step workers p l = some p') :
    Orderly workers p' := by
  -- in front of a program that runs nobody waits
  have hbegun : ∀ {index : Nat} {program : Program S ε α},
      p.slots[index]? = some (.running program) →
      ∀ i < index, ∀ other, p.slots[i]? ≠ some (.waiting other) := by
    intro index program hget i hlt other hi
    have hwaiting := h.inOrder i index hlt other _ hi hget
    cases hwaiting
  have hbound := h.bounded
  rw [running] at hbound
  cases stepped_of_step hstep with
  | @began index program hroom hget hfirst =>
    have hlength : index < p.slots.length := (List.getElem?_eq_some_iff.1 hget).1
    refine h.set hget rfl (fun i hlt other hi => ?_) ?_ _
    · have hnot := hfirst i hlt _ hi
      cases hnot
    · rw [running] at hroom
      rw [List.countP_set hlength]
      simp only [Slot.isRunning, if_true]
      omega
  | @moved index effect next hget =>
    have hlength : index < p.slots.length := (List.getElem?_eq_some_iff.1 hget).1
    have hslot := (List.getElem?_eq_some_iff.1 hget).2
    refine h.set hget rfl (hbegun hget) ?_ _
    have hpos : 0 < p.slots.countP Slot.isRunning :=
      List.countP_pos_iff.2 ⟨_, List.mem_of_getElem? hget, rfl⟩
    rw [List.countP_set hlength, hslot]
    simp only [Slot.isRunning, if_true]
    omega
  | @ended index result hget =>
    have hlength : index < p.slots.length := (List.getElem?_eq_some_iff.1 hget).1
    refine h.set hget rfl (hbegun hget) ?_ _
    rw [List.countP_set hlength]
    simp only [Slot.isRunning, Bool.false_eq_true, if_false]
    omega

/-! ### Every program runs once -/

end Pool

/-- What is left of a program after steps from states, one after the other. -/
def Program.after : List S → Program S ε α → Option (Program S ε α)
  | [], program => some program
  | s :: states, .step _ next => after states (next s)
  | _ :: _, .done _ => none

lemma Program.after_snoc {program : Program S ε α} {states : List S} {effect : S → S}
    {next : S → Program S ε α} (h : program.after states = some (.step effect next)) (s : S) :
    program.after (states ++ [s]) = some (next s) := by
  induction states generalizing program with
  | nil =>
    cases h
    rfl
  | cons first states ih =>
    cases program with
    | done result => cases h
    | step effect' next' => exact ih h

/-- How far a program has come after so many steps of its own: it waits, it runs and is left with
what it is after these steps, or it has ended with them. -/
inductive Slot.Stage (program : Program S ε α) : Nat → Slot S ε α → Prop
  | waiting : Stage program 0 (.waiting program)
  | running {states : List S} {rest : Program S ε α} (h : program.after states = some rest) :
      Stage program states.length (.running rest)
  | finished {states : List S} {result : Except ε α}
      (h : program.after states = some (.done result)) :
      Stage program (states.length + 1) (.finished result)

namespace Pool

/-- A step of a pool is a step of the one program it is about. -/
lemma Stepped.stage (h : Stepped workers p l p') {i n : Nat} {program : Program S ε α}
    {slot : Slot S ε α} (hget : p.slots[i]? = some slot) (hstage : slot.Stage program n) :
    ∃ slot', p'.slots[i]? = some slot' ∧
      slot'.Stage program (n + if l = .work i then 1 else 0) := by
  have hlength : i < p.slots.length := (List.getElem?_eq_some_iff.1 hget).1
  cases h with
  | @began index waiting hroom hindex hfirst =>
    rw [if_neg Label.noConfusion, Nat.add_zero]
    by_cases hi : index = i
    · subst hi
      cases hindex.symm.trans hget
      cases hstage
      have hbegun : Slot.Stage program ([] : List S).length (.running program) := .running rfl
      exact ⟨_, List.getElem?_set_self hlength, hbegun⟩
    · exact ⟨slot, (List.getElem?_set_ne hi).trans hget, hstage⟩
  | @moved index effect next hindex =>
    by_cases hi : index = i
    · subst hi
      cases hindex.symm.trans hget
      cases hstage with
      | @running states _ h =>
        refine ⟨_, List.getElem?_set_self hlength, ?_⟩
        rw [if_pos rfl, ← List.length_singleton (a := p.shared), ← List.length_append]
        exact .running (Program.after_snoc h _)
    · rw [if_neg fun heq => hi (Label.work.inj heq), Nat.add_zero]
      exact ⟨slot, (List.getElem?_set_ne hi).trans hget, hstage⟩
  | @ended index result hindex =>
    by_cases hi : index = i
    · subst hi
      cases hindex.symm.trans hget
      cases hstage with
      | running h =>
        rw [if_pos rfl]
        exact ⟨_, List.getElem?_set_self hlength, .finished h⟩
    · rw [if_neg fun heq => hi (Label.work.inj heq), Nat.add_zero]
      exact ⟨slot, (List.getElem?_set_ne hi).trans hget, hstage⟩

/-- Every program that was submitted has taken just the steps of its own, from its start on. -/
lemma stage_of_path {programs : List (Program S ε α)} {ls : List Label}
    (hpath : Path (step workers) (fun _ _ => True) (submit programs s) ls p) {i : Nat}
    {program : Program S ε α} (hprogram : programs[i]? = some program) :
    ∃ slot, p.slots[i]? = some slot ∧ slot.Stage program (ls.count (.work i)) := by
  have hrun : ∀ {p p' : Pool S ε α} {ls : List Label},
      Path (step workers) (fun _ _ => True) p ls p' → ∀ {n : Nat} {slot : Slot S ε α},
        p.slots[i]? = some slot → slot.Stage program n →
          ∃ slot', p'.slots[i]? = some slot' ∧ slot'.Stage program (n + ls.count (.work i)) := by
    intro p p' ls hpath
    induction hpath with
    | nil => exact fun hget hstage => ⟨_, hget, hstage⟩
    | @cons p₀ p₁ p₂ l ls _ hstep _ ih =>
      intro n slot hget hstage
      obtain ⟨slot₁, hget₁, hstage₁⟩ := (stepped_of_step hstep).stage hget hstage
      obtain ⟨slot₂, hget₂, hstage₂⟩ := ih hget₁ hstage₁
      refine ⟨slot₂, hget₂, ?_⟩
      have hcount : (l :: ls).count (.work i) = (if l = .work i then 1 else 0) +
          ls.count (.work i) := by
        rw [List.count_cons, Nat.add_comm]
        simp only [beq_iff_eq]
      rwa [hcount, ← Nat.add_assoc]
  have hget : (submit programs s).slots[i]? = some (.waiting program) := by
    rw [submit, List.getElem?_map, hprogram]
    rfl
  obtain ⟨slot, hslot, hstage⟩ := hrun hpath hget .waiting
  exact ⟨slot, hslot, by rwa [Nat.zero_add] at hstage⟩

/-- As many programs have begun as no longer wait. -/
lemma begun_of_path {programs : List (Program S ε α)} {ls : List Label}
    (hpath : Path (step workers) (fun _ _ => True) (submit programs s) ls p) :
    ls.count .start + p.slots.countP Slot.isWaiting = programs.length := by
  have hrun : ∀ {p p' : Pool S ε α} {ls : List Label},
      Path (step workers) (fun _ _ => True) p ls p' →
        ls.count .start + p'.slots.countP Slot.isWaiting = p.slots.countP Slot.isWaiting := by
    intro p p' ls hpath
    induction hpath with
    | nil => exact Nat.zero_add _
    | @cons p₀ p₁ p₂ l ls _ hstep _ ih =>
      cases stepped_of_step hstep with
      | @began index program hroom hget hfirst =>
        have hpos : 0 < p₀.slots.countP Slot.isWaiting :=
          List.countP_pos_iff.2 ⟨_, List.mem_of_getElem? hget, rfl⟩
        obtain ⟨hlength, hslot⟩ := List.getElem?_eq_some_iff.1 hget
        rw [List.countP_set hlength, hslot] at ih
        simp only [Slot.isWaiting, if_true, Bool.false_eq_true, if_false] at ih
        rw [List.count_cons_self]
        omega
      | @moved index effect next hget =>
        obtain ⟨hlength, hslot⟩ := List.getElem?_eq_some_iff.1 hget
        rw [List.countP_set hlength, hslot] at ih
        rw [List.count_cons_of_ne (by simp)]
        simpa [Slot.isWaiting] using ih
      | @ended index result hget =>
        obtain ⟨hlength, hslot⟩ := List.getElem?_eq_some_iff.1 hget
        rw [List.countP_set hlength, hslot] at ih
        rw [List.count_cons_of_ne (by simp)]
        simpa [Slot.isWaiting] using ih
  rw [hrun hpath, submit, List.countP_map]
  exact List.countP_eq_length.2 fun _ _ => rfl

/-! ### Programs verified on their own -/

/-- What is known of a slot under the contract of its program. -/
def Kept (c : Contract S ε α) (s : S) : Slot S ε α → Prop
  | .waiting program | .running program => ∃ P, P s ∧ c.Met P program
  | .finished result => c.post result s

/-- Contracts by which no program disturbs another one. -/
structure Peaceful (contract : Nat → Contract S ε α) : Prop where
  apart : ∀ i j, i ≠ j → ∀ s s', (contract i).guarantee s s' → (contract j).rely s s'
  stable : ∀ i result s s', (contract i).post result s → (contract i).rely s s' →
    (contract i).post result s'

variable {contract : Nat → Contract S ε α}

lemma Kept.stable (hpeace : Peaceful contract) {i : Nat} {slot : Slot S ε α}
    (h : Kept (contract i) s slot) (hrely : (contract i).rely s s') :
    Kept (contract i) s' slot := by
  cases slot with
  | waiting program | running program =>
    obtain ⟨P, hs, hmet⟩ := h
    exact ⟨P, hmet.stable hs hrely, hmet⟩
  | finished result => exact hpeace.stable i result s s' h hrely

/-- Every slot keeps to its contract. -/
def Upholds (contract : Nat → Contract S ε α) (p : Pool S ε α) : Prop :=
  ∀ i slot, p.slots[i]? = some slot → Kept (contract i) p.shared slot

/-- A slot takes a step that its contract guarantees. -/
lemma Upholds.set (hpeace : Peaceful contract) (h : Upholds contract p) {index : Nat}
    {slot : Slot S ε α} (hguarantee : s' = p.shared ∨ (contract index).guarantee p.shared s')
    (hslot : Kept (contract index) s' slot) :
    Upholds contract ⟨s', p.slots.set index slot⟩ := by
  intro i other hget
  by_cases hindex : index = i
  · subst hindex
    obtain rfl : other = slot := by
      rw [List.getElem?_set] at hget
      simp only [if_true] at hget
      split_ifs at hget
      exact (Option.some.inj hget).symm
    exact hslot
  · rw [List.getElem?_set_ne hindex] at hget
    rcases hguarantee with rfl | hguarantee
    · exact h i other hget
    · exact (h i other hget).stable hpeace (hpeace.apart index i hindex _ _ hguarantee)

lemma Upholds.step (hpeace : Peaceful contract) (h : Upholds contract p)
    (hstep : step workers p l = some p') : Upholds contract p' := by
  cases stepped_of_step hstep with
  | @began index program hroom hget hfirst =>
    have hkept : Kept (contract index) p.shared (.waiting program) := h index _ hget
    exact h.set hpeace (.inl rfl) hkept
  | @moved index effect next hget =>
    obtain ⟨P, hs, hmet⟩ := h index _ hget
    cases hmet with
    | step P' hstable hguarantee hafter hnext =>
      exact h.set hpeace (.inr (hguarantee _ hs)) ⟨_, hafter _ hs, hnext _ hs⟩
  | @ended index result hget =>
    obtain ⟨P, hs, hmet⟩ := h index _ hget
    cases hmet with
    | done hstable hpost => exact h.set hpeace (.inl rfl) (hpost _ hs)

lemma upholds_submit {programs : List (Program S ε α)}
    (hmet : ∀ i program, programs[i]? = some program → ∃ P, P s ∧ (contract i).Met P program) :
    Upholds contract (submit programs s) := by
  intro i slot hget
  rw [submit, List.getElem?_map] at hget
  obtain ⟨program, hprogram, rfl⟩ := Option.map_eq_some_iff.1 hget
  exact hmet i program hprogram

lemma upholds_of_path {programs : List (Program S ε α)} {ls : List Label}
    (hpeace : Peaceful contract)
    (hmet : ∀ i program, programs[i]? = some program → ∃ P, P s ∧ (contract i).Met P program)
    (hpath : Path (step workers) (fun _ _ => True) (submit programs s) ls p) :
    Upholds contract p :=
  hpath.invariant (upholds_submit hmet) fun _ _ _ h _ hstep => h.step hpeace hstep

/-- What every program guarantees to keep is kept. -/
lemma shared_of_path {programs : List (Program S ε α)} {ls : List Label} {I : S → Prop}
    (hpeace : Peaceful contract)
    (hmet : ∀ i program, programs[i]? = some program → ∃ P, P s ∧ (contract i).Met P program)
    (hkeeps : ∀ i t t', (contract i).guarantee t t' → I t → I t') (hs : I s)
    (hpath : Path (step workers) (fun _ _ => True) (submit programs s) ls p) : I p.shared := by
  have hboth : Upholds contract p ∧ I p.shared := by
    refine hpath.invariant (I := fun p => Upholds contract p ∧ I p.shared)
      ⟨upholds_submit hmet, hs⟩ fun p₁ l p₂ h _ hstep => ⟨h.1.step hpeace hstep, ?_⟩
    cases stepped_of_step hstep with
    | began => exact h.2
    | @moved index effect next hget =>
      obtain ⟨P, hP, hmet⟩ := h.1 index _ hget
      cases hmet with
      | step P' hstable hguarantee => exact hkeeps index _ _ (hguarantee _ hP) h.2
    | ended => exact h.2
  exact hboth.2

/-- No slot is added or lost. -/
lemma length_of_path {programs : List (Program S ε α)} {ls : List Label}
    (hpath : Path (step workers) (fun _ _ => True) (submit programs s) ls p) :
    p.slots.length = programs.length := by
  refine hpath.invariant (I := fun p => p.slots.length = programs.length)
    (List.length_map _) fun _ _ _ h _ hstep => ?_
  cases stepped_of_step hstep <;> simpa using h

/-- **The parallel rule**: programs that do not disturb each other end in their postconditions,
whatever order their steps are taken in. -/
theorem post_of_path {programs : List (Program S ε α)} {ls : List Label}
    {results : List (Except ε α)} (hpeace : Peaceful contract)
    (hmet : ∀ i program, programs[i]? = some program → ∃ P, P s ∧ (contract i).Met P program)
    (hpath : Path (step workers) (fun _ _ => True) (submit programs s) ls p)
    (hend : p.results? = some results) :
    results.length = programs.length ∧
      ∀ i result, results[i]? = some result → (contract i).post result p.shared := by
  have hslots := results_eq_some.1 hend
  have hupholds := upholds_of_path hpeace hmet hpath
  refine ⟨by rw [← length_of_path hpath, hslots, List.length_map], fun i result hget => ?_⟩
  refine hupholds i (.finished result) ?_
  rw [hslots, List.getElem?_map, hget]
  rfl

/-! ### Programs that look, and a program that is left alone -/

/-- The contract of a program whose surroundings leave the state alone. -/
def alone (post : Except ε α → S → Prop) : Contract S ε α :=
  ⟨fun s s' => s = s', fun _ _ => True, post⟩

/-- Left alone a program ends as if nothing ran beside it. -/
lemma met_alone (program : Program S ε α) (s : S) :
    (alone fun result s' => (result, s') = program.eval s).Met (· = s) program := by
  induction program generalizing s with
  | done result =>
    refine .done (by rintro _ _ rfl rfl; rfl) ?_
    rintro _ rfl
    rfl
  | step effect next ih =>
    refine .step (fun t => (· = effect t)) (by rintro _ _ rfl rfl; rfl) (fun _ _ => True.intro)
      (fun _ _ => rfl) ?_
    rintro t rfl
    exact ih t (effect t)

/-- The contract of a program that has nothing to do with the state. -/
def ignoring (Q : Except ε α → Prop) : Contract S ε α :=
  ⟨fun _ _ => True, fun s s' => s = s', fun result _ => Q result⟩

lemma met_ignoring {program : Program S ε α} {result : Except ε α} {Q : Except ε α → Prop}
    (h : program.Ignores result) (hQ : Q result) :
    (ignoring Q).Met (fun _ => True) program := by
  induction program with
  | done result' => exact .done (fun _ _ _ _ => True.intro) fun _ _ => h ▸ hQ
  | step effect next ih =>
    exact .step (fun _ _ => True) (fun _ _ _ _ => True.intro) (fun s _ => (h s).1.symm)
      (fun _ _ => True.intro) fun s _ => ih s (h s).2

/-- The results of a pool, from what is known of each of them. -/
lemma results_eq_map {programs : List (Program S ε α)} {results : List (Except ε α)}
    (hlength : results.length = programs.length)
    (h : ∀ (i : Nat) (result : Except ε α), results[i]? = some result →
      ∀ program : Program S ε α, programs[i]? = some program → result = (program.eval s).1) :
    results = programs.map fun program : Program S ε α => (program.eval s).1 := by
  refine List.ext_getElem? fun i => ?_
  rw [List.getElem?_map]
  rcases hresult : results[i]? with _ | result
  · rw [List.getElem?_eq_none_iff.2 (hlength ▸ List.getElem?_eq_none_iff.1 hresult)]
    rfl
  · have hlt := (List.getElem?_eq_some_iff.1 hresult).1
    rw [hlength] at hlt
    rw [List.getElem?_eq_getElem hlt, h i result hresult _ (List.getElem?_eq_getElem hlt)]
    rfl

/-- **A program in peace**: among others that have nothing to do with the state a program ends as
if it ran alone. -/
theorem eq_of_ignores {programs : List (Program S ε α)} {ls : List Label}
    {results : List (Except ε α)} {k : Nat} {program : Program S ε α}
    (hprogram : programs[k]? = some program)
    (hothers : ∀ i other, i ≠ k → programs[i]? = some other → ∃ result, other.Ignores result)
    (hpath : Path (step workers) (fun _ _ => True) (submit programs s) ls p)
    (hend : p.results? = some results) :
    p.shared = (program.eval s).2 ∧ results = programs.map fun program => (program.eval s).1 := by
  let Q : Nat → Except ε α → Prop := fun i result =>
    ∀ other, programs[i]? = some other → result = (other.eval s).1
  let contract : Nat → Contract S ε α := fun i =>
    if i = k then alone fun result s' => (result, s') = program.eval s else ignoring (Q i)
  have hsame : contract k = alone fun result s' => (result, s') = program.eval s := if_pos rfl
  have hother : ∀ i, i ≠ k → contract i = ignoring (Q i) := fun i hi => if_neg hi
  -- the others leave the state alone, which is all that the one program relies on
  have hpeace : Peaceful contract := by
    constructor
    · intro i j hij t t' hguarantee
      by_cases hj : j = k
      · rw [hother i (hj ▸ hij)] at hguarantee
        rw [hj, hsame]
        exact hguarantee
      · rw [hother j hj]
        exact True.intro
    · intro i result t t' hpost hrely
      by_cases hi : i = k
      · rw [hi, hsame] at hpost hrely ⊢
        obtain rfl : t = t' := hrely
        exact hpost
      · rw [hother i hi] at hpost ⊢
        exact hpost
  have hmet : ∀ i other, programs[i]? = some other → ∃ P, P s ∧ (contract i).Met P other := by
    intro i other hget
    by_cases hi : i = k
    · rw [hi, hprogram] at hget
      cases hget
      rw [hi, hsame]
      exact ⟨(· = s), rfl, met_alone program s⟩
    · obtain ⟨result, hignores⟩ := hothers i other hi hget
      rw [hother i hi]
      refine ⟨fun _ => True, True.intro, met_ignoring hignores fun other' hget' => ?_⟩
      rw [hget] at hget'
      cases hget'
      rw [Program.eval_of_ignores hignores]
  obtain ⟨hlength, hposts⟩ := post_of_path hpeace hmet hpath hend
  have hworked : ∀ result, results[k]? = some result →
      (result, p.shared) = program.eval s := by
    intro result hget
    have hpost := hposts k result hget
    rwa [hsame] at hpost
  constructor
  · have hlt : k < results.length := by
      rw [hlength]
      exact (List.getElem?_eq_some_iff.1 hprogram).1
    rw [← hworked _ (List.getElem?_eq_getElem hlt)]
  · refine results_eq_map hlength fun i result hget other hother' => ?_
    by_cases hi : i = k
    · rw [hi] at hget hother'
      rw [hprogram] at hother'
      cases hother'
      rw [← hworked result hget]
    · have hpost := hposts i result hget
      rw [hother i hi] at hpost
      exact hpost other hother'

/-- The contract of a program that looks at one state. -/
def looking (s : S) (Q : Except ε α → Prop) : Contract S ε α :=
  ⟨fun t t' => t = s → t' = s, fun t t' => t = s → t' = s, fun result t => t = s ∧ Q result⟩

lemma met_looking {program : Program S ε α} {Q : Except ε α → Prop} (h : program.Looks s)
    (hQ : Q (program.eval s).1) : (looking s Q).Met (· = s) program := by
  induction program with
  | done result =>
    refine .done ?_ ?_
    · rintro t t' rfl hrely
      exact hrely rfl
    · rintro t rfl
      exact ⟨rfl, hQ⟩
  | step effect next ih =>
    obtain ⟨heffect, hnext⟩ := h
    rw [Program.eval, heffect] at hQ
    refine .step (fun _ => (· = s)) ?_ ?_ ?_ ?_
    · rintro t t' rfl hrely
      exact hrely rfl
    · rintro t rfl -
      exact heffect
    · rintro t rfl
      exact heffect
    · rintro t rfl
      exact ih t hnext hQ

/-- Programs that look at one state leave it, and see what they see in it. -/
lemma eq_of_looks {programs : List (Program S ε α)} {ls : List Label}
    {results : List (Except ε α)} (hlooks : ∀ program ∈ programs, program.Looks s)
    (hpath : Path (step workers) (fun _ _ => True) (submit programs s) ls p)
    (hend : p.results? = some results) :
    p.shared = s ∧ results = programs.map fun program => (program.eval s).1 := by
  -- the contract of a slot is that of the program that was submitted there
  let contract : Nat → Contract S ε α := fun i =>
    looking s fun result => ∀ program, programs[i]? = some program → result = (program.eval s).1
  have hpeace : Peaceful contract :=
    ⟨fun _ _ _ _ _ h => h, fun _ _ _ _ hpost hrely => ⟨hrely hpost.1, hpost.2⟩⟩
  have hmet : ∀ i program, programs[i]? = some program →
      ∃ P, P s ∧ (contract i).Met P program := by
    intro i program hget
    refine ⟨(· = s), rfl, met_looking (hlooks program (List.mem_of_getElem? hget)) ?_⟩
    intro program' hget'
    rw [hget] at hget'
    cases hget'
    rfl
  obtain ⟨hlength, hposts⟩ := post_of_path hpeace hmet hpath hend
  exact ⟨shared_of_path hpeace hmet (fun _ _ _ hkeeps => hkeeps) rfl hpath,
    results_eq_map hlength fun i result hget => (hposts i result hget).2⟩

end Pool

end EnjiGuard.Foundation
