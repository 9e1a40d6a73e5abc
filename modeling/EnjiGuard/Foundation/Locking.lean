import EnjiGuard.Foundation.Reachability
import Mathlib.Logic.Function.Basic
import Mathlib.Logic.Relation

/-!
# Reentrant sections over a file lock

Threads of several processes work on a shared state in sections. The objects through which they do
so have a reentrant lock for the threads of their process each, and all of them share one file lock
that excludes the others. Only the outermost of nested sections takes the file lock. A process that
crashes gives all of its locks back.

Such threads cannot be told from threads whose outermost sections happen at once, one after the
other; and as long as one of them has something to do, they do not get stuck.
-/

namespace EnjiGuard.Foundation

open Relation

variable {S ρ : Type}

/-! ### Code -/

/-- What a thread does. -/
inductive Code (S ρ : Type)
  | done (result : ρ)
  /-- Something that has nothing to do with the state. -/
  | pause (next : Code S ρ)
  | access (effect : S → S) (next : S → Code S ρ)
  /-- Enters a section; the outermost one may be refused. -/
  | enter (next refused : Code S ρ)
  | leave (next : Code S ρ)

namespace Code

/-- Code at some depth of sections accesses the state only in sections, and leaves each of them. -/
def Bracketed : Nat → Code S ρ → Prop
  | n, .done _ => n = 0
  | n, .pause next => next.Bracketed n
  | n, .access _ next => 0 < n ∧ ∀ s, (next s).Bracketed n
  | n, .enter next refused => next.Bracketed (n + 1) ∧ (n = 0 → refused.Bracketed 0)
  | n, .leave next => 0 < n ∧ next.Bracketed (n - 1)

/-- One step of code that runs alone, at its depth and in a state. -/
def advance : Nat × Code S ρ × S → Option (Nat × Code S ρ × S)
  | (_, .done _, _) => none
  | (n, .pause next, s) => some (n, next, s)
  | (n, .access effect next, s) => some (n, next s, effect s)
  | (n, .enter next _, s) => some (n + 1, next, s)
  | (0, .leave _, _) => none
  | (n + 1, .leave next, s) => some (n, next, s)

/-- From within a section code gets somewhere without leaving it on the way. -/
def Within : Nat × Code S ρ × S → Nat × Code S ρ × S → Prop :=
  ReflTransGen fun a b => 0 < a.1 ∧ advance a = some b

end Code

/-! ### Threads whose sections happen at once -/

/-- Which object a thread works through, and to which process an object belongs. -/
structure Layout where
  object : Nat → Nat
  process : Nat → Nat

/-- A state, and what each thread has still to do. -/
structure Serial (S ρ : Type) where
  shared : S
  codes : Nat → Option (Code S ρ)

namespace Serial

variable (layout : Layout)

/-- A thread pauses or does a whole section, or a process crashes; if it does so in a section, only
a part of that one happens. -/
inductive Step (a : Serial S ρ) : Serial S ρ → Prop
  | paused {t : Nat} {next : Code S ρ} (hcode : a.codes t = some (.pause next)) :
      Step a { a with codes := Function.update a.codes t (some next) }
  | refused {t : Nat} {next refused : Code S ρ} (hcode : a.codes t = some (.enter next refused)) :
      Step a { a with codes := Function.update a.codes t (some refused) }
  | passed {t : Nat} {next refused code : Code S ρ} {s : S}
      (hcode : a.codes t = some (.enter next refused))
      (hwithin : Code.Within (1, next, a.shared) (0, code, s)) :
      Step a ⟨s, Function.update a.codes t (some code)⟩
  | crashed (process : Nat) {s : S}
      (hpart : s = a.shared ∨ ∃ t next refused n code,
        layout.process (layout.object t) = process ∧ a.codes t = some (.enter next refused) ∧
          Code.Within (1, next, a.shared) (n, code, s)) :
      Step a ⟨s, fun t => if layout.process (layout.object t) = process then none
        else a.codes t⟩

end Serial

/-! ### Threads with locks -/

/-- How a section was entered. -/
inductive Frame
  | outer
  | nested
  deriving DecidableEq, Repr

/-- Where a thread stands with its object. -/
inductive Phase
  | running
  /-- It has the lock of the object and waits for the file lock. -/
  | opening
  /-- It has given back the file lock, and not yet the lock of the object. -/
  | closing
  deriving DecidableEq, Repr

/-- A thread, with the sections it is in. -/
structure Thread (S ρ : Type) where
  code : Code S ρ
  phase : Phase := .running
  frames : List Frame := []

/-- How often a thread has acquired the lock of its object. -/
def Thread.count (th : Thread S ρ) : Nat :=
  match th.phase with
  | .running => th.frames.length
  | _ => 1

/-- The state, the locks and the threads. -/
structure Locked (S ρ : Type) where
  shared : S
  /-- The object that has the file lock. -/
  holder : Option Nat
  /-- How deep in sections an object is. -/
  depth : Nat → Nat
  /-- The thread that has the lock of an object, and how often. -/
  owner : Nat → Option (Nat × Nat)
  threads : Nat → Option (Thread S ρ)

/-- What can happen. -/
inductive LockLabel
  | enter (t : Nat)
  | lock (t : Nat)
  | refuse (t : Nat)
  | work (t : Nat)
  | leave (t : Nat)
  | close (t : Nat)
  | crash (process : Nat)
  deriving DecidableEq, Repr

namespace Locked

/-- Threads that begin. -/
def initial (s : S) (codes : Nat → Option (Code S ρ)) : Locked S ρ where
  shared := s
  holder := none
  depth := fun _ => 0
  owner := fun _ => none
  threads := fun t => (codes t).map fun code => { code := code }

/-- The system with another state of a thread. -/
def put (s : Locked S ρ) (t : Nat) (th : Thread S ρ) : Locked S ρ :=
  { s with threads := Function.update s.threads t (some th) }

/-- A thread acquires the lock of an object, which it may have already. -/
def acquire (s : Locked S ρ) (t i : Nat) : Option (Locked S ρ) :=
  match s.owner i with
  | none => some { s with owner := Function.update s.owner i (some (t, 1)) }
  | some (t', k) =>
    if t' = t then some { s with owner := Function.update s.owner i (some (t, k + 1)) } else none

/-- A thread gives the lock of an object back, once. -/
def release (s : Locked S ρ) (t i : Nat) : Option (Locked S ρ) :=
  match s.owner i with
  | some (t', k + 1) =>
    if t' = t then
      some { s with owner := Function.update s.owner i (if k = 0 then none else some (t, k)) }
    else none
  | _ => none

/-- What a thread does in its phase. -/
def stepOf (s : Locked S ρ) (t i : Nat) (th : Thread S ρ) : LockLabel → Option (Locked S ρ)
  | .enter _ =>
    match th.phase, th.code with
    | .running, .enter next _ => do
      let s ← s.acquire t i
      if s.depth i = 0 then return s.put t { th with phase := .opening }
      else
        return { s with depth := Function.update s.depth i (s.depth i + 1) }.put t
          { th with code := next, frames := .nested :: th.frames }
    | _, _ => none
  | .lock _ =>
    match th.phase, th.code, s.holder with
    | .opening, .enter next _, none =>
      some ({ s with holder := some i, depth := Function.update s.depth i 1 }.put t
        { code := next, phase := .running, frames := .outer :: th.frames })
    | _, _, _ => none
  | .refuse _ =>
    match th.phase, th.code with
    | .opening, .enter _ refused => do
      let s ← s.release t i
      return s.put t { th with code := refused, phase := .running }
    | _, _ => none
  | .work _ =>
    match th.phase, th.code with
    | .running, .pause next => some (s.put t { th with code := next })
    | .running, .access effect next =>
      some ({ s with shared := effect s.shared }.put t { th with code := next s.shared })
    | _, _ => none
  | .leave _ =>
    match th.phase, th.code, th.frames with
    | .running, .leave next, .outer :: frames =>
      some ({ s with holder := none, depth := Function.update s.depth i 0 }.put t
        { code := next, phase := .closing, frames := frames })
    | .running, .leave next, .nested :: frames => do
      let s ← { s with depth := Function.update s.depth i (s.depth i - 1) }.release t i
      return s.put t { code := next, phase := .running, frames := frames }
    | _, _, _ => none
  | .close _ =>
    match th.phase with
    | .closing => do
      let s ← s.release t i
      return s.put t { th with phase := .running }
    | _ => none
  | .crash _ => none

variable (layout : Layout)

/-- A process is no more, and what it had is free. -/
def crash (s : Locked S ρ) (process : Nat) : Locked S ρ where
  shared := s.shared
  holder := s.holder.filter fun i => decide (layout.process i ≠ process)
  depth := fun i => if layout.process i = process then 0 else s.depth i
  owner := fun i => if layout.process i = process then none else s.owner i
  threads := fun t =>
    if layout.process (layout.object t) = process then none else s.threads t

def threadOf : LockLabel → Option Nat
  | .enter t | .lock t | .refuse t | .work t | .leave t | .close t => some t
  | .crash _ => none

def step (s : Locked S ρ) (l : LockLabel) : Option (Locked S ρ) :=
  match l with
  | .crash process => some (s.crash layout process)
  | _ => do
    let t ← threadOf l
    let th ← s.threads t
    s.stepOf t (layout.object t) th l

/-! ### What holds in every run -/

end Locked

/-- A thread is in sections while it runs, the first of which has the file lock. -/
structure Thread.Sound (th : Thread S ρ) : Prop where
  frames : th.frames = [] ∨ ∃ n, th.frames = List.replicate n .nested ++ [.outer]
  flat : th.phase ≠ .running → th.frames = []
  opening : th.phase = .opening → ∃ next refused, th.code = .enter next refused
  code : th.code.Bracketed th.frames.length

lemma Thread.Sound.running {th : Thread S ρ} (h : th.Sound) (hframes : th.frames ≠ []) :
    th.phase = .running := by
  by_contra hphase
  exact hframes (h.flat hphase)

/-- The innermost section is the outermost one, or it is nested. -/
lemma Thread.Sound.innermost {th : Thread S ρ} (h : th.Sound) :
    th.frames = [] ∨ th.frames = [.outer] ∨
      ∃ rest, rest ≠ [] ∧ th.frames = .nested :: rest := by
  rcases h.frames with hframes | ⟨n, hframes⟩
  · exact .inl hframes
  · cases n with
    | zero => exact .inr (.inl hframes)
    | succ n =>
      refine .inr (.inr ⟨List.replicate n .nested ++ [.outer], by simp, ?_⟩)
      rw [hframes]
      rfl

lemma Thread.Sound.count_eq {th : Thread S ρ} (h : th.Sound) (hframes : th.frames ≠ []) :
    th.count = th.frames.length := by
  rw [count, h.running hframes]

lemma Thread.Sound.count_pos {th : Thread S ρ} (h : th.Sound) (hframes : th.frames ≠ []) :
    0 < th.count := by
  rw [h.count_eq hframes]
  exact List.length_pos_iff.2 hframes

namespace Locked

variable (layout : Layout)

/-- The locks are those the threads have acquired. -/
structure Sound (s : Locked S ρ) : Prop where
  threads : ∀ t th, s.threads t = some th → th.Sound
  owned : ∀ t th, s.threads t = some th → 0 < th.count →
    s.owner (layout.object t) = some (t, th.count)
  owner : ∀ i t k, s.owner i = some (t, k) →
    ∃ th, s.threads t = some th ∧ layout.object t = i ∧ th.count = k ∧ 0 < k
  depth : ∀ t th, s.threads t = some th → 0 < th.count →
    s.depth (layout.object t) = th.frames.length
  flat : ∀ i, s.owner i = none → s.depth i = 0
  held : ∀ t th, s.threads t = some th → th.frames ≠ [] → s.holder = some (layout.object t)
  holder : ∀ i, s.holder = some i →
    ∃ t th, s.threads t = some th ∧ layout.object t = i ∧ th.frames ≠ []

variable {layout} {s s' : Locked S ρ} {l : LockLabel} {t t' : Nat} {th th' : Thread S ρ}

/-- No two threads are in sections. -/
lemma Sound.exclusive (h : Sound layout s) (hth : s.threads t = some th)
    (hth' : s.threads t' = some th') (hframes : th.frames ≠ []) (hframes' : th'.frames ≠ []) :
    t = t' := by
  have hobject : layout.object t = layout.object t' :=
    Option.some.inj ((h.held t th hth hframes).symm.trans (h.held t' th' hth' hframes'))
  have howner := h.owned t th hth ((h.threads t th hth).count_pos hframes)
  rw [hobject, h.owned t' th' hth' ((h.threads t' th' hth').count_pos hframes')] at howner
  exact (congrArg Prod.fst (Option.some.inj howner)).symm

lemma sound_initial {codes : Nat → Option (Code S ρ)} {s : S}
    (hcodes : ∀ t code, codes t = some code → code.Bracketed 0) :
    Sound layout (initial s codes) := by
  have hthreads : ∀ t th, (initial s codes).threads t = some th →
      ∃ code, codes t = some code ∧ th = { code := code } := by
    intro t th hth
    obtain ⟨code, hcode, rfl⟩ := Option.map_eq_some_iff.1 hth
    exact ⟨code, hcode, rfl⟩
  refine ⟨fun t th hth => ?_, fun t th hth hpos => ?_, fun i t k h => ?_, fun t th hth hpos => ?_,
    fun _ _ => rfl, fun t th hth hne => ?_, fun i h => ?_⟩
  · obtain ⟨code, hcode, rfl⟩ := hthreads t th hth
    refine ⟨.inl rfl, fun _ => rfl, ?_, hcodes t code hcode⟩
    rintro ⟨⟩
  · obtain ⟨code, -, rfl⟩ := hthreads t th hth
    cases hpos
  · cases h
  · obtain ⟨code, -, rfl⟩ := hthreads t th hth
    cases hpos
  · obtain ⟨code, -, rfl⟩ := hthreads t th hth
    exact absurd rfl hne
  · cases h

/-! ### What a step does -/

variable (layout)

/-- What a step does in a sound state. -/
inductive Stepped (s : Locked S ρ) : LockLabel → Locked S ρ → Prop
  | opened {t : Nat} {next refused : Code S ρ}
      (hth : s.threads t = some ⟨.enter next refused, .running, []⟩)
      (hfree : s.owner (layout.object t) = none) :
      Stepped s (.enter t)
        { s with
          owner := Function.update s.owner (layout.object t) (some (t, 1))
          threads := Function.update s.threads t (some ⟨.enter next refused, .opening, []⟩) }
  | nested {t : Nat} {next refused : Code S ρ} {frames : List Frame} (hframes : frames ≠ [])
      (hth : s.threads t = some ⟨.enter next refused, .running, frames⟩) :
      Stepped s (.enter t)
        { s with
          owner := Function.update s.owner (layout.object t) (some (t, frames.length + 1))
          depth := Function.update s.depth (layout.object t) (frames.length + 1)
          threads := Function.update s.threads t (some ⟨next, .running, .nested :: frames⟩) }
  | locked {t : Nat} {next refused : Code S ρ}
      (hth : s.threads t = some ⟨.enter next refused, .opening, []⟩) (hfree : s.holder = none) :
      Stepped s (.lock t)
        { s with
          holder := some (layout.object t)
          depth := Function.update s.depth (layout.object t) 1
          threads := Function.update s.threads t (some ⟨next, .running, [.outer]⟩) }
  | refused {t : Nat} {next refused : Code S ρ}
      (hth : s.threads t = some ⟨.enter next refused, .opening, []⟩) :
      Stepped s (.refuse t)
        { s with
          owner := Function.update s.owner (layout.object t) none
          threads := Function.update s.threads t (some ⟨refused, .running, []⟩) }
  | paused {t : Nat} {next : Code S ρ} {frames : List Frame}
      (hth : s.threads t = some ⟨.pause next, .running, frames⟩) :
      Stepped s (.work t)
        { s with threads := Function.update s.threads t (some ⟨next, .running, frames⟩) }
  | accessed {t : Nat} {effect : S → S} {next : S → Code S ρ} {frames : List Frame}
      (hframes : frames ≠ [])
      (hth : s.threads t = some ⟨.access effect next, .running, frames⟩) :
      Stepped s (.work t)
        { s with
          shared := effect s.shared
          threads := Function.update s.threads t (some ⟨next s.shared, .running, frames⟩) }
  | left {t : Nat} {next : Code S ρ} {frames : List Frame} (hframes : frames ≠ [])
      (hth : s.threads t = some ⟨.leave next, .running, .nested :: frames⟩) :
      Stepped s (.leave t)
        { s with
          owner := Function.update s.owner (layout.object t) (some (t, frames.length))
          depth := Function.update s.depth (layout.object t) frames.length
          threads := Function.update s.threads t (some ⟨next, .running, frames⟩) }
  | unlocked {t : Nat} {next : Code S ρ}
      (hth : s.threads t = some ⟨.leave next, .running, [.outer]⟩) :
      Stepped s (.leave t)
        { s with
          holder := none
          depth := Function.update s.depth (layout.object t) 0
          threads := Function.update s.threads t (some ⟨next, .closing, []⟩) }
  | closed {t : Nat} {code : Code S ρ} (hth : s.threads t = some ⟨code, .closing, []⟩) :
      Stepped s (.close t)
        { s with
          owner := Function.update s.owner (layout.object t) none
          threads := Function.update s.threads t (some ⟨code, .running, []⟩) }
  | crashed (process : Nat) : Stepped s (.crash process) (s.crash layout process)

variable {layout}

/-- A thread without sections acquires the lock of its object only when that is free. -/
lemma Sound.acquired (h : Sound layout s) (hth : s.threads t = some th) {s₁ : Locked S ρ}
    (hacquire : s.acquire t (layout.object t) = some s₁) :
    (th.count = 0 → s.owner (layout.object t) = none) ∧
      s₁ = { s with owner :=
        Function.update s.owner (layout.object t) (some (t, th.count + 1)) } := by
  rw [Locked.acquire] at hacquire
  rcases howner : s.owner (layout.object t) with _ | ⟨t', k⟩
  · simp only [howner, Option.some.injEq] at hacquire
    have hcount : th.count = 0 := by
      by_contra hpos
      rw [h.owned t th hth (Nat.pos_of_ne_zero hpos)] at howner
      cases howner
    exact ⟨fun _ => rfl, by rw [← hacquire, hcount]⟩
  · simp only [howner] at hacquire
    split_ifs at hacquire with ht
    obtain ⟨th', hth', -, hcount, hpos⟩ := h.owner _ _ _ howner
    rw [ht, hth] at hth'
    cases hth'
    subst hcount
    exact ⟨fun hzero => absurd hzero (Nat.ne_of_gt hpos), (Option.some.inj hacquire).symm⟩

/-- A thread gives back what it has acquired. -/
lemma Sound.released (h : Sound layout s) (hth : s.threads t = some th) (hpos : 0 < th.count)
    {s₁ s₂ : Locked S ρ} (hrelease : s₁.release t (layout.object t) = some s₂)
    (howner : s₁.owner = s.owner) :
    s₂ = { s₁ with
      owner := Function.update s.owner (layout.object t)
        (if th.count = 1 then none else some (t, th.count - 1)) } := by
  rw [Locked.release, howner, h.owned t th hth hpos] at hrelease
  obtain ⟨k, hk⟩ := Nat.exists_eq_succ_of_ne_zero (Nat.ne_of_gt hpos)
  rw [hk] at hrelease ⊢
  simp only [if_true, Option.some.injEq] at hrelease
  rw [← hrelease]
  simp

lemma exists_thread (hstep : step layout s l = some s') (hl : threadOf l = some t) :
    ∃ th, s.threads t = some th ∧ s.stepOf t (layout.object t) th l = some s' := by
  cases l <;> cases hl <;> exact Option.bind_eq_some_iff.1 hstep

lemma Sound.stepped (h : Sound layout s) (hstep : step layout s l = some s') :
    Stepped layout s l s' := by
  cases l with
  | crash process =>
    cases hstep
    exact .crashed process
  | enter t =>
    obtain ⟨th, hth, hstep⟩ := exists_thread hstep rfl
    obtain ⟨code, phase, frames⟩ := th
    rcases phase with _ | _ | _ <;> try cases hstep
    cases code with
    | enter next refused =>
      obtain ⟨s₁, hacquire, hrest⟩ := Option.bind_eq_some_iff.1 hstep
      obtain ⟨hfree, rfl⟩ := h.acquired hth hacquire
      -- only the outermost section opens the file; a nested one counts
      rcases frames with _ | ⟨frame, frames⟩
      · have hflat : s.depth (layout.object t) = 0 := h.flat _ (hfree rfl)
        rw [if_pos hflat] at hrest
        cases hrest
        exact .opened hth (hfree rfl)
      · have hdepth : s.depth (layout.object t) = frames.length + 1 :=
          h.depth t _ hth (Nat.succ_pos _)
        rw [if_neg (by simp [hdepth])] at hrest
        cases hrest
        simp only [put, hdepth]
        exact .nested (List.cons_ne_nil _ _) hth
    | _ => cases hstep
  | lock t =>
    obtain ⟨th, hth, hstep⟩ := exists_thread hstep rfl
    obtain ⟨code, phase, frames⟩ := th
    rcases phase with _ | _ | _ <;> try cases hstep
    cases code with
    | enter next refused =>
      rcases hholder : s.holder with _ | i <;> simp only [stepOf, hholder, reduceCtorEq] at hstep
      obtain rfl : frames = [] := (h.threads t _ hth).flat (by rintro ⟨⟩)
      cases hstep
      exact .locked hth hholder
    | _ => cases hstep
  | refuse t =>
    obtain ⟨th, hth, hstep⟩ := exists_thread hstep rfl
    obtain ⟨code, phase, frames⟩ := th
    rcases phase with _ | _ | _ <;> try cases hstep
    cases code with
    | enter next refused =>
      obtain ⟨s₁, hrelease, hrest⟩ := Option.bind_eq_some_iff.1 hstep
      obtain rfl : frames = [] := (h.threads t _ hth).flat (by rintro ⟨⟩)
      obtain rfl := h.released hth Nat.one_pos hrelease rfl
      cases hrest
      exact .refused hth
    | _ => cases hstep
  | work t =>
    obtain ⟨th, hth, hstep⟩ := exists_thread hstep rfl
    obtain ⟨code, phase, frames⟩ := th
    rcases phase with _ | _ | _ <;> try cases hstep
    cases code with
    | pause next =>
      cases hstep
      exact .paused hth
    | access effect next =>
      cases hstep
      have hframes : 0 < frames.length := (h.threads t _ hth).code.1
      exact .accessed (List.length_pos_iff.1 hframes) hth
    | _ => cases hstep
  | leave t =>
    obtain ⟨th, hth, hstep⟩ := exists_thread hstep rfl
    obtain ⟨code, phase, frames⟩ := th
    rcases phase with _ | _ | _ <;> try cases hstep
    cases code with
    | leave next =>
      rcases (h.threads t _ hth).innermost with hframes | hframes | ⟨rest, hne, hframes⟩ <;>
        simp only at hframes <;> subst hframes
      · cases hstep
      · cases hstep
        exact .unlocked hth
      · -- sections are left around this one, so the lock is kept
        obtain ⟨s₁, hrelease, hrest⟩ := Option.bind_eq_some_iff.1 hstep
        obtain rfl := h.released hth (Nat.succ_pos _) hrelease rfl
        have hdepth : s.depth (layout.object t) - 1 = rest.length :=
          congrArg (· - 1) (h.depth t _ hth (Nat.succ_pos _))
        have hlength : ¬ rest.length = 0 := fun hzero => hne (List.length_eq_zero_iff.1 hzero)
        simp only [put, Thread.count, List.length_cons, Nat.add_eq_right, hlength, if_false,
          Nat.add_sub_cancel, hdepth, Option.pure_def, Option.some.injEq] at hrest
        rw [← hrest]
        exact .left hne hth
    | _ => cases hstep
  | close t =>
    obtain ⟨th, hth, hstep⟩ := exists_thread hstep rfl
    obtain ⟨code, phase, frames⟩ := th
    rcases phase with _ | _ | _ <;> try cases hstep
    obtain ⟨s₁, hrelease, hrest⟩ := Option.bind_eq_some_iff.1 hstep
    obtain rfl : frames = [] := (h.threads t _ hth).flat (by rintro ⟨⟩)
    obtain rfl := h.released hth Nat.one_pos hrelease rfl
    cases hrest
    exact .closed hth

/-! ### The locks stay those of the threads -/

lemma update_threads_eq_some {threads : Nat → Option (Thread S ρ)} {t₁ : Nat} {th₁ : Thread S ρ}
    (h : Function.update threads t (some th') t₁ = some th₁) :
    (t₁ = t ∧ th₁ = th') ∨ (t₁ ≠ t ∧ threads t₁ = some th₁) := by
  by_cases ht : t₁ = t
  · rw [ht, Function.update_self] at h
    exact .inl ⟨ht, (Option.some.inj h).symm⟩
  · rw [Function.update_of_ne ht] at h
    exact .inr ⟨ht, h⟩

/-- A thread goes on in the sections it is in. -/
lemma Sound.goOn (h : Sound layout s) {code : Code S ρ} {phase : Phase} {frames : List Frame}
    (hth : s.threads t = some ⟨code, phase, frames⟩) (code' : Code S ρ)
    (hsound : (⟨code', phase, frames⟩ : Thread S ρ).Sound) (shared : S) :
    Sound layout { s with
      shared := shared
      threads := Function.update s.threads t (some ⟨code', phase, frames⟩) } := by
  -- up to its code every thread is as before
  have hbefore : ∀ {t₁ th₁}, Function.update s.threads t (some ⟨code', phase, frames⟩) t₁ =
      some th₁ → ∃ th₂, s.threads t₁ = some th₂ ∧ th₁.count = th₂.count ∧
        th₁.frames = th₂.frames := by
    intro t₁ th₁ hth₁
    rcases update_threads_eq_some hth₁ with ⟨rfl, rfl⟩ | ⟨-, hth₁⟩
    · exact ⟨_, hth, rfl, rfl⟩
    · exact ⟨th₁, hth₁, rfl, rfl⟩
  have hafter : ∀ {t₁ th₁}, s.threads t₁ = some th₁ →
      ∃ th₂, Function.update s.threads t (some ⟨code', phase, frames⟩) t₁ = some th₂ ∧
        th₂.count = th₁.count ∧ th₂.frames = th₁.frames := by
    intro t₁ th₁ hth₁
    by_cases ht : t₁ = t
    · rw [ht, hth] at hth₁
      cases hth₁
      exact ⟨⟨code', phase, frames⟩, by rw [ht, Function.update_self], rfl, rfl⟩
    · exact ⟨th₁, by rw [Function.update_of_ne ht, hth₁], rfl, rfl⟩
  constructor
  case threads =>
    intro t₁ th₁ hth₁
    rcases update_threads_eq_some hth₁ with ⟨rfl, rfl⟩ | ⟨-, hth₁⟩
    · exact hsound
    · exact h.threads t₁ th₁ hth₁
  case owned =>
    intro t₁ th₁ hth₁ hpos
    obtain ⟨th₂, hth₂, hcount, -⟩ := hbefore hth₁
    rw [hcount] at hpos ⊢
    exact h.owned t₁ th₂ hth₂ hpos
  case owner =>
    intro i t₁ k howner
    obtain ⟨th₁, hth₁, hobject, hcount, hpos⟩ := h.owner i t₁ k howner
    obtain ⟨th₂, hth₂, hcount₂, -⟩ := hafter hth₁
    exact ⟨th₂, hth₂, hobject, hcount₂.trans hcount, hpos⟩
  case depth =>
    intro t₁ th₁ hth₁ hpos
    obtain ⟨th₂, hth₂, hcount, hframes⟩ := hbefore hth₁
    rw [hcount] at hpos
    rw [hframes]
    exact h.depth t₁ th₂ hth₂ hpos
  case flat => exact h.flat
  case held =>
    intro t₁ th₁ hth₁ hne
    obtain ⟨th₂, hth₂, -, hframes⟩ := hbefore hth₁
    exact h.held t₁ th₂ hth₂ (hframes ▸ hne)
  case holder =>
    intro i hholder
    obtain ⟨t₁, th₁, hth₁, hobject, hne⟩ := h.holder i hholder
    obtain ⟨th₂, hth₂, -, hframes⟩ := hafter hth₁
    exact ⟨t₁, th₂, hth₂, hobject, hframes ▸ hne⟩

/-- What becomes of the file lock when a thread goes from some sections to others. -/
inductive Passes (frames frames' : List Frame) (i : Nat) : Option Nat → Option Nat → Prop
  | taken {holder : Option Nat} (hbefore : frames = []) (hafter : frames' ≠ [])
      (hfree : holder = none) : Passes frames frames' i holder (some i)
  | kept {holder : Option Nat} (hbefore : frames ≠ []) (hafter : frames' ≠ [])
      (hholder : holder = some i) : Passes frames frames' i holder holder
  | given {holder : Option Nat} (hbefore : frames ≠ []) (hafter : frames' = []) :
      Passes frames frames' i holder none
  | left {holder : Option Nat} (hbefore : frames = []) (hafter : frames' = []) :
      Passes frames frames' i holder holder

/-- A thread that has the lock of its object, or finds it free, goes to other sections. -/
lemma Sound.move (h : Sound layout s) (hth : s.threads t = some th) (th' : Thread S ρ)
    (hmine : 0 < th.count ∨ s.owner (layout.object t) = none) (hsound : th'.Sound)
    {holder : Option Nat} {depth : Nat → Nat} {owner : Nat → Option (Nat × Nat)}
    (hpasses : Passes th.frames th'.frames (layout.object t) s.holder holder)
    (hdepth : depth = Function.update s.depth (layout.object t) th'.frames.length)
    (howner : owner = Function.update s.owner (layout.object t)
      (if th'.count = 0 then none else some (t, th'.count))) :
    Sound layout { s with
      holder := holder
      depth := depth
      owner := owner
      threads := Function.update s.threads t (some th') } := by
  subst hdepth howner
  -- no other thread is in a section on the object
  have hother : ∀ {t₁ th₁}, t₁ ≠ t → s.threads t₁ = some th₁ → 0 < th₁.count →
      layout.object t₁ ≠ layout.object t := by
    intro t₁ th₁ ht hth₁ hpos hobject
    have howned := h.owned t₁ th₁ hth₁ hpos
    rw [hobject] at howned
    rcases hmine with hcount | hfree
    · rw [h.owned t th hth hcount] at howned
      exact ht (congrArg Prod.fst (Option.some.inj howned)).symm
    · rw [hfree] at howned
      cases howned
  constructor
  case threads =>
    intro t₁ th₁ hth₁
    rcases update_threads_eq_some hth₁ with ⟨rfl, rfl⟩ | ⟨-, hth₁⟩
    · exact hsound
    · exact h.threads t₁ th₁ hth₁
  case owned =>
    intro t₁ th₁ hth₁ hpos
    rcases update_threads_eq_some hth₁ with ⟨rfl, rfl⟩ | ⟨ht, hth₁⟩
    · simp only [Function.update_self, if_neg (Nat.ne_of_gt hpos)]
    · simp only [Function.update_of_ne (hother ht hth₁ hpos)]
      exact h.owned t₁ th₁ hth₁ hpos
  case owner =>
    intro i t₁ k howner
    by_cases hi : i = layout.object t
    · subst hi
      simp only [Function.update_self] at howner
      split_ifs at howner with hcount
      cases howner
      exact ⟨th', Function.update_self .., rfl, rfl, Nat.pos_of_ne_zero hcount⟩
    · simp only [Function.update_of_ne hi] at howner
      obtain ⟨th₁, hth₁, hobject, hcount, hpos⟩ := h.owner i t₁ k howner
      have ht : t₁ ≠ t := fun ht => hi (by rw [← hobject, ht])
      exact ⟨th₁, (Function.update_of_ne ht ..).trans hth₁, hobject, hcount, hpos⟩
  case depth =>
    intro t₁ th₁ hth₁ hpos
    rcases update_threads_eq_some hth₁ with ⟨rfl, rfl⟩ | ⟨ht, hth₁⟩
    · simp only [Function.update_self]
    · simp only [Function.update_of_ne (hother ht hth₁ hpos)]
      exact h.depth t₁ th₁ hth₁ hpos
  case flat =>
    intro i hfree
    by_cases hi : i = layout.object t
    · subst hi
      simp only [Function.update_self] at hfree ⊢
      split_ifs at hfree with hcount
      by_contra hne
      have hframes : th'.frames ≠ [] := fun hnil => hne (by rw [hnil]; rfl)
      exact absurd hcount (Nat.ne_of_gt (hsound.count_pos hframes))
    · simp only [Function.update_of_ne hi] at hfree ⊢
      exact h.flat i hfree
  case held =>
    intro t₁ th₁ hth₁ hne
    rcases update_threads_eq_some hth₁ with ⟨rfl, rfl⟩ | ⟨ht, hth₂⟩
    · cases hpasses with
      | taken => rfl
      | kept _ _ hholder => exact hholder
      | given _ hafter => exact absurd hafter hne
      | left _ hafter => exact absurd hafter hne
    · have hheld := h.held t₁ th₁ hth₂ hne
      cases hpasses with
      | taken _ _ hfree =>
        rw [hfree] at hheld
        cases hheld
      | kept => exact hheld
      | given hbefore => exact absurd (h.exclusive hth₂ hth hne hbefore) ht
      | left => exact hheld
  case holder =>
    intro i hholder
    cases hpasses with
    | taken _ hafter =>
      cases hholder
      exact ⟨t, th', Function.update_self .., rfl, hafter⟩
    | kept _ hafter hheld =>
      have hi : layout.object t = i := Option.some.inj (hheld.symm.trans hholder)
      exact ⟨t, th', Function.update_self .., hi, hafter⟩
    | given => cases hholder
    | left hbefore =>
      obtain ⟨t₁, th₁, hth₁, hobject, hne⟩ := h.holder i hholder
      have ht : t₁ ≠ t := by
        rintro rfl
        rw [hth] at hth₁
        cases hth₁
        exact hne hbefore
      exact ⟨t₁, th₁, (Function.update_of_ne ht ..).trans hth₁, hobject, hne⟩

lemma Sound.crash (h : Sound layout s) (process : Nat) :
    Sound layout (s.crash layout process) := by
  have halive : ∀ {t th}, (s.crash layout process).threads t = some th →
      layout.process (layout.object t) ≠ process ∧ s.threads t = some th := by
    intro t th hth
    simp only [Locked.crash] at hth
    split_ifs at hth with hprocess
    exact ⟨hprocess, hth⟩
  have hkept : ∀ {t th}, s.threads t = some th → layout.process (layout.object t) ≠ process →
      (s.crash layout process).threads t = some th := by
    intro t th hth hprocess
    simp only [Locked.crash, if_neg hprocess, hth]
  constructor
  case threads =>
    intro t th hth
    exact h.threads t th (halive hth).2
  case owned =>
    intro t th hth hpos
    obtain ⟨hprocess, hth⟩ := halive hth
    simp only [Locked.crash, if_neg hprocess]
    exact h.owned t th hth hpos
  case owner =>
    intro i t k howner
    simp only [Locked.crash] at howner
    split_ifs at howner with hprocess
    obtain ⟨th, hth, rfl, hcount, hpos⟩ := h.owner i t k howner
    exact ⟨th, hkept hth hprocess, rfl, hcount, hpos⟩
  case depth =>
    intro t th hth hpos
    obtain ⟨hprocess, hth⟩ := halive hth
    simp only [Locked.crash, if_neg hprocess]
    exact h.depth t th hth hpos
  case flat =>
    intro i hfree
    simp only [Locked.crash] at hfree ⊢
    split_ifs at hfree ⊢ with hprocess
    · rfl
    · exact h.flat i hfree
  case held =>
    intro t th hth hne
    obtain ⟨hprocess, hth⟩ := halive hth
    simp [Locked.crash, h.held t th hth hne, hprocess]
  case holder =>
    intro i hholder
    obtain ⟨hholder, hprocess⟩ := Option.filter_eq_some_iff.1 hholder
    obtain ⟨t, th, hth, rfl, hne⟩ := h.holder i hholder
    exact ⟨t, th, hkept hth (of_decide_eq_true hprocess), rfl, hne⟩

lemma Sound.step (h : Sound layout s) (hstep : step layout s l = some s') : Sound layout s' := by
  cases h.stepped hstep with
  | @opened t next refused hth hfree =>
    have hsound := h.threads t _ hth
    refine h.move hth ⟨.enter next refused, .opening, []⟩ (.inr hfree)
      ⟨.inl rfl, fun _ => rfl, fun _ => ⟨next, refused, rfl⟩, hsound.code⟩ (.left rfl rfl) ?_ rfl
    exact (Function.update_eq_self_iff.2 (h.flat _ hfree).symm).symm
  | @nested t next refused frames hframes hth =>
    have hsound := h.threads t _ hth
    refine h.move hth ⟨next, .running, .nested :: frames⟩ (.inl (hsound.count_pos hframes))
      ⟨.inr ?_, ?_, ?_, hsound.code.1⟩
      (.kept hframes (List.cons_ne_nil _ _) (h.held t _ hth hframes)) rfl rfl
    · obtain ⟨n, hn⟩ := hsound.frames.resolve_left hframes
      exact ⟨n + 1, congrArg (Frame.nested :: ·) hn⟩
    · intro hphase
      exact absurd rfl hphase
    · rintro ⟨⟩
  | @locked t next refused hth hfree =>
    have hsound := h.threads t _ hth
    refine h.move hth ⟨next, .running, [.outer]⟩ (.inl Nat.one_pos)
      ⟨.inr ⟨0, rfl⟩, ?_, ?_, hsound.code.1⟩
      (.taken rfl (List.cons_ne_nil _ _) hfree) rfl ?_
    · intro hphase
      exact absurd rfl hphase
    · rintro ⟨⟩
    · exact (Function.update_eq_self_iff.2 (h.owned t _ hth Nat.one_pos).symm).symm
  | @refused t next refused hth =>
    have hsound := h.threads t _ hth
    refine h.move hth ⟨refused, .running, []⟩ (.inl Nat.one_pos)
      ⟨.inl rfl, fun _ => rfl, ?_, hsound.code.2 rfl⟩
      (.left rfl rfl) ?_ rfl
    · rintro ⟨⟩
    · exact (Function.update_eq_self_iff.2 (h.depth t _ hth Nat.one_pos).symm).symm
  | @paused t next frames hth =>
    have hsound := h.threads t _ hth
    refine h.goOn hth next ⟨hsound.frames, hsound.flat, ?_, hsound.code⟩ _
    rintro ⟨⟩
  | @accessed t effect next frames hframes hth =>
    have hsound := h.threads t _ hth
    refine h.goOn hth (next s.shared) ⟨hsound.frames, hsound.flat, ?_, hsound.code.2 _⟩ _
    rintro ⟨⟩
  | @left t next frames hframes hth =>
    have hsound := h.threads t _ hth
    have hlength : frames.length ≠ 0 := fun hzero => hframes (List.length_eq_zero_iff.1 hzero)
    refine h.move hth ⟨next, .running, frames⟩ (.inl (Nat.succ_pos _))
      ⟨.inr ?_, ?_, ?_, hsound.code.2⟩
      (.kept (List.cons_ne_nil _ _) hframes (h.held t _ hth (List.cons_ne_nil _ _))) rfl ?_
    · obtain ⟨n, hn⟩ := hsound.frames.resolve_left (List.cons_ne_nil _ _)
      cases n with
      | zero => cases hn
      | succ n => exact ⟨n, List.tail_eq_of_cons_eq hn⟩
    · intro hphase
      exact absurd rfl hphase
    · rintro ⟨⟩
    · exact congrArg (Function.update s.owner _) (if_neg hlength).symm
  | @unlocked t next hth =>
    have hsound := h.threads t _ hth
    refine h.move hth ⟨next, .closing, []⟩ (.inl Nat.one_pos)
      ⟨.inl rfl, fun _ => rfl, ?_, hsound.code.2⟩
      (.given (List.cons_ne_nil _ _) rfl) rfl ?_
    · rintro ⟨⟩
    · exact (Function.update_eq_self_iff.2 (h.owned t _ hth Nat.one_pos).symm).symm
  | @closed t code hth =>
    have hsound := h.threads t _ hth
    refine h.move hth ⟨code, .running, []⟩ (.inl Nat.one_pos)
      ⟨.inl rfl, fun _ => rfl, ?_, hsound.code⟩
      (.left rfl rfl) ?_ rfl
    · rintro ⟨⟩
    · exact (Function.update_eq_self_iff.2 (h.depth t _ hth Nat.one_pos).symm).symm
  | crashed process => exact h.crash process

/-- In every run the locks are those of the threads. -/
lemma sound_of_path {codes : Nat → Option (Code S ρ)} {shared : S} {ls : List LockLabel}
    (hcodes : ∀ t code, codes t = some code → code.Bracketed 0)
    (hpath : Path (Locked.step layout) (fun _ _ => True) (initial shared codes) ls s) :
    Sound layout s :=
  hpath.invariant (sound_initial hcodes) fun _ _ _ h _ hstep => h.step hstep

/-! ### Threads do not get stuck -/

/-- A thread that has nothing more to do. -/
def Finished (th : Thread S ρ) : Prop :=
  th.phase = .running ∧ ∃ result, th.code = .done result

/-- A label by which nothing fails. -/
def Smooth : LockLabel → Prop
  | .refuse _ | .crash _ => False
  | _ => True

lemma step_eq (hth : s.threads t = some th) (hl : threadOf l = some t) :
    Locked.step layout s l = s.stepOf t (layout.object t) th l := by
  cases l <;> cases hl <;> simp [Locked.step, threadOf, hth]

/-- A thread in a section takes a step. -/
lemma Sound.exists_step_inside (h : Sound layout s) (hth : s.threads t = some th)
    (hframes : th.frames ≠ []) :
    ∃ l, Smooth l ∧ (Locked.step layout s l).isSome = true := by
  have hsound := h.threads t th hth
  obtain ⟨code, phase, frames⟩ := th
  obtain rfl : phase = .running := hsound.running hframes
  have howned := h.owned t _ hth (hsound.count_pos hframes)
  have hdepth := h.depth t _ hth (hsound.count_pos hframes)
  cases code with
  | done result => exact absurd (List.length_eq_zero_iff.1 hsound.code) hframes
  | pause next => exact ⟨.work t, True.intro, by rw [step_eq hth rfl]; rfl⟩
  | access effect next => exact ⟨.work t, True.intro, by rw [step_eq hth rfl]; rfl⟩
  | enter next refused =>
    have hlength : frames.length ≠ 0 := fun hzero => hframes (List.length_eq_zero_iff.1 hzero)
    refine ⟨.enter t, True.intro, ?_⟩
    rw [step_eq hth rfl]
    simp [stepOf, acquire, howned, hdepth, hlength]
  | leave next =>
    rcases hsound.innermost with hnil | houter | ⟨rest, hne, hnested⟩
    · exact absurd hnil hframes
    · simp only at houter
      subst houter
      exact ⟨.leave t, True.intro, by rw [step_eq hth rfl]; rfl⟩
    · simp only at hnested
      subst hnested
      refine ⟨.leave t, True.intro, ?_⟩
      rw [step_eq hth rfl]
      simp [stepOf, release, howned, Thread.count]

/-- **No deadlock**: as long as a thread has something to do, one of them takes a step that is
neither a failure nor a crash. -/
lemma Sound.exists_step (h : Sound layout s) (hth : s.threads t = some th)
    (hopen : ¬ Finished th) :
    ∃ l, Smooth l ∧ (Locked.step layout s l).isSome = true := by
  by_cases hinside : ∃ t₁ th₁, s.threads t₁ = some th₁ ∧ th₁.frames ≠ []
  · obtain ⟨t₁, th₁, hth₁, hframes⟩ := hinside
    exact h.exists_step_inside hth₁ hframes
  have houtside : ∀ t₁ th₁, s.threads t₁ = some th₁ → th₁.frames = [] := by
    intro t₁ th₁ hth₁
    by_contra hframes
    exact hinside ⟨t₁, th₁, hth₁, hframes⟩
  have hholder : s.holder = none := by
    rcases hsome : s.holder with _ | i
    · rfl
    · obtain ⟨t₁, th₁, hth₁, -, hframes⟩ := h.holder i hsome
      exact absurd (houtside t₁ th₁ hth₁) hframes
  by_cases hbusy : ∃ t₁ th₁, s.threads t₁ = some th₁ ∧ th₁.phase ≠ .running
  · obtain ⟨t₁, ⟨code, phase, frames⟩, hth₁, hphase⟩ := hbusy
    cases phase with
    | running => exact absurd rfl hphase
    | opening =>
      obtain ⟨next, refused, hcode⟩ := (h.threads t₁ _ hth₁).opening rfl
      simp only at hcode
      subst hcode
      refine ⟨.lock t₁, True.intro, ?_⟩
      rw [step_eq hth₁ rfl]
      simp [stepOf, hholder]
    | closing =>
      have howned := h.owned t₁ _ hth₁ Nat.one_pos
      refine ⟨.close t₁, True.intro, ?_⟩
      rw [step_eq hth₁ rfl]
      simp [stepOf, release, howned, Thread.count]
  have hidle : ∀ i, s.owner i = none := by
    intro i
    rcases howner : s.owner i with _ | ⟨t₁, k⟩
    · rfl
    · obtain ⟨th₁, hth₁, -, hcount, hpos⟩ := h.owner i t₁ k howner
      have hphase : th₁.phase = .running := by
        by_contra hphase
        exact hbusy ⟨t₁, th₁, hth₁, hphase⟩
      rw [Thread.count, hphase, houtside t₁ th₁ hth₁] at hcount
      exact absurd hcount (Nat.ne_of_lt hpos)
  have hsound := h.threads t th hth
  obtain ⟨code, phase, frames⟩ := th
  obtain rfl : phase = .running := by
    by_contra hphase
    exact hbusy ⟨t, _, hth, hphase⟩
  obtain rfl : frames = [] := houtside t _ hth
  cases code with
  | done result => exact absurd ⟨rfl, result, rfl⟩ hopen
  | pause next => exact ⟨.work t, True.intro, by rw [step_eq hth rfl]; rfl⟩
  | access effect next => exact absurd hsound.code.1 (Nat.lt_irrefl 0)
  | enter next refused =>
    have hflat := h.flat _ (hidle (layout.object t))
    refine ⟨.enter t, True.intro, ?_⟩
    rw [step_eq hth rfl]
    simp [stepOf, acquire, hidle, hflat]
  | leave next => exact absurd hsound.code.1 (Nat.lt_irrefl 0)

/-! ### Sections happen at once -/

/-- The threads are where those are whose sections happen at once; a section that is under way has
not happened there yet. -/
structure Agrees (s : Locked S ρ) (a : Serial S ρ) : Prop where
  outside : ∀ t, (∀ th, s.threads t = some th → th.frames = []) →
    a.codes t = (s.threads t).map Thread.code
  inside : ∀ t th, s.threads t = some th → th.frames ≠ [] → ∃ next refused,
    a.codes t = some (.enter next refused) ∧
      Code.Within (1, next, a.shared) (th.frames.length, th.code, s.shared)
  shared : (∀ t th, s.threads t = some th → th.frames = []) → a.shared = s.shared

lemma agrees_initial (shared : S) (codes : Nat → Option (Code S ρ)) :
    Agrees (initial shared codes) ⟨shared, codes⟩ := by
  have hframes : ∀ t th, (initial shared codes).threads t = some th → th.frames = [] := by
    intro t th hth
    obtain ⟨code, -, rfl⟩ := Option.map_eq_some_iff.1 hth
    rfl
  refine ⟨fun t _ => ?_, fun t th hth hne => absurd (hframes t th hth) hne, fun _ => rfl⟩
  simp [initial, Option.map_map, Function.comp_def]

variable {a : Serial S ρ}

/-- A thread does something outside of sections. -/
lemma Agrees.outside_update (h : Agrees s a) (hth : s.threads t = some th) (th' : Thread S ρ)
    (hframes : th.frames = []) (hframes' : th'.frames = [])
    (hthreads : s'.threads = Function.update s.threads t (some th'))
    (hshared : s'.shared = s.shared) :
    Agrees s' { a with codes := Function.update a.codes t (some th'.code) } := by
  constructor
  · intro t₁ houtside
    by_cases ht : t₁ = t
    · rw [hthreads, ht, Function.update_self]
      exact Function.update_self ..
    · rw [hthreads, Function.update_of_ne ht] at houtside ⊢
      exact (Function.update_of_ne ht ..).trans (h.outside t₁ houtside)
  · intro t₁ th₁ hth₁ hne
    rw [hthreads] at hth₁
    rcases update_threads_eq_some hth₁ with ⟨-, rfl⟩ | ⟨ht, hth₁⟩
    · exact absurd hframes' hne
    · obtain ⟨next, refused, hcode, hwithin⟩ := h.inside t₁ th₁ hth₁ hne
      exact ⟨next, refused, (Function.update_of_ne ht ..).trans hcode, hshared ▸ hwithin⟩
  · intro houtside
    refine (h.shared fun t₁ th₁ hth₁ => ?_).trans hshared.symm
    by_cases ht : t₁ = t
    · rw [ht, hth] at hth₁
      cases hth₁
      exact hframes
    · exact houtside t₁ th₁ (by rw [hthreads, Function.update_of_ne ht, hth₁])

/-- The code of a thread outside of sections. -/
lemma Agrees.code (h : Agrees s a) (hth : s.threads t = some th) (hframes : th.frames = []) :
    a.codes t = some th.code := by
  have houtside : ∀ th₁, s.threads t = some th₁ → th₁.frames = [] := by
    intro th₁ hth₁
    rw [hth] at hth₁
    cases hth₁
    exact hframes
  rw [h.outside t houtside, hth]
  rfl

/-- A thread that does nothing new outside of sections. -/
lemma Agrees.outside_idle (h : Agrees s a) (hth : s.threads t = some th) (th' : Thread S ρ)
    (hframes : th.frames = []) (hframes' : th'.frames = []) (hcode : th'.code = th.code)
    (hthreads : s'.threads = Function.update s.threads t (some th'))
    (hshared : s'.shared = s.shared) : Agrees s' a := by
  have hupdate := h.outside_update hth th' hframes hframes' hthreads hshared
  rwa [hcode, Function.update_eq_self_iff.2 (h.code hth hframes).symm] at hupdate

/-- A thread goes on in its section. -/
lemma Agrees.inside_update (hsound : Sound layout s) (h : Agrees s a)
    (hth : s.threads t = some th) (hframes : th.frames ≠ []) (hframes' : th'.frames ≠ [])
    (hthreads : s'.threads = Function.update s.threads t (some th'))
    (hadvance : Code.advance (th.frames.length, th.code, s.shared) =
      some (th'.frames.length, th'.code, s'.shared)) : Agrees s' a := by
  have hself : s'.threads t = some th' := by rw [hthreads, Function.update_self]
  constructor
  · intro t₁ houtside
    have ht : t₁ ≠ t := by
      rintro rfl
      exact hframes' (houtside th' hself)
    rw [hthreads, Function.update_of_ne ht] at houtside ⊢
    exact h.outside t₁ houtside
  · intro t₁ th₁ hth₁ hne
    rw [hthreads] at hth₁
    rcases update_threads_eq_some hth₁ with ⟨rfl, rfl⟩ | ⟨ht, hth₁⟩
    · obtain ⟨next, refused, hcode, hwithin⟩ := h.inside t₁ th hth hframes
      exact ⟨next, refused, hcode, hwithin.tail ⟨List.length_pos_iff.2 hframes, hadvance⟩⟩
    · exact absurd (hsound.exclusive hth₁ hth hne hframes) ht
  · intro houtside
    exact absurd (houtside t th' hself) hframes'

/-- A thread enters a section, which no other one is in. -/
lemma Agrees.lock (hsound : Sound layout s) (h : Agrees s a) {next refused : Code S ρ}
    (hth : s.threads t = some ⟨.enter next refused, .opening, []⟩) (hfree : s.holder = none)
    (hthreads : s'.threads = Function.update s.threads t (some ⟨next, .running, [.outer]⟩))
    (hshared : s'.shared = s.shared) : Agrees s' a := by
  have houtside : ∀ t₁ th₁, s.threads t₁ = some th₁ → th₁.frames = [] := by
    intro t₁ th₁ hth₁
    by_contra hne
    have hheld := hsound.held t₁ th₁ hth₁ hne
    rw [hfree] at hheld
    cases hheld
  have hself : s'.threads t = some ⟨next, .running, [.outer]⟩ := by
    rw [hthreads, Function.update_self]
  constructor
  · intro t₁ hout
    have ht : t₁ ≠ t := by
      rintro rfl
      exact absurd (hout _ hself) (List.cons_ne_nil _ _)
    rw [hthreads, Function.update_of_ne ht] at hout ⊢
    exact h.outside t₁ hout
  · intro t₁ th₁ hth₁ hne
    rw [hthreads] at hth₁
    rcases update_threads_eq_some hth₁ with ⟨rfl, rfl⟩ | ⟨-, hth₁⟩
    · refine ⟨next, refused, h.code hth rfl, ?_⟩
      rw [hshared, h.shared houtside]
      exact ReflTransGen.refl
    · exact absurd (houtside t₁ th₁ hth₁) hne
  · intro hout
    exact absurd (hout t _ hself) (List.cons_ne_nil _ _)

/-- A thread leaves its section, which happens at once. -/
lemma Agrees.unlock (hsound : Sound layout s) (h : Agrees s a) {next : Code S ρ}
    (hth : s.threads t = some ⟨.leave next, .running, [.outer]⟩)
    (hthreads : s'.threads = Function.update s.threads t (some ⟨next, .closing, []⟩))
    (hshared : s'.shared = s.shared) :
    ∃ a', ReflTransGen (Serial.Step layout) a a' ∧ Agrees s' a' := by
  obtain ⟨next', refused, hcode, hwithin⟩ := h.inside t _ hth (List.cons_ne_nil _ _)
  have hothers : ∀ t₁ th₁, t₁ ≠ t → s.threads t₁ = some th₁ → th₁.frames = [] := by
    intro t₁ th₁ ht hth₁
    by_contra hne
    exact ht (hsound.exclusive hth₁ hth hne (List.cons_ne_nil _ _))
  refine ⟨⟨s.shared, Function.update a.codes t (some next)⟩,
    .single (.passed hcode (hwithin.tail ⟨Nat.one_pos, rfl⟩)), ?_, ?_, fun _ => hshared.symm⟩
  · intro t₁ _
    by_cases ht : t₁ = t
    · rw [hthreads, ht, Function.update_self]
      exact Function.update_self ..
    · rw [hthreads, Function.update_of_ne ht]
      exact (Function.update_of_ne ht ..).trans (h.outside t₁ fun th₁ => hothers t₁ th₁ ht)
  · intro t₁ th₁ hth₁ hne
    rw [hthreads] at hth₁
    rcases update_threads_eq_some hth₁ with ⟨-, rfl⟩ | ⟨ht, hth₁⟩
    · exact absurd rfl hne
    · exact absurd (hothers t₁ th₁ ht hth₁) hne

/-- A process crashes, perhaps in a section. -/
lemma Agrees.crash (hsound : Sound layout s) (h : Agrees s a) (process : Nat) :
    ∃ a', ReflTransGen (Serial.Step layout) a a' ∧ Agrees (s.crash layout process) a' := by
  have halive : ∀ {t th}, (s.crash layout process).threads t = some th →
      layout.process (layout.object t) ≠ process ∧ s.threads t = some th := by
    intro t th hth
    simp only [Locked.crash] at hth
    split_ifs at hth with hprocess
    exact ⟨hprocess, hth⟩
  have houtside : ∀ t, (∀ th, (s.crash layout process).threads t = some th → th.frames = []) →
      (if layout.process (layout.object t) = process then none else a.codes t) =
        ((s.crash layout process).threads t).map Thread.code := by
    intro t hout
    simp only [Locked.crash] at hout ⊢
    split_ifs at hout ⊢ with hprocess
    · rfl
    · exact h.outside t hout
  by_cases hinside : ∃ t th, s.threads t = some th ∧ th.frames ≠ [] ∧
      layout.process (layout.object t) = process
  · obtain ⟨t, th, hth, hne, hprocess⟩ := hinside
    obtain ⟨next, refused, hcode, hwithin⟩ := h.inside t th hth hne
    refine ⟨_,
      .single (.crashed process (.inr ⟨t, next, refused, _, _, hprocess, hcode, hwithin⟩)),
      houtside, ?_, fun _ => rfl⟩
    intro t₁ th₁ hth₁ hne₁
    obtain ⟨hprocess₁, hth₁⟩ := halive hth₁
    exact absurd (hsound.exclusive hth₁ hth hne₁ hne ▸ hprocess) hprocess₁
  · refine ⟨_, .single (.crashed process (.inl rfl)), houtside, ?_, ?_⟩
    · intro t₁ th₁ hth₁ hne
      obtain ⟨hprocess, hth₁⟩ := halive hth₁
      obtain ⟨next, refused, hcode, hwithin⟩ := h.inside t₁ th₁ hth₁ hne
      exact ⟨next, refused, (if_neg hprocess).trans hcode, hwithin⟩
    · intro hout
      refine h.shared fun t₁ th₁ hth₁ => ?_
      by_contra hne
      have hprocess : layout.process (layout.object t₁) ≠ process := fun hprocess =>
        hinside ⟨t₁, th₁, hth₁, hne, hprocess⟩
      exact hne (hout t₁ th₁ (by simp only [Locked.crash, if_neg hprocess, hth₁]))

lemma Agrees.step (hsound : Sound layout s) (h : Agrees s a)
    (hstep : step layout s l = some s') :
    ∃ a', ReflTransGen (Serial.Step layout) a a' ∧ Agrees s' a' := by
  cases hsound.stepped hstep with
  | @opened t next refused hth hfree =>
    exact ⟨a, .refl, h.outside_idle hth ⟨_, .opening, []⟩ rfl rfl rfl rfl rfl⟩
  | @nested t next refused frames hframes hth =>
    exact ⟨a, .refl, h.inside_update hsound hth hframes (List.cons_ne_nil _ _) rfl rfl⟩
  | @locked t next refused hth hfree => exact ⟨a, .refl, h.lock hsound hth hfree rfl rfl⟩
  | @refused t next refused hth =>
    exact ⟨_, .single (.refused (h.code hth rfl)),
      h.outside_update hth ⟨refused, .running, []⟩ rfl rfl rfl rfl⟩
  | @paused t next frames hth =>
    by_cases hframes : frames = []
    · subst hframes
      exact ⟨_, .single (.paused (h.code hth rfl)),
        h.outside_update hth ⟨next, .running, []⟩ rfl rfl rfl rfl⟩
    · exact ⟨a, .refl, h.inside_update hsound hth hframes hframes rfl rfl⟩
  | @accessed t effect next frames hframes hth =>
    exact ⟨a, .refl, h.inside_update hsound hth hframes hframes rfl rfl⟩
  | @left t next frames hframes hth =>
    exact ⟨a, .refl, h.inside_update hsound hth (List.cons_ne_nil _ _) hframes rfl rfl⟩
  | @unlocked t next hth => exact h.unlock hsound hth rfl rfl
  | @closed t code hth =>
    exact ⟨a, .refl, h.outside_idle hth ⟨code, .running, []⟩ rfl rfl rfl rfl rfl⟩
  | crashed process => exact h.crash hsound process

/-- **Sections happen at once**: whatever the threads do, they are where threads are whose sections
happen one after the other. -/
theorem exists_serial {codes : Nat → Option (Code S ρ)} {shared : S} {ls : List LockLabel}
    (hcodes : ∀ t code, codes t = some code → code.Bracketed 0)
    (hpath : Path (Locked.step layout) (fun _ _ => True) (initial shared codes) ls s) :
    ∃ a, ReflTransGen (Serial.Step layout) ⟨shared, codes⟩ a ∧ Agrees s a := by
  have hboth : Sound layout s ∧
      ∃ a, ReflTransGen (Serial.Step layout) ⟨shared, codes⟩ a ∧ Agrees s a := by
    refine hpath.invariant (I := fun s => Sound layout s ∧
      ∃ a, ReflTransGen (Serial.Step layout) ⟨shared, codes⟩ a ∧ Agrees s a)
      ⟨sound_initial hcodes, _, .refl, agrees_initial shared codes⟩ ?_
    rintro s₁ l s₂ ⟨hsound, a, hrun, hagrees⟩ - hstep
    obtain ⟨a', hrun', hagrees'⟩ := hagrees.step hsound hstep
    exact ⟨hsound.step hstep, a', hrun.trans hrun', hagrees'⟩
  exact hboth.2

end Locked

end EnjiGuard.Foundation
