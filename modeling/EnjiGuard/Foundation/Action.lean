import Mathlib.Logic.Relation

/-!
# Actions that may raise or crash

An `Action` is a deterministic computation on a state that returns a value, raises an exception
or crashes. A crash is not an exception: no handler and no `finally` clause runs after it, and
the state is left as it was.

`Tracks view R p s Q E` says what a run of `p` from `s` does: what an observer sees through
`view` moves along `R` only, a value is returned under `Q` and an exception raised under `E`.
Because the state of a crashed run is the state at the point of the crash, a statement about
final states covers every intermediate point at which the action can be cut off.
-/

namespace EnjiGuard.Foundation

open Relation

/-- How an action ends. -/
inductive Outcome (ε α : Type)
  | ok (a : α)
  | raised (e : ε)
  | crashed
  deriving DecidableEq

/-- A computation on a state `σ` that may raise `ε`. -/
def Action (ε σ α : Type) : Type := σ → Outcome ε α × σ

namespace Action

variable {ε ε' σ α β V : Type}

/-- Returns a value. -/
def ret (a : α) : Action ε σ α := fun s => (.ok a, s)

/-- Runs an action and continues with its value. -/
def andThen (p : Action ε σ α) (f : α → Action ε σ β) : Action ε σ β := fun s =>
  match p s with
  | (.ok a, s') => f a s'
  | (.raised e, s') => (.raised e, s')
  | (.crashed, s') => (.crashed, s')

instance : Monad (Action ε σ) where
  pure := ret
  bind := andThen

/-- Raises an exception. -/
def raise (e : ε) : Action ε σ α := fun s => (.raised e, s)

/-- Stops without running any handler. -/
def crash : Action ε σ α := fun s => (.crashed, s)

/-- The current state. -/
def state : Action ε σ σ := fun s => (.ok s, s)

/-- Changes the state. -/
def update (f : σ → σ) : Action ε σ Unit := fun s => (.ok (), f s)

/-- Runs a handler when an exception is raised. -/
def tryCatch (p : Action ε σ α) (h : ε → Action ε' σ α) : Action ε' σ α := fun s =>
  match p s with
  | (.ok a, s') => (.ok a, s')
  | (.raised e, s') => h e s'
  | (.crashed, s') => (.crashed, s')

/-- Runs `q` after `p` whether `p` returns or raises; an exception of `q` replaces the result. -/
def ensure (p : Action ε σ α) (q : Action ε σ Unit) : Action ε σ α := fun s =>
  match p s with
  | (.ok a, s') => (andThen q fun _ => ret a) s'
  | (.raised e, s') => (andThen q fun _ => raise e) s'
  | (.crashed, s') => (.crashed, s')

/-- A pure computation that may raise. -/
def ofExcept : Except ε α → Action ε σ α
  | .ok a => ret a
  | .error e => raise e

/-- Runs an action on every element of a list, in order. -/
def each (f : α → Action ε σ Unit) : List α → Action ε σ Unit
  | [] => ret ()
  | a :: as => andThen (f a) fun _ => each f as

@[simp] lemma pure_apply (a : α) (s : σ) : (pure a : Action ε σ α) s = (.ok a, s) := rfl

@[simp] lemma ret_apply (a : α) (s : σ) : (ret a : Action ε σ α) s = (.ok a, s) := rfl

@[simp] lemma raise_apply (e : ε) (s : σ) : (raise e : Action ε σ α) s = (.raised e, s) := rfl

@[simp] lemma crash_apply (s : σ) : (crash : Action ε σ α) s = (.crashed, s) := rfl

@[simp] lemma state_apply (s : σ) : (state : Action ε σ σ) s = (.ok s, s) := rfl

@[simp] lemma update_apply (f : σ → σ) (s : σ) :
    (update f : Action ε σ Unit) s = (.ok (), f s) := rfl

lemma bind_apply (p : Action ε σ α) (f : α → Action ε σ β) (s : σ) :
    (p >>= f) s = match p s with
      | (.ok a, s') => f a s'
      | (.raised e, s') => (.raised e, s')
      | (.crashed, s') => (.crashed, s') := rfl

lemma tryCatch_apply (p : Action ε σ α) (h : ε → Action ε' σ α) (s : σ) :
    tryCatch p h s = match p s with
      | (.ok a, s') => (.ok a, s')
      | (.raised e, s') => h e s'
      | (.crashed, s') => (.crashed, s') := rfl

lemma ensure_apply (p : Action ε σ α) (q : Action ε σ Unit) (s : σ) :
    ensure p q s = match p s with
      | (.ok a, s') => andThen q (fun _ => ret a) s'
      | (.raised e, s') => andThen q (fun _ => raise e) s'
      | (.crashed, s') => (.crashed, s') := rfl

lemma bind_of_ok {p : Action ε σ α} {f : α → Action ε σ β} {s s' : σ} {a : α}
    (h : p s = (.ok a, s')) : (p >>= f) s = f a s' := by
  rw [bind_apply, h]

lemma bind_of_raised {p : Action ε σ α} {f : α → Action ε σ β} {s s' : σ} {e : ε}
    (h : p s = (.raised e, s')) : (p >>= f) s = (.raised e, s') := by
  rw [bind_apply, h]

lemma bind_of_crashed {p : Action ε σ α} {f : α → Action ε σ β} {s s' : σ}
    (h : p s = (.crashed, s')) : (p >>= f) s = (.crashed, s') := by
  rw [bind_apply, h]

lemma ensure_of_crashed {p : Action ε σ α} {q : Action ε σ Unit} {s s' : σ}
    (h : p s = (.crashed, s')) : ensure p q s = (.crashed, s') := by
  rw [ensure_apply, h]

/-! ### Tracking -/

/-- A run of `p` from `s` moves the view along `R`, returns under `Q` and raises under `E`. -/
structure Tracks (view : σ → V) (R : V → V → Prop) (p : Action ε σ α) (s : σ)
    (Q : α → σ → Prop) (E : ε → σ → Prop) : Prop where
  moves : ReflTransGen R (view s) (view (p s).2)
  returns : ∀ a, (p s).1 = .ok a → Q a (p s).2
  raises : ∀ e, (p s).1 = .raised e → E e (p s).2

namespace Tracks

variable {view : σ → V} {R : V → V → Prop} {p : Action ε σ α} {f : α → Action ε σ β} {s : σ}
variable {Q P : α → σ → Prop} {Q₂ : β → σ → Prop} {E F : ε → σ → Prop}

lemma ret {a : α} (h : Q a s) : Tracks view R (ret a) s Q E :=
  ⟨.refl, by rintro _ ⟨⟩; exact h, by rintro _ ⟨⟩⟩

lemma pure {a : α} (h : Q a s) : Tracks view R (pure a) s Q E := Tracks.ret h

lemma raise {e : ε} (h : E e s) : Tracks view R (raise e : Action ε σ α) s Q E :=
  ⟨.refl, by rintro _ ⟨⟩, by rintro _ ⟨⟩; exact h⟩

lemma crash : Tracks view R (crash : Action ε σ α) s Q E :=
  ⟨.refl, by rintro _ ⟨⟩, by rintro _ ⟨⟩⟩

lemma state {Q : σ → σ → Prop} (h : Q s s) :
    Tracks view R (state : Action ε σ σ) s Q E :=
  ⟨.refl, by rintro _ ⟨⟩; exact h, by rintro _ ⟨⟩⟩

/-- An update that is one step of `R`. -/
lemma step {g : σ → σ} {Q : Unit → σ → Prop} (hR : R (view s) (view (g s))) (h : Q () (g s)) :
    Tracks view R (update g : Action ε σ Unit) s Q E :=
  ⟨.single hR, by rintro _ ⟨⟩; exact h, by rintro _ ⟨⟩⟩

/-- A run that goes on as another one after a stretch of `R`. -/
lemma resume {q p : Action ε σ β} {s' : σ} (hrun : q s = p s')
    (hm : ReflTransGen R (view s) (view s')) (hp : Tracks view R p s' Q₂ E) :
    Tracks view R q s Q₂ E :=
  ⟨hrun ▸ hm.trans hp.moves, hrun ▸ hp.returns, hrun ▸ hp.raises⟩

/-- Sequencing; the continuation may use that the view moved along `R`. -/
lemma andThen (hp : Tracks view R p s Q E)
    (hf : ∀ a s', ReflTransGen R (view s) (view s') → Q a s' → Tracks view R (f a) s' Q₂ E) :
    Tracks view R (andThen p f) s Q₂ E := by
  obtain ⟨hm, hq, he⟩ := hp
  rcases h : p s with ⟨o, s'⟩
  rw [h] at hm hq he
  have hrun := bind_apply p f s
  rw [h] at hrun
  cases o with
  | ok a => exact resume hrun hm (hf a s' hm (hq a rfl))
  | raised e => exact resume (p := Action.raise e) hrun hm (Tracks.raise (he e rfl))
  | crashed => exact resume (p := Action.crash) hrun hm Tracks.crash

lemma bind (hp : Tracks view R p s Q E)
    (hf : ∀ a s', ReflTransGen R (view s) (view s') → Q a s' → Tracks view R (f a) s' Q₂ E) :
    Tracks view R (p >>= f) s Q₂ E := hp.andThen hf

lemma weaken (hp : Tracks view R p s Q E) (hQ : ∀ a s', Q a s' → P a s')
    (hE : ∀ e s', E e s' → F e s') : Tracks view R p s P F :=
  ⟨hp.moves, fun a h => hQ _ _ (hp.returns a h), fun e h => hE _ _ (hp.raises e h)⟩

/-- More steps may be allowed. -/
lemma mono {R' : V → V → Prop} (hp : Tracks view R p s Q E) (hR : ∀ v v', R v v' → R' v v') :
    Tracks view R' p s Q E :=
  ⟨ReflTransGen.mono hR _ _ hp.moves, hp.returns, hp.raises⟩

/-- The way the view moved may be remembered. -/
lemma traced (hp : Tracks view R p s Q E) :
    Tracks view R p s (fun a s' => Q a s' ∧ ReflTransGen R (view s) (view s'))
      (fun e s' => E e s' ∧ ReflTransGen R (view s) (view s')) :=
  ⟨hp.moves, fun a h => ⟨hp.returns a h, hp.moves⟩, fun e h => ⟨hp.raises e h, hp.moves⟩⟩

/-- The value that is returned may be remembered. -/
lemma evaluated (hp : Tracks view R p s Q E) :
    Tracks view R p s (fun a s' => Q a s' ∧ (p s).1 = .ok a) E :=
  ⟨hp.moves, fun a h => ⟨hp.returns a h, h⟩, hp.raises⟩

lemma tryCatch {h : ε → Action ε' σ α} {E₂ : ε' → σ → Prop} (hp : Tracks view R p s Q E)
    (hh : ∀ e s', ReflTransGen R (view s) (view s') → E e s' → Tracks view R (h e) s' Q E₂) :
    Tracks view R (tryCatch p h) s Q E₂ := by
  obtain ⟨hm, hq, he⟩ := hp
  rcases hps : p s with ⟨o, s'⟩
  rw [hps] at hm hq he
  have hrun := tryCatch_apply p h s
  rw [hps] at hrun
  cases o with
  | ok a => exact resume (p := Action.ret a) hrun hm (Tracks.ret (hq a rfl))
  | raised e => exact resume hrun hm (hh e s' hm (he e rfl))
  | crashed => exact resume (p := Action.crash) hrun hm Tracks.crash

/-- A clean-up that keeps the postconditions. -/
lemma ensure {q : Action ε σ Unit} (hp : Tracks view R p s Q E)
    (hq : ∀ a s', Q a s' → Tracks view R q s' (fun _ => Q a) E)
    (he : ∀ e s', E e s' → Tracks view R q s' (fun _ => E e) E) :
    Tracks view R (ensure p q) s Q E := by
  obtain ⟨hm, hok, hraised⟩ := hp
  rcases hps : p s with ⟨o, s'⟩
  rw [hps] at hm hok hraised
  have hrun := ensure_apply p q s
  rw [hps] at hrun
  cases o with
  | ok a =>
    exact resume hrun hm ((hq a s' (hok a rfl)).andThen fun _ _ _ h => Tracks.ret h)
  | raised e =>
    exact resume hrun hm ((he e s' (hraised e rfl)).andThen fun _ _ _ h => Tracks.raise h)
  | crashed => exact resume (p := Action.crash) hrun hm Tracks.crash

lemma ofExcept {x : Except ε α} (hok : ∀ a, x = .ok a → Q a s)
    (herr : ∀ e, x = .error e → E e s) : Tracks view R (ofExcept x) s Q E := by
  cases x with
  | ok a => exact Tracks.ret (hok a rfl)
  | error e => exact Tracks.raise (herr e rfl)

/-- A loop keeps an invariant its body keeps. -/
lemma each {g : α → Action ε σ Unit} {I : σ → Prop} {as : List α} (hs : I s)
    (hbody : ∀ a ∈ as, ∀ s', I s' → Tracks view R (g a) s' (fun _ => I) E) :
    Tracks view R (each g as) s (fun _ => I) E := by
  induction as generalizing s with
  | nil => exact Tracks.ret hs
  | cons a as ih =>
    refine (hbody a (by simp) s hs).andThen fun _ s' _ hs' => ?_
    exact ih hs' fun b hb => hbody b (by simp [hb])

/-- What holds of the view at the start and is kept by `R` holds at the end. -/
lemma invariant {I : V → Prop} (hp : Tracks view R p s Q E) (hs : I (view s))
    (hstep : ∀ v v', I v → R v v' → I v') : I (view (p s).2) := by
  have := hp.moves
  generalize view (p s).2 = v at this
  induction this with
  | refl => exact hs
  | tail _ hR ih => exact hstep _ _ ih hR

end Tracks

end Action

end EnjiGuard.Foundation
