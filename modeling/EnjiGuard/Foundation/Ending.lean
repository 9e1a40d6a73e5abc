import EnjiGuard.Foundation.Action

/-!
# How an action ends

`Ends p s Q E` says that a run of `p` from `s` does not crash, and that it returns under `Q` or
raises under `E`. Other than `Tracks` it is about the end of a run alone, so that with an empty `E`
it says that the action returns, and with an empty `Q` that it raises.
-/

namespace EnjiGuard.Foundation.Action

open Relation

variable {ε ε' σ α β V : Type}

/-- A run of `p` from `s` returns under `Q` or raises under `E`. -/
def Ends (p : Action ε σ α) (s : σ) (Q : α → σ → Prop) (E : ε → σ → Prop) : Prop :=
  match p s with
  | (.ok a, s') => Q a s'
  | (.raised e, s') => E e s'
  | (.crashed, _) => False

/-- A run of `p` from `s` returns under `Q`. -/
abbrev Returns (p : Action ε σ α) (s : σ) (Q : α → σ → Prop) : Prop :=
  Ends p s Q fun _ _ => False

namespace Ends

variable {p : Action ε σ α} {f : α → Action ε σ β} {s : σ}
variable {Q P : α → σ → Prop} {Q₂ : β → σ → Prop} {E F : ε → σ → Prop}

lemma pure {a : α} (h : Q a s) : Ends (pure a) s Q E := h

lemma ret {a : α} (h : Q a s) : Ends (Action.ret a) s Q E := h

lemma raise {e : ε} (h : E e s) : Ends (raise e : Action ε σ α) s Q E := h

lemma state {Q : σ → σ → Prop} (h : Q s s) : Ends (Action.state : Action ε σ σ) s Q E := h

lemma update {g : σ → σ} {Q : Unit → σ → Prop} (h : Q () (g s)) :
    Ends (Action.update g : Action ε σ Unit) s Q E := h

/-- A run that is known to return. -/
lemma of_run {a : α} {s' : σ} (hrun : p s = (.ok a, s')) (h : Q a s') : Ends p s Q E := by
  unfold Ends
  rw [hrun]
  exact h

lemma weaken (hp : Ends p s Q E) (hQ : ∀ a s', Q a s' → P a s')
    (hE : ∀ e s', E e s' → F e s') : Ends p s P F := by
  unfold Ends at hp ⊢
  split at hp
  · exact hQ _ _ hp
  · exact hE _ _ hp
  · exact hp

/-- What an action returns, when it returns. -/
lemma returned (hp : Ends p s Q E) {a : α} (h : (p s).1 = .ok a) : Q a (p s).2 := by
  unfold Ends at hp
  split at hp <;> simp_all

/-- What an action raises, when it raises. -/
lemma raised (hp : Ends p s Q E) {e : ε} (h : (p s).1 = .raised e) : E e (p s).2 := by
  unfold Ends at hp
  split at hp <;> simp_all

lemma not_crashed (hp : Ends p s Q E) : (p s).1 ≠ .crashed := by
  unfold Ends at hp
  split at hp <;> simp_all

/-- An action that ends returns or raises. -/
lemma cases (hp : Ends p s Q E) :
    (∃ a s', p s = (.ok a, s') ∧ Q a s') ∨ ∃ e s', p s = (.raised e, s') ∧ E e s' := by
  unfold Ends at hp
  split at hp
  · next h => exact .inl ⟨_, _, h, hp⟩
  · next h => exact .inr ⟨_, _, h, hp⟩
  · exact hp.elim

/-- An ending that is known may be used with what the run tracks. -/
lemma and_tracks {view : σ → V} {R : V → V → Prop} (hp : Ends p s Q E)
    (ht : Tracks view R p s P F) :
    Ends p s (fun a s' => Q a s' ∧ P a s') (fun e s' => E e s' ∧ F e s') := by
  have hreturns := ht.returns
  have hraises := ht.raises
  unfold Ends at hp ⊢
  split at hp <;> simp_all

/-- Two endings of one run hold together. -/
lemma and (hp : Ends p s Q E) (hp' : Ends p s P F) :
    Ends p s (fun a s' => Q a s' ∧ P a s') (fun e s' => E e s' ∧ F e s') := by
  unfold Ends at hp hp' ⊢
  split at hp <;> simp_all

/-- A run that goes on as another one. -/
lemma resume {q p : Action ε σ β} {t : σ} (hrun : q s = p t) (hp : Ends p t Q₂ E) :
    Ends q s Q₂ E := by
  unfold Ends at hp ⊢
  rw [hrun]
  exact hp

lemma andThen (hp : Ends p s Q E) (hf : ∀ a s', Q a s' → Ends (f a) s' Q₂ E) :
    Ends (andThen p f) s Q₂ E := by
  unfold Ends at hp
  have hrun := bind_apply p f s
  rcases h : p s with ⟨_ | _ | _, s'⟩ <;> rw [h] at hp hrun
  · exact resume hrun (hf _ _ hp)
  · exact resume (p := Action.raise _) hrun hp
  · exact hp.elim

lemma bind (hp : Ends p s Q E) (hf : ∀ a s', Q a s' → Ends (f a) s' Q₂ E) :
    Ends (p >>= f) s Q₂ E := hp.andThen hf

lemma tryCatch {h : ε → Action ε' σ α} {E₂ : ε' → σ → Prop} (hp : Ends p s Q E)
    (hh : ∀ e s', E e s' → Ends (h e) s' Q E₂) : Ends (tryCatch p h) s Q E₂ := by
  unfold Ends at hp
  have hrun := tryCatch_apply p h s
  rcases hps : p s with ⟨_ | _ | _, s'⟩ <;> rw [hps] at hp hrun
  · exact resume (p := Action.ret _) hrun hp
  · exact resume hrun (hh _ _ hp)
  · exact hp.elim

/-- A clean-up whose exception replaces the result. -/
lemma ensure_raising {q : Action ε σ Unit} (hp : Ends p s Q E)
    (hq : ∀ a s', Q a s' → Ends q s' (fun _ => P a) F)
    (he : ∀ e s', E e s' → Ends q s' (fun _ => F e) F) : Ends (ensure p q) s P F := by
  unfold Ends at hp
  have hrun := ensure_apply p q s
  rcases hps : p s with ⟨_ | _ | _, s'⟩ <;> rw [hps] at hp hrun
  · exact resume hrun ((hq _ _ hp).andThen fun _ _ h => ret h)
  · exact resume hrun ((he _ _ hp).andThen fun _ _ h => raise h)
  · exact hp.elim

/-- A clean-up that returns and keeps the postconditions. -/
lemma ensure {q : Action ε σ Unit} (hp : Ends p s Q E)
    (hq : ∀ a s', Q a s' → Returns q s' fun _ => P a)
    (he : ∀ e s', E e s' → Returns q s' fun _ => F e) : Ends (ensure p q) s P F :=
  hp.ensure_raising (fun a s' h => (hq a s' h).weaken (fun _ _ k => k) fun _ _ k => k.elim)
    fun e s' h => (he e s' h).weaken (fun _ _ k => k) fun _ _ k => k.elim

lemma ofExcept {x : Except ε α} (hok : ∀ a, x = .ok a → Q a s)
    (herr : ∀ e, x = .error e → E e s) : Ends (Action.ofExcept x) s Q E := by
  cases x with
  | ok a => exact hok a rfl
  | error e => exact herr e rfl

/-- A pure computation that returns goes on. -/
lemma of_ok {x : Except ε α} {a : α} (h : x = .ok a) (hf : Ends (f a) s Q₂ E) :
    Ends (Action.ofExcept x >>= f) s Q₂ E := by
  rw [h]
  exact hf

/-- A pure computation that raises ends the action. -/
lemma of_error {x : Except ε α} {e : ε} (h : x = .error e) (hE : E e s) :
    Ends (Action.ofExcept x >>= f) s Q₂ E := by
  rw [h]
  exact hE

/-- A loop keeps an invariant about the elements that are left. -/
lemma each {g : α → Action ε σ Unit} {I : List α → σ → Prop} {as : List α} (hs : I as s)
    (hbody : ∀ a as s', I (a :: as) s' → Ends (g a) s' (fun _ => I as) E) :
    Ends (each g as) s (fun _ => I []) E := by
  induction as generalizing s with
  | nil => exact hs
  | cons a as ih => exact (hbody a as s hs).andThen fun _ s' hs' => ih hs'

end Ends

/-- The state that a run of `p` from `s` leaves, however it ends. -/
def Finally (p : Action ε σ α) (s : σ) (P : σ → Prop) : Prop := P (p s).2

namespace Finally

variable {p : Action ε σ α} {f : α → Action ε σ β} {s : σ} {P P' : σ → Prop}
variable {Q : α → σ → Prop} {E : ε → σ → Prop}

lemma weaken (h : Finally p s P) (hP : ∀ s', P s' → P' s') : Finally p s P' := hP _ h

lemma of_ends (hp : Ends p s Q E) (hQ : ∀ a s', Q a s' → P s') (hE : ∀ e s', E e s' → P s') :
    Finally p s P := by
  unfold Ends at hp
  unfold Finally
  rcases hrun : p s with ⟨_ | _ | _, s'⟩ <;> rw [hrun] at hp
  · exact hQ _ _ hp
  · exact hE _ _ hp
  · exact hp.elim

/-- What an observer sees at the end of a run that keeps a property of the view. -/
lemma of_tracks {view : σ → V} {R : V → V → Prop} {P : V → Prop} (hp : Tracks view R p s Q E)
    (hs : P (view s)) (hkeep : ∀ v v', R v v' → P v → P v') :
    Finally p s fun s' => P (view s') := by
  have hinvariant : ∀ v, ReflTransGen R (view s) v → P v := by
    intro v hmoves
    induction hmoves with
    | refl => exact hs
    | tail _ hstep ih => exact hkeep _ _ hstep ih
  exact hinvariant _ hp.moves

/-- A run that goes on after an action whose end is known. -/
lemma bind (hp : Ends p s Q E) (hf : ∀ a s', Q a s' → Finally (f a) s' P)
    (he : ∀ e s', E e s' → P s') : Finally (p >>= f) s P := by
  unfold Ends at hp
  have hrun := bind_apply p f s
  unfold Finally
  rcases hps : p s with ⟨_ | _ | _, s'⟩ <;> rw [hps] at hp hrun <;> rw [hrun]
  · exact hf _ _ hp
  · exact he _ _ hp
  · exact hp.elim

/-- A run that goes on after an action whose moves keep a property of the view. -/
lemma bind_tracks {view : σ → V} {R : V → V → Prop} {P : V → Prop}
    (hp : Tracks view R p s Q E) (hs : P (view s)) (hkeep : ∀ v v', R v v' → P v → P v')
    (hf : ∀ a s', Q a s' → Finally (f a) s' fun s' => P (view s')) :
    Finally (p >>= f) s fun s' => P (view s') := by
  have hend := of_tracks hp hs hkeep
  have hreturns := hp.returns
  have hrun := bind_apply p f s
  unfold Finally at hend ⊢
  rcases hps : p s with ⟨_ | _ | _, s'⟩ <;> rw [hps] at hend hreturns hrun <;> rw [hrun]
  · exact hf _ _ (hreturns _ rfl)
  · exact hend
  · exact hend

/-- A pure computation that returns goes on. -/
lemma of_ok {x : Except ε α} {a : α} (h : x = .ok a) (hf : Finally (f a) s P) :
    Finally (Action.ofExcept x >>= f) s P := by
  rw [h]
  exact hf

/-- A pure computation that raises leaves the state. -/
lemma of_error {x : Except ε α} {e : ε} (h : x = .error e) (hs : P s) :
    Finally (Action.ofExcept x >>= f) s P := by
  rw [h]
  exact hs

/-- A run that goes on, when what is known of the state is kept by the rest. -/
lemma seq (hp : Finally p s P) (hf : ∀ a s', P s' → Finally (f a) s' P) :
    Finally (p >>= f) s P := by
  have hrun := bind_apply p f s
  unfold Finally at hp ⊢
  rcases hps : p s with ⟨_ | _ | _, s'⟩ <;> rw [hps] at hp hrun <;> rw [hrun]
  · exact hf _ _ hp
  · exact hp
  · exact hp

/-- A handler that keeps what is known of the state. -/
lemma tryCatch {h : ε → Action ε' σ α} (hp : Finally p s P)
    (hh : ∀ e s', P s' → Finally (h e) s' P) : Finally (tryCatch p h) s P := by
  have hrun := tryCatch_apply p h s
  unfold Finally at hp ⊢
  rcases hps : p s with ⟨_ | _ | _, s'⟩ <;> rw [hps] at hp hrun <;> rw [hrun]
  · exact hp
  · exact hh _ _ hp
  · exact hp

/-- A clean-up that keeps what is known of the state. -/
lemma ensure {q : Action ε σ Unit} (hp : Finally p s P)
    (hq : ∀ s', P s' → Finally q s' P) : Finally (ensure p q) s P := by
  have hrun := ensure_apply p q s
  unfold Finally at hp ⊢
  rcases hps : p s with ⟨_ | _ | _, s'⟩ <;> rw [hps] at hp hrun <;> rw [hrun]
  · exact seq (f := fun _ => Action.ret _) (hq _ hp) fun _ _ h => h
  · exact seq (f := fun _ => Action.raise _) (hq _ hp) fun _ _ h => h
  · exact hp

end Finally

-- A run of a concrete action is not evaluated by the unifier.
attribute [irreducible] Ends

end EnjiGuard.Foundation.Action
