import EnjiGuard.Foundation.Action

/-!
# What an action leaves behind

`Leaves p s Q E C` says that a run of `p` from `s` returns under `Q`, raises under `E` or is cut
off by a crash under `C`. The condition of a crash is about the state the crash leaves, so that it
covers every point between two steps of the action.
-/

namespace EnjiGuard.Foundation.Action

variable {ε ε' σ α β : Type}

/-- A run of `p` from `s` returns under `Q`, raises under `E` or is cut off under `C`. -/
def Leaves (p : Action ε σ α) (s : σ) (Q : α → σ → Prop) (E : ε → σ → Prop) (C : σ → Prop) :
    Prop :=
  match p s with
  | (.ok a, s') => Q a s'
  | (.raised e, s') => E e s'
  | (.crashed, s') => C s'

namespace Leaves

variable {p : Action ε σ α} {f : α → Action ε σ β} {s : σ}
variable {Q P : α → σ → Prop} {Q₂ : β → σ → Prop} {E F : ε → σ → Prop} {C D : σ → Prop}

lemma ret {a : α} (h : Q a s) : Leaves (Action.ret a) s Q E C := h

lemma pure {a : α} (h : Q a s) : Leaves (pure a) s Q E C := h

lemma raise {e : ε} (h : E e s) : Leaves (Action.raise e : Action ε σ α) s Q E C := h

lemma state {Q : σ → σ → Prop} (h : Q s s) :
    Leaves (Action.state : Action ε σ σ) s Q E C := h

lemma weaken (hp : Leaves p s Q E C) (hQ : ∀ a s', Q a s' → P a s')
    (hE : ∀ e s', E e s' → F e s') (hC : ∀ s', C s' → D s') : Leaves p s P F D := by
  unfold Leaves at hp ⊢
  split at hp
  · exact hQ _ _ hp
  · exact hE _ _ hp
  · exact hC _ hp

/-- A run that goes on as another one. -/
lemma resume {q p : Action ε σ β} {s' : σ} (hrun : q s = p s') (hp : Leaves p s' Q₂ E C) :
    Leaves q s Q₂ E C := by
  unfold Leaves at hp ⊢
  rw [hrun]
  exact hp

lemma andThen (hp : Leaves p s Q E C) (hf : ∀ a s', Q a s' → Leaves (f a) s' Q₂ E C) :
    Leaves (andThen p f) s Q₂ E C := by
  unfold Leaves at hp
  have hrun := bind_apply p f s
  rcases h : p s with ⟨_ | _ | _, s'⟩ <;> rw [h] at hp hrun
  · exact resume hrun (hf _ _ hp)
  · exact resume (p := Action.raise _) hrun hp
  · exact resume (p := Action.crash) hrun hp

lemma bind (hp : Leaves p s Q E C) (hf : ∀ a s', Q a s' → Leaves (f a) s' Q₂ E C) :
    Leaves (p >>= f) s Q₂ E C := hp.andThen hf

lemma tryCatch {h : ε → Action ε' σ α} {E₂ : ε' → σ → Prop} (hp : Leaves p s Q E C)
    (hh : ∀ e s', E e s' → Leaves (h e) s' Q E₂ C) : Leaves (tryCatch p h) s Q E₂ C := by
  unfold Leaves at hp
  have hrun := tryCatch_apply p h s
  rcases hps : p s with ⟨_ | _ | _, s'⟩ <;> rw [hps] at hp hrun
  · exact resume (p := Action.ret _) hrun hp
  · exact resume hrun (hh _ _ hp)
  · exact resume (p := Action.crash) hrun hp

/-- A clean-up; when it raises, its exception replaces the result. -/
lemma ensure {q : Action ε σ Unit} (hp : Leaves p s Q E C)
    (hq : ∀ a s', Q a s' → Leaves q s' (fun _ => P a) F C)
    (he : ∀ e s', E e s' → Leaves q s' (fun _ => F e) F C) : Leaves (ensure p q) s P F C := by
  unfold Leaves at hp
  have hrun := ensure_apply p q s
  rcases hps : p s with ⟨_ | _ | _, s'⟩ <;> rw [hps] at hp hrun
  · exact resume hrun ((hq _ _ hp).andThen fun _ _ h => ret h)
  · exact resume hrun ((he _ _ hp).andThen fun _ _ h => raise h)
  · exact resume (p := Action.crash) hrun hp

/-- Whatever a run leaves, by the way it ends. -/
lemma elim (hp : Leaves p s Q E C) {P : Outcome ε α → σ → Prop}
    (hQ : ∀ a s', Q a s' → P (.ok a) s') (hE : ∀ e s', E e s' → P (.raised e) s')
    (hC : ∀ s', C s' → P .crashed s') : P (p s).1 (p s).2 := by
  unfold Leaves at hp
  rcases hps : p s with ⟨_ | _ | _, s'⟩ <;> rw [hps] at hp
  · exact hQ _ _ hp
  · exact hE _ _ hp
  · exact hC _ hp

end Leaves

end EnjiGuard.Foundation.Action
