import EnjiGuard.Foundation.Action

/-!
# Two runs side by side

`Couples R X p q s t` says that `p` from `s` and `q` from `t` end the same way: both return the same
value, or raise errors that `X` relates, or crash, and in each case the states they leave are
related by `R`. The rules follow the constructs of actions, with one relation on the states for the
whole of two programs of one shape.
-/

namespace EnjiGuard.Foundation.Action

variable {ε ε' δ δ' σ τ α β : Type}

/-- Two runs end the same way, in related states. -/
inductive Paired (R : σ → τ → Prop) (X : ε → ε' → Prop) :
    Outcome ε α × σ → Outcome ε' α × τ → Prop
  | returned {s : σ} {t : τ} (a : α) (h : R s t) : Paired R X (.ok a, s) (.ok a, t)
  | raised {s : σ} {t : τ} {e : ε} {e' : ε'} (he : X e e') (h : R s t) :
      Paired R X (.raised e, s) (.raised e', t)
  | crashed {s : σ} {t : τ} (h : R s t) : Paired R X (.crashed, s) (.crashed, t)

section

variable {R R' : σ → τ → Prop} {X X' : ε → ε' → Prop}

lemma Paired.weaken {x : Outcome ε α × σ} {y : Outcome ε' α × τ} (h : Paired R X x y)
    (hR : ∀ s t, R s t → R' s t) (hX : ∀ e e', X e e' → X' e e') : Paired R' X' x y := by
  cases h with
  | returned a h => exact .returned a (hR _ _ h)
  | raised he h => exact .raised (hX _ _ he) (hR _ _ h)
  | crashed h => exact .crashed (hR _ _ h)

lemma Paired.outcome_eq {x : Outcome ε α × σ} {y : Outcome ε α × τ} (h : Paired R Eq x y) :
    x.1 = y.1 ∧ R x.2 y.2 := by
  cases h with
  | returned a h => exact ⟨rfl, h⟩
  | raised he h => exact ⟨congrArg Outcome.raised he, h⟩
  | crashed h => exact ⟨rfl, h⟩

end

/-- A run of `p` from `s` and a run of `q` from `t` end the same way. -/
def Couples (R : σ → τ → Prop) (X : ε → ε' → Prop) (p : Action ε σ α) (q : Action ε' τ α) (s : σ)
    (t : τ) : Prop := Paired R X (p s) (q t)

namespace Couples

variable {R : σ → τ → Prop} {X : ε → ε' → Prop} {Y : δ → δ' → Prop}
variable {p : Action ε σ α} {q : Action ε' τ α} {f : α → Action ε σ β} {g : α → Action ε' τ β}
variable {s : σ} {t : τ}

lemma ret {a : α} (h : R s t) : Couples R X (Action.ret a) (Action.ret a) s t := .returned a h

lemma pure {a : α} (h : R s t) :
    Couples R X (pure a : Action ε σ α) (pure a : Action ε' τ α) s t := .returned a h

lemma raise {e : ε} {e' : ε'} (he : X e e') (h : R s t) :
    Couples R X (Action.raise e : Action ε σ α) (Action.raise e' : Action ε' τ α) s t :=
  .raised he h

lemma update {f : σ → σ} {g : τ → τ} (h : R (f s) (g t)) :
    Couples R X (Action.update f : Action ε σ Unit) (Action.update g : Action ε' τ Unit) s t :=
  .returned () h

/-- Runs that go on as other ones. -/
lemma resume {f : Action ε σ α} {g : Action ε' τ α} {s' : σ} {t' : τ} (hp : p s = f s')
    (hq : q t = g t') (h : Couples R X f g s' t') : Couples R X p q s t := by
  unfold Couples
  rw [hp, hq]
  exact h

/-- Looking at the state. -/
lemma state {f : σ → Action ε σ α} {g : τ → Action ε' τ α} (h : Couples R X (f s) (g t) s t) :
    Couples R X (Action.state >>= f) (Action.state >>= g) s t := resume rfl rfl h

/-- Sequencing, with a closer relation in between; the continuation may use what the first run
returned. -/
lemma seq {S : σ → τ → Prop} (hp : Couples S X p q s t) (hR : ∀ s t, S s t → R s t)
    (hf : ∀ a s' t', p s = (.ok a, s') → S s' t' → Couples R X (f a) (g a) s' t') :
    Couples R X (p >>= f) (q >>= g) s t := by
  have hrun := bind_apply p f s
  have hrun' := bind_apply q g t
  unfold Couples at hp
  rcases hps : p s with ⟨o, s'⟩
  rcases hqt : q t with ⟨o', t'⟩
  rw [hps, hqt] at hp
  rw [hps] at hrun
  rw [hqt] at hrun'
  cases hp with
  | returned a h => exact resume hrun hrun' (hf a s' t' hps h)
  | raised he h =>
    exact resume (f := Action.raise _) (g := Action.raise _) hrun hrun' (raise he (hR _ _ h))
  | crashed h =>
    exact resume (f := Action.crash) (g := Action.crash) hrun hrun' (.crashed (hR _ _ h))

lemma bind (hp : Couples R X p q s t) (hf : ∀ a s' t', p s = (.ok a, s') → R s' t' →
    Couples R X (f a) (g a) s' t') : Couples R X (p >>= f) (q >>= g) s t :=
  seq hp (fun _ _ h => h) hf

/-- Handlers of related errors. -/
lemma tryCatch {h : ε → Action δ σ α} {k : ε' → Action δ' τ α} (hp : Couples R X p q s t)
    (hh : ∀ e e' s' t', X e e' → R s' t' → Couples R Y (h e) (k e') s' t') :
    Couples R Y (tryCatch p h) (tryCatch q k) s t := by
  have hrun := tryCatch_apply p h s
  have hrun' := tryCatch_apply q k t
  unfold Couples at hp
  rcases hps : p s with ⟨o, s'⟩
  rcases hqt : q t with ⟨o', t'⟩
  rw [hps, hqt] at hp
  rw [hps] at hrun
  rw [hqt] at hrun'
  cases hp with
  | returned a h => exact resume (f := Action.ret a) (g := Action.ret a) hrun hrun' (ret h)
  | raised he h => exact resume hrun hrun' (hh _ _ _ _ he h)
  | crashed h => exact resume (f := Action.crash) (g := Action.crash) hrun hrun' (.crashed h)

/-- Clean-ups that do the same. -/
lemma ensure {c : Action ε σ Unit} {d : Action ε' τ Unit} (hp : Couples R X p q s t)
    (hc : ∀ s' t', R s' t' → Couples R X c d s' t') :
    Couples R X (ensure p c) (ensure q d) s t := by
  have hrun := ensure_apply p c s
  have hrun' := ensure_apply q d t
  unfold Couples at hp
  rcases hps : p s with ⟨o, s'⟩
  rcases hqt : q t with ⟨o', t'⟩
  rw [hps, hqt] at hp
  rw [hps] at hrun
  rw [hqt] at hrun'
  cases hp with
  | returned a h =>
    exact resume hrun hrun' (bind (f := fun _ => Action.ret a) (g := fun _ => Action.ret a)
      (hc _ _ h) fun _ _ _ _ h' => ret h')
  | raised he h =>
    exact resume hrun hrun' (bind (f := fun _ => Action.raise _) (g := fun _ => Action.raise _)
      (hc _ _ h) fun _ _ _ _ h' => raise he h')
  | crashed h => exact resume (f := Action.crash) (g := Action.crash) hrun hrun' (.crashed h)

lemma ofExcept {x : Except ε α} {Z : ε → ε → Prop} {R : σ → τ → Prop} (hZ : ∀ e, Z e e)
    (h : R s t) : Couples R Z (Action.ofExcept x : Action ε σ α) (Action.ofExcept x) s t := by
  cases x with
  | ok a => exact ret h
  | error e => exact raise (hZ e) h

/-- One action from one state. -/
lemma same {p : Action ε σ α} {R : σ → σ → Prop} {Z : ε → ε → Prop} (hR : ∀ s, R s s)
    (hZ : ∀ e, Z e e) : Couples R Z p p s s := by
  unfold Couples
  rcases p s with ⟨_ | _ | _, s'⟩
  · exact .returned _ (hR s')
  · exact .raised (hZ _) (hR s')
  · exact .crashed (hR s')

/-- Loops over the same elements. -/
lemma each {g : α → Action ε σ Unit} {k : α → Action ε' τ Unit} {as : List α} (h : R s t)
    (hbody : ∀ a s' t', R s' t' → Couples R X (g a) (k a) s' t') :
    Couples R X (each g as) (each k as) s t := by
  induction as generalizing s t with
  | nil => exact ret h
  | cons a as ih => exact bind (hbody a s t h) fun _ _ _ _ h' => ih h'

/-- More states and errors may be related. -/
lemma weaken {R' : σ → τ → Prop} {X' : ε → ε' → Prop} (hp : Couples R X p q s t)
    (hR : ∀ s t, R s t → R' s t) (hX : ∀ e e', X e e' → X' e e') : Couples R' X' p q s t :=
  Paired.weaken hp hR hX

/-- Coupled runs with equal errors have the same outcome. -/
lemma outcome_eq {q : Action ε τ α} {R : σ → τ → Prop} (hp : Couples R Eq p q s t) :
    (p s).1 = (q t).1 ∧ R (p s).2 (q t).2 := Paired.outcome_eq hp

end Couples

end EnjiGuard.Foundation.Action
