import EnjiGuard.Foundation.Action
import Mathlib.Order.Defs.Unbundled

/-!
# A run and the same run cut short

`Cuts R C p q s` says that the run of `p` from `s` is the run of `q` cut short: it is the same run,
or it crashes under `C` at a point that the run of `q` passes. The preorder `R` is what is known of
every stretch of the run of `q`: it holds from the start to the end, and from the start to a crash
of `p` and on to the end.
-/

namespace EnjiGuard.Foundation.Action

variable {ε ε' σ α β : Type} {R : σ → σ → Prop} {C : σ → Prop}

/-- The run of `p` from `s` is the run of `q`, or crashes on its way. -/
structure Cuts (R : σ → σ → Prop) (C : σ → Prop) (p q : Action ε σ α) (s : σ) : Prop where
  stretch : R s (q s).2
  cut : p s = q s ∨ ∃ s', p s = (.crashed, s') ∧ C s' ∧ R s s' ∧ R s' (q s).2

namespace Cuts

variable {p q : Action ε σ α} {f g : α → Action ε σ β} {s s' : σ}

/-- A part that is not cut. -/
lemma same (h : R s (p s).2) : Cuts R C p p s := ⟨h, .inl rfl⟩

lemma update {f : σ → σ} (h : R s (f s)) :
    Cuts R C (Action.update f : Action ε σ Unit) (Action.update f) s := same h

variable [IsPreorder σ R]

/-- A part that is cut off. -/
lemma crashed (hp : p s = (.crashed, s')) (hC : C s') (hs : R s s') (hq : R s' (q s).2) :
    Cuts R C p q s :=
  ⟨IsTrans.trans _ _ _ hs hq, .inr ⟨s', hp, hC, hs, hq⟩⟩

omit [IsPreorder σ R] in
/-- A run that no crash can lie on is not cut. -/
lemma eq_of (h : Cuts R C p q s) (hnever : ∀ s', C s' → ¬ R s' (q s).2) : p s = q s :=
  h.cut.resolve_right fun ⟨s', _, hC, _, hend⟩ => hnever s' hC hend

/-- The stretches before and after the cut. -/
lemma split (h : Cuts R C p q s) : R s (p s).2 ∧ R (p s).2 (q s).2 := by
  obtain ⟨hstretch, hcut⟩ := h
  rcases hcut with hsame | ⟨s', hcrash, -, hstart, hend⟩
  · rw [hsame]
    exact ⟨hstretch, refl _⟩
  · rw [hcrash]
    exact ⟨hstart, hend⟩

lemma pure (a : α) : Cuts R C (pure a : Action ε σ α) (pure a) s := same (refl s)

lemma raise (e : ε) : Cuts R C (Action.raise e : Action ε σ α) (Action.raise e) s := same (refl s)

lemma ofExcept (x : Except ε α) :
    Cuts R C (Action.ofExcept x : Action ε σ α) (Action.ofExcept x) s := by
  cases x <;> exact same (refl s)

/-- Runs that go on, after a first part, as others do. -/
lemma after {p' q' : Action ε' σ β} (h : Cuts R C p q s)
    (hcrash : ∀ s', p s = (.crashed, s') → p' s = (.crashed, s'))
    (hgo : ∀ o s', q s = (o, s') → ∃ f g : Action ε' σ β,
      (p s = (o, s') → p' s = f s') ∧ q' s = g s' ∧ Cuts R C f g s') : Cuts R C p' q' s := by
  obtain ⟨hstretch, hcut⟩ := h
  rcases hqs : q s with ⟨o, t⟩
  obtain ⟨f, g, hf, hg, hrest, hfg⟩ := hgo o t hqs
  rw [hqs] at hstretch hcut
  rw [← hg] at hrest hfg
  rcases hcut with hps | ⟨s', hps, hC, hstart, hend⟩
  · refine ⟨IsTrans.trans _ _ _ hstretch hrest, ?_⟩
    rw [hf hps]
    exact hfg.imp_right fun ⟨s', hp, hC, hs, hq⟩ =>
      ⟨s', hp, hC, IsTrans.trans _ _ _ hstretch hs, hq⟩
  · exact crashed (hcrash s' hps) hC hstart (IsTrans.trans _ _ _ hend hrest)

/-- Sequencing; the continuation may use what the whole run returned. -/
lemma seq (hp : Cuts R C p q s) (hf : ∀ a s', q s = (.ok a, s') → Cuts R C (f a) (g a) s') :
    Cuts R C (p >>= f) (q >>= g) s := by
  refine hp.after (fun s' h => by rw [bind_apply, h]) fun o s' hqs => ?_
  cases o with
  | ok a =>
    exact ⟨f a, g a, fun h => by rw [bind_apply, h], by rw [bind_apply, hqs], hf a s' hqs⟩
  | raised e =>
    exact ⟨Action.raise e, Action.raise e, fun h => by rw [bind_apply, h]; rfl,
      by rw [bind_apply, hqs]; rfl, raise e⟩
  | crashed =>
    exact ⟨Action.crash, Action.crash, fun h => by rw [bind_apply, h]; rfl,
      by rw [bind_apply, hqs]; rfl, same (refl s')⟩

lemma bind (hp : Cuts R C p q s) (hf : ∀ a s', R s s' → Cuts R C (f a) (g a) s') :
    Cuts R C (p >>= f) (q >>= g) s :=
  hp.seq fun a s' hqs => hf a s' (by have h := hp.stretch; rwa [hqs] at h)

lemma tryCatch {h k : ε → Action ε' σ α} (hp : Cuts R C p q s)
    (hh : ∀ e s', Cuts R C (h e) (k e) s') : Cuts R C (tryCatch p h) (tryCatch q k) s := by
  refine hp.after (fun s' h => by rw [tryCatch_apply, h]) fun o s' hqs => ?_
  cases o with
  | ok a =>
    exact ⟨Action.ret a, Action.ret a, fun h => by rw [tryCatch_apply, h]; rfl,
      by rw [tryCatch_apply, hqs]; rfl, pure a⟩
  | raised e =>
    exact ⟨h e, k e, fun h => by rw [tryCatch_apply, h], by rw [tryCatch_apply, hqs], hh e s'⟩
  | crashed =>
    exact ⟨Action.crash, Action.crash, fun h => by rw [tryCatch_apply, h]; rfl,
      by rw [tryCatch_apply, hqs]; rfl, same (refl s')⟩

lemma ensure {c d : Action ε σ Unit} (hp : Cuts R C p q s) (hc : ∀ s', Cuts R C c d s') :
    Cuts R C (ensure p c) (ensure q d) s := by
  refine hp.after (fun s' h => by rw [ensure_apply, h]) fun o s' hqs => ?_
  cases o with
  | ok a =>
    exact ⟨_, _, fun h => by rw [ensure_apply, h]; rfl, by rw [ensure_apply, hqs]; rfl,
      (hc s').bind fun _ _ _ => pure a⟩
  | raised e =>
    exact ⟨_, _, fun h => by rw [ensure_apply, h]; rfl, by rw [ensure_apply, hqs]; rfl,
      (hc s').bind fun _ _ _ => raise e⟩
  | crashed =>
    exact ⟨Action.crash, Action.crash, fun h => by rw [ensure_apply, h]; rfl,
      by rw [ensure_apply, hqs]; rfl, same (refl s')⟩

lemma each {g k : α → Action ε σ Unit} {as : List α} (hbody : ∀ a s', Cuts R C (g a) (k a) s') :
    Cuts R C (each g as) (each k as) s := by
  induction as generalizing s with
  | nil => exact same (refl s)
  | cons a as ih => exact bind (hbody a s) fun _ s' _ => ih

end Cuts

end EnjiGuard.Foundation.Action
