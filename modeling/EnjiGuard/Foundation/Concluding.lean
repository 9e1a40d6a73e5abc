import EnjiGuard.Foundation.Ending

/-!
# How an action ends when its surroundings may fail

The surroundings of an action may fail: an operation raises an error of theirs, or the process
crashes. `Concludes F p s Q E` says that apart from such failures a run of `p` from `s` returns
under `Q` or raises under `E`. Where no failure is possible this is `Ends p s Q E`.
-/

namespace EnjiGuard.Foundation.Action

open Relation

/-- What the surroundings of an action can do to it. -/
structure Faults (ε : Type) where
  /-- Whether they can fail at all. -/
  possible : Prop
  /-- The errors a failure can raise. -/
  error : ε → Prop

variable {ε σ α β V : Type}

/-- An error that a failure of the surroundings raised. -/
def Faults.Excuses (F : Faults ε) (e : ε) : Prop := F.possible ∧ F.error e

/-- Apart from failures of its surroundings, a run of `p` from `s` returns under `Q` or raises
under `E`. -/
structure Concludes (F : Faults ε) (p : Action ε σ α) (s : σ) (Q : α → σ → Prop)
    (E : ε → σ → Prop) : Prop where
  returns : ∀ a, (p s).1 = .ok a → Q a (p s).2
  raises : ∀ e, (p s).1 = .raised e → E e (p s).2 ∨ F.Excuses e
  crashes : (p s).1 = .crashed → F.possible

namespace Concludes

variable {F : Faults ε} {p : Action ε σ α} {f : α → Action ε σ β} {s : σ}
variable {Q P : α → σ → Prop} {Q₂ : β → σ → Prop} {E E' : ε → σ → Prop}

lemma ret {a : α} (h : Q a s) : Concludes F (Action.ret a) s Q E :=
  ⟨by rintro _ ⟨⟩; exact h, by rintro _ ⟨⟩, by rintro ⟨⟩⟩

lemma pure {a : α} (h : Q a s) : Concludes F (pure a) s Q E := Concludes.ret h

lemma raise {e : ε} (h : E e s) : Concludes F (raise e : Action ε σ α) s Q E :=
  ⟨by rintro _ ⟨⟩, by rintro _ ⟨⟩; exact .inl h, by rintro ⟨⟩⟩

/-- An error of the surroundings may be passed on. -/
lemma excused {e : ε} (h : F.Excuses e) :
    Concludes F (Action.raise e : Action ε σ α) s Q E :=
  ⟨by rintro _ ⟨⟩, by rintro _ ⟨⟩; exact .inr h, by rintro ⟨⟩⟩

lemma state {Q : σ → σ → Prop} (h : Q s s) :
    Concludes F (Action.state : Action ε σ σ) s Q E :=
  ⟨by rintro _ ⟨⟩; exact h, by rintro _ ⟨⟩, by rintro ⟨⟩⟩

lemma update {g : σ → σ} {Q : Unit → σ → Prop} (h : Q () (g s)) :
    Concludes F (Action.update g : Action ε σ Unit) s Q E :=
  ⟨by rintro _ ⟨⟩; exact h, by rintro _ ⟨⟩, by rintro ⟨⟩⟩

/-- A run that is known to return. -/
lemma of_run {a : α} {s' : σ} (hrun : p s = (.ok a, s')) (h : Q a s') : Concludes F p s Q E := by
  constructor <;> rw [hrun]
  · rintro _ ⟨⟩
    exact h
  · rintro _ ⟨⟩
  · rintro ⟨⟩

lemma weaken (hp : Concludes F p s Q E) (hQ : ∀ a s', Q a s' → P a s')
    (hE : ∀ e s', E e s' → E' e s') : Concludes F p s P E' :=
  ⟨fun a h => hQ _ _ (hp.returns a h), fun e h => (hp.raises e h).imp_left (hE _ _), hp.crashes⟩

/-- A run that goes on as another one. -/
lemma resume {q p : Action ε σ β} {s' : σ} (hrun : q s = p s') (hp : Concludes F p s' Q₂ E) :
    Concludes F q s Q₂ E :=
  ⟨hrun ▸ hp.returns, hrun ▸ hp.raises, hrun ▸ hp.crashes⟩

lemma bind (hp : Concludes F p s Q E) (hf : ∀ a s', Q a s' → Concludes F (f a) s' Q₂ E) :
    Concludes F (p >>= f) s Q₂ E := by
  have hreturns := hp.returns
  have hraises := hp.raises
  have hcrashes := hp.crashes
  have hrun := bind_apply p f s
  rcases hps : p s with ⟨_ | e | _, s'⟩ <;> rw [hps] at hreturns hraises hcrashes hrun
  · exact resume hrun (hf _ _ (hreturns _ rfl))
  · refine resume (p := Action.raise e) hrun ?_
    rcases hraises e rfl with h | h
    · exact Concludes.raise h
    · exact Concludes.excused h
  · refine resume (p := Action.crash) hrun ⟨by rintro _ ⟨⟩, by rintro _ ⟨⟩, fun _ => hcrashes rfl⟩

/-- A handler; it is also given the errors of the surroundings. -/
lemma tryCatch {h : ε → Action ε σ α} (hp : Concludes F p s Q E)
    (hh : ∀ e s', E e s' ∨ F.Excuses e → Concludes F (h e) s' Q E') :
    Concludes F (tryCatch p h) s Q E' := by
  have hreturns := hp.returns
  have hraises := hp.raises
  have hcrashes := hp.crashes
  have hrun := tryCatch_apply p h s
  rcases hps : p s with ⟨_ | e | _, s'⟩ <;> rw [hps] at hreturns hraises hcrashes hrun
  · exact resume (p := Action.ret _) hrun (Concludes.ret (hreturns _ rfl))
  · exact resume hrun (hh _ _ (hraises e rfl))
  · refine resume (p := Action.crash) hrun ⟨by rintro _ ⟨⟩, by rintro _ ⟨⟩, fun _ => hcrashes rfl⟩

/-- A clean-up that keeps the postconditions. -/
lemma ensure {q : Action ε σ Unit} (hp : Concludes F p s Q E)
    (hq : ∀ s', Concludes F q s' (fun _ s'' => (∀ a, Q a s' → Q a s'') ∧
      ∀ e, E e s' → E e s'') fun _ _ => False) : Concludes F (ensure p q) s Q E := by
  have hreturns := hp.returns
  have hraises := hp.raises
  have hcrashes := hp.crashes
  have hrun := ensure_apply p q s
  rcases hps : p s with ⟨_ | e | _, s'⟩ <;> rw [hps] at hreturns hraises hcrashes hrun
  · refine resume hrun (Concludes.bind (f := fun _ => Action.ret _)
      ((hq s').weaken (fun _ _ h => h) fun _ _ h => h.elim) fun _ s'' h => ?_)
    exact Concludes.ret (h.1 _ (hreturns _ rfl))
  · refine resume hrun (Concludes.bind (f := fun _ => Action.raise e)
      ((hq s').weaken (fun _ _ h => h) fun _ _ h => h.elim) fun _ s'' h => ?_)
    rcases hraises e rfl with hraised | hexcused
    · exact Concludes.raise (h.2 _ hraised)
    · exact Concludes.excused hexcused
  · refine resume (p := Action.crash) hrun ⟨by rintro _ ⟨⟩, by rintro _ ⟨⟩, fun _ => hcrashes rfl⟩

lemma ofExcept {x : Except ε α} (hok : ∀ a, x = .ok a → Q a s)
    (herr : ∀ e, x = .error e → E e s) : Concludes F (Action.ofExcept x) s Q E := by
  cases x with
  | ok a => exact Concludes.ret (hok a rfl)
  | error e => exact Concludes.raise (herr e rfl)

/-- A pure computation that returns goes on. -/
lemma of_ok {x : Except ε α} {a : α} (h : x = .ok a) (hf : Concludes F (f a) s Q₂ E) :
    Concludes F (Action.ofExcept x >>= f) s Q₂ E := by
  rw [h]
  exact resume rfl hf

/-- A pure computation that raises ends the action. -/
lemma of_error {x : Except ε α} {e : ε} (h : x = .error e) (hE : E e s) :
    Concludes F (Action.ofExcept x >>= f) s Q₂ E := by
  rw [h]
  exact resume (p := Action.raise e) rfl (Concludes.raise hE)

/-- A pure computation may pass an error of the surroundings on. -/
lemma of_excused {x : Except ε α} {e : ε} (h : x = .error e) (hexcused : F.Excuses e) :
    Concludes F (Action.ofExcept x >>= f) s Q₂ E := by
  rw [h]
  exact resume (p := Action.raise e) rfl (Concludes.excused hexcused)

/-- A loop keeps an invariant. -/
lemma each {g : α → Action ε σ Unit} {I : σ → Prop} {as : List α} (hs : I s)
    (hbody : ∀ a s', I s' → Concludes F (g a) s' (fun _ => I) E) :
    Concludes F (each g as) s (fun _ => I) E := by
  induction as generalizing s with
  | nil => exact Concludes.ret hs
  | cons a as ih => exact Concludes.bind (hbody a s hs) fun _ s' hs' => ih hs'

/-- A conclusion may be used with what the run tracks. -/
lemma and_tracks {view : σ → V} {R : V → V → Prop} (hp : Concludes F p s Q E)
    (ht : Tracks view R p s P E') :
    Concludes F p s (fun a s' => Q a s' ∧ P a s' ∧ ReflTransGen R (view s) (view s'))
      (fun e s' => E e s' ∧ E' e s') :=
  ⟨fun a h => ⟨hp.returns a h, ht.returns a h, ht.moves⟩,
    fun e h => (hp.raises e h).imp_left fun hE => ⟨hE, ht.raises e h⟩, hp.crashes⟩

/-- Where the surroundings do not fail, an action ends as it concludes. -/
lemma ends (hp : Concludes F p s Q E) (hF : ¬ F.possible) : Ends p s Q E := by
  have hreturns := hp.returns
  have hraises := hp.raises
  have hcrashes := hp.crashes
  unfold Ends
  rcases hps : p s with ⟨_ | e | _, s'⟩ <;> rw [hps] at hreturns hraises hcrashes
  · exact hreturns _ rfl
  · exact (hraises e rfl).resolve_right fun hexcused => hF hexcused.1
  · exact hF (hcrashes rfl)

end Concludes

end EnjiGuard.Foundation.Action
