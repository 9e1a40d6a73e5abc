import Mathlib.Tactic.Common

/-!
# Runs of a labelled transition system

A system is a function `step` that says where a label leads, when it is enabled. A `Path` is a
finite run; `ok` is a condition every step of it meets, on the state before the step and the
label. Invariants are proved once for a step and then hold along every path.
-/

namespace EnjiGuard.Foundation

variable {S L : Type}

/-- A run under `step` from one state to another whose every step meets `ok`. -/
inductive Path (step : S → L → Option S) (ok : S → L → Prop) : S → List L → S → Prop
  | nil (s : S) : Path step ok s [] s
  | cons {s₀ s₁ s₂ : S} {l : L} {ls : List L} (hok : ok s₀ l) (hstep : step s₀ l = some s₁)
      (rest : Path step ok s₁ ls s₂) : Path step ok s₀ (l :: ls) s₂

/-- The states some run from an initial state leads to. -/
def Reachable (init : S → Prop) (step : S → L → Option S) (ok : S → L → Prop) (s : S) : Prop :=
  ∃ s₀ ls, init s₀ ∧ Path step ok s₀ ls s

namespace Path

variable {step : S → L → Option S} {ok ok' : S → L → Prop} {I : S → Prop}
variable {s s₀ s₁ s₂ : S} {l : L} {ls ls' : List L}

/-- A property every step keeps holds at the end of a run when it holds at the start. -/
lemma invariant (h : Path step ok s₀ ls s₁) (h₀ : I s₀)
    (hstep : ∀ s l s', I s → ok s l → step s l = some s' → I s') : I s₁ := by
  induction h with
  | nil => exact h₀
  | cons hok hs _ ih => exact ih (hstep _ _ _ h₀ hok hs)

lemma append (h : Path step ok s₀ ls s₁) (h' : Path step ok s₁ ls' s₂) :
    Path step ok s₀ (ls ++ ls') s₂ := by
  induction h with
  | nil => exact h'
  | cons hok hs _ ih => exact .cons hok hs (ih h')

lemma snoc (h : Path step ok s₀ ls s₁) (hok : ok s₁ l) (hs : step s₁ l = some s₂) :
    Path step ok s₀ (ls ++ [l]) s₂ := h.append (.cons hok hs (.nil _))

/-- A weaker condition admits more runs. -/
lemma mono (h : Path step ok s₀ ls s₁) (hok : ∀ s l, ok s l → ok' s l) :
    Path step ok' s₀ ls s₁ := by
  induction h with
  | nil => exact .nil _
  | cons h hs _ ih => exact .cons (hok _ _ h) hs ih

/-- The condition may be strengthened by an invariant of the run. -/
lemma strengthen (h : Path step ok s₀ ls s₁) (h₀ : I s₀)
    (hstep : ∀ s l s', I s → ok s l → step s l = some s' → I s') :
    Path step (fun s l => ok s l ∧ I s) s₀ ls s₁ := by
  induction h with
  | nil => exact .nil _
  | cons hok hs _ ih => exact .cons ⟨hok, h₀⟩ hs (ih (hstep _ _ _ h₀ hok hs))

end Path

/-- Whether a step of the run with the labels from a state is one of `P`. -/
def Happens (step : S → L → Option S) (P : S → L → Prop) : S → List L → Prop
  | _, [] => False
  | s, l :: ls => P s l ∨ ∃ s', step s l = some s' ∧ Happens step P s' ls

/-- What every step keeps unless it is one of `P`, a run keeps unless such a step happens. -/
lemma Path.keeps_unless {step : S → L → Option S} {ok P : S → L → Prop} {I : S → Prop}
    {s₀ s₁ : S} {ls : List L} (h : Path step ok s₀ ls s₁) (h₀ : I s₀)
    (hstep : ∀ s l s', I s → ok s l → step s l = some s' → I s' ∨ P s l) :
    I s₁ ∨ Happens step P s₀ ls := by
  induction h with
  | nil => exact Or.inl h₀
  | cons hok hs _ ih =>
    rcases hstep _ _ _ h₀ hok hs with hI | hP
    · exact (ih hI).imp_right fun hlater => Or.inr ⟨_, hs, hlater⟩
    · exact Or.inr (Or.inl hP)

/-- Runs the labels in order while a check admits them. -/
def replay (step : S → L → Option S) (check : S → L → Bool) : S → List L → Option S
  | s, [] => some s
  | s, l :: ls => if check s l then (step s l).bind fun s' => replay step check s' ls else none

/-- A run that was replayed under a check is a path under what the check decides. -/
lemma Path.of_replay {step : S → L → Option S} {ok : S → L → Prop} {check : S → L → Bool}
    {s s' : S} {ls : List L} (hcheck : ∀ l ∈ ls, ∀ s, check s l = true → ok s l)
    (h : replay step check s ls = some s') : Path step ok s ls s' := by
  induction ls generalizing s with
  | nil => cases h; exact .nil _
  | cons l ls ih =>
    simp only [replay] at h
    split_ifs at h with hl
    obtain ⟨s₁, hstep, hrest⟩ := Option.bind_eq_some_iff.1 h
    exact .cons (hcheck l List.mem_cons_self _ hl) hstep
      (ih (fun l' hl' => hcheck l' (List.mem_cons_of_mem _ hl')) hrest)

namespace Reachable

variable {init : S → Prop} {step : S → L → Option S} {ok ok' : S → L → Prop} {I : S → Prop}
variable {s : S}

/-- A property of the initial states that every step keeps holds in every reachable state. -/
lemma invariant (h : Reachable init step ok s) (hinit : ∀ s, init s → I s)
    (hstep : ∀ s l s', I s → ok s l → step s l = some s' → I s') : I s := by
  obtain ⟨s₀, ls, h₀, hpath⟩ := h
  exact hpath.invariant (hinit s₀ h₀) hstep

/-- A weaker condition makes more states reachable. -/
lemma mono (h : Reachable init step ok s) (hok : ∀ s l, ok s l → ok' s l) :
    Reachable init step ok' s := by
  obtain ⟨s₀, ls, h₀, hpath⟩ := h
  exact ⟨s₀, ls, h₀, hpath.mono hok⟩

lemma start (h : init s) : Reachable init step ok s := ⟨s, [], h, .nil s⟩

lemma next {l : L} {s' : S} (h : Reachable init step ok s) (hok : ok s l)
    (hs : step s l = some s') : Reachable init step ok s' := by
  obtain ⟨s₀, ls, h₀, hpath⟩ := h
  exact ⟨s₀, ls ++ [l], h₀, hpath.snoc hok hs⟩

end Reachable

end EnjiGuard.Foundation
