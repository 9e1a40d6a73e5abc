import Mathlib.Data.List.Forall2

/-!
# Going through a list with a computation that may fail

A traversal in `Except` succeeds exactly when every step does, with the results in order. A
traversal that remembers the keys it has seen and refuses them a second time succeeds exactly when
it would without, and the keys are new and distinct.
-/

namespace EnjiGuard.Foundation

variable {α β ε : Type} {f : α → Except ε β} {as : List α} {bs : List β}

lemma bind_eq_ok_iff {x : Except ε α} {b : β} :
    (x >>= f) = .ok b ↔ ∃ a, x = .ok a ∧ f a = .ok b := by
  rcases x with e | a
  · simp [bind, Except.bind]
  · simp [bind, Except.bind]

lemma mapM_of_forall₂ (h : List.Forall₂ (fun a b => f a = .ok b) as bs) : as.mapM f = .ok bs := by
  induction h with
  | nil => rfl
  | cons hhead _ ih =>
    rw [List.mapM_cons, hhead, ih]
    rfl

lemma forall₂_of_mapM (h : as.mapM f = .ok bs) : List.Forall₂ (fun a b => f a = .ok b) as bs := by
  induction as generalizing bs with
  | nil =>
    cases h
    exact .nil
  | cons a as ih =>
    rw [List.mapM_cons] at h
    rcases hhead : f a with e | b
    · simp [hhead, bind, Except.bind] at h
    · rcases hrest : as.mapM f with e | rest
      · simp [hhead, hrest, bind, Except.bind] at h
      · simp only [hhead, hrest, bind, Except.bind, pure, Except.pure, Except.ok.injEq] at h
        subst h
        exact .cons hhead (ih hrest)

/-- A traversal succeeds with the results of its steps. -/
lemma mapM_eq_ok_iff : as.mapM f = .ok bs ↔ List.Forall₂ (fun a b => f a = .ok b) as bs :=
  ⟨forall₂_of_mapM, mapM_of_forall₂⟩

/-- The results of a traversal stand where their steps do. -/
lemma getElem?_of_mapM {n : Nat} {b : β} (h : as.mapM f = .ok bs) (hb : bs[n]? = some b) :
    ∃ a, as[n]? = some a ∧ f a = .ok b := by
  have hsteps := forall₂_of_mapM h
  clear h
  induction hsteps generalizing n with
  | nil => cases hb
  | cons hhead _ ih =>
    cases n with
    | zero =>
      cases hb
      exact ⟨_, rfl, hhead⟩
    | succ n => exact ih hb

/-- Every result of a traversal is that of a step. -/
lemma exists_of_mem_mapM {b : β} (h : as.mapM f = .ok bs) (hb : b ∈ bs) :
    ∃ a ∈ as, f a = .ok b := by
  obtain ⟨n, hn⟩ := List.getElem?_of_mem hb
  obtain ⟨a, ha, hstep⟩ := getElem?_of_mapM h hn
  exact ⟨a, List.mem_of_getElem? ha, hstep⟩

/-- A step of a traversal that succeeds has its result among the results. -/
lemma exists_mem_of_mapM {a : α} (h : as.mapM f = .ok bs) (ha : a ∈ as) :
    ∃ b ∈ bs, f a = .ok b := by
  have hsteps := forall₂_of_mapM h
  clear h
  induction hsteps with
  | nil => cases ha
  | cons hhead _ ih =>
    rcases List.mem_cons.1 ha with rfl | ha
    · exact ⟨_, List.mem_cons_self, hhead⟩
    · obtain ⟨b, hb, hstep⟩ := ih ha
      exact ⟨b, List.mem_cons_of_mem _ hb, hstep⟩

/-- A traversal whose steps all succeed succeeds, and what its steps guarantee holds of its
results. -/
lemma exists_mapM_of_forall {P : β → Prop} (h : ∀ a ∈ as, ∃ b, f a = .ok b ∧ P b) :
    ∃ bs, as.mapM f = .ok bs ∧ ∀ b ∈ bs, P b := by
  induction as with
  | nil => exact ⟨[], rfl, List.forall_mem_nil _⟩
  | cons a as ih =>
    obtain ⟨b, hb, hPb⟩ := h a List.mem_cons_self
    obtain ⟨bs, hbs, hPbs⟩ := ih fun other hother => h other (List.mem_cons_of_mem _ hother)
    refine ⟨b :: bs, ?_, List.forall_mem_cons.2 ⟨hPb, hPbs⟩⟩
    rw [List.mapM_cons, hb, hbs]
    rfl

lemma mapM_congr {g : α → Except ε β} (h : ∀ a ∈ as, f a = g a) : as.mapM f = as.mapM g := by
  induction as with
  | nil => rfl
  | cons a as ih =>
    rw [List.mapM_cons, List.mapM_cons, h a List.mem_cons_self,
      ih fun other hother => h other (List.mem_cons_of_mem _ hother)]

/-- A traversal with a second step goes on from the results of the first. -/
lemma mapM_bind_of_forall₂ {γ : Type} {g : β → Except ε γ}
    (h : List.Forall₂ (fun a b => f a = .ok b) as bs) :
    (as.mapM fun a => f a >>= g) = bs.mapM g := by
  induction h with
  | nil => rfl
  | cons hhead _ ih =>
    rw [List.mapM_cons, List.mapM_cons, hhead, ih]
    rfl

/-! ### Traversals that fail alike -/

section

variable {γ : Type} {R : β → γ → Prop}

/-- Two computations fail alike, or have related results. -/
inductive Alike (R : β → γ → Prop) : Except ε β → Except ε γ → Prop
  | error (e : ε) : Alike R (.error e) (.error e)
  | ok {b : β} {c : γ} (h : R b c) : Alike R (.ok b) (.ok c)

lemma Alike.mapM {g : α → Except ε γ} (h : ∀ a, Alike R (f a) (g a)) (as : List α) :
    Alike (List.Forall₂ R) (as.mapM f) (as.mapM g) := by
  induction as with
  | nil => exact .ok .nil
  | cons a as ih =>
    rw [List.mapM_cons, List.mapM_cons]
    have hhead := h a
    revert hhead
    rcases f a with e | b <;> rcases g a with e' | c <;> intro hhead
    · cases hhead
      exact .error _
    · cases hhead
    · cases hhead
    · cases hhead with
      | ok hhead =>
        revert ih
        rcases as.mapM f with e | bs <;> rcases as.mapM g with e' | cs <;> intro ih
        · cases ih
          exact .error _
        · cases ih
        · cases ih
        · cases ih with
          | ok hrest => exact .ok (.cons hhead hrest)

end

/-! ### Distinct keys -/

section

variable {κ : Type} {parse : List κ → α → Except ε β} {key : β → κ} {seen : List κ}

/-- Goes through a list with what has been seen, each result's key added to it. -/
def parseDistinct (parse : List κ → α → Except ε β) (key : β → κ) :
    List κ → List α → Except ε (List β)
  | _, [] => .ok []
  | seen, a :: as => do
    let b ← parse seen a
    let bs ← parseDistinct parse key (key b :: seen) as
    return b :: bs

/-- A step that refuses what has been seen, and is the same otherwise. -/
def Distinguishes (parse : List κ → α → Except ε β) (key : β → κ) : Prop :=
  ∀ seen a b, parse seen a = .ok b ↔ parse [] a = .ok b ∧ key b ∉ seen

lemma parseDistinct_cons_eq_ok_iff {a : α} {as : List α} {bs : List β} :
    parseDistinct parse key seen (a :: as) = .ok bs ↔
      ∃ b rest, parse seen a = .ok b ∧ parseDistinct parse key (key b :: seen) as = .ok rest ∧
        bs = b :: rest := by
  rw [parseDistinct]
  rcases hstep : parse seen a with e | b
  · simp [bind, Except.bind]
  · rcases hrest : parseDistinct parse key (key b :: seen) as with e | rest
    · simp [hrest, bind, Except.bind]
    · simp [hrest, bind, Except.bind, pure, Except.pure, eq_comm]

/-- It succeeds with the results of its steps when their keys are new and distinct. -/
lemma parseDistinct_eq_ok_iff (h : Distinguishes parse key) :
    parseDistinct parse key seen as = .ok bs ↔
      as.mapM (parse []) = .ok bs ∧ (bs.map key).Nodup ∧ ∀ b ∈ bs, key b ∉ seen := by
  induction as generalizing seen bs with
  | nil =>
    rw [parseDistinct, List.mapM_nil]
    constructor
    · intro hbs
      cases hbs
      exact ⟨rfl, List.nodup_nil, List.forall_mem_nil _⟩
    · exact fun hbs => hbs.1
  | cons a as ih =>
    rw [parseDistinct_cons_eq_ok_iff, mapM_eq_ok_iff]
    constructor
    · rintro ⟨b, rest, hstep, hrest, rfl⟩
      obtain ⟨hsteps, hnodup, hnew⟩ := ih.1 hrest
      obtain ⟨hparse, hkey⟩ := (h seen a b).1 hstep
      refine ⟨.cons hparse (forall₂_of_mapM hsteps), List.nodup_cons.2 ⟨?_, hnodup⟩, ?_⟩
      · intro hmem
        obtain ⟨c, hc, hceq⟩ := List.mem_map.1 hmem
        exact hnew c hc (hceq ▸ List.mem_cons_self)
      · intro c hc
        rcases List.mem_cons.1 hc with rfl | hc
        · exact hkey
        · exact fun hmem => hnew c hc (List.mem_cons_of_mem _ hmem)
    · rintro ⟨hsteps, hnodup, hnew⟩
      cases hsteps with
      | @cons _ b _ rest hparse hrest =>
        obtain ⟨hkey, hnodup⟩ := List.nodup_cons.1 hnodup
        refine ⟨b, rest, (h seen a b).2 ⟨hparse, hnew b List.mem_cons_self⟩,
          ih.2 ⟨mapM_of_forall₂ hrest, hnodup, fun c hc hmem => ?_⟩, rfl⟩
        rcases List.mem_cons.1 hmem with heq | hmem
        · exact hkey (heq ▸ List.mem_map_of_mem hc)
        · exact hnew c (List.mem_cons_of_mem _ hc) hmem

end

end EnjiGuard.Foundation
