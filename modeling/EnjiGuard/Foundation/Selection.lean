import Mathlib.Data.List.Basic
import Mathlib.Order.Lattice

/-!
# The first greatest element of a list

`maxOf? lt` picks the first element that no later one exceeds on the way. Nothing is asked of `lt`
to know that the choice is an element of the list; that it has the greatest rank needs `lt` to
follow the rank.
-/

namespace EnjiGuard.Foundation

variable {α : Type} {lt : α → α → Bool}

/-- The first greatest of an element and the elements after it. -/
def maxFrom (lt : α → α → Bool) : α → List α → α
  | a, [] => a
  | a, b :: bs => maxFrom lt (if lt a b then b else a) bs

/-- The first greatest element. -/
def maxOf? (lt : α → α → Bool) : List α → Option α
  | [] => none
  | a :: as => some (maxFrom lt a as)

lemma maxFrom_mem (a : α) (as : List α) : maxFrom lt a as ∈ a :: as := by
  induction as generalizing a with
  | nil => simp [maxFrom]
  | cons b bs ih =>
    rw [maxFrom]
    have := ih (if lt a b then b else a)
    split_ifs at this ⊢
    · exact List.mem_cons_of_mem _ this
    · rcases List.mem_cons.1 this with h | h
      · rw [h]
        exact List.mem_cons_self
      · exact List.mem_cons_of_mem _ (List.mem_cons_of_mem _ h)

lemma maxOf?_mem {as : List α} {a : α} (h : maxOf? lt as = some a) : a ∈ as := by
  cases as with
  | nil => cases h
  | cons b bs =>
    cases h
    exact maxFrom_mem b bs

@[simp] lemma maxOf?_eq_none {as : List α} : maxOf? lt as = none ↔ as = [] := by
  cases as <;> simp [maxOf?]

/-- A choice is of the greatest rank, when what is greater does not rank lower. -/
lemma rank_le_maxFrom {rank : α → Nat} (hlt : ∀ a b, rank a < rank b → lt a b = true)
    (hle : ∀ a b, lt a b = true → rank a ≤ rank b) (a : α) (as : List α) :
    ∀ b ∈ a :: as, rank b ≤ rank (maxFrom lt a as) := by
  induction as generalizing a with
  | nil => simp [maxFrom]
  | cons c cs ih =>
    rw [maxFrom]
    intro b hb
    by_cases hac : lt a c = true
    · rw [if_pos hac]
      rcases List.mem_cons.1 hb with rfl | hb
      · exact Nat.le_trans (hle _ _ hac) (ih c c List.mem_cons_self)
      · exact ih c b hb
    · rw [if_neg hac]
      have hca : rank c ≤ rank a := Nat.not_lt.1 fun h => hac (hlt _ _ h)
      rcases List.mem_cons.1 hb with rfl | hb
      · exact ih b b List.mem_cons_self
      · rcases List.mem_cons.1 hb with rfl | hb
        · exact Nat.le_trans hca (ih a a List.mem_cons_self)
        · exact ih a b (List.mem_cons_of_mem _ hb)

lemma rank_le_maxOf? {rank : α → Nat} (hlt : ∀ a b, rank a < rank b → lt a b = true)
    (hle : ∀ a b, lt a b = true → rank a ≤ rank b) {as : List α} {a : α}
    (h : maxOf? lt as = some a) : ∀ b ∈ as, rank b ≤ rank a := by
  cases as with
  | nil => cases h
  | cons c cs =>
    cases h
    exact rank_le_maxFrom hlt hle c cs

/-! ### Rankings -/

/-- A ranking in which elements may tie. -/
structure Ranking (lt : α → α → Bool) : Prop where
  asymm : ∀ {a b}, lt a b = true → lt b a = false
  cotrans : ∀ {a b c}, lt a c = true → lt a b = true ∨ lt b c = true

/-- A ranking in which only equal elements tie. -/
structure TotalRanking (lt : α → α → Bool) : Prop extends Ranking lt where
  eq : ∀ {a b}, lt a b = false → lt b a = false → a = b

lemma Ranking.irrefl (h : Ranking lt) (a : α) : lt a a = false := by
  by_contra hlt
  rw [Bool.not_eq_false] at hlt
  rw [h.asymm hlt] at hlt
  cases hlt

lemma Ranking.comap {β : Type} {lt : β → β → Bool} (h : Ranking lt) (f : α → β) :
    Ranking fun a b => lt (f a) (f b) := ⟨h.asymm, h.cotrans⟩

/-- Ranking by a value first, and by another ranking where the values are equal. -/
lemma Ranking.lexicographic {β : Type} [DecidableEq β] {first : β → β → Bool}
    (hfirst : TotalRanking first) (f : α → β) (h : Ranking lt) :
    Ranking fun a b => first (f a) (f b) || (decide (f a = f b) && lt a b) where
  asymm {a b} hab := by
    simp only [Bool.or_eq_true, Bool.and_eq_true, decide_eq_true_eq] at hab
    rcases hab with hab | ⟨hab, hlt⟩
    · have hne : f b ≠ f a := by
        intro heq
        rw [heq, hfirst.irrefl] at hab
        cases hab
      simp [hfirst.asymm hab, hne]
    · simp [hab, hfirst.irrefl, h.asymm hlt]
  cotrans {a b c} hac := by
    simp only [Bool.or_eq_true, Bool.and_eq_true, decide_eq_true_eq] at hac ⊢
    rcases hac with hac | ⟨hac, hlt⟩
    · exact (hfirst.cotrans hac).imp .inl .inl
    · rcases hab : first (f a) (f b) with _ | _
      · rcases hba : first (f b) (f a) with _ | _
        · have heq := hfirst.eq hab hba
          rcases h.cotrans (b := b) hlt with hlt | hlt
          · exact .inl (.inr ⟨heq, hlt⟩)
          · exact .inr (.inr ⟨heq.symm.trans hac, hlt⟩)
        · exact .inr (.inl (hac ▸ hba))
      · exact .inl (.inl rfl)

/-- The ranking of a linear order. -/
lemma totalRanking_lt [LinearOrder α] : TotalRanking fun a b : α => decide (a < b) where
  asymm {a b} h := by
    simp only [decide_eq_true_eq] at h
    exact decide_eq_false (not_lt_of_gt h)
  cotrans {a b c} h := by
    simp only [decide_eq_true_eq] at h ⊢
    exact lt_or_ge a b |>.imp_right fun hba => lt_of_le_of_lt hba h
  eq hab hba := le_antisymm (not_lt.1 (of_decide_eq_false hba)) (not_lt.1 (of_decide_eq_false hab))

/-! ### The first of the greatest -/

/-- An element of a list that no other exceeds. -/
def Greatest (lt : α → α → Bool) (as : List α) (a : α) : Prop :=
  a ∈ as ∧ ∀ b ∈ as, lt a b = false

lemma not_lt_maxFrom (h : Ranking lt) (a : α) (as : List α) :
    ∀ b ∈ a :: as, lt (maxFrom lt a as) b = false := by
  induction as generalizing a with
  | nil => simpa [maxFrom] using h.irrefl a
  | cons b bs ih =>
    rw [maxFrom]
    rcases hab : lt a b with _ | _
    · rw [if_neg Bool.false_ne_true]
      have hall := ih a
      have hb : lt (maxFrom lt a bs) b = false := by
        by_contra hlt
        rcases h.cotrans (b := a) (Bool.of_not_eq_false hlt) with hlt | hlt
        · rw [hall a List.mem_cons_self] at hlt
          cases hlt
        · rw [hab] at hlt
          cases hlt
      simpa [hb] using hall
    · rw [if_pos rfl]
      have hall := ih b
      have ha : lt (maxFrom lt b bs) a = false := by
        by_contra hlt
        rcases h.cotrans (b := b) (Bool.of_not_eq_false hlt) with hlt | hlt
        · rw [hall b List.mem_cons_self] at hlt
          cases hlt
        · rw [h.asymm hab] at hlt
          cases hlt
      simpa [ha] using hall

/-- No element exceeds the choice. -/
lemma greatest_maxOf? (h : Ranking lt) {as : List α} {a : α} (ha : maxOf? lt as = some a) :
    Greatest lt as a := by
  refine ⟨maxOf?_mem ha, ?_⟩
  cases as with
  | nil => cases ha
  | cons c cs =>
    cases ha
    exact not_lt_maxFrom h c cs

lemma maxFrom_append (a : α) (as bs : List α) :
    maxFrom lt a (as ++ bs) = maxFrom lt (maxFrom lt a as) bs := by
  induction as generalizing a with
  | nil => rfl
  | cons c cs ih => exact ih _

lemma maxFrom_eq_self {a : α} {as : List α} (h : ∀ b ∈ as, lt a b = false) :
    maxFrom lt a as = a := by
  induction as with
  | nil => rfl
  | cons b bs ih =>
    rw [maxFrom, h b List.mem_cons_self, if_neg Bool.false_ne_true]
    exact ih fun c hc => h c (List.mem_cons_of_mem _ hc)

/-- The choice is the first of the greatest. -/
lemma maxOf?_of_first {before after : List α} {a : α} (hbefore : ∀ b ∈ before, lt b a = true)
    (hafter : ∀ b ∈ after, lt a b = false) : maxOf? lt (before ++ a :: after) = some a := by
  cases before with
  | nil => exact congrArg some (maxFrom_eq_self hafter)
  | cons c cs =>
    have hlt := hbefore _ (@maxFrom_mem α lt c cs)
    rw [List.cons_append, maxOf?, maxFrom_append, maxFrom, if_pos hlt, maxFrom_eq_self hafter]

/-- What comes later does not count unless it exceeds the choice. -/
lemma maxOf?_append {as bs : List α} {a : α} (ha : maxOf? lt as = some a)
    (hbs : ∀ b ∈ bs, lt a b = false) : maxOf? lt (as ++ bs) = some a := by
  cases as with
  | nil => cases ha
  | cons c cs =>
    cases ha
    rw [List.cons_append, maxOf?, maxFrom_append, maxFrom_eq_self hbs]

/-! ### Choosing from a list whose order may change -/

/-- All orders of the end of a list, among them one for each element that begins with it. -/
structure Reorders {ι : Type} (moving : ι → List α) (i : ι) : Prop where
  perm : ∀ j, (moving j).Perm (moving i)
  first : ∀ a ∈ moving i, ∃ j rest, moving j = a :: rest

abbrev Orders (as : List α) := {as' : List α // as'.Perm as}

section

variable {ι β : Type} {moving : ι → List α} {i : ι}

lemma reorders_orders (as : List α) :
    Reorders (fun order : Orders as => order.1) ⟨as, .refl as⟩ where
  perm order := order.2
  first a ha := by
    obtain ⟨before, after, has⟩ := List.append_of_mem ha
    have hperm : (a :: (before ++ after)).Perm as := by
      rw [show as = before ++ a :: after from has]
      exact List.perm_middle.symm
    exact ⟨⟨a :: (before ++ after), hperm⟩, before ++ after, rfl⟩

lemma Reorders.eq_nil_iff (h : Reorders moving i) (j : ι) : moving j = [] ↔ moving i = [] := by
  rw [← List.length_eq_zero_iff, (h.perm j).length_eq, List.length_eq_zero_iff]

lemma Reorders.filterMap (h : Reorders moving i) (f : α → Option β) :
    Reorders (fun j => (moving j).filterMap f) i where
  perm j := (h.perm j).filterMap f
  first b hb := by
    obtain ⟨a, ha, hab⟩ := List.mem_filterMap.1 hb
    obtain ⟨j, rest, hj⟩ := h.first a ha
    exact ⟨j, rest.filterMap f, by rw [hj, List.filterMap_cons_some hab]⟩

lemma Reorders.filter (h : Reorders moving i) (p : α → Bool) :
    Reorders (fun j => (moving j).filter p) i := by
  have hfilter := h.filterMap (Option.guard p ·)
  simpa only [List.filterMap_eq_filter] using hfilter

lemma Reorders.map (h : Reorders moving i) (f : α → β) :
    Reorders (fun j => (moving j).map f) i := by
  have hmap := h.filterMap (some ∘ f)
  simpa only [List.filterMap_eq_map] using hmap

end

/-- What is shown of a choice depends on the order unless one of the greatest elements stands in
the part that does not move, or all of them show the same. -/
def Settled {β : Type} (lt : α → α → Bool) (shown : α → β) (fixed moving : List α) : Prop :=
  (∃ a ∈ fixed, Greatest lt (fixed ++ moving) a) ∨
    ∀ a b, Greatest lt (fixed ++ moving) a → Greatest lt (fixed ++ moving) b → shown a = shown b

@[simp] lemma settled_nil {β : Type} {shown : α → β} {moving : List α} :
    Settled lt shown [] moving ↔
      ∀ a b, Greatest lt moving a → Greatest lt moving b → shown a = shown b := by
  simp [Settled]

lemma Greatest.congr {as bs : List α} {a : α} (h : Greatest lt as a) (hmem : ∀ b, b ∈ as ↔ b ∈ bs) :
    Greatest lt bs a :=
  ⟨(hmem a).1 h.1, fun b hb => h.2 b ((hmem b).2 hb)⟩

/-- A greatest element of the moving part is chosen in some order, if the other part has none. -/
lemma maxOf?_of_greatest {ι : Type} (h : Ranking lt) {fixed : List α} {moving : ι → List α} {i : ι}
    (hmoving : Reorders moving i) (hfixed : ¬∃ a ∈ fixed, Greatest lt (fixed ++ moving i) a) {a : α}
    (ha : Greatest lt (fixed ++ moving i) a) : ∃ j, maxOf? lt (fixed ++ moving j) = some a := by
  have hmem : a ∈ moving i :=
    (List.mem_append.1 ha.1).resolve_left fun hmem => hfixed ⟨a, hmem, ha⟩
  obtain ⟨j, rest, hj⟩ := hmoving.first a hmem
  refine ⟨j, ?_⟩
  rw [hj]
  refine maxOf?_of_first (fun c hc => ?_) fun c hc => ?_
  · -- Another element exceeds `c`, and none exceeds `a`.
    by_contra hlt
    refine hfixed ⟨c, hc, List.mem_append_left _ hc, fun d hd => ?_⟩
    by_contra hcd
    rcases h.cotrans (b := a) (Bool.of_not_eq_false hcd) with hca | had
    · exact hlt hca
    · rw [ha.2 d hd] at had
      cases had
  · refine ha.2 c (List.mem_append_right _ ((hmoving.perm j).mem_iff.1 ?_))
    rw [hj]
    exact List.mem_cons_of_mem _ hc

theorem settled_iff {ι β : Type} (h : Ranking lt) (shown : α → β) (fixed : List α)
    {moving : ι → List α} {i : ι} (hmoving : Reorders moving i) :
    (∀ j, (maxOf? lt (fixed ++ moving j)).map shown = (maxOf? lt (fixed ++ moving i)).map shown) ↔
      Settled lt shown fixed (moving i) := by
  have hmem : ∀ j b, b ∈ fixed ++ moving j ↔ b ∈ fixed ++ moving i := fun j b => by
    rw [List.mem_append, List.mem_append, (hmoving.perm j).mem_iff]
  constructor
  · intro hall
    by_cases hfixed : ∃ a ∈ fixed, Greatest lt (fixed ++ moving i) a
    · exact .inl hfixed
    · refine .inr fun a b ha hb => Option.some.inj ?_
      obtain ⟨ja, hja⟩ := maxOf?_of_greatest h hmoving hfixed ha
      obtain ⟨jb, hjb⟩ := maxOf?_of_greatest h hmoving hfixed hb
      calc some (shown a)
        _ = (maxOf? lt (fixed ++ moving ja)).map shown := by rw [hja, Option.map_some]
        _ = (maxOf? lt (fixed ++ moving jb)).map shown := (hall ja).trans (hall jb).symm
        _ = some (shown b) := by rw [hjb, Option.map_some]
  · rintro (⟨a, ha, hgreatest⟩ | hsame) j
    · -- The choice among the fixed part stands, whatever follows.
      obtain ⟨c, hc⟩ : ∃ c, maxOf? lt fixed = some c := by
        rcases hmax : maxOf? lt fixed with _ | c
        · rw [maxOf?_eq_none.1 hmax] at ha
          cases ha
        · exact ⟨c, rfl⟩
      have hlt : ∀ b ∈ fixed ++ moving i, lt c b = false := fun b hb => by
        by_contra hcb
        rcases h.cotrans (b := a) (Bool.of_not_eq_false hcb) with hca | hab
        · rw [(greatest_maxOf? h hc).2 a ha] at hca
          cases hca
        · rw [hgreatest.2 b hb] at hab
          cases hab
      have hchoice : ∀ k, maxOf? lt (fixed ++ moving k) = some c := fun k =>
        maxOf?_append hc fun b hb => hlt b ((hmem k b).1 (List.mem_append_right _ hb))
      rw [hchoice, hchoice]
    · rcases hj : maxOf? lt (fixed ++ moving j) with _ | a
      · rcases hi : maxOf? lt (fixed ++ moving i) with _ | b
        · rfl
        · have hb := (hmem j b).2 (maxOf?_mem hi)
          rw [maxOf?_eq_none.1 hj] at hb
          cases hb
      · rcases hi : maxOf? lt (fixed ++ moving i) with _ | b
        · have ha := (hmem j a).1 (maxOf?_mem hj)
          rw [maxOf?_eq_none.1 hi] at ha
          cases ha
        · exact congrArg some
            (hsame a b ((greatest_maxOf? h hj).congr (hmem j)) (greatest_maxOf? h hi))

end EnjiGuard.Foundation
