import Mathlib.Data.List.Dedup
import Mathlib.Data.List.Induction
import Mathlib.Data.List.Sort
import Mathlib.Data.String.Basic

/-!
# Dictionaries that keep their insertion order

A dictionary is the list of its items. Setting a key replaces its value in place, and a new key
comes last; a dictionary built from items with distinct keys is those items.
-/

namespace EnjiGuard.Foundation.Dictionary

variable {κ α : Type} [DecidableEq κ]

def insert (key : κ) (value : α) : List (κ × α) → List (κ × α)
  | [] => [(key, value)]
  | (k, v) :: items => if k = key then (key, value) :: items else (k, v) :: insert key value items

/-- The dictionary built from items, a later one replacing an earlier one of its key. -/
def ofItems (items : List (κ × α)) : List (κ × α) :=
  items.foldl (fun dictionary item => insert item.1 item.2 dictionary) []

/-- The dictionary of values by a key of theirs. -/
def byKey (key : α → κ) (values : List α) : List (κ × α) :=
  ofItems (values.map fun value => (key value, value))

/-- The items in the order of their keys. -/
def sortedItems (items : List (String × α)) : List (String × α) :=
  items.insertionSort fun a b => a.1 ≤ b.1

section

variable {key : κ} {value : α} {items dictionary : List (κ × α)}

lemma insert_of_notMem (h : key ∉ dictionary.map Prod.fst) :
    insert key value dictionary = dictionary ++ [(key, value)] := by
  induction dictionary with
  | nil => rfl
  | cons item items ih =>
    obtain ⟨hne, hitems⟩ := not_or.1 (mt List.mem_cons.2 h)
    rw [insert, if_neg (Ne.symm hne), ih hitems, List.cons_append]

lemma foldl_insert_of_nodup (h : (dictionary ++ items).map Prod.fst |>.Nodup) :
    items.foldl (fun dictionary item => insert item.1 item.2 dictionary) dictionary =
      dictionary ++ items := by
  induction items generalizing dictionary with
  | nil => rw [List.foldl_nil, List.append_nil]
  | cons item items ih =>
    have hnew : item.1 ∉ dictionary.map Prod.fst := by
      rw [List.map_append, List.nodup_append] at h
      exact fun hmem => h.2.2 _ hmem _ (List.mem_map_of_mem (List.mem_cons_self ..)) rfl
    have happend : dictionary ++ item :: items = (dictionary ++ [item]) ++ items := by simp
    rw [List.foldl_cons, insert_of_notMem hnew, happend]
    exact ih (happend ▸ h)

/-- A dictionary built from items with distinct keys is those items. -/
lemma ofItems_of_nodup (h : (items.map Prod.fst).Nodup) : ofItems items = items :=
  foldl_insert_of_nodup h

lemma mem_of_mem_insert {item : κ × α} (h : item ∈ insert key value dictionary) :
    item = (key, value) ∨ item ∈ dictionary := by
  induction dictionary with
  | nil => exact .inl (List.mem_singleton.1 h)
  | cons other items ih =>
    rw [insert] at h
    split_ifs at h
    · exact (List.mem_cons.1 h).imp_right (List.mem_cons_of_mem _)
    · rcases List.mem_cons.1 h with h | h
      · exact .inr (h ▸ List.mem_cons_self)
      · exact (ih h).imp_right (List.mem_cons_of_mem _)

/-- A dictionary built from items holds some of them. -/
lemma mem_of_mem_ofItems {item : κ × α} (h : item ∈ ofItems items) : item ∈ items := by
  have hfold : ∀ (items dictionary : List (κ × α)),
      item ∈ items.foldl (fun dictionary item => insert item.1 item.2 dictionary) dictionary →
      item ∈ dictionary ∨ item ∈ items := by
    intro items
    induction items with
    | nil => exact fun _ hmem => .inl hmem
    | cons other items ih =>
      intro dictionary hmem
      rcases ih _ hmem with hmem | hmem
      · rcases mem_of_mem_insert hmem with rfl | hmem
        · exact .inr List.mem_cons_self
        · exact .inl hmem
      · exact .inr (List.mem_cons_of_mem _ hmem)
  exact (hfold items [] h).resolve_left List.not_mem_nil

lemma lookup_insert (other : κ) :
    (insert key value dictionary).lookup other =
      if other = key then some value else dictionary.lookup other := by
  induction dictionary with
  | nil =>
    rw [insert, List.lookup_cons]
    by_cases hother : other = key
    · simp [hother]
    · simp [hother, beq_false_of_ne hother]
  | cons item items ih =>
    rw [insert]
    by_cases hitem : item.1 = key
    · rw [if_pos hitem, List.lookup_cons, List.lookup_cons, hitem]
      by_cases hother : other = key
      · simp [hother]
      · simp [hother, beq_false_of_ne hother]
    · rw [if_neg hitem, List.lookup_cons, List.lookup_cons, ih]
      by_cases hother : other = key
      · simp [hother, beq_false_of_ne (Ne.symm hitem)]
      · rw [if_neg hother, if_neg hother]

/-- Dictionaries of related values with the same keys are related. -/
lemma rel_lookup_byKey {β : Type} {R : α → β → Prop} {keyOf : α → κ} {keyOf' : β → κ}
    {values : List α} {values' : List β} (h : List.Forall₂ R values values')
    (hkey : ∀ a b, R a b → keyOf a = keyOf' b) (key : κ) :
    Option.Rel R ((byKey keyOf values).lookup key) ((byKey keyOf' values').lookup key) := by
  have hfold : ∀ (dictionary : List (κ × α)) (dictionary' : List (κ × β)),
      Option.Rel R (dictionary.lookup key) (dictionary'.lookup key) →
      Option.Rel R
        (((values.map fun value => (keyOf value, value)).foldl
          (fun dictionary item => insert item.1 item.2 dictionary) dictionary).lookup key)
        (((values'.map fun value => (keyOf' value, value)).foldl
          (fun dictionary item => insert item.1 item.2 dictionary) dictionary').lookup key) := by
    induction h with
    | nil => exact fun _ _ hrel => hrel
    | cons hhead _ ih =>
      intro dictionary dictionary' hrel
      apply ih
      simp only [lookup_insert, hkey _ _ hhead]
      split_ifs
      · exact .some hhead
      · exact hrel
  exact hfold [] [] .none

lemma mem_of_lookup_eq_some (h : dictionary.lookup key = some value) :
    (key, value) ∈ dictionary := by
  obtain ⟨before, after, rfl, -⟩ := List.lookup_eq_some_iff.1 h
  simp

/-- With distinct keys, a lookup finds exactly the items. -/
lemma lookup_eq_some_iff_mem (h : (items.map Prod.fst).Nodup) :
    items.lookup key = some value ↔ (key, value) ∈ items := by
  induction items with
  | nil => simp
  | cons item items ih =>
    obtain ⟨k, v⟩ := item
    obtain ⟨hnew, hitems⟩ := List.nodup_cons.1 h
    rw [List.lookup_cons]
    by_cases hk : key = k
    · subst hk
      have hother : (key, value) ∉ items := fun hmem =>
        hnew (List.mem_map.2 ⟨_, hmem, rfl⟩)
      simp [hother, eq_comm]
    · have hbeq : (key == k) = false := beq_false_of_ne hk
      simp [hbeq, hk, ih hitems]

lemma lookup_eq_none_iff_notMem : items.lookup key = none ↔ key ∉ items.map Prod.fst := by
  rw [List.lookup_eq_none_iff]
  constructor
  · intro h hmem
    obtain ⟨item, hitem, rfl⟩ := List.mem_map.1 hmem
    simpa using h item hitem
  · intro h item hitem
    have hne : key ≠ item.1 := fun he => h (he ▸ List.mem_map_of_mem hitem)
    simpa using hne

end

section Last

variable {P : List α → α → Prop} {values : List α} {value last : α}

/-- A value where a condition on it and the values before it holds for the last time. -/
def IsLast (P : List α → α → Prop) (values : List α) (value : α) : Prop :=
  ∃ before after, values = before ++ value :: after ∧ P before value ∧
    ∀ between other rest, after = between ++ other :: rest →
      ¬ P (before ++ value :: between) other

lemma isLast_concat :
    IsLast P (values ++ [last]) value ↔
      P values last ∧ value = last ∨ ¬ P values last ∧ IsLast P values value := by
  constructor
  · rintro ⟨before, after, hvalues, hvalue, hafter⟩
    rcases after.eq_nil_or_concat' with rfl | ⟨after, other, rfl⟩
    · obtain ⟨rfl, hlast⟩ := List.append_inj' hvalues rfl
      cases hlast
      exact .inl ⟨hvalue, rfl⟩
    · rw [← List.cons_append, ← List.append_assoc] at hvalues
      obtain ⟨rfl, hlast⟩ := List.append_inj' hvalues rfl
      cases hlast
      refine .inr ⟨hafter after last [] rfl, before, after, rfl, hvalue, ?_⟩
      intro between other rest hrest
      exact hafter between other (rest ++ [last]) (by simp [hrest])
  · rintro (⟨hlast, rfl⟩ | ⟨hlast, before, after, rfl, hvalue, hafter⟩)
    · exact ⟨values, [], rfl, hlast, fun between other rest hrest => by simp at hrest⟩
    · refine ⟨before, after ++ [last], by simp, hvalue, ?_⟩
      intro between other rest hrest
      rcases rest.eq_nil_or_concat' with rfl | ⟨rest, final, rfl⟩
      · obtain ⟨rfl, hother⟩ := List.append_inj' hrest rfl
        cases hother
        exact hlast
      · rw [← List.cons_append, ← List.append_assoc] at hrest
        exact hafter between other rest (List.append_inj' hrest rfl).1

/-- A condition that holds somewhere holds for the last time somewhere. -/
lemma exists_isLast {before after : List α} (h : P before value) :
    ∃ other, IsLast P (before ++ value :: after) other := by
  induction after using List.reverseRecOn with
  | nil => exact ⟨value, isLast_concat.2 (.inl ⟨h, rfl⟩)⟩
  | append_singleton after last ih =>
    rw [← List.cons_append, ← List.append_assoc]
    by_cases hlast : P (before ++ value :: after) last
    · exact ⟨last, isLast_concat.2 (.inl ⟨hlast, rfl⟩)⟩
    · obtain ⟨other, hother⟩ := ih
      exact ⟨other, isLast_concat.2 (.inr ⟨hlast, hother⟩)⟩

end Last

section ByKey

variable {key : α → κ} {k : κ} {value : α} {values : List α}

omit [DecidableEq κ] in
lemma map_fst_items (values : List α) :
    (values.map fun value => (key value, value)).map Prod.fst = values.map key := by
  rw [List.map_map]
  rfl

/-- With distinct keys, a lookup by key finds exactly the values. -/
lemma lookup_byKey_eq_some (h : (values.map key).Nodup) :
    (byKey key values).lookup k = some value ↔ value ∈ values ∧ key value = k := by
  rw [← map_fst_items] at h
  rw [byKey, ofItems_of_nodup h, lookup_eq_some_iff_mem h, List.mem_map]
  constructor
  · rintro ⟨value, hvalue, ⟨⟩⟩
    exact ⟨hvalue, rfl⟩
  · rintro ⟨hvalue, rfl⟩
    exact ⟨value, hvalue, rfl⟩

lemma lookup_byKey_eq_none (h : (values.map key).Nodup) :
    (byKey key values).lookup k = none ↔ k ∉ values.map key := by
  rw [← map_fst_items] at h
  rw [byKey, ofItems_of_nodup h, lookup_eq_none_iff_notMem, map_fst_items]

/-- A lookup by key finds the last value with the key. -/
lemma lookup_byKey_eq_some_iff :
    (byKey key values).lookup k = some value ↔ IsLast (fun _ v => key v = k) values value := by
  induction values using List.reverseRecOn with
  | nil => simp [byKey, ofItems, IsLast]
  | append_singleton values last ih =>
    rw [byKey, ofItems, List.map_append, List.foldl_append, isLast_concat, ← ih]
    refine (iff_of_eq (congrArg (· = some value) (lookup_insert k))).trans ?_
    by_cases hlast : key last = k
    · simp [hlast, eq_comm]
    · simp [hlast, Ne.symm hlast, byKey, ofItems]

lemma keys_byKey (h : (values.map key).Nodup) :
    (byKey key values).map Prod.fst = values.map key := by
  rw [← map_fst_items] at h
  rw [byKey, ofItems_of_nodup h, map_fst_items]

end ByKey

omit [DecidableEq κ] in
/-- Distinct keys with at most one value each, which knows its key, give values of distinct keys. -/
lemma nodup_map_filterMap {key : α → κ} {f : κ → Option α} {keys : List κ} (h : keys.Nodup)
    (hf : ∀ k value, f k = some value → key value = k) : ((keys.filterMap f).map key).Nodup := by
  have hinjective : ∀ k k' value, value ∈ f k → value ∈ f k' → k = k' :=
    fun k k' value hk hk' => (hf k value hk).symm.trans (hf k' value hk')
  refine (h.filterMap hinjective).map_on fun value hvalue value' hvalue' heq => ?_
  obtain ⟨k, -, hk⟩ := List.mem_filterMap.1 hvalue
  obtain ⟨k', -, hk'⟩ := List.mem_filterMap.1 hvalue'
  have hkeys : k = k' := (hf k value hk).symm.trans (heq.trans (hf k' value' hk'))
  exact Option.some.inj (hk.symm.trans ((congrArg f hkeys).trans hk'))

lemma sortedItems_perm (items : List (String × α)) : (sortedItems items).Perm items :=
  List.perm_insertionSort ..

end EnjiGuard.Foundation.Dictionary
