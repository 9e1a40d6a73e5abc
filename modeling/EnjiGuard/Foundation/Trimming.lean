import Mathlib.Data.List.DropRight

/-!
# Trimming a list

`trim p as` drops the elements at both ends of a list that satisfy `p`. A list is tight when this
leaves it as it is. Trimming the parts of a list between separators shortens the list, or leaves
every part as it was.
-/

namespace EnjiGuard.Foundation

section Trimming

variable {α : Type} {p : α → Bool} {as : List α} {a : α}

/-- A list without the elements at its ends that satisfy `p`. -/
def trim (p : α → Bool) (as : List α) : List α := (as.dropWhile p).rdropWhile p

/-- Neither the first nor the last element satisfies `p`. -/
structure Tight (p : α → Bool) (as : List α) : Prop where
  head : ∀ a ∈ as.head?, p a = false
  last : ∀ a ∈ as.getLast?, p a = false

lemma dropWhile_eq_self (h : ∀ a ∈ as.head?, p a = false) : as.dropWhile p = as := by
  cases as with
  | nil => rfl
  | cons a as => rw [List.dropWhile_cons_of_neg (by simp [h a rfl])]

lemma rdropWhile_eq_self (h : ∀ a ∈ as.getLast?, p a = false) : as.rdropWhile p = as := by
  rw [← as.reverse_reverse, List.rdropWhile_reverse, dropWhile_eq_self]
  simpa using h

lemma not_of_mem_head?_dropWhile (h : a ∈ (as.dropWhile p).head?) : p a = false := by
  have hnot := List.head?_dropWhile_not p as
  rw [Option.mem_def.1 h] at hnot
  exact hnot

lemma Tight.trim_eq (h : Tight p as) : trim p as = as := by
  rw [trim, dropWhile_eq_self h.head, rdropWhile_eq_self h.last]

lemma trim_sublist (p : α → Bool) (as : List α) : (trim p as).Sublist as :=
  (List.rdropWhile_prefix p _).sublist.trans (List.dropWhile_sublist p)

lemma tight_trim (p : α → Bool) (as : List α) : Tight p (trim p as) := by
  constructor
  · intro a ha
    have hstands : trim p as <+: as.dropWhile p := List.rdropWhile_prefix p _
    have hhead : a ∈ (as.dropWhile p).head? := by
      obtain ⟨rest, hrest⟩ := hstands
      rw [← hrest, List.head?_append, Option.mem_def.1 ha]
      rfl
    exact not_of_mem_head?_dropWhile hhead
  · intro a ha
    obtain ⟨hne, hlast⟩ := List.mem_getLast?_eq_getLast ha
    have hnot : ¬ p ((trim p as).getLast hne) := List.rdropWhile_last_not p (as.dropWhile p) hne
    rw [← hlast] at hnot
    exact Bool.eq_false_iff.2 hnot

lemma trim_eq_self_iff : trim p as = as ↔ Tight p as := by
  constructor
  · intro h
    rw [← h]
    exact tight_trim p as
  · exact Tight.trim_eq

@[simp] lemma trim_trim : trim p (trim p as) = trim p as := (tight_trim p as).trim_eq

lemma mem_rdropWhile (h : a ∈ as) (ha : p a = false) : a ∈ as.rdropWhile p := by
  rw [← @List.rdropWhile_append_rtakeWhile _ p as, List.mem_append] at h
  refine h.resolve_right fun htake => ?_
  rw [List.mem_rtakeWhile_imp htake] at ha
  cases ha

/-- What does not satisfy `p` is not dropped. -/
lemma mem_trim (h : a ∈ as) (ha : p a = false) : a ∈ trim p as := by
  refine mem_rdropWhile ?_ ha
  rw [← @List.takeWhile_append_dropWhile _ p as, List.mem_append] at h
  refine h.resolve_left fun htake => ?_
  rw [List.mem_takeWhile_imp htake] at ha
  cases ha

end Trimming

/-! ### The parts of a list -/

section Parts

variable {α : Type} {f : List α → List α} {separator : List α} {parts : List (List α)}

/-- Shortened parts make a part of the list. -/
lemma intercalate_map_sublist (hf : ∀ part, (f part).Sublist part) :
    (separator.intercalate (parts.map f)).Sublist (separator.intercalate parts) := by
  induction parts with
  | nil => exact List.Sublist.refl _
  | cons part parts ih =>
    cases parts with
    | nil => simpa using hf part
    | cons next parts =>
      rw [List.map_cons, List.map_cons, List.intercalate_cons_cons, List.intercalate_cons_cons]
      exact ((hf part).append_right _).append ih

/-- Shortened parts make the same list only when no part became shorter. -/
lemma intercalate_map_eq_iff (hf : ∀ part, (f part).Sublist part) :
    separator.intercalate (parts.map f) = separator.intercalate parts ↔
      ∀ part ∈ parts, f part = part := by
  constructor
  · intro h
    induction parts with
    | nil => simp
    | cons part parts ih =>
      cases parts with
      | nil => simpa using h
      | cons next parts =>
        have hlength := congrArg List.length h
        have hrest : (separator.intercalate ((next :: parts).map f)).length ≤
            (separator.intercalate (next :: parts)).length :=
          (intercalate_map_sublist hf).length_le
        have hpart := (hf part).length_le
        simp only [List.map_cons, List.intercalate_cons_cons, List.length_append] at h hlength hrest
        have hsame : f part = part := (hf part).eq_of_length (by omega)
        rw [hsame] at h
        intro other hother
        cases hother with
        | head => exact hsame
        | tail _ hother => exact ih (List.append_cancel_left h) other hother
  · intro h
    rw [List.map_congr_left h, List.map_id']

end Parts

end EnjiGuard.Foundation
