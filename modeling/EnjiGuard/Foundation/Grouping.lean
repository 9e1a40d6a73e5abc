import EnjiGuard.Foundation.Selection
import Mathlib.Data.List.Nodup

/-!
# One representative for each key

A list is reduced to one element for each key that occurs in it, in the order in which the keys
first occur. Of a choice it is only asked that it chooses among the elements it is given, and that
it chooses one if there are any.
-/

namespace EnjiGuard.Foundation

variable {α κ : Type} {key : α → κ} {choose : List α → Option α} {rows rows' : List α} {a : α}

/-- A choice among the elements of a list. -/
structure Chooses (choose : List α → Option α) : Prop where
  mem : ∀ {as : List α} {a : α}, choose as = some a → a ∈ as
  some : ∀ {as : List α}, choose as = none → as = []

section

variable [DecidableEq κ]

/-- The elements with a key. -/
def withKey (key : α → κ) (k : κ) (rows : List α) : List α := rows.filter fun a => key a = k

@[simp] lemma mem_withKey {k : κ} : a ∈ withKey key k rows ↔ a ∈ rows ∧ key a = k := by
  simp [withKey]

end

lemma nodup_eraseDups [BEq κ] [LawfulBEq κ] : ∀ ks : List κ, ks.eraseDups.Nodup
  | [] => by simp
  | k :: ks => by
    have hrest := nodup_eraseDups (ks.filter fun other => !other == k)
    rw [List.eraseDups_cons]
    refine List.nodup_cons.2 ⟨?_, hrest⟩
    simp [List.mem_eraseDups]
  termination_by ks => ks.length
  decreasing_by exact Nat.lt_succ_of_le (List.length_filter_le _ _)

/-- Without duplicates too, every element of a list begins one of its orders. -/
lemma Reorders.eraseDups [BEq κ] [LawfulBEq κ] {ι : Type} {moving : ι → List κ} {i : ι}
    (h : Reorders moving i) : Reorders (fun j => (moving j).eraseDups) i where
  perm j := by
    rw [List.perm_ext_iff_of_nodup (nodup_eraseDups _) (nodup_eraseDups _)]
    intro k
    rw [List.mem_eraseDups, List.mem_eraseDups, (h.perm j).mem_iff]
  first k hk := by
    obtain ⟨j, rest, hj⟩ := h.first k (List.mem_eraseDups.1 hk)
    exact ⟨j, _, by rw [hj, List.eraseDups_cons]⟩

variable [DecidableEq κ] [BEq κ]

/-- What is chosen for each key, in the order of the keys. -/
def representatives (key : α → κ) (choose : List α → Option α) (rows : List α) : List α :=
  (rows.map key).eraseDups.filterMap fun k => choose (withKey key k rows)

variable [LawfulBEq κ]

/-- A representative is what is chosen for its key. -/
lemma mem_representatives (h : Chooses choose) :
    a ∈ representatives key choose rows ↔ choose (withKey key (key a) rows) = some a := by
  rw [representatives, List.mem_filterMap]
  constructor
  · rintro ⟨k, -, hchosen⟩
    obtain ⟨-, rfl⟩ := mem_withKey.1 (h.mem hchosen)
    exact hchosen
  · intro hchosen
    refine ⟨key a, ?_, hchosen⟩
    rw [List.mem_eraseDups]
    exact List.mem_map_of_mem (mem_withKey.1 (h.mem hchosen)).1

/-- Every key of a list has a representative. -/
lemma exists_representative (h : Chooses choose) (ha : a ∈ rows) :
    ∃ b ∈ representatives key choose rows, key b = key a ∧
      choose (withKey key (key a) rows) = some b := by
  rcases hchosen : choose (withKey key (key a) rows) with _ | b
  · have hnil := h.some hchosen
    have hmem : a ∈ withKey key (key a) rows := mem_withKey.2 ⟨ha, rfl⟩
    rw [hnil] at hmem
    cases hmem
  · have hkey : key b = key a := (mem_withKey.1 (h.mem hchosen)).2
    refine ⟨b, (mem_representatives h).2 ?_, hkey, rfl⟩
    rw [hkey, hchosen]

/-- Each key is represented once. -/
lemma nodup_representatives (h : Chooses choose) :
    ((representatives key choose rows).map key).Nodup := by
  have hsublist : ∀ ks : List κ,
      ((ks.filterMap fun k => choose (withKey key k rows)).map key).Sublist ks := by
    intro ks
    induction ks with
    | nil => simp
    | cons k ks ih =>
      rw [List.filterMap_cons]
      rcases hchosen : choose (withKey key k rows) with _ | b
      · exact ih.cons k
      · rw [List.map_cons, (mem_withKey.1 (h.mem hchosen)).2]
        exact ih.cons_cons k
  exact (nodup_eraseDups _).sublist (hsublist _)

/-- What is chosen for the keys of the first elements comes first. -/
lemma representatives_append (as bs : List α) :
    representatives key choose (as ++ bs) =
      ((as.map key).eraseDups.filterMap fun k => choose (withKey key k (as ++ bs))) ++
        (((bs.map key).removeAll (as.map key)).eraseDups.filterMap
          fun k => choose (withKey key k (as ++ bs))) := by
  rw [representatives, List.map_append, List.eraseDups_append, List.filterMap_append]

/-- A reduction does not depend on the order of a list, where the choices do not. -/
lemma mem_representatives_congr (h : Chooses choose)
    (hchoose : ∀ k, choose (withKey key k rows) = choose (withKey key k rows')) :
    a ∈ representatives key choose rows ↔ a ∈ representatives key choose rows' := by
  rw [mem_representatives h, mem_representatives h, hchoose]

end EnjiGuard.Foundation
