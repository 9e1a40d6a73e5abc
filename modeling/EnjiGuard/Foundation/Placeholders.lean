import Mathlib.Data.List.Induction
import Mathlib.Data.List.Infix
import Mathlib.Data.List.Nodup
import Mathlib.Tactic.Common

/-!
# Placeholders in a text

`fill entries text` replaces the placeholders of a text at once, scanning it from the left; what is
inserted is not scanned. Replacing one placeholder after the other scans it again, and gives the
same exactly as long as the text holds each placeholder, when its turn comes, as often as it did at
first.
-/

namespace EnjiGuard.Foundation

/-! ### Where placeholders stand -/

section Separate

variable {α : Type} {token other text rest : List α} {tokens : List (List α)} {c : α}

/-- A placeholder starts within a text that another one follows. -/
def StartsIn (token text rest : List α) : Prop :=
  ∃ before after, text = before ++ after ∧ after ≠ [] ∧ token <+: after ++ rest

/-- Placeholders none of which starts within another. -/
structure Separate (tokens : List (List α)) : Prop where
  nonempty : ∀ token ∈ tokens, token ≠ []
  apart : ∀ token ∈ tokens, ∀ other ∈ tokens, ∀ before after rest, token = before ++ after →
    after ≠ [] → other <+: after ++ rest → before = [] ∧ other = token

@[simp] lemma not_startsIn_nil : ¬ StartsIn token [] rest := by
  rintro ⟨before, after, htext, hafter, -⟩
  exact hafter (List.append_eq_nil_iff.1 htext.symm).2

lemma startsIn_cons :
    StartsIn token (c :: text) rest ↔ token <+: c :: (text ++ rest) ∨ StartsIn token text rest := by
  constructor
  · rintro ⟨before, after, htext, hafter, htoken⟩
    cases before with
    | nil =>
      rw [List.nil_append] at htext
      subst htext
      exact .inl htoken
    | cons d before =>
      obtain ⟨-, rfl⟩ := List.cons.inj htext
      exact .inr ⟨before, after, rfl, hafter, htoken⟩
  · rintro (htoken | ⟨before, after, rfl, hafter, htoken⟩)
    · exact ⟨[], c :: text, rfl, List.cons_ne_nil _ _, htoken⟩
    · exact ⟨c :: before, after, rfl, hafter, htoken⟩

/-- What comes before an element that stands there for the first time is determined. -/
lemma append_cons_inj {before before' after after' : List α} (h : c ∉ before) (h' : c ∉ before')
    (heq : before ++ c :: after = before' ++ c :: after') : before = before' ∧ after = after' := by
  induction before generalizing before' with
  | nil =>
    cases before' with
    | nil => exact ⟨rfl, (List.cons.inj heq).2⟩
    | cons d before' => exact absurd ((List.cons.inj heq).1 ▸ List.mem_cons_self) h'
  | cons d before ih =>
    cases before' with
    | nil => exact absurd ((List.cons.inj heq).1 ▸ List.mem_cons_self) h
    | cons d' before' =>
      obtain ⟨rfl, hrest⟩ := List.cons.inj heq
      obtain ⟨rfl, hafter⟩ := ih (mt (List.mem_cons_of_mem d) h) (mt (List.mem_cons_of_mem d) h')
        hrest
      exact ⟨rfl, hafter⟩

/-- Of separate placeholders only one starts within itself, at its start. -/
lemma Separate.eq_of_startsIn (h : Separate tokens) (htoken : token ∈ tokens)
    (hother : other ∈ tokens) (hstarts : StartsIn other token rest) : other = token := by
  obtain ⟨before, after, heq, hafter, hstands⟩ := hstarts
  exact (h.apart token htoken other hother before after rest heq hafter hstands).2

lemma Separate.subset {tokens' : List (List α)} (h : Separate tokens) (hsub : tokens' ⊆ tokens) :
    Separate tokens' where
  nonempty token htoken := h.nonempty token (hsub htoken)
  apart token htoken other hother := h.apart token (hsub htoken) other (hsub hother)

end Separate

variable {α : Type} [DecidableEq α]

/-! ### Occurrences -/

section Occurrences

variable {token text rest : List α} {tokens : List (List α)}

/-- How often a placeholder occurs. -/
def occurrences (token : List α) : List α → Nat
  | [] => 0
  | c :: text => (if token <+: c :: text then 1 else 0) + occurrences token text

lemma occurrences_append_iff :
    occurrences token rest ≤ occurrences token (text ++ rest) ∧
      (occurrences token (text ++ rest) = occurrences token rest ↔ ¬ StartsIn token text rest) := by
  induction text with
  | nil => simp
  | cons c text ih =>
    rw [List.cons_append, occurrences, startsIn_cons]
    obtain ⟨hle, hiff⟩ := ih
    by_cases hstands : token <+: c :: (text ++ rest)
    · rw [if_pos hstands]
      refine ⟨by omega, ?_⟩
      simp only [hstands, true_or, not_true_eq_false, iff_false]
      omega
    · rw [if_neg hstands]
      simpa [hstands] using ⟨hle, hiff⟩

/-- Where a placeholder does not start, it does not occur. -/
lemma occurrences_append (h : ¬ StartsIn token text rest) :
    occurrences token (text ++ rest) = occurrences token rest :=
  occurrences_append_iff.2.2 h

/-- A placeholder that is separate from itself occurs once where it stands. -/
lemma occurrences_self (h : Separate tokens) (htoken : token ∈ tokens) :
    occurrences token (token ++ rest) = occurrences token rest + 1 := by
  obtain ⟨c, text, rfl⟩ := List.exists_cons_of_ne_nil (h.nonempty token htoken)
  have hself : c :: text <+: c :: (text ++ rest) := ⟨rest, rfl⟩
  rw [List.cons_append, occurrences, if_pos hself, occurrences_append, Nat.add_comm]
  rintro ⟨before, after, rfl, hafter, hstands⟩
  have hnil := (h.apart _ htoken _ htoken (c :: before) after rest rfl hafter hstands).1
  exact List.cons_ne_nil _ _ hnil

end Occurrences

/-! ### Filling in -/

/-- Replaces placeholders at once, after `skip` characters are passed over. -/
def fillFrom (entries : List (List α × List α)) : Nat → List α → List α
  | _, [] => []
  | skip + 1, _ :: text => fillFrom entries skip text
  | 0, c :: text =>
    match entries.find? fun entry => entry.1.isPrefixOf (c :: text) with
    | some entry => entry.2 ++ fillFrom entries (entry.1.length - 1) text
    | none => c :: fillFrom entries 0 text

/-- Replaces placeholders at once. -/
def fill (entries : List (List α × List α)) (text : List α) : List α := fillFrom entries 0 text

/-- Replaces placeholders one after the other. -/
def fillEach (entries : List (List α × List α)) (text : List α) : List α :=
  entries.foldl (fun text entry => fill [entry] text) text

/-- Placeholders that are separate and distinct. -/
structure Independent (entries : List (List α × List α)) : Prop where
  separate : Separate (entries.map Prod.fst)
  nodup : (entries.map Prod.fst).Nodup

section Fill

variable {entries : List (List α × List α)} {entry : List α × List α} {text rest : List α} {c : α}

@[simp] lemma fill_nil : fill entries [] = [] := rfl

lemma fillFrom_eq (skip : Nat) (text : List α) :
    fillFrom entries skip text = fill entries (text.drop skip) := by
  induction text generalizing skip with
  | nil => simp [fillFrom]
  | cons c text ih =>
    cases skip with
    | zero => rfl
    | succ skip => rw [fillFrom, ih, List.drop_succ_cons]

/-- A character where no placeholder starts stays. -/
lemma fill_cons (h : ∀ entry ∈ entries, ¬ entry.1 <+: c :: text) :
    fill entries (c :: text) = c :: fill entries text := by
  have hnone : (entries.find? fun entry => entry.1.isPrefixOf (c :: text)) = none := by
    simpa [List.find?_eq_none] using h
  rw [fill, fillFrom, hnone]
  rfl

/-- A text where no placeholder starts stays. -/
lemma fill_append (h : ∀ entry ∈ entries, ¬ StartsIn entry.1 text rest) :
    fill entries (text ++ rest) = text ++ fill entries rest := by
  induction text with
  | nil => rfl
  | cons c text ih =>
    have hstarts : ∀ entry ∈ entries, ¬ entry.1 <+: c :: (text ++ rest) ∧
        ¬ StartsIn entry.1 text rest := fun entry hentry =>
      not_or.1 (mt startsIn_cons.2 (h entry hentry))
    rw [List.cons_append, fill_cons fun entry hentry => (hstarts entry hentry).1,
      ih fun entry hentry => (hstarts entry hentry).2, List.cons_append]

/-- A placeholder is replaced by its value. -/
lemma fill_entry (h : Independent entries) (hentry : entry ∈ entries) :
    fill entries (entry.1 ++ rest) = entry.2 ++ fill entries rest := by
  have htoken : entry.1 ∈ entries.map Prod.fst := List.mem_map_of_mem hentry
  obtain ⟨c, text, htext⟩ := List.exists_cons_of_ne_nil (h.separate.nonempty _ htoken)
  rcases hfound : entries.find? (fun other => other.1.isPrefixOf (c :: (text ++ rest)))
    with _ | other
  · have hnone := List.find?_eq_none.1 hfound entry hentry
    rw [List.isPrefixOf_iff_prefix, htext] at hnone
    exact absurd ⟨rest, rfl⟩ hnone
  · have hmem := List.mem_of_find?_eq_some hfound
    have hstands := List.find?_some hfound
    rw [List.isPrefixOf_iff_prefix] at hstands
    have hsame : other.1 = entry.1 :=
      (h.separate.apart _ htoken _ (List.mem_map_of_mem hmem) [] entry.1 rest rfl
        (h.separate.nonempty _ htoken) (by rwa [htext])).2
    obtain rfl := List.inj_on_of_nodup_map h.nodup hmem hentry hsame
    rw [htext, List.cons_append, fill, fillFrom, hfound]
    dsimp only
    rw [fillFrom_eq, htext]
    simp

/-- A text stays nonempty where nothing is replaced by nothing. -/
lemma fill_ne_nil (h : ∀ entry ∈ entries, entry.2 ≠ []) (htext : text ≠ []) :
    fill entries text ≠ [] := by
  obtain ⟨c, rest, rfl⟩ := List.exists_cons_of_ne_nil htext
  rcases hfound : entries.find? (fun entry => entry.1.isPrefixOf (c :: rest)) with _ | entry
  · rw [fill, fillFrom, hfound]
    exact List.cons_ne_nil _ _
  · rw [fill, fillFrom, hfound]
    exact List.append_ne_nil_of_left_ne_nil (h entry (List.mem_of_find?_eq_some hfound)) _

/-- A text is empty, starts with a placeholder, or with a character where none starts. -/
lemma fill_induction {P : List α → Prop} (h : Independent entries) (hnil : P [])
    (hentry : ∀ entry ∈ entries, ∀ rest, P rest → P (entry.1 ++ rest))
    (hcons : ∀ c text, (∀ entry ∈ entries, ¬ entry.1 <+: c :: text) → P text → P (c :: text))
    (text : List α) : P text := by
  induction hlength : text.length using Nat.strong_induction_on generalizing text with
  | _ length ih =>
    subst hlength
    cases text with
    | nil => exact hnil
    | cons c text =>
      by_cases hstarts : ∃ entry ∈ entries, entry.1 <+: c :: text
      · obtain ⟨entry, hmem, rest, hrest⟩ := hstarts
        have hpos := List.length_pos_of_ne_nil
          (h.separate.nonempty _ (List.mem_map_of_mem hmem))
        rw [← hrest]
        refine hentry entry hmem rest (ih rest.length ?_ rest rfl)
        rw [← hrest, List.length_append]
        omega
      · refine hcons c text (fun entry hmem hstands => hstarts ⟨entry, hmem, hstands⟩) ?_
        exact ih text.length (Nat.lt_succ_self _) text rfl

end Fill

/-! ### One placeholder after the other -/

section Each

variable {entries before : List (List α × List α)} {entry : List α × List α} {text rest : List α}

omit [DecidableEq α] in
lemma Independent.left {after : List (List α × List α)} (h : Independent (before ++ after)) :
    Independent before where
  separate := h.separate.subset (by simp)
  nodup := by
    have hnodup := h.nodup
    rw [List.map_append] at hnodup
    exact hnodup.of_append_left

omit [DecidableEq α] in
lemma Independent.right {after : List (List α × List α)} (h : Independent (before ++ after)) :
    Independent after where
  separate := h.separate.subset (by simp)
  nodup := by
    have hnodup := h.nodup
    rw [List.map_append] at hnodup
    exact hnodup.of_append_right

omit [DecidableEq α] in
lemma Independent.ne {other : List α × List α} (h : Independent (before ++ [entry]))
    (hother : other ∈ before) : other.1 ≠ entry.1 := by
  have hnodup := h.nodup
  rw [List.map_append, List.nodup_append] at hnodup
  exact hnodup.2.2 _ (List.mem_map_of_mem hother) _ (by simp)

omit [DecidableEq α] in
lemma Independent.not_startsIn {other : List α × List α} (h : Independent entries)
    (hentry : entry ∈ entries) (hother : other ∈ entries) (hne : other.1 ≠ entry.1) :
    ¬ StartsIn other.1 entry.1 rest := fun hstarts =>
  hne (h.separate.eq_of_startsIn (List.mem_map_of_mem hentry) (List.mem_map_of_mem hother) hstarts)

/-- A placeholder that comes later stays. -/
lemma fill_later (h : Independent (before ++ [entry])) :
    fill before (entry.1 ++ rest) = entry.1 ++ fill before rest :=
  fill_append fun _ hother =>
    h.not_startsIn (by simp) (List.mem_append_left _ hother) (h.ne hother)

/-- Filling in other placeholders loses none. -/
lemma occurrences_le_fill (h : Independent (before ++ [entry])) (text : List α) :
    occurrences entry.1 text ≤ occurrences entry.1 (fill before text) := by
  induction text using fill_induction h with
  | hnil => exact le_rfl
  | hentry other hother rest ih =>
    rcases List.mem_append.1 hother with hbefore | hlast
    · have hne : entry.1 ≠ other.1 := (h.ne hbefore).symm
      rw [fill_entry h.left hbefore,
        occurrences_append (h.not_startsIn hother (by simp) hne)]
      exact ih.trans occurrences_append_iff.1
    · obtain rfl := List.mem_singleton.1 hlast
      rw [fill_later h, occurrences_self h.separate (by simp),
        occurrences_self h.separate (by simp)]
      exact Nat.succ_le_succ ih
  | hcons c text hstarts ih =>
    rw [fill_cons fun other hother => hstarts other (List.mem_append_left _ hother), occurrences,
      occurrences, if_neg (hstarts entry (by simp))]
    omega

/-- A placeholder that occurs no more often than at first is replaced with the others at once. -/
lemma fill_concat (h : Independent (before ++ [entry]))
    (hcount : occurrences entry.1 (fill before text) = occurrences entry.1 text) :
    fill [entry] (fill before text) = fill (before ++ [entry]) text := by
  induction text using fill_induction h with
  | hnil => rfl
  | hentry other hother rest ih =>
    rw [fill_entry h hother]
    rcases List.mem_append.1 hother with hbefore | hlast
    · have hne : entry.1 ≠ other.1 := (h.ne hbefore).symm
      rw [fill_entry h.left hbefore] at hcount ⊢
      rw [occurrences_append (h.not_startsIn hother (by simp) hne)] at hcount
      -- what is inserted holds none, and what comes after it no more than the text did
      have hless := occurrences_le_fill h rest
      obtain ⟨hle, hiff⟩ := @occurrences_append_iff _ _ entry.1 other.2 (fill before rest)
      have hinserted := hiff.1 (by omega)
      rw [fill_append (by simpa using hinserted), ih (by omega)]
    · obtain rfl := List.mem_singleton.1 hlast
      have hsingle : Independent [other] := ⟨h.separate.subset (by simp), by simp⟩
      rw [fill_later h, occurrences_self h.separate (by simp),
        occurrences_self h.separate (by simp)] at hcount
      rw [fill_later h, fill_entry hsingle (List.mem_singleton_self _), ih (by omega)]
  | hcons c text hstarts ih =>
    have hbefore : ∀ other ∈ before, ¬ other.1 <+: c :: text := fun other hother =>
      hstarts other (List.mem_append_left _ hother)
    rw [fill_cons hbefore, occurrences, occurrences, if_neg (hstarts entry (by simp))] at hcount
    have hless := occurrences_le_fill h text
    have hnone : ¬ entry.1 <+: c :: fill before text := by
      intro hstands
      rw [if_pos hstands] at hcount
      omega
    rw [if_neg hnone] at hcount
    rw [fill_cons hbefore, fill_cons (by simpa using hnone), fill_cons hstarts, ih (by omega)]

/-- What holds of every place in a list holds of its last place and of every place before. -/
lemma forall_split_concat {β : Type} {P : List β → β → Prop} {bs : List β} {b : β} :
    (∀ before other after, bs ++ [b] = before ++ other :: after → P before other) ↔
      (∀ before other after, bs = before ++ other :: after → P before other) ∧ P bs b := by
  constructor
  · intro h
    refine ⟨fun before other after hbs => ?_, h bs b [] rfl⟩
    exact h before other (after ++ [b]) (by simp [hbs])
  · rintro ⟨h, hlast⟩ before other after hbs
    rcases after.eq_nil_or_concat' with rfl | ⟨after, last, rfl⟩
    · obtain ⟨rfl, hb⟩ := List.append_inj' hbs rfl
      cases hb
      exact hlast
    · rw [← List.cons_append, ← List.append_assoc] at hbs
      exact h before other after (List.append_inj' hbs rfl).1

lemma forall_split_map {β γ : Type} {f : β → γ} {P : List γ → γ → Prop} {bs : List β} :
    (∀ before other after, bs.map f = before ++ other :: after → P before other) ↔
      ∀ before other after, bs = before ++ other :: after → P (before.map f) (f other) := by
  constructor
  · rintro h before other after rfl
    exact h _ _ (after.map f) (by simp)
  · intro h before other after hbs
    obtain ⟨bs₁, bs₂, rfl, rfl, hrest⟩ := List.map_eq_append_iff.1 hbs
    obtain ⟨b, bs₃, rfl, rfl, -⟩ := List.map_eq_cons_iff.1 hrest
    exact h bs₁ b bs₃ rfl

/-- No placeholder is formed by what is inserted for those before it. -/
def Uncaptured (entries : List (List α × List α)) (text : List α) : Prop :=
  ∀ before entry after, entries = before ++ entry :: after →
    occurrences entry.1 (fill before text) = occurrences entry.1 text

lemma fillEach_concat :
    fillEach (before ++ [entry]) text = fill [entry] (fillEach before text) := by
  rw [fillEach, fillEach, List.foldl_append]
  rfl

lemma fillEach_of_uncaptured (h : Independent entries) (huncaptured : Uncaptured entries text) :
    fillEach entries text = fill entries text := by
  induction entries using List.reverseRecOn with
  | nil =>
    have hstays : fill [] text = text := by
      have happend := @fill_append _ _ [] text [] (List.forall_mem_nil _)
      simpa using happend
    rw [hstays]
    rfl
  | append_singleton before entry ih =>
    obtain ⟨hbefore, hlast⟩ := forall_split_concat.1 huncaptured
    rw [fillEach_concat, ih h.left hbefore, fill_concat h hlast]

/-- Placeholders are replaced one after the other as they are at once, and each only where the text
holds it, exactly when none is formed by what is inserted. -/
lemma fillEach_iff (h : Independent entries) :
    (fillEach entries text = fill entries text ∧
      ∀ before entry after, entries = before ++ entry :: after →
        occurrences entry.1 (fillEach before text) = occurrences entry.1 text) ↔
      Uncaptured entries text := by
  constructor
  · rintro ⟨-, hcounts⟩
    induction entries using List.reverseRecOn with
    | nil => exact fun before entry after hsplit => by simp at hsplit
    | append_singleton before entry ih =>
      obtain ⟨hbefore, hlast⟩ := forall_split_concat.1 hcounts
      have huncaptured := ih h.left hbefore
      rw [fillEach_of_uncaptured h.left huncaptured] at hlast
      exact forall_split_concat.2 ⟨huncaptured, hlast⟩
  · intro huncaptured
    refine ⟨fillEach_of_uncaptured h huncaptured, fun before entry after hsplit => ?_⟩
    subst hsplit
    have hbefore : Uncaptured before text := fun first other last hsplit =>
      huncaptured first other (last ++ entry :: after) (by simp [hsplit])
    rw [fillEach_of_uncaptured h.left hbefore]
    exact huncaptured before entry after rfl

end Each

/-! ### Placeholders that stand for placeholders -/

section Rename

variable {renames entries : List (List α × List α)} {tokens : List (List α)}
variable {token text rest : List α}

/-- Filling in placeholders forms none that is separate from them. -/
lemma prefix_of_prefix_fill (h : Separate tokens) (hrenames : Independent renames)
    (htargets : ∀ entry ∈ renames, entry.2 ∈ tokens) (htoken : token ∈ tokens) {l : List α}
    (hl : l ≠ []) (hstands : token <+: l ++ fill renames text) : token <+: l ++ text := by
  induction text using fill_induction hrenames generalizing l with
  | hnil => exact hstands
  | hentry entry hentry rest ih =>
    rw [fill_entry hrenames hentry] at hstands
    rcases Nat.lt_or_ge l.length token.length with hlong | hshort
    · -- it would reach into the placeholder that is inserted
      obtain ⟨after, rfl⟩ :=
        List.prefix_of_prefix_length_le (List.prefix_append l _) hstands hlong.le
      obtain ⟨more, hmore⟩ := hstands
      rw [List.append_assoc, List.append_cancel_left_eq] at hmore
      have hafter : after ≠ [] := by
        rintro rfl
        simp at hlong
      have hinserted : entry.2 <+: after ++ more := ⟨_, hmore.symm⟩
      exact absurd (h.apart _ htoken _ (htargets entry hentry) l after more rfl hafter
        hinserted).1 hl
    · exact (List.prefix_of_prefix_length_le hstands (List.prefix_append _ _) hshort).trans
        (List.prefix_append _ _)
  | hcons c text hstarts ih =>
    rw [fill_cons hstarts] at hstands
    have happend := ih (List.append_ne_nil_of_right_ne_nil l (List.cons_ne_nil c []))
      (by simpa using hstands)
    simpa using happend

/-- Placeholders that are inserted for others capture none. -/
lemma uncaptured_of_targets (h : Separate tokens) (hrenames : Independent renames)
    (hnames : ∀ entry ∈ renames, entry.1 ∈ tokens) (htargets : ∀ entry ∈ renames, entry.2 ∈ tokens)
    (hnew : ∀ entry ∈ renames, ∀ other ∈ renames, entry.1 ≠ other.2) (text : List α) :
    Uncaptured renames text := by
  rintro before entry after rfl
  have hhere : Independent (before ++ [entry]) := by
    rw [List.append_cons] at hrenames
    exact hrenames.left
  have hmem : entry ∈ before ++ entry :: after := by simp
  induction text using fill_induction hhere with
  | hnil => rfl
  | hentry other hother rest ih =>
    rcases List.mem_append.1 hother with hbefore | hlast
    · have hother' : other ∈ before ++ entry :: after := List.mem_append_left _ hbefore
      have htarget : ¬ StartsIn entry.1 other.2 (fill before rest) := fun hstarts =>
        hnew entry hmem other hother'
          (h.eq_of_startsIn (htargets other hother') (hnames entry hmem) hstarts)
      rw [fill_entry hhere.left hbefore, occurrences_append htarget, ih,
        occurrences_append (hhere.not_startsIn hother (by simp) (hhere.ne hbefore).symm)]
    · obtain rfl := List.mem_singleton.1 hlast
      rw [fill_later hhere, occurrences_self hhere.separate (by simp),
        occurrences_self hhere.separate (by simp), ih]
  | hcons c text hstarts ih =>
    have hnone : ¬ entry.1 <+: c :: fill before text := by
      intro hstands
      have htext := prefix_of_prefix_fill (l := [c]) h hhere.left
        (fun other hother => htargets other (List.mem_append_left _ hother)) (hnames entry hmem)
        (List.cons_ne_nil _ _) hstands
      exact hstarts entry (by simp) htext
    rw [fill_cons fun other hother => hstarts other (List.mem_append_left _ hother), occurrences,
      occurrences, if_neg hnone, if_neg (hstarts entry (by simp)), ih]

/-- Filling in placeholders for placeholders, and then these, fills in all at once. -/
lemma fill_fill (h : Independent (renames ++ entries))
    (htargets : ∀ entry ∈ renames, entry.2 ∈ entries.map Prod.fst) (text : List α) :
    fill entries (fill renames text) =
      fill (renames.map (fun entry => (entry.1, fill entries entry.2)) ++ entries) text := by
  have hrenames : Independent renames := h.left
  have hentries : Independent entries := h.right
  have hfilled : Independent
      (renames.map (fun entry => (entry.1, fill entries entry.2)) ++ entries) := by
    have hnames : (renames.map (fun entry => (entry.1, fill entries entry.2)) ++ entries).map
        Prod.fst = (renames ++ entries).map Prod.fst := by simp
    exact ⟨hnames ▸ h.separate, hnames ▸ h.nodup⟩
  induction text using fill_induction h with
  | hnil => rfl
  | hentry entry hentry rest ih =>
    rcases List.mem_append.1 hentry with hrename | hvalue
    · obtain ⟨target, htarget, hsame⟩ := List.mem_map.1 (htargets entry hrename)
      have hwhole : fill entries target.1 = target.2 := by
        simpa using @fill_entry _ _ entries target [] hentries htarget
      have hcomposed := @fill_entry _ _ _ _ rest hfilled
        (List.mem_append_left _ (List.mem_map_of_mem hrename))
      rw [fill_entry hrenames hrename, ← hsame, fill_entry hentries htarget, ih]
      rw [← hsame, hwhole] at hcomposed
      exact hcomposed.symm
    · have hstays : ∀ other ∈ renames, ¬ StartsIn other.1 entry.1 rest := by
        intro other hother
        refine h.not_startsIn hentry (List.mem_append_left _ hother) ?_
        have hnodup := h.nodup
        rw [List.map_append, List.nodup_append] at hnodup
        exact hnodup.2.2 _ (List.mem_map_of_mem hother) _ (List.mem_map_of_mem hvalue)
      rw [fill_append hstays, fill_entry hentries hvalue,
        fill_entry hfilled (List.mem_append_right _ hvalue), ih]
  | hcons c text hstarts ih =>
    have hnone : ∀ other ∈ entries, ¬ other.1 <+: c :: fill renames text := by
      intro other hother hstands
      have htext := prefix_of_prefix_fill (l := [c]) h.separate hrenames
        (fun entry hentry => by
          have hin := htargets entry hentry
          rw [List.map_append]
          exact List.mem_append_right _ hin)
        (List.mem_map_of_mem (List.mem_append_right _ hother)) (List.cons_ne_nil _ _) hstands
      exact hstarts other (List.mem_append_right _ hother) htext
    have hfilledNone : ∀ other ∈ renames.map (fun entry => (entry.1, fill entries entry.2)) ++
        entries, ¬ other.1 <+: c :: text := by
      intro other hother
      rcases List.mem_append.1 hother with hrename | hvalue
      · obtain ⟨entry, hentry, rfl⟩ := List.mem_map.1 hrename
        exact hstarts entry (List.mem_append_left _ hentry)
      · exact hstarts other (List.mem_append_right _ hvalue)
    rw [fill_cons fun other hother => hstarts other (List.mem_append_left _ hother),
      fill_cons hnone, fill_cons hfilledNone, ih]

end Rename

end EnjiGuard.Foundation
