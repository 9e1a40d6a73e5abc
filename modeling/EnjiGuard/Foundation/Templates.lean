import EnjiGuard.Foundation.Placeholders
import Mathlib.Data.List.Lookmap

/-!
# Templates of paths

The segments of a template are texts and slots, a slot being written as its name in braces. Filling
in the slots one after the other gives the path whose segments are filled in at once, as long as
what is inserted holds no brace; and a path whose segments hold no separator is read back segment by
segment.
-/

namespace EnjiGuard.Foundation

/-! ### Paths -/

section Paths

variable {segments : List (List Char)} {first : List Char}

def pathText (segments : List (List Char)) : List Char := segments.flatMap ('/' :: ·)

@[simp] lemma pathText_nil : pathText [] = [] := rfl

@[simp] lemma pathText_cons : pathText (first :: segments) = '/' :: (first ++ pathText segments) :=
  rfl

lemma mem_pathText {c : Char} (hc : c ≠ '/') :
    c ∈ pathText segments ↔ ∃ segment ∈ segments, c ∈ segment := by
  simp [pathText, hc]

lemma splitOn_append_pathText (hfirst : '/' ∉ first) (h : ∀ segment ∈ segments, '/' ∉ segment) :
    (first ++ pathText segments).splitOn '/' = first :: segments := by
  induction segments generalizing first with
  | nil =>
    rw [pathText_nil, List.append_nil]
    exact List.splitOn_eq_singleton hfirst
  | cons segment segments ih =>
    rw [pathText_cons, List.splitOn_append_cons_self_of_not_mem hfirst,
      ih (h segment List.mem_cons_self) fun other hother => h other (List.mem_cons_of_mem _ hother)]

/-- A path is read back segment by segment. -/
lemma splitOn_pathText (h : ∀ segment ∈ segments, '/' ∉ segment) :
    (pathText segments).splitOn '/' = [] :: segments :=
  @splitOn_append_pathText segments [] List.not_mem_nil h

/-- A segment that stands for the directory itself or the one above. -/
def Dotted (segment : List Char) : Prop := segment = ['.'] ∨ segment = ['.', '.']

instance (segment : List Char) : Decidable (Dotted segment) := by
  unfold Dotted
  infer_instance

/-- Segments are rid of the dotted ones. -/
structure ResolvesDots (resolve : List (List Char) → List (List Char)) : Prop where
  plain {segments : List (List Char)} : (∀ segment ∈ segments, ¬ Dotted segment) →
    resolve segments = segments
  clean {segments : List (List Char)} {segment : List Char} : segment ∈ resolve segments →
    ¬ Dotted segment
  source {segments : List (List Char)} {segment : List Char} : segment ∈ resolve segments →
    segment = [] ∨ segment ∈ segments

end Paths

/-! ### Filling in slots -/

/-- A segment of a template. -/
inductive Segment
  | literal (text : List Char)
  | slot (name : String)
  deriving DecidableEq, Repr

/-- A slot as it is written. -/
def slotToken (name : String) : List Char := '{' :: (name.toList ++ ['}'])

namespace Segment

variable {s : Segment} {segments : List Segment} {entries : List (String × List Char)}
variable {name name' : String} {value text rest : List Char}

def written : Segment → List Char
  | literal text => text
  | slot name => slotToken name

/-- Neither texts nor names hold braces or separators. -/
def Plain : Segment → Prop
  | literal text => '{' ∉ text ∧ '/' ∉ text
  | slot name => '{' ∉ name.toList ∧ '}' ∉ name.toList

instance : (s : Segment) → Decidable s.Plain
  | literal text => inferInstanceAs (Decidable ('{' ∉ text ∧ '/' ∉ text))
  | slot name => inferInstanceAs (Decidable ('{' ∉ name.toList ∧ '}' ∉ name.toList))

/-- A text that stands in a path as it is. -/
def Unquoted : Segment → Prop
  | literal text => ¬ Dotted text ∧ '%' ∉ text ∧ '?' ∉ text ∧ '#' ∉ text
  | slot _ => True

instance : (s : Segment) → Decidable s.Unquoted
  | literal text =>
    inferInstanceAs (Decidable (¬ Dotted text ∧ '%' ∉ text ∧ '?' ∉ text ∧ '#' ∉ text))
  | slot _ => inferInstanceAs (Decidable True)

/-- A segment after a slot is filled in. -/
def put (name : String) (value : List Char) : Segment → Segment
  | literal text => literal text
  | slot other => if other = name then literal value else slot other

/-- A segment after slots are filled in, one after the other. -/
def fillIn (entries : List (String × List Char)) (s : Segment) : Segment :=
  entries.foldl (fun s entry => s.put entry.1 entry.2) s

@[simp] lemma fillIn_literal : (literal text).fillIn entries = literal text := by
  induction entries with
  | nil => rfl
  | cons entry entries ih => exact ih

lemma fillIn_slot :
    (slot name).fillIn entries = match entries.lookup name with
      | some value => literal value
      | none => slot name := by
  induction entries with
  | nil => rfl
  | cons entry entries ih =>
    obtain ⟨other, value⟩ := entry
    rw [fillIn, List.foldl_cons, put]
    by_cases h : name = other
    · subst h
      rw [if_pos rfl, List.lookup_cons_self]
      exact fillIn_literal
    · rw [if_neg h, List.lookup_cons, beq_eq_false_iff_ne.2 h]
      exact ih

lemma Plain.put (h : s.Plain) (hvalue : '{' ∉ value ∧ '/' ∉ value) : (s.put name value).Plain := by
  cases s with
  | literal text => exact h
  | slot other =>
    rw [Segment.put]
    split_ifs
    · exact hvalue
    · exact h

lemma not_startsIn_slotToken (h : '{' ∉ text) : ¬ StartsIn (slotToken name) text rest := by
  rintro ⟨before, after, rfl, hafter, more, hmore⟩
  obtain ⟨c, after, rfl⟩ := List.exists_cons_of_ne_nil hafter
  refine h (List.mem_append_right _ ?_)
  rw [← (List.cons.inj hmore).1]
  exact List.mem_cons_self

lemma name_eq_of_stands (h : '}' ∉ name.toList) (h' : '}' ∉ name'.toList)
    (hstands : slotToken name <+: slotToken name' ++ rest) : name = name' := by
  obtain ⟨more, hmore⟩ := hstands
  have hnames : name.toList ++ '}' :: more = name'.toList ++ '}' :: rest := by
    simpa [slotToken] using hmore
  exact String.toList_inj.1 (append_cons_inj h h' hnames).1

lemma not_startsIn_of_ne (hne : name' ≠ name) (h : '{' ∉ name.toList ∧ '}' ∉ name.toList)
    (h' : '}' ∉ name'.toList) : ¬ StartsIn (slotToken name') ('/' :: slotToken name) rest := by
  intro hstarts
  rcases startsIn_cons.1 hstarts with ⟨more, hmore⟩ | hstarts
  · exact absurd (List.cons.inj hmore).1 (by decide)
  · rcases startsIn_cons.1 hstarts with hstands | hlater
    · exact hne (name_eq_of_stands h' h.2 hstands)
    · refine not_startsIn_slotToken ?_ hlater
      simp [h.1]

lemma independent_slotToken (h : '{' ∉ name.toList ∧ '}' ∉ name.toList) :
    Independent [(slotToken name, value)] where
  separate := by
    constructor
    · intro token htoken
      rw [List.map_singleton, List.mem_singleton] at htoken
      rw [htoken]
      exact List.cons_ne_nil _ _
    · intro token htoken other hother before after rest heq hafter hstands
      rw [List.map_singleton, List.mem_singleton] at htoken hother
      subst htoken hother
      refine ⟨?_, rfl⟩
      cases before with
      | nil => rfl
      | cons c before =>
        have hlater : StartsIn (slotToken name) (name.toList ++ ['}']) rest :=
          ⟨before, after, (List.cons.inj heq).2, hafter, hstands⟩
        exact absurd hlater (not_startsIn_slotToken (by simp [h.1]))
  nodup := List.nodup_singleton _

/-- Filling in a slot of a path fills it in in every segment. -/
lemma fill_pathText (hname : '{' ∉ name.toList ∧ '}' ∉ name.toList)
    (h : ∀ s ∈ segments, s.Plain) :
    fill [(slotToken name, value)] (pathText (segments.map Segment.written)) =
      pathText (segments.map fun s => (s.put name value).written) := by
  induction segments with
  | nil => rfl
  | cons s segments ih =>
    have hrest := ih fun other hother => h other (List.mem_cons_of_mem _ hother)
    have hs := h s List.mem_cons_self
    rw [List.map_cons, List.map_cons, pathText_cons, pathText_cons, ← List.cons_append,
      ← List.cons_append, ← hrest]
    cases s with
    | literal text =>
      refine fill_append fun entry hentry => ?_
      rw [List.mem_singleton.1 hentry]
      refine not_startsIn_slotToken ?_
      simp [Segment.written, hs.1]
    | slot other =>
      by_cases hother : other = name
      · subst hother
        have hslash : ∀ entry ∈ [(slotToken other, value)], ¬ entry.1 <+:
            '/' :: (slotToken other ++ pathText (segments.map Segment.written)) := by
          intro entry hentry
          rw [List.mem_singleton.1 hentry]
          rintro ⟨more, hmore⟩
          exact absurd (List.cons.inj hmore).1 (by decide)
        rw [Segment.put, if_pos rfl, Segment.written, Segment.written, List.cons_append,
          fill_cons hslash, @fill_entry _ _ _ (slotToken other, value) _
            (independent_slotToken hname) List.mem_cons_self]
        rfl
      · rw [Segment.put, if_neg hother]
        refine fill_append fun entry hentry => ?_
        rw [List.mem_singleton.1 hentry]
        exact not_startsIn_of_ne (Ne.symm hother) hs hname.2

/-- Filling in the slots of a path one after the other fills them in in every segment. -/
lemma fillEach_pathText
    (hentries : ∀ entry ∈ entries, ('{' ∉ entry.1.toList ∧ '}' ∉ entry.1.toList) ∧
      '{' ∉ entry.2 ∧ '/' ∉ entry.2)
    (h : ∀ s ∈ segments, s.Plain) :
    fillEach (entries.map fun entry => (slotToken entry.1, entry.2))
        (pathText (segments.map Segment.written)) =
      pathText (segments.map fun s => (s.fillIn entries).written) := by
  induction entries generalizing segments with
  | nil => rfl
  | cons entry entries ih =>
    obtain ⟨hentry, hrest⟩ := List.forall_mem_cons.1 hentries
    have hput : ∀ s ∈ segments.map (Segment.put entry.1 entry.2), s.Plain := by
      intro s hs
      obtain ⟨other, hother, rfl⟩ := List.mem_map.1 hs
      exact (h other hother).put hentry.2
    have hstep := ih hrest hput
    rw [List.map_map, List.map_map] at hstep
    rw [List.map_cons, fillEach, List.foldl_cons, fill_pathText hentry.1 h]
    exact hstep

/-! ### Reading segments -/

variable {β : Type} {read : List Char → Option β}

def slotNames (segments : List Segment) : List String :=
  segments.filterMap fun
    | literal _ => none
    | slot name => some name

/-- What a path says for the slots of a template, unless it is none of its paths. -/
def readSegments (read : List Char → Option β) :
    List Segment → List (List Char) → Option (List (String × β))
  | [], [] => some []
  | literal text :: segments, part :: parts =>
    if part = text then readSegments read segments parts else none
  | slot name :: segments, part :: parts => do
    let value ← read part
    let values ← readSegments read segments parts
    some ((name, value) :: values)
  | _, _ => none

/-- Segments that are different texts. -/
def Differs : Segment → Segment → Prop
  | literal text, literal text' => text ≠ text'
  | _, _ => False

instance : (s s' : Segment) → Decidable (Differs s s')
  | literal text, literal text' => inferInstanceAs (Decidable (text ≠ text'))
  | literal _, slot _ => inferInstanceAs (Decidable False)
  | slot _, literal _ => inferInstanceAs (Decidable False)
  | slot _, slot _ => inferInstanceAs (Decidable False)

/-- Templates that differ in length, or in the text of a segment. -/
def Apart (segments segments' : List Segment) : Prop :=
  segments.length ≠ segments'.length ∨ ∃ pair ∈ segments.zip segments', Differs pair.1 pair.2

instance (segments segments' : List Segment) : Decidable (Apart segments segments') := by
  unfold Apart
  infer_instance

/-- A segment whose slot is filled in. -/
def part (values : String → List Char) : Segment → List Char
  | literal text => text
  | slot name => values name

/-- What is filled in is read, if what is written is. -/
lemma readSegments_part {write : β → List Char} (hread : ∀ value, read (write value) = some value)
    (values : String → β) (segments : List Segment) :
    readSegments read segments (segments.map (part fun name => write (values name))) =
      some ((slotNames segments).map fun name => (name, values name)) := by
  induction segments with
  | nil => rfl
  | cons s segments ih =>
    cases s with
    | literal text => rwa [List.map_cons, part, readSegments, if_pos rfl]
    | slot name =>
      rw [List.map_cons, part, readSegments, hread, ih]
      rfl

/-- A path of a template, and what it says for the slots. -/
inductive Reads (read : List Char → Option β) :
    List Segment → List (List Char) → List (String × β) → Prop
  | nil : Reads read [] [] []
  | literal {text : List Char} {segments : List Segment} {parts : List (List Char)}
    {values : List (String × β)} (h : Reads read segments parts values) :
    Reads read (literal text :: segments) (text :: parts) values
  | slot {name : String} {part : List Char} {value : β} {segments : List Segment}
    {parts : List (List Char)} {values : List (String × β)} (hread : read part = some value)
    (h : Reads read segments parts values) :
    Reads read (slot name :: segments) (part :: parts) ((name, value) :: values)

variable {segments' : List Segment} {parts : List (List Char)} {values values' : List (String × β)}

lemma reads_of_readSegments (h : readSegments read segments parts = some values) :
    Reads read segments parts values := by
  induction segments generalizing parts values with
  | nil =>
    cases parts with
    | nil =>
      cases h
      exact .nil
    | cons part parts => cases h
  | cons s segments ih =>
    cases parts with
    | nil => cases s <;> cases h
    | cons part parts =>
      cases s with
      | literal text =>
        rw [readSegments] at h
        split_ifs at h with hpart
        subst hpart
        exact .literal (ih h)
      | slot name =>
        obtain ⟨value, hvalue, hrest⟩ := Option.bind_eq_some_iff.1 h
        obtain ⟨others, hothers, hsome⟩ := Option.bind_eq_some_iff.1 hrest
        cases hsome
        exact .slot hvalue (ih hothers)

/-- What a path says for a slot is what one of its segments is read as. -/
lemma Reads.exists_part (h : Reads read segments parts values) {name : String} {value : β}
    (hvalue : (name, value) ∈ values) : ∃ part ∈ parts, read part = some value := by
  induction h with
  | nil => exact absurd hvalue List.not_mem_nil
  | literal h ih =>
    obtain ⟨part, hpart, hread⟩ := ih hvalue
    exact ⟨part, List.mem_cons_of_mem _ hpart, hread⟩
  | slot hread h ih =>
    rcases List.mem_cons.1 hvalue with heq | hvalue
    · cases heq
      exact ⟨_, List.mem_cons_self, hread⟩
    · obtain ⟨part, hpart, hread⟩ := ih hvalue
      exact ⟨part, List.mem_cons_of_mem _ hpart, hread⟩

lemma Apart.of_cons {s' : Segment} (h : Apart (s :: segments) (s' :: segments'))
    (hsame : ¬ Differs s s') : Apart segments segments' := by
  rcases h with hlength | ⟨pair, hpair, hdiffers⟩
  · refine .inl fun heq => hlength ?_
    rw [List.length_cons, List.length_cons, heq]
  · rcases List.mem_cons.1 hpair with rfl | hpair
    · exact absurd hdiffers hsame
    · exact .inr ⟨pair, hpair, hdiffers⟩

/-- The paths of templates that are apart are different. -/
lemma Reads.not_apart (h : Reads read segments parts values)
    (h' : Reads read segments' parts values') : ¬ Apart segments segments' := by
  induction h generalizing segments' values' with
  | nil =>
    cases h'
    rintro (hlength | ⟨pair, hpair, -⟩)
    · exact hlength rfl
    · exact absurd hpair List.not_mem_nil
  | literal h ih =>
    rcases h' with - | h' | ⟨-, h'⟩
    · exact fun hapart => ih h' (hapart.of_cons fun hdiffers => hdiffers rfl)
    · exact fun hapart => ih h' (hapart.of_cons id)
  | slot hread h ih =>
    rcases h' with - | h' | ⟨-, h'⟩
    · exact fun hapart => ih h' (hapart.of_cons id)
    · exact fun hapart => ih h' (hapart.of_cons id)

end Segment

/-! ### One of several -/

/-- What one element of a list gives is all the list gives, if no other gives anything. -/
lemma filterMap_eq_singleton {α β : Type} {R : α → α → Prop} {f : α → Option β} {as : List α}
    {a : α} {b : β} (hpairwise : as.Pairwise R) (ha : a ∈ as) (hf : f a = some b)
    (hothers : ∀ other ∈ as, R a other ∨ R other a → f other = none) : as.filterMap f = [b] := by
  induction as with
  | nil => exact absurd ha List.not_mem_nil
  | cons first as ih =>
    obtain ⟨hfirst, hrest⟩ := List.pairwise_cons.1 hpairwise
    rcases List.mem_cons.1 ha with rfl | ha
    · rw [List.filterMap_cons_some hf, List.filterMap_eq_nil_iff.2]
      exact fun other hother => hothers other (List.mem_cons_of_mem _ hother)
        (.inl (hfirst other hother))
    · rw [List.filterMap_cons_none (hothers first List.mem_cons_self (.inr (hfirst a ha)))]
      exact ih hrest ha fun other hother => hothers other (List.mem_cons_of_mem _ hother)

end EnjiGuard.Foundation
