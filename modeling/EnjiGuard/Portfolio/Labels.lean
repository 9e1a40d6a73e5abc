import EnjiGuard.Foundation.Trimming
import EnjiGuard.Portfolio.Selectors
import Mathlib.Data.List.Flatten

/-!
# Labels of repositories

A repository is shown under its label `provider@host:locator`, and a selector is read as such a
label. Whether the label of an identity is read as that identity is settled here, with the
operations of the language on texts given by tables of characters.
-/

namespace EnjiGuard.Portfolio

open Foundation

/-! ### Characters -/

/-- What the language knows about characters: which are blanks, how they are folded and put in lower
case, which are written with a separator in their compatible form, which texts are addresses of the
sixth version, and which number a text of digits is. -/
structure CharTables where
  blank : Char → Bool
  fold : Char → List Char
  lower : List Char → List Char
  spells : Char → Bool
  ipv6 : List Char → Bool
  digits : String → Option Nat
  closeMatches : String → List String → List String

namespace CharTables

variable (tables : CharTables)

def foldChars (cs : List Char) : List Char := cs.flatMap tables.fold

/-! ### Hosts in addresses -/

/-- A digit of a number to the base sixteen. -/
def isHexDigit (c : Char) : Bool := c.isDigit || c.toLower ∈ ['a', 'b', 'c', 'd', 'e', 'f']

/-- The host between brackets is one of a later version, or an address of the sixth. -/
def bracketedHost : List Char → Bool
  | 'v' :: rest =>
    rest.takeWhile isHexDigit ≠ [] &&
      match rest.dropWhile isHexDigit with
      | '.' :: more => more ≠ []
      | _ => false
  | host => tables.ipv6 host

/-- Brackets stand around the whole of a host, or not at all. -/
def bracketsFit (netloc : List Char) : Bool :=
  if '[' ∈ netloc ∨ ']' ∈ netloc then
    match netloc with
    | '[' :: rest =>
      let after := (rest.dropWhile (· ≠ ']')).drop 1
      decide (']' ∈ rest) && (after = [] || after.head? = some ':') &&
        bracketedHost tables (rest.takeWhile (· ≠ ']'))
    | _ => false
  else true

/-- The host of an address and the text of its port. -/
def hostInfo (netloc : List Char) : List Char × List Char :=
  match netloc with
  | '[' :: rest =>
    (rest.takeWhile (· ≠ ']'),
      (((rest.dropWhile (· ≠ ']')).drop 1).dropWhile (· ≠ ':')).drop 1)
  | _ => (netloc.takeWhile (· ≠ ':'), (netloc.dropWhile (· ≠ ':')).drop 1)

/-- A host in lower case, except for its zone. -/
def hostName (host : List Char) : List Char :=
  tables.lower (host.takeWhile (· ≠ '%')) ++ host.dropWhile (· ≠ '%')

def portNumber (port : List Char) : Option Nat :=
  if port ≠ [] ∧ port.all Char.isDigit then
    let number := Nat.ofDigitChars 10 port 0
    if number ≤ 65535 then some number else none
  else none

/-- The host and the port of an address; line breaks and tabs are dropped. -/
def urlHostPort (host : List Char) : Option (List Char × Nat) :=
  let netloc := host.filter (· ∉ ['\t', '\r', '\n'])
  if bracketsFit tables netloc ∧ ¬ netloc.any tables.spells then
    let info := hostInfo netloc
    if info.1 = [] then none
    else (portNumber info.2).map fun port => (hostName tables info.1, port)
  else none

/-- The operations that selectors use. -/
def text : SelectorText where
  casefold value := String.ofList (foldChars tables value.toList)
  strip value := String.ofList (trim tables.blank value.toList)
  digits := tables.digits
  urlHostPort value := (urlHostPort tables value.toList).map fun found =>
    (String.ofList found.1, found.2)
  closeMatches := tables.closeMatches

/-- A digit, a small letter or the colon. -/
def Plain (c : Char) : Prop := c.isDigit = true ∨ c.isLower = true ∨ c = ':'

instance : DecidablePred Plain := fun c =>
  inferInstanceAs (Decidable (c.isDigit = true ∨ c.isLower = true ∨ c = ':'))

/-- What is known of the tables: a folded text stays when it is folded again and when it is put in
lower case and folded again, folding makes no blanks, and plain characters are folded, no blanks and
no separators in disguise. -/
structure Lawful : Prop where
  blank_break : ∀ c ∈ ['\t', '\r', '\n'], tables.blank c = true
  not_blank : ∀ c, Plain c → tables.blank c = false
  fold_plain : ∀ c, Plain c → tables.fold c = [c]
  not_spells : ∀ c, Plain c → tables.spells c = false
  fold_ne_nil : ∀ c, tables.fold c ≠ []
  fold_fold : ∀ c, ∀ d ∈ tables.fold c, tables.fold d = [d]
  fold_blank : ∀ c, tables.blank c = false → ∀ d ∈ tables.fold c, tables.blank d = false
  fold_lower : ∀ cs, (∀ c ∈ cs, tables.fold c = [c]) → foldChars tables (tables.lower cs) = cs
  lower_colon : ∀ cs, (∀ c ∈ cs, tables.fold c = [c]) → ':' ∈ cs → ':' ∈ tables.lower cs
  ipv6_colon : ∀ cs, tables.ipv6 cs = true → ':' ∈ cs
  digits_toString : ∀ n ≤ 65535, tables.digits (toString n) = some n

end CharTables

/-! ### Folded texts -/

section Folding

variable {tables : CharTables} {cs ds : List Char} {c : Char}

@[simp] lemma toList_casefold (value : String) :
    (tables.text.casefold value).toList = tables.foldChars value.toList :=
  String.toList_ofList

@[simp] lemma toList_strip (value : String) :
    (tables.text.strip value).toList = trim tables.blank value.toList :=
  String.toList_ofList

lemma strip_eq_self_iff {value : String} :
    tables.text.strip value = value ↔ Tight tables.blank value.toList := by
  rw [← String.toList_inj, toList_strip, trim_eq_self_iff]

lemma foldChars_append : tables.foldChars (cs ++ ds) = tables.foldChars cs ++ tables.foldChars ds :=
  List.flatMap_append

/-- A text of folded characters. -/
def Folded (tables : CharTables) (cs : List Char) : Prop := ∀ c ∈ cs, tables.fold c = [c]

lemma Folded.foldChars_eq (h : Folded tables cs) : tables.foldChars cs = cs := by
  induction cs with
  | nil => rfl
  | cons c cs ih =>
    rw [CharTables.foldChars, List.flatMap_cons, h c List.mem_cons_self]
    exact congrArg (c :: ·) (ih fun d hd => h d (List.mem_cons_of_mem c hd))

lemma Folded.of_subset (h : Folded tables ds) (hsub : cs ⊆ ds) : Folded tables cs :=
  fun c hc => h c (hsub hc)

lemma folded_foldChars (hlawful : tables.Lawful) (cs : List Char) :
    Folded tables (tables.foldChars cs) := by
  intro c hc
  obtain ⟨d, -, hcd⟩ := List.mem_flatMap.1 hc
  exact hlawful.fold_fold d c hcd

/-- No character is lost in folding, so that a shortened text is not folded to the same. -/
lemma eq_of_foldChars_eq (hlawful : tables.Lawful) (hsub : cs.Sublist ds)
    (h : tables.foldChars cs = tables.foldChars ds) : cs = ds := by
  induction hsub with
  | slnil => rfl
  | @cons cs ds d hsub =>
    have hshorter : (tables.foldChars cs).length ≤ (tables.foldChars ds).length :=
      (hsub.flatMap tables.fold).length_le
    have hpos := List.length_pos_iff.2 (hlawful.fold_ne_nil d)
    have hlength := congrArg List.length h
    simp only [CharTables.foldChars, List.flatMap_cons, List.length_append] at hshorter hlength
    omega
  | @cons_cons cs ds d hsub ih =>
    simp only [CharTables.foldChars, List.flatMap_cons] at h ih
    rw [ih (List.append_cancel_left h)]

/-- The folding of a text that begins with no blank begins with none. -/
lemma not_blank_head?_foldChars (hlawful : tables.Lawful)
    (h : ∀ c ∈ cs.head?, tables.blank c = false) :
    ∀ c ∈ (tables.foldChars cs).head?, tables.blank c = false := by
  intro c hc
  cases cs with
  | nil => cases hc
  | cons d cs =>
    rw [CharTables.foldChars, List.flatMap_cons, List.head?_append_of_ne_nil _
      (hlawful.fold_ne_nil d)] at hc
    exact hlawful.fold_blank d (h d rfl) c (List.mem_of_mem_head? hc)

end Folding

/-! ### Hosts with a port -/

section Ports

open CharTables

variable {tables : CharTables} {netloc raw name : List Char} {port : Nat}

lemma digits_ne_nil (port : Nat) : (toString port).toList ≠ [] := by
  rw [Nat.toString_eq_repr, Nat.toList_repr]
  exact Nat.toDigits_ne_nil

lemma isDigit_of_mem_digits {c : Char} (h : c ∈ (toString port).toList) : c.isDigit = true := by
  rw [Nat.toString_eq_repr, Nat.toList_repr] at h
  exact Nat.isDigit_of_mem_toDigits (by decide) (by decide) h

lemma not_mem_digits {c : Char} (hc : c.isDigit = false) : c ∉ (toString port).toList := by
  intro h
  rw [isDigit_of_mem_digits h] at hc
  cases hc

lemma portNumber_digits (hport : port ≤ 65535) : portNumber (toString port).toList = some port := by
  have hall : (toString port).toList.all Char.isDigit = true :=
    List.all_eq_true.2 fun c hc => isDigit_of_mem_digits hc
  have hnumber : Nat.ofDigitChars 10 (toString port).toList 0 = port := by
    rw [Nat.toString_eq_repr, Nat.toList_repr]
    exact Nat.ofDigitChars_ten_toDigits
  rw [portNumber, if_pos ⟨digits_ne_nil port, hall⟩, hnumber]
  exact if_pos hport

/-- The separator of a port and the port are plain. -/
lemma plain_of_mem_port {c : Char} (h : c ∈ ':' :: (toString port).toList) : Plain c := by
  obtain rfl | h := List.mem_cons.1 h
  · exact .inr (.inr rfl)
  · exact .inl (isDigit_of_mem_digits h)

lemma not_mem_port {c : Char} (hc : ¬ Plain c) (before : List Char) (h : c ∉ before) :
    c ∉ before ++ ':' :: (toString port).toList := fun hmem =>
  (List.mem_append.1 hmem).elim h fun hmem => hc (plain_of_mem_port hmem)

lemma forall_mem_of_all {p : Char → Prop} [DecidablePred p] {cs : List Char}
    (h : cs.all (p ·) = true) : ∀ c ∈ cs, p c := fun c hc =>
  of_decide_eq_true (List.all_eq_true.1 h c hc)

lemma not_plain_of_separator : ∀ c ∈ ['/', '@', '?', '#'], ¬ Plain c :=
  forall_mem_of_all (by decide)

lemma not_break {c : Char} (hlawful : tables.Lawful) (hc : tables.blank c = false) :
    c ∉ ['\t', '\r', '\n'] := by
  intro hmem
  rw [hlawful.blank_break c hmem] at hc
  cases hc

lemma head?_of_isPrefix {before : List Char} (h : before <+: netloc) (hne : before ≠ []) :
    netloc.head? = before.head? := by
  obtain ⟨rest, rfl⟩ := h
  exact List.head?_append_of_ne_nil before hne

/-- Brackets are missing, or they stand around the whole of the host. -/
lemma bracketsFit_cases (h : bracketsFit tables netloc = true) :
    ('[' ∉ netloc ∧ ']' ∉ netloc) ∨ ∃ rest, netloc = '[' :: rest ∧
      bracketedHost tables (rest.takeWhile (· ≠ ']')) = true ∧ ']' ∈ rest := by
  unfold bracketsFit at h
  split at h
  case isTrue hmem =>
    split at h
    case h_1 rest =>
      simp only [Bool.and_eq_true, decide_eq_true_eq] at h
      exact .inr ⟨rest, rfl, h.2, h.1.1⟩
    case h_2 => cases h
  case isFalse hmem => exact .inl (not_or.1 hmem)

lemma bracketsFit_of_not_mem (h : '[' ∉ netloc) (h' : ']' ∉ netloc) :
    bracketsFit tables netloc = true := by
  unfold bracketsFit
  rw [if_neg (not_or.2 ⟨h, h'⟩)]

lemma hostInfo_of_not_mem (h : '[' ∉ netloc) :
    hostInfo netloc = (netloc.takeWhile (· ≠ ':'), (netloc.dropWhile (· ≠ ':')).drop 1) := by
  rw [hostInfo]
  intro rest hrest
  exact h (hrest ▸ List.mem_cons_self)

lemma hostInfo_port (hopen : '[' ∉ raw) (hcolon : ':' ∉ raw) :
    hostInfo (raw ++ ':' :: (toString port).toList) = (raw, (toString port).toList) := by
  have hne : ∀ c ∈ raw, decide (c ≠ ':') = true := fun c hc =>
    decide_eq_true fun heq => hcolon (heq ▸ hc)
  rw [hostInfo_of_not_mem (not_mem_port (by decide) raw hopen), List.takeWhile_append_of_pos hne,
    List.dropWhile_append_of_pos hne]
  simp

lemma urlHostPort_eq_some_iff {host : List Char} :
    urlHostPort tables host = some (name, port) ↔
      bracketsFit tables (host.filter (· ∉ ['\t', '\r', '\n'])) = true ∧
      (∀ c ∈ host.filter (· ∉ ['\t', '\r', '\n']), tables.spells c = false) ∧
      (hostInfo (host.filter (· ∉ ['\t', '\r', '\n']))).1 ≠ [] ∧
      portNumber (hostInfo (host.filter (· ∉ ['\t', '\r', '\n']))).2 = some port ∧
      hostName tables (hostInfo (host.filter (· ∉ ['\t', '\r', '\n']))).1 = name := by
  generalize hnetloc : host.filter (· ∉ ['\t', '\r', '\n']) = netloc
  simp only [urlHostPort, hnetloc]
  constructor
  · intro h
    split at h
    case isTrue hfit =>
      split at h
      case isTrue => cases h
      case isFalse hne =>
        obtain ⟨found, hfound, heq⟩ := Option.map_eq_some_iff.1 h
        obtain ⟨rfl, rfl⟩ := Prod.mk.inj heq
        exact ⟨hfit.1, by simpa using hfit.2, hne, hfound, rfl⟩
    case isFalse => cases h
  · rintro ⟨hfit, hspells, hne, hport, rfl⟩
    have hnone : ¬ netloc.any tables.spells = true := by simpa using hspells
    rw [if_pos ⟨hfit, hnone⟩, if_neg hne, hport]
    rfl

lemma hostInfo_fst_subset (netloc : List Char) : (hostInfo netloc).1 ⊆ netloc := by
  rw [hostInfo.eq_def]
  split
  case h_1 rest => exact List.Subset.trans (List.takeWhile_subset _) (List.subset_cons_self _ rest)
  case h_2 => exact List.takeWhile_subset _

/-- What stands before the port of a host. -/
structure HostText (tables : CharTables) (raw : List Char) : Prop where
  ne_nil : raw ≠ []
  folded : Folded tables raw
  head : ∀ c ∈ raw.head?, tables.blank c = false
  named : ':' ∉ hostName tables raw
  closed : ']' ∉ raw
  unbroken : ∀ c ∈ raw, c ∉ ['\t', '\r', '\n']
  unseparated : ∀ c ∈ raw, c ∉ ['/', '@', '?', '#']
  unspelt : ∀ c ∈ raw, tables.spells c = false

lemma foldChars_hostName (hlawful : tables.Lawful) (hfolded : Folded tables raw) :
    tables.foldChars (hostName tables raw) = raw := by
  have hhost : Folded tables (raw.takeWhile (· ≠ '%')) :=
    hfolded.of_subset (List.takeWhile_subset _)
  have hzone : Folded tables (raw.dropWhile (· ≠ '%')) :=
    hfolded.of_subset (List.dropWhile_subset _)
  rw [hostName, foldChars_append, hlawful.fold_lower _ hhost, hzone.foldChars_eq,
    List.takeWhile_append_dropWhile]

/-- A colon in a host stays in its name. -/
lemma colon_not_mem (hlawful : tables.Lawful) (hfolded : Folded tables raw)
    (h : ':' ∉ hostName tables raw) : ':' ∉ raw := by
  intro hcolon
  rw [hostName, List.mem_append, not_or] at h
  rw [← @List.takeWhile_append_dropWhile _ (· ≠ '%') raw, List.mem_append] at hcolon
  obtain hhost | hzone := hcolon
  · exact h.1 (hlawful.lower_colon _ (hfolded.of_subset (List.takeWhile_subset _)) hhost)
  · exact h.2 hzone

lemma HostText.unported (hlawful : tables.Lawful) (h : HostText tables raw) : ':' ∉ raw :=
  colon_not_mem hlawful h.folded h.named

/-- Without a colon, only a host of a later version stands between brackets. -/
lemma bracketedHost_head (hlawful : tables.Lawful) (h : bracketedHost tables raw = true)
    (hcolon : ':' ∉ raw) : raw.head? = some 'v' := by
  rw [bracketedHost.eq_def] at h
  split at h
  case h_1 => rfl
  case h_2 => exact absurd (hlawful.ipv6_colon _ h) hcolon

lemma head?_filter_breaks {base : List Char} (hlawful : tables.Lawful)
    (hhead : ∀ c ∈ base.head?, tables.blank c = false) :
    (base.filter (· ∉ ['\t', '\r', '\n'])).head? = base.head? := by
  cases base with
  | nil => rfl
  | cons c base =>
    rw [List.filter_cons_of_pos (by simpa using not_break hlawful (hhead c rfl))]
    rfl

/-- The host that is found in an address is one that may stand before a port. -/
lemma hostText_of_urlHostPort {base : List Char} (hlawful : tables.Lawful)
    (hfolded : Folded tables base) (hhead : ∀ c ∈ base.head?, tables.blank c = false)
    (hsep : ∀ c ∈ base, c ∉ ['/', '@', '?', '#'])
    (h : urlHostPort tables base = some (name, port)) (hname : ':' ∉ name) :
    ∃ raw, HostText tables raw ∧ hostName tables raw = name := by
  obtain ⟨hfit, hspells, hne, -, rfl⟩ := urlHostPort_eq_some_iff.1 h
  generalize hnetloc : base.filter (· ∉ ['\t', '\r', '\n']) = netloc at hfit hspells hne hname
  have hbase : netloc ⊆ base := hnetloc ▸ List.filter_subset_self _
  have hsub : (hostInfo netloc).1 ⊆ netloc := hostInfo_fst_subset netloc
  have hraw : Folded tables (hostInfo netloc).1 := hfolded.of_subset (List.Subset.trans hsub hbase)
  have hcolon : ':' ∉ (hostInfo netloc).1 := colon_not_mem hlawful hraw hname
  have hends : (∀ c ∈ (hostInfo netloc).1.head?, tables.blank c = false) ∧
      ']' ∉ (hostInfo netloc).1 := by
    obtain ⟨hopen, hclose⟩ | ⟨rest, rfl, hhost, -⟩ := bracketsFit_cases hfit
    · -- the first character of the address is no break, so it is the first of the host
      refine ⟨?_, fun hmem => hclose (hsub hmem)⟩
      rw [hostInfo_of_not_mem hopen] at hne ⊢
      rw [← head?_of_isPrefix (List.takeWhile_prefix _) hne, ← hnetloc,
        head?_filter_breaks hlawful hhead]
      exact hhead
    · rw [hostInfo] at hcolon ⊢
      refine ⟨?_, fun hmem => by simpa using List.mem_takeWhile_imp hmem⟩
      rw [bracketedHost_head hlawful hhost hcolon]
      intro c hc
      obtain rfl := Option.some.inj hc
      exact hlawful.not_blank 'v' (.inr (.inl rfl))
  refine ⟨(hostInfo netloc).1, ⟨hne, hraw, hends.1, hname, hends.2, ?_, ?_, ?_⟩, rfl⟩
  · intro c hc
    have hmem := hsub hc
    rw [← hnetloc] at hmem
    simpa using (List.mem_filter.1 hmem).2
  · exact fun c hc => hsep c (hbase (hsub hc))
  · exact fun c hc => hspells c (hsub hc)

/-- A host is found again before its port, unless it holds a bracket. -/
lemma urlHostPort_hostText (hlawful : tables.Lawful) (h : HostText tables raw)
    (hport : port ≤ 65535) {found : List Char × Nat} :
    urlHostPort tables (raw ++ ':' :: (toString port).toList) = some found ↔
      '[' ∉ raw ∧ found = (hostName tables raw, port) := by
  have hfilter : (raw ++ ':' :: (toString port).toList).filter (· ∉ ['\t', '\r', '\n']) =
      raw ++ ':' :: (toString port).toList := by
    refine List.filter_eq_self.2 fun c hc => decide_eq_true ?_
    obtain hc | hc := List.mem_append.1 hc
    · exact h.unbroken c hc
    · exact not_break hlawful (hlawful.not_blank c (plain_of_mem_port hc))
  have hspells : ∀ c ∈ raw ++ ':' :: (toString port).toList, tables.spells c = false := by
    intro c hc
    obtain hc | hc := List.mem_append.1 hc
    · exact h.unspelt c hc
    · exact hlawful.not_spells c (plain_of_mem_port hc)
  obtain ⟨name, number⟩ := found
  rw [urlHostPort_eq_some_iff, hfilter]
  constructor
  · rintro ⟨hfit, -, -, hnumber, hname⟩
    have hopen : '[' ∉ raw := by
      obtain ⟨hopen, -⟩ | ⟨rest, hrest, -, hclose⟩ := bracketsFit_cases hfit
      · exact fun hmem => hopen (List.mem_append_left _ hmem)
      · have hmem : ']' ∈ raw ++ ':' :: (toString port).toList :=
          hrest ▸ List.mem_cons_of_mem _ hclose
        exact absurd hmem (not_mem_port (by decide) raw h.closed)
    rw [hostInfo_port hopen (h.unported hlawful)] at hnumber hname
    rw [portNumber_digits hport] at hnumber
    exact ⟨hopen, Prod.ext hname.symm (Option.some.inj hnumber).symm⟩
  · rintro ⟨hopen, heq⟩
    obtain ⟨rfl, rfl⟩ := Prod.mk.inj heq
    rw [hostInfo_port hopen (h.unported hlawful)]
    refine ⟨?_, hspells, h.ne_nil, portNumber_digits hport, rfl⟩
    exact bracketsFit_of_not_mem (not_mem_port (by decide) raw hopen)
      (not_mem_port (by decide) raw h.closed)

end Ports

/-! ### Canonical hosts -/

section Canonical

open CharTables

variable {tables : CharTables} {provider : RepositoryProvider} {host canonical : String}

/-- What a host is read as: folded, without blanks around it and without slashes behind it. -/
def hostBase (tables : CharTables) (cs : List Char) : List Char :=
  (tables.foldChars (trim tables.blank cs)).rdropWhile (· = '/')

/-- The canonical form of a host: as it is, or the host of an address and its port. -/
inductive HostForm (tables : CharTables) (provider : RepositoryProvider)
    (base canonical : List Char) : Prop
  | whole (hne : base ≠ []) (hsep : ∀ c ∈ base, c ∉ ['/', '@', '?', '#']) (hcolon : ':' ∉ base)
      (heq : canonical = base)
  | ported (hsep : ∀ c ∈ base, c ∉ ['/', '@', '?', '#']) (hcolon : ':' ∈ base)
      (hprovider : provider = .gitlab) (name : List Char) (port : Nat)
      (hfound : tables.urlHostPort base = some (name, port)) (hname : ':' ∉ name)
      (hport : 1 ≤ port ∧ port ≤ 65535)
      (heq : canonical = tables.foldChars name ++ ':' :: (toString port).toList)

lemma urlHostPort_ofList (base : List Char) : tables.text.urlHostPort (String.ofList base) =
    (tables.urlHostPort base).map fun found => (String.ofList found.1, found.2) := by
  simp only [CharTables.text, String.toList_ofList]

lemma not_refused {base : List Char} (hne : base ≠ [])
    (hsep : ∀ c ∈ base, c ∉ ['/', '@', '?', '#']) :
    ¬ (String.ofList base = "" ∨ base.any (· ∈ ['/', '@', '?', '#']) = true) := by
  rintro (h | h)
  · exact hne (String.ofList_eq_empty_iff.1 h)
  · obtain ⟨c, hc, hmem⟩ := List.any_eq_true.1 h
    exact hsep c hc (of_decide_eq_true hmem)

lemma canonicalHost_eq_some_iff : canonicalHost tables.text provider host = some canonical ↔
    HostForm tables provider (hostBase tables host.toList) canonical.toList := by
  have hbase : (tables.text.casefold (tables.text.strip host)).toList.rdropWhile (· = '/') =
      hostBase tables host.toList := by
    rw [toList_casefold, toList_strip, hostBase]
  simp only [canonicalHost, hbase, String.toList_ofList]
  generalize hostBase tables host.toList = base
  constructor
  · intro h
    split at h
    case isTrue => cases h
    case isFalse hok =>
      obtain ⟨hne, hsep⟩ := not_or.1 hok
      have hsep : ∀ c ∈ base, c ∉ ['/', '@', '?', '#'] := by simpa using hsep
      split at h
      case isFalse hcolon =>
        refine .whole ?_ hsep hcolon ?_
        · rintro rfl
          exact hne rfl
        · rw [← Option.some.inj h, String.toList_ofList]
      case isTrue hcolon =>
        split at h
        case isTrue => cases h
        case isFalse hprovider =>
          rw [urlHostPort_ofList] at h
          cases hfound : tables.urlHostPort base with
          | none => rw [hfound] at h; cases h
          | some found =>
            rw [hfound] at h
            simp only [Option.map_some, String.toList_ofList] at h
            split at h
            case isTrue => cases h
            case isFalse hok =>
              obtain ⟨hname, hport⟩ := not_or.1 hok
              refine .ported hsep hcolon (not_not.1 hprovider) found.1 found.2 hfound hname
                (not_not.1 hport) ?_
              rw [← Option.some.inj h]
              simp
  · rintro (⟨hne, hsep, hcolon, heq⟩ | ⟨hsep, hcolon, hprovider, name, port, hfound, hname, hport,
      heq⟩)
    · rw [if_neg (not_refused hne hsep), if_neg hcolon, ← heq, String.ofList_toList]
    · have hne : base ≠ [] := List.ne_nil_of_mem hcolon
      rw [if_neg (not_refused hne hsep), if_pos hcolon, if_neg (not_not.2 hprovider),
        urlHostPort_ofList, hfound]
      simp only [Option.map_some, String.toList_ofList]
      rw [if_neg (not_or.2 ⟨hname, not_not.2 hport⟩)]
      refine congrArg some (String.toList_inj.1 ?_)
      rw [heq]
      simp

/-- What is known of a canonical host: it is folded and holds no separator; a port stands behind a
text that is found again. -/
inductive CanonicalForm (tables : CharTables) (provider : RepositoryProvider) (host : List Char) :
    Prop
  | whole (hne : host ≠ []) (hfolded : Folded tables host)
      (hsep : ∀ c ∈ host, c ∉ ['/', '@', '?', '#']) (hcolon : ':' ∉ host)
  | ported (raw : List Char) (port : Nat) (htext : HostText tables raw)
      (hprovider : provider = .gitlab) (hport : 1 ≤ port ∧ port ≤ 65535)
      (heq : host = raw ++ ':' :: (toString port).toList)

lemma canonicalForm_of_canonicalHost (hlawful : tables.Lawful)
    (h : canonicalHost tables.text provider host = some canonical) :
    CanonicalForm tables provider canonical.toList := by
  have hstands : hostBase tables host.toList <+: tables.foldChars (trim tables.blank host.toList) :=
    List.rdropWhile_prefix _ _
  have hfolded : Folded tables (hostBase tables host.toList) :=
    (folded_foldChars hlawful _).of_subset hstands.subset
  obtain ⟨hne, hsep, hcolon, heq⟩ | ⟨hsep, hcolon, hprovider, name, port, hfound, hname, hport,
    heq⟩ := canonicalHost_eq_some_iff.1 h
  · rw [heq]
    exact .whole hne hfolded hsep hcolon
  · have hhead : ∀ c ∈ (hostBase tables host.toList).head?, tables.blank c = false := by
      rw [← head?_of_isPrefix hstands (List.ne_nil_of_mem hcolon)]
      exact not_blank_head?_foldChars hlawful (tight_trim tables.blank host.toList).head
    obtain ⟨raw, htext, rfl⟩ := hostText_of_urlHostPort hlawful hfolded hhead hsep hfound hname
    rw [foldChars_hostName hlawful htext.folded] at heq
    exact .ported raw port htext hprovider hport heq

lemma HostText.tight {raw : List Char} {port : Nat} (hlawful : tables.Lawful)
    (h : HostText tables raw) : Tight tables.blank (raw ++ ':' :: (toString port).toList) := by
  constructor
  · rw [List.head?_append_of_ne_nil raw h.ne_nil]
    exact h.head
  · intro c hc
    rw [List.getLast?_append_of_ne_nil _ (List.cons_ne_nil _ _)] at hc
    exact hlawful.not_blank c (plain_of_mem_port (List.mem_of_mem_getLast? hc))

lemma HostText.folded_port {raw : List Char} {port : Nat} (hlawful : tables.Lawful)
    (h : HostText tables raw) : Folded tables (raw ++ ':' :: (toString port).toList) := by
  intro c hc
  obtain hc | hc := List.mem_append.1 hc
  · exact h.folded c hc
  · exact hlawful.fold_plain c (plain_of_mem_port hc)

lemma HostText.separated_port {raw : List Char} {port : Nat} (h : HostText tables raw) :
    ∀ c ∈ raw ++ ':' :: (toString port).toList, c ∉ ['/', '@', '?', '#'] := by
  intro c hc
  obtain hc | hc := List.mem_append.1 hc
  · exact h.unseparated c hc
  · exact fun hmem => absurd (plain_of_mem_port hc) (not_plain_of_separator c hmem)

lemma hostBase_eq {cs : List Char} (hfolded : Folded tables cs)
    (hsep : ∀ c ∈ cs, c ∉ ['/', '@', '?', '#']) : hostBase tables cs = trim tables.blank cs := by
  have hsub : trim tables.blank cs ⊆ cs := (trim_sublist tables.blank cs).subset
  rw [hostBase, (hfolded.of_subset hsub).foldChars_eq, rdropWhile_eq_self]
  intro c hc
  have hmem := hsep c (hsub (List.mem_of_mem_getLast? hc))
  exact decide_eq_false fun heq => hmem (heq ▸ List.mem_cons_self)

/-- A canonical host is canonical again when it has no blanks around it, and no brackets before a
port. -/
lemma canonicalHost_self_iff (hlawful : tables.Lawful)
    (h : CanonicalForm tables provider host.toList) :
    canonicalHost tables.text provider host = some host ↔
      tables.text.strip host = host ∧ (':' ∈ host.toList → '[' ∉ host.toList) := by
  rw [canonicalHost_eq_some_iff, strip_eq_self_iff]
  generalize host.toList = cs at h
  obtain ⟨hne, hfolded, hsep, hcolon⟩ | ⟨raw, port, htext, hprovider, hport, rfl⟩ := h
  · rw [hostBase_eq hfolded hsep]
    constructor
    · rintro (⟨-, -, -, heq⟩ | ⟨-, hmem, -⟩)
      · exact ⟨trim_eq_self_iff.1 heq.symm, fun hmem => absurd hmem hcolon⟩
      · exact absurd ((trim_sublist tables.blank cs).subset hmem) hcolon
    · rintro ⟨htight, -⟩
      rw [htight.trim_eq]
      exact .whole hne hsep hcolon rfl
  · have hcolon : ':' ∈ raw ++ ':' :: (toString port).toList :=
      List.mem_append_right _ List.mem_cons_self
    rw [hostBase_eq (htext.folded_port hlawful) htext.separated_port,
      (htext.tight hlawful).trim_eq]
    constructor
    · rintro (⟨-, -, hnone, -⟩ | ⟨-, -, -, name, number, hfound, -⟩)
      · exact absurd hcolon hnone
      · obtain ⟨hopen, -⟩ := (urlHostPort_hostText hlawful htext hport.2).1 hfound
        exact ⟨htext.tight hlawful, fun _ => not_mem_port (by decide) raw hopen⟩
    · rintro ⟨-, hopen⟩
      have hopen : '[' ∉ raw := fun hmem => hopen hcolon (List.mem_append_left _ hmem)
      exact .ported htext.separated_port hcolon hprovider (hostName tables raw) port
        ((urlHostPort_hostText hlawful htext hport.2).2 ⟨hopen, rfl⟩) htext.named hport
        (by rw [foldChars_hostName hlawful htext.folded])

end Canonical

/-! ### Reading a label -/

section Reading

variable {provider : RepositoryProvider} {text : SelectorText} {identity : RepositoryIdentity}
variable {locator host : String}

/-- A path to a repository of a provider. -/
structure Located (provider : RepositoryProvider) (locator : String) : Prop where
  path : ¬ (locator = "" ∨ (splitParts '/' locator).length < 2 ∨ "" ∈ splitParts '/' locator)
  owned : ¬ (provider = .github ∧ (splitParts '/' locator).length ≠ 2)

lemma repositoryIdentity_eq_some_iff :
    repositoryIdentity text provider locator host = some identity ↔
      canonicalHost text provider host = some identity.host ∧ identity.provider = provider ∧
        identity.locator = text.strip locator ∧ Located provider identity.locator := by
  simp only [repositoryIdentity]
  generalize text.strip locator = value
  constructor
  · intro h
    obtain ⟨found, hfound, h⟩ := Option.bind_eq_some_iff.1 h
    split at h
    case isTrue => cases h
    case isFalse hpath =>
      split at h
      case isTrue => cases h
      case isFalse howned =>
        obtain rfl := Option.some.inj h
        exact ⟨hfound, rfl, rfl, hpath, howned⟩
  · rintro ⟨hfound, rfl, rfl, hpath, howned⟩
    rw [hfound, Option.bind_eq_bind, Option.bind_some, if_neg hpath, if_neg howned]

/-- The parts of a locator without the blanks around them. -/
def trimmedParts (text : SelectorText) (locator : String) : String :=
  String.intercalate "/" ((splitParts '/' locator).map text.strip)

/-- The host and the locator that the parts of a selector between colons stand for. -/
inductive SelectorParts (text : SelectorText) : List String → String → String → Prop
  | host (host : String) : SelectorParts text [host] host ""
  | locator (host locator : String) : SelectorParts text [host, locator] host locator
  | port (host port next : String) (rest : List String) (number : Nat)
      (hnumber : text.digits port = some number) (hport : 1 ≤ number ∧ number ≤ 65535) :
      SelectorParts text (host :: port :: next :: rest) (host ++ ":" ++ toString number)
        (String.intercalate ":" (next :: rest))

lemma plain_of_mem_value (provider : RepositoryProvider) :
    ∀ c ∈ provider.value.toList, CharTables.Plain c :=
  forall_mem_of_all (by cases provider <;> decide)

/-- A label is read as the identity that the parts of its rest stand for. -/
lemma parseRepositorySelector_label (tables : CharTables) (hlawful : tables.Lawful)
    {remainder : String} (hcolon : ':' ∈ remainder.toList)
    (hlast : ∀ c ∈ remainder.toList.getLast?, tables.blank c = false) :
    parseRepositorySelector tables.text (provider.value ++ "@" ++ remainder) = some identity ↔
      ∃ host locator, SelectorParts tables.text (splitParts ':' remainder) host locator ∧
        repositoryIdentity tables.text provider (trimmedParts tables.text locator) host =
          some identity := by
  have htight : Tight tables.blank (provider.value ++ "@" ++ remainder).toList := by
    constructor
    · intro c hc
      obtain rfl : c = 'g' := by
        cases provider <;> simpa [RepositoryProvider.value, eq_comm] using hc
      exact hlawful.not_blank 'g' (by decide)
    · rw [String.toList_append, List.getLast?_append_of_ne_nil _ (List.ne_nil_of_mem hcolon)]
      exact hlast
  -- the name of a provider is folded already
  have hprovider : parseProvider (tables.text.casefold provider.value) = some provider := by
    have hfolded : Folded tables provider.value.toList := by
      intro c hc
      exact hlawful.fold_plain c (plain_of_mem_value provider c hc)
    have hsame : tables.text.casefold provider.value = provider.value := by
      rw [← String.toList_inj, toList_casefold, hfolded.foldChars_eq]
    rw [hsame]
    cases provider <;> decide
  have hat : '@' ∉ provider.value.toList := by cases provider <;> decide
  have hne : ∀ c ∈ provider.value.toList, decide (c ≠ '@') = true := fun c hc =>
    decide_eq_true fun heq => hat (heq ▸ hc)
  have hlabel : (provider.value ++ "@" ++ remainder).toList =
      provider.value.toList ++ '@' :: remainder.toList := by
    simp
  -- it holds no '@', so the first one is the one behind it
  have htake : (provider.value ++ "@" ++ remainder).toList.takeWhile (· ≠ '@') =
      provider.value.toList := by
    rw [hlabel, List.takeWhile_append_of_pos hne]
    simp
  have hdrop : (provider.value ++ "@" ++ remainder).toList.dropWhile (· ≠ '@') =
      '@' :: remainder.toList := by
    rw [hlabel, List.dropWhile_append_of_pos hne]
    simp
  have hmarks : ¬ ('@' ∉ (provider.value ++ "@" ++ remainder).toList ∨
      ':' ∉ (provider.value ++ "@" ++ remainder).toList) := by
    rw [hlabel]
    simp [hcolon]
  rw [parseRepositorySelector, strip_eq_self_iff.2 htight]
  simp only [if_neg hmarks, htake, hdrop, List.drop_one, List.tail_cons, String.ofList_toList]
  generalize splitParts ':' remainder = parts
  obtain _ | ⟨host, _ | ⟨port, _ | ⟨next, rest⟩⟩⟩ := parts
  case nil =>
    constructor
    · intro h
      cases h
    · rintro ⟨_, _, hparts, -⟩
      cases hparts
  case cons.nil =>
    simp only [Option.bind_eq_bind, Option.bind_some, hprovider]
    constructor
    · exact fun h => ⟨host, "", .host host, h⟩
    · rintro ⟨_, _, hparts, h⟩
      cases hparts
      exact h
  case cons.cons.nil =>
    simp only [Option.bind_eq_bind, Option.bind_some, hprovider]
    constructor
    · exact fun h => ⟨host, port, .locator host port, h⟩
    · rintro ⟨_, _, hparts, h⟩
      cases hparts
      exact h
  case cons.cons.cons =>
    simp only [Option.bind_eq_bind, Option.bind_some, hprovider]
    constructor
    · intro h
      obtain ⟨number, hnumber, h⟩ := Option.bind_eq_some_iff.1 h
      split at h
      case isTrue hport => exact ⟨_, _, .port host port next rest number hnumber hport, h⟩
      case isFalse => cases h
    · rintro ⟨_, _, hparts, h⟩
      cases hparts with
      | port _ _ _ _ number hnumber hport =>
        rw [hnumber, Option.bind_some, if_pos hport]
        exact h

end Reading

/-! ### Parts of a label -/

section Parts

variable {text : SelectorText} {before after host locator found rest : String} {port : Nat}

lemma splitParts_append (h : ':' ∉ before.toList) :
    splitParts ':' (before ++ ":" ++ after) = before :: splitParts ':' after := by
  have hlist : (before ++ ":" ++ after).toList = before.toList ++ ':' :: after.toList := by
    simp
  rw [splitParts, hlist, List.splitOn_append_cons_self_of_not_mem h, List.map_cons,
    String.ofList_toList, splitParts]

lemma splitParts_of_not_mem (h : ':' ∉ after.toList) : splitParts ':' after = [after] := by
  rw [splitParts, List.splitOn_eq_singleton h, List.map_singleton, String.ofList_toList]

lemma toList_intercalate_splitParts (separator : Char) (value : String) :
    [separator].intercalate ((splitParts separator value).map String.toList) = value.toList := by
  have hparts : (splitParts separator value).map String.toList =
      value.toList.splitOn separator := by
    simp [splitParts]
  rw [hparts, List.intercalate_splitOn]

lemma intercalate_splitParts (value : String) :
    String.intercalate ":" (splitParts ':' value) = value := by
  rw [← String.toList_inj, String.toList_intercalate]
  exact toList_intercalate_splitParts ':' value

lemma exists_splitParts (value : String) :
    ∃ first more, splitParts ':' value = first :: more := by
  refine List.exists_cons_of_ne_nil fun hnil => ?_
  exact List.splitOn_ne_nil ':' value.toList (List.map_eq_nil_iff.1 hnil)

/-- A text with a colon has at least two parts between colons. -/
lemma exists_splitParts_of_mem (h : ':' ∈ after.toList) :
    ∃ first second more, splitParts ':' after = first :: second :: more := by
  obtain ⟨start, rest, hafter, hstart⟩ := List.eq_append_cons_of_mem h
  have hsplit : after = String.ofList start ++ ":" ++ String.ofList rest := by
    rw [← String.toList_inj, hafter]
    simp
  obtain ⟨second, more, hmore⟩ := exists_splitParts (String.ofList rest)
  refine ⟨String.ofList start, second, more, ?_⟩
  rw [hsplit, splitParts_append (by rwa [String.toList_ofList]), hmore]

/-- Without colons, the host and the locator of a label are found again. -/
lemma selectorParts_whole (hhost : ':' ∉ host.toList) (hlocator : ':' ∉ locator.toList) :
    SelectorParts text (splitParts ':' (host ++ ":" ++ locator)) found rest ↔
      found = host ∧ rest = locator := by
  rw [splitParts_append hhost, splitParts_of_not_mem hlocator]
  constructor
  · intro h
    cases h
    exact ⟨rfl, rfl⟩
  · rintro ⟨rfl, rfl⟩
    exact .locator _ _

/-- A colon in the locator is read as the one before a port. -/
lemma selectorParts_colon (hhost : ':' ∉ host.toList) (hlocator : ':' ∈ locator.toList)
    (h : SelectorParts text (splitParts ':' (host ++ ":" ++ locator)) found rest) :
    ':' ∈ found.toList := by
  obtain ⟨first, second, more, hparts⟩ := exists_splitParts_of_mem hlocator
  rw [splitParts_append hhost, hparts] at h
  cases h
  simp

/-- With a port, the host and the locator of a label are found again. -/
lemma selectorParts_port (hdigits : text.digits (toString port) = some port)
    (hport : 1 ≤ port ∧ port ≤ 65535) (hhost : ':' ∉ host.toList) :
    SelectorParts text (splitParts ':' (host ++ ":" ++ toString port ++ ":" ++ locator)) found
      rest ↔ found = host ++ ":" ++ toString port ∧ rest = locator := by
  have hnocolon : ':' ∉ (toString port).toList := not_mem_digits rfl
  have hassoc : host ++ ":" ++ toString port ++ ":" ++ locator =
      host ++ ":" ++ (toString port ++ ":" ++ locator) := by
    simp only [String.append_assoc]
  obtain ⟨next, more, hmore⟩ := exists_splitParts locator
  have hjoin : String.intercalate ":" (next :: more) = locator := by
    rw [← hmore, intercalate_splitParts]
  rw [hassoc, splitParts_append hhost, splitParts_append hnocolon, hmore]
  constructor
  · intro h
    cases h with
    | port _ _ _ _ number hnumber _ =>
      obtain rfl := Option.some.inj (hdigits.symm.trans hnumber)
      exact ⟨rfl, hjoin⟩
  · rintro ⟨rfl, rfl⟩
    have hparts := SelectorParts.port host (toString port) next more port hdigits hport
    rwa [hjoin] at hparts

end Parts

/-! ### Round trips -/

/-- What identities are compared by. -/
def RepositoryIdentity.canonicalKey (text : SelectorText) (identity : RepositoryIdentity) :
    String × String × String :=
  (identity.provider.value, identity.host, identity.canonicalLocator text)

/-- The label of a repository is read as an identity with the same key, and the fields of its
identity make that identity again. -/
def RoundTrips (text : SelectorText) (target : RepositoryRef) : Prop :=
  (∃ again, parseRepositorySelector text (repositoryLabel target) = some again ∧
    again.canonicalKey text = target.identity.canonicalKey text) ∧
  repositoryIdentity text target.identity.provider target.identity.locator target.identity.host =
    some target.identity

/-- The host and the parts of the locator have no blanks around them; a host with a port holds no
bracket, and without a port there is no colon in the locator. -/
structure Pasteable (text : SelectorText) (identity : RepositoryIdentity) : Prop where
  host : text.strip identity.host = identity.host
  parts : ∀ part ∈ splitParts '/' identity.locator, text.strip part = part
  colons : if ':' ∈ identity.host.toList then '[' ∉ identity.host.toList
    else ':' ∉ identity.locator.toList

section RoundTrips

variable {tables : CharTables} {provider : RepositoryProvider} {host locator canonical : String}
variable {identity again : RepositoryIdentity} {target : RepositoryRef}

lemma toList_trimmedParts : (trimmedParts tables.text locator).toList =
    ['/'].intercalate (((splitParts '/' locator).map String.toList).map (trim tables.blank)) := by
  rw [trimmedParts, String.toList_intercalate, List.map_map, List.map_map]
  exact congrArg _ (List.map_congr_left fun part _ => toList_strip part)

lemma trimmedParts_sublist :
    (trimmedParts tables.text locator).toList.Sublist locator.toList := by
  rw [toList_trimmedParts, ← toList_intercalate_splitParts '/' locator]
  exact intercalate_map_sublist (trim_sublist tables.blank)

/-- The trimmed parts of a locator make the same locator when they were trimmed before. -/
lemma strip_trimmedParts_eq_iff (hlocator : tables.text.strip locator = locator) :
    tables.text.strip (trimmedParts tables.text locator) = locator ↔
      ∀ part ∈ splitParts '/' locator, tables.text.strip part = part := by
  have hsame : trimmedParts tables.text locator = locator ↔
      ∀ part ∈ splitParts '/' locator, tables.text.strip part = part := by
    rw [← String.toList_inj, toList_trimmedParts, ← toList_intercalate_splitParts '/' locator,
      intercalate_map_eq_iff (trim_sublist tables.blank), List.forall_mem_map]
    exact forall₂_congr fun part _ => by rw [← String.toList_inj, toList_strip]
  constructor
  · intro h
    have hsub := trim_sublist tables.blank (trimmedParts tables.text locator).toList
    rw [← toList_strip, h] at hsub
    exact hsame.1 (String.toList_inj.1 (trimmedParts_sublist.antisymm hsub))
  · intro h
    rw [hsame.2 h, hlocator]

lemma colon_mem_canonicalHost (hlawful : tables.Lawful) (hcolon : ':' ∈ host.toList)
    (h : canonicalHost tables.text provider host = some canonical) : ':' ∈ canonical.toList := by
  have hbase : ':' ∈ hostBase tables host.toList := by
    refine mem_rdropWhile ?_ (by decide)
    refine List.mem_flatMap.2 ⟨':', mem_trim hcolon (hlawful.not_blank ':' (by decide)), ?_⟩
    rw [hlawful.fold_plain ':' (by decide)]
    exact List.mem_singleton_self ':'
  obtain ⟨-, -, hnone, -⟩ | ⟨-, -, -, name, port, -, -, -, heq⟩ := canonicalHost_eq_some_iff.1 h
  · exact absurd hbase hnone
  · rw [heq]
    exact List.mem_append_right _ List.mem_cons_self

/-- The trimmed parts of the locator of an identity make an identity with the same key. -/
lemma exists_again_iff (hlawful : tables.Lawful)
    (hlocator : tables.text.strip identity.locator = identity.locator)
    (hlocated : Located identity.provider identity.locator) :
    (∃ again, repositoryIdentity tables.text identity.provider
        (trimmedParts tables.text identity.locator) identity.host = some again ∧
      again.canonicalKey tables.text = identity.canonicalKey tables.text) ↔
    canonicalHost tables.text identity.provider identity.host = some identity.host ∧
      ∀ part ∈ splitParts '/' identity.locator, tables.text.strip part = part := by
  constructor
  · rintro ⟨again, hagain, hkey⟩
    obtain ⟨hhost, hprovider, hsame, -⟩ := repositoryIdentity_eq_some_iff.1 hagain
    simp only [RepositoryIdentity.canonicalKey, Prod.mk.injEq] at hkey
    obtain ⟨-, hkeyhost, hkeylocator⟩ := hkey
    rw [hkeyhost] at hhost
    refine ⟨hhost, (strip_trimmedParts_eq_iff hlocator).1 ?_⟩
    rw [← hsame]
    have hsub : again.locator.toList.Sublist identity.locator.toList := by
      rw [hsame, toList_strip]
      exact (trim_sublist _ _).trans trimmedParts_sublist
    rw [RepositoryIdentity.canonicalLocator, RepositoryIdentity.canonicalLocator, hprovider]
      at hkeylocator
    split at hkeylocator
    case isTrue =>
      refine String.toList_inj.1 (eq_of_foldChars_eq hlawful hsub ?_)
      rw [← toList_casefold, hkeylocator, toList_casefold]
    case isFalse => exact hkeylocator
  · rintro ⟨hhost, hparts⟩
    refine ⟨identity, repositoryIdentity_eq_some_iff.2 ⟨hhost, rfl, ?_, hlocated⟩, rfl⟩
    exact ((strip_trimmedParts_eq_iff hlocator).2 hparts).symm

lemma repositoryLabel_eq : repositoryLabel target = target.identity.provider.value ++ "@" ++
    (target.identity.host ++ ":" ++ target.identity.locator) := by
  simp only [repositoryLabel, String.append_assoc]

/-- No blank stands behind a label. -/
lemma not_blank_getLast?_label (hlawful : tables.Lawful)
    (hlocator : Tight tables.blank locator.toList) :
    ∀ c ∈ (host ++ ":" ++ locator).toList.getLast?, tables.blank c = false := by
  have hlist : (host ++ ":" ++ locator).toList = host.toList ++ ':' :: locator.toList := by
    simp
  intro c hc
  rw [hlist, List.getLast?_append_of_ne_nil _ (List.cons_ne_nil _ _)] at hc
  cases hrest : locator.toList with
  | nil =>
    rw [hrest] at hc
    obtain rfl := Option.some.inj hc
    exact hlawful.not_blank ':' (by decide)
  | cons d rest =>
    rw [hrest, List.getLast?_cons_cons, ← hrest] at hc
    exact hlocator.last c hc

/-- A label is read as its parts are, unless the locator brings a colon that the host has not. -/
lemma parseRepositorySelector_repositoryLabel (hlawful : tables.Lawful)
    (hform : CanonicalForm tables target.identity.provider target.identity.host.toList)
    (htight : Tight tables.blank target.identity.locator.toList)
    (hcolon : ':' ∈ target.identity.host.toList ∨ ':' ∉ target.identity.locator.toList) :
    parseRepositorySelector tables.text (repositoryLabel target) = some again ↔
      repositoryIdentity tables.text target.identity.provider
        (trimmedParts tables.text target.identity.locator) target.identity.host = some again := by
  have hmem : ':' ∈ (target.identity.host ++ ":" ++ target.identity.locator).toList := by
    simp
  have hparts : ∀ found rest, SelectorParts tables.text
      (splitParts ':' (target.identity.host ++ ":" ++ target.identity.locator)) found rest ↔
        found = target.identity.host ∧ rest = target.identity.locator := by
    intro found rest
    obtain ⟨-, -, -, hnone⟩ | ⟨raw, port, htext, -, hport, heq⟩ := hform
    · exact selectorParts_whole hnone (hcolon.resolve_left hnone)
    · have hhost : target.identity.host = String.ofList raw ++ ":" ++ toString port := by
        rw [← String.toList_inj, heq]
        simp
      have hraw : ':' ∉ (String.ofList raw).toList := by
        rw [String.toList_ofList]
        exact htext.unported hlawful
      rw [hhost]
      exact selectorParts_port (hlawful.digits_toString port hport.2) hport hraw
  rw [repositoryLabel_eq, parseRepositorySelector_label tables hlawful hmem
    (not_blank_getLast?_label hlawful htight)]
  constructor
  · rintro ⟨found, rest, hfound, hagain⟩
    obtain ⟨rfl, rfl⟩ := (hparts found rest).1 hfound
    exact hagain
  · exact fun hagain => ⟨_, _, (hparts _ _).2 ⟨rfl, rfl⟩, hagain⟩

/-- A colon in the locator alone is taken for the one before a port, and another host is read. -/
lemma host_ne_of_parseRepositorySelector (hlawful : tables.Lawful)
    (htight : Tight tables.blank target.identity.locator.toList)
    (hhost : ':' ∉ target.identity.host.toList) (hlocator : ':' ∈ target.identity.locator.toList)
    (h : parseRepositorySelector tables.text (repositoryLabel target) = some again) :
    again.host ≠ target.identity.host := by
  have hmem : ':' ∈ (target.identity.host ++ ":" ++ target.identity.locator).toList := by
    simp
  rw [repositoryLabel_eq, parseRepositorySelector_label tables hlawful hmem
    (not_blank_getLast?_label hlawful htight)] at h
  obtain ⟨found, rest, hparts, hagain⟩ := h
  have hcolon := selectorParts_colon hhost hlocator hparts
  have hcanonical := (repositoryIdentity_eq_some_iff.1 hagain).1
  intro heq
  exact hhost (heq ▸ colon_mem_canonicalHost hlawful hcolon hcanonical)

/-- **The label of a repository selects it**, and its identity is made again from its fields,
exactly when it is pasteable. -/
theorem roundTrips_iff (hlawful : tables.Lawful)
    (haccepted : repositoryIdentity tables.text provider locator host = some target.identity) :
    RoundTrips tables.text target ↔ Pasteable tables.text target.identity := by
  obtain ⟨hhost, rfl, hlocator, hlocated⟩ := repositoryIdentity_eq_some_iff.1 haccepted
  have hform := canonicalForm_of_canonicalHost hlawful hhost
  have htight : Tight tables.blank target.identity.locator.toList := by
    rw [hlocator, toList_strip]
    exact tight_trim tables.blank locator.toList
  have hstrip := strip_eq_self_iff.2 htight
  have hself := canonicalHost_self_iff hlawful hform
  by_cases hcolon : ':' ∈ target.identity.host.toList ∨ ':' ∉ target.identity.locator.toList
  · rw [RoundTrips]
    simp only [parseRepositorySelector_repositoryLabel hlawful hform htight hcolon]
    rw [exists_again_iff hlawful hstrip hlocated]
    constructor
    · rintro ⟨⟨hcanonical, hparts⟩, -⟩
      obtain ⟨hblank, hopen⟩ := hself.1 hcanonical
      refine ⟨hblank, hparts, ?_⟩
      split
      case isTrue hmem => exact hopen hmem
      case isFalse hmem => exact hcolon.resolve_left hmem
    · intro h
      have hcanonical := hself.2 ⟨h.host, fun hmem => (if_pos hmem).mp h.colons⟩
      exact ⟨⟨hcanonical, h.parts⟩, repositoryIdentity_eq_some_iff.2
        ⟨hcanonical, rfl, hstrip.symm, hlocated⟩⟩
  · obtain ⟨hnone, hmem⟩ := not_or.1 hcolon
    have hmem := not_not.1 hmem
    constructor
    · rintro ⟨⟨again, hagain, hkey⟩, -⟩
      have hne := host_ne_of_parseRepositorySelector hlawful htight hnone hmem hagain
      exact absurd (congrArg (·.2.1) hkey) hne
    · intro h
      have hcolons := h.colons
      rw [if_neg hnone] at hcolons
      exact absurd hmem hcolons

/-- Tables for texts of small letters and digits. -/
def plainTables : CharTables where
  blank c := c ∈ [' ', '\t', '\r', '\n']
  fold c := [c]
  lower cs := cs
  spells _ := false
  ipv6 _ := false
  digits value := CharTables.portNumber value.toList
  closeMatches _ _ := []

lemma lawful_plainTables : plainTables.Lawful where
  blank_break c hc := decide_eq_true (List.mem_cons_of_mem ' ' hc)
  not_blank c hc := by
    have hplain : ∀ c ∈ [' ', '\t', '\r', '\n'], ¬ CharTables.Plain c :=
      forall_mem_of_all (by decide)
    exact decide_eq_false fun hmem => hplain c hmem hc
  fold_plain c _ := rfl
  not_spells c _ := rfl
  fold_ne_nil c := List.cons_ne_nil c []
  fold_fold c d hd := rfl
  fold_blank c hc d hd := by
    obtain rfl := List.mem_singleton.1 hd
    exact hc
  fold_lower cs hcs := Folded.foldChars_eq hcs
  lower_colon cs _ hcolon := hcolon
  ipv6_colon cs h := by cases h
  digits_toString n hn := portNumber_digits hn

/-- A repository on a host with a port. -/
def serviceTarget : RepositoryRef where
  repoId := "r"
  projectId := "p"
  projectName := none
  identity := { provider := .gitlab, locator := "team/service", host := "git.example:8443" }

theorem roundTrips_service :
    repositoryIdentity plainTables.text .gitlab "team/service" "git.example:8443" =
      some serviceTarget.identity ∧
    (RoundTrips plainTables.text serviceTarget ↔
      Pasteable plainTables.text serviceTarget.identity) := by
  have haccepted : repositoryIdentity plainTables.text .gitlab "team/service" "git.example:8443" =
      some serviceTarget.identity := by
    decide +kernel
  exact ⟨haccepted, roundTrips_iff lawful_plainTables haccepted⟩

/-- A repository with a colon in its path, on a host without a port. -/
def colonTarget : RepositoryRef where
  repoId := "r"
  projectId := "p"
  projectName := none
  identity := { provider := .gitlab, locator := "group/a:b", host := "gitlab.com" }

/-- Its label is refused, although its identity was accepted. -/
theorem not_roundTrips_colon : ¬ ∀ (target : RepositoryRef) (provider : RepositoryProvider)
    (locator host : String),
    repositoryIdentity plainTables.text provider locator host = some target.identity →
      RoundTrips plainTables.text target := by
  intro hall
  obtain ⟨⟨again, hagain, -⟩, -⟩ := hall colonTarget .gitlab "group/a:b" "gitlab.com"
    (by decide +kernel)
  have hnone : parseRepositorySelector plainTables.text (repositoryLabel colonTarget) = none := by
    decide +kernel
  rw [hnone] at hagain
  cases hagain

end RoundTrips

end EnjiGuard.Portfolio
