import EnjiGuard.AuthSession.System
import EnjiGuard.AuthSession.Responses
import EnjiGuard.Foundation.Dictionary
import Mathlib.Data.List.Basic

/-!
# What a merge does to the octets of a cookie

A jar keeps of every cookie the text it came with and the value that is read from it. A merge
assigns the value, which is written anew: bare when it is a token, and quoted otherwise. The text
stays as it came exactly when it is how its value is written.
-/

namespace EnjiGuard.AuthSession

open Foundation Action

/-! ### Writing a value -/

/-- The characters of a token. -/
def isLegalChar (c : Char) : Bool := c.isAlphanum || c ∈ "!#$%&'*+-.^_`|~:".toList

/-- The characters that stand for themselves between quotes. -/
def isUnescapedChar (c : Char) : Bool := isLegalChar c || c ∈ " ()/<=>?@[]\x7b\x7d".toList

/-- A character between quotes: escaped by a backslash, by three octal digits, or not at all. -/
def translateChar (c : Char) : List Char :=
  if c = '\"' then ['\\', '\"']
  else if c = '\\' then ['\\', '\\']
  else if isUnescapedChar c then [c]
  else if c.toNat < 256 then
    ['\\', digitChar (c.toNat / 64), digitChar (c.toNat / 8 % 8), digitChar (c.toNat % 8)]
  else [c]

/-- A value as it is written in a header: a token as it is, anything else between quotes. -/
def quote (value : String) : String :=
  if value ≠ "" ∧ value.toList.all isLegalChar then value
  else String.ofList ('\"' :: value.toList.flatMap translateChar ++ ['\"'])

/-- Assigns a plain value to a name of a jar: it is written anew, and the place and the attributes
of a cookie stay. -/
def assignQuoted (jar : CookieJar) (name value : String) : CookieJar :=
  if (jar.lookup name).isSome then
    jar.map fun item =>
      if item.1 = name then (name, ⟨value, quote value, item.2.maxAge, item.2.expires⟩) else item
  else jar ++ [(name, ⟨value, quote value, "", ""⟩)]

/-- What the standard library documents of its jars: a name is there once, and a plain value is
written anew. -/
structure CookieCodec.Documented (codec : CookieCodec) : Prop where
  load_nodup : ∀ {header jar}, codec.load [] header = some jar → (jar.map Prod.fst).Nodup
  assign_eq : ∀ jar name value, codec.assign jar name value = assignQuoted jar name value

/-! ### The octets of a merge -/

def cookieText (items : List (String × String)) : String :=
  "; ".intercalate (items.map fun item => item.1 ++ "=" ++ item.2)

/-- The last update of a name. -/
def lastUpdate (updates : List (String × Morsel)) (name : String) : Option Morsel :=
  updates.reverse.lookup name

/-- Items of a merged header: authentication cookies, each once, with the text of the last update of
their name, or their old text when there is none. -/
structure Preserves (stored : CookieJar) (updates : List (String × Morsel))
    (items : List (String × String)) : Prop where
  auth : ∀ item ∈ items, isAuthCookieName item.1 = true
  nodup : (items.map Prod.fst).Nodup
  updated : ∀ name morsel, isAuthCookieName name = true → lastUpdate updates name = some morsel →
    items.lookup name = some morsel.codedValue
  kept : ∀ name, isAuthCookieName name = true → lastUpdate updates name = none →
    items.lookup name = (stored.lookup name).map Morsel.codedValue

/-- A merged header keeps the octets of the server, and no update of an authentication cookie was
empty or deleted its cookie. -/
def PreservesOctets (codec : CookieCodec) (wall : Nat → Datetime) (n : Nat) (cookieHeader : String)
    (headers : List String) (merged : String) : Prop :=
  ∃ stored updates items, codec.load [] cookieHeader = some stored ∧
    StorableUpdates codec wall n headers updates ∧ merged = cookieText items ∧
    Preserves stored updates items

/-- The last update of an authentication cookie comes as its value is written. -/
def WrittenAsQuoted (updates : List (String × Morsel)) : Prop :=
  ∀ name morsel, isAuthCookieName name = true → lastUpdate updates name = some morsel →
    quote morsel.value = morsel.codedValue

/-! ### The text of a header -/

section

variable {name value c d : String} {items items' : List (String × String)}
variable {updates : List (String × Morsel)} {jar stored : CookieJar} {codec : CookieCodec}

lemma semicolon_notMem_translateChar (c : Char) : ';' ∉ translateChar c := by
  have hdigit : ∀ n, ';' ≠ digitChar n := fun n => (digitChar_ne (by decide)).symm
  rw [translateChar]
  split_ifs with hquote hbackslash hplain hsmall
  · decide
  · decide
  · rintro hmem
    obtain rfl := List.mem_singleton.1 hmem
    exact absurd hplain (by decide)
  · simp [hdigit]
  · rintro hmem
    obtain rfl := List.mem_singleton.1 hmem
    exact absurd (show ';'.toNat < 256 by decide) hsmall

/-- A written value has no separator. -/
lemma semicolon_notMem_quote (value : String) : ';' ∉ (quote value).toList := by
  rw [quote]
  split_ifs with hlegal
  · exact fun hmem => absurd (List.all_eq_true.1 hlegal.2 _ hmem) (by decide)
  · simp [semicolon_notMem_translateChar]

/-- The name of the other authentication cookie. -/
def otherName (name : String) : String :=
  if name = "access_token" then "refresh_token" else "access_token"

lemma isAuthCookieName_iff : isAuthCookieName name = true ↔
    name = "access_token" ∨ name = "refresh_token" := by
  simp [isAuthCookieName]

lemma isAuthCookieName_otherName (name : String) : isAuthCookieName (otherName name) = true := by
  rw [otherName]
  split_ifs <;> rfl

lemma eq_otherName (hname : isAuthCookieName name = true) {other : String}
    (hother : isAuthCookieName other = true) (hne : other ≠ name) : other = otherName name := by
  rcases isAuthCookieName_iff.1 hname with rfl | rfl <;>
    rcases isAuthCookieName_iff.1 hother with rfl | rfl
  · exact absurd rfl hne
  · rfl
  · rfl
  · exact absurd rfl hne

lemma otherName_ne (hname : isAuthCookieName name = true) : otherName name ≠ name := by
  rcases isAuthCookieName_iff.1 hname with rfl | rfl <;> decide

/-- Distinct authentication cookies are at most two. -/
lemma authItems_cases (hauth : ∀ item ∈ items, isAuthCookieName item.1 = true)
    (hnodup : (items.map Prod.fst).Nodup) :
    items = [] ∨ ∃ name c, isAuthCookieName name = true ∧
      (items = [(name, c)] ∨ ∃ d, items = [(name, c), (otherName name, d)]) := by
  rcases items with _ | ⟨⟨name, c⟩, _ | ⟨⟨other, d⟩, rest⟩⟩
  · exact .inl rfl
  · exact .inr ⟨name, c, hauth (name, c) (by simp), .inl rfl⟩
  · have hname : isAuthCookieName name = true := hauth (name, c) (by simp)
    have hother : isAuthCookieName other = true := hauth (other, d) (by simp)
    simp only [List.map_cons, List.nodup_cons, List.mem_cons, not_or] at hnodup
    obtain rfl := eq_otherName hname hother (Ne.symm hnodup.1.1)
    rcases rest with _ | ⟨⟨third, e⟩, rest⟩
    · exact .inr ⟨name, c, hname, .inr ⟨d, rfl⟩⟩
    · -- a third name is one of the two
      have hthird : isAuthCookieName third = true := hauth (third, e) (by simp)
      simp only [List.map_cons, List.mem_cons, not_or] at hnodup
      exact absurd (eq_otherName hname hthird (Ne.symm hnodup.1.2.1)) (Ne.symm hnodup.2.1.1)

lemma toList_cookieText_one (name c : String) :
    (cookieText [(name, c)]).toList = name.toList ++ '=' :: c.toList := by
  simp [cookieText]

lemma toList_cookieText_two (name c other d : String) :
    (cookieText [(name, c), (other, d)]).toList =
      name.toList ++ '=' :: (c.toList ++ ';' :: (' ' :: (other.toList ++ '=' :: d.toList))) := by
  simp [cookieText]

/-- The first name of a header. -/
lemma name_eq_of_append {name' : String} {cs cs' : List Char}
    (hname : isAuthCookieName name = true) (hname' : isAuthCookieName name' = true)
    (h : name.toList ++ cs = name'.toList ++ cs') : name = name' ∧ cs = cs' := by
  rcases isAuthCookieName_iff.1 hname with rfl | rfl <;>
    rcases isAuthCookieName_iff.1 hname' with rfl | rfl
  · exact ⟨rfl, List.append_cancel_left h⟩
  · exact absurd (List.head_eq_of_cons_eq h) (by decide)
  · exact absurd (List.head_eq_of_cons_eq h) (by decide)
  · exact ⟨rfl, List.append_cancel_left h⟩

lemma lookup_otherName (hname : isAuthCookieName name = true) (c : String) :
    List.lookup (otherName name) ((name, c) :: items) = items.lookup (otherName name) := by
  rw [List.lookup_cons, beq_false_of_ne (otherName_ne hname)]

lemma semicolon_notMem_name (hname : isAuthCookieName name = true) : ';' ∉ name.toList := by
  rcases isAuthCookieName_iff.1 hname with rfl | rfl <;> decide

/-- Two headers of the same names are told apart by their texts, when a text of the first that is
not that of the second has no separator. -/
lemma eq_of_cookieText_eq (hauth : ∀ item ∈ items, isAuthCookieName item.1 = true)
    (hauth' : ∀ item ∈ items', isAuthCookieName item.1 = true)
    (hnodup : (items.map Prod.fst).Nodup) (hnodup' : (items'.map Prod.fst).Nodup)
    (hsame : ∀ name, isAuthCookieName name = true →
      (items.lookup name).isSome = (items'.lookup name).isSome)
    (hplain : ∀ name c c', items.lookup name = some c → items'.lookup name = some c' →
      c = c' ∨ ';' ∉ c.toList)
    (htext : cookieText items = cookieText items') : items = items' := by
  have hchars := congrArg String.toList htext
  rcases authItems_cases hauth hnodup with rfl | ⟨name, c, hname, rfl | ⟨d, rfl⟩⟩
  · rcases authItems_cases hauth' hnodup' with rfl | ⟨name', c', hname', rfl | ⟨d', rfl⟩⟩
    · rfl
    · simpa using hsame name' hname'
    · simpa using hsame name' hname'
  · rcases authItems_cases hauth' hnodup' with rfl | ⟨name', c', hname', rfl | ⟨d', rfl⟩⟩
    · simpa using hsame name hname
    · rw [toList_cookieText_one, toList_cookieText_one] at hchars
      obtain ⟨rfl, hrest⟩ := name_eq_of_append hname hname' hchars
      rw [String.toList_inj.1 (List.tail_eq_of_cons_eq hrest)]
    · rw [toList_cookieText_one, toList_cookieText_two] at hchars
      obtain ⟨rfl, -⟩ := name_eq_of_append hname hname' hchars
      have hother := hsame (otherName name) (isAuthCookieName_otherName name)
      simp [lookup_otherName hname] at hother
  · rcases authItems_cases hauth' hnodup' with rfl | ⟨name', c', hname', rfl | ⟨d', rfl⟩⟩
    · simpa using hsame name hname
    · rw [toList_cookieText_two, toList_cookieText_one] at hchars
      obtain ⟨rfl, -⟩ := name_eq_of_append hname hname' hchars
      have hother := hsame (otherName name) (isAuthCookieName_otherName name)
      simp [lookup_otherName hname] at hother
    · rw [toList_cookieText_two, toList_cookieText_two] at hchars
      obtain ⟨rfl, hrest⟩ := name_eq_of_append hname hname' hchars
      replace hrest := List.tail_eq_of_cons_eq hrest
      have hfirst := hplain name c c' (by simp) (by simp)
      have hsecond := hplain (otherName name) d d'
        (by simp [lookup_otherName hname]) (by simp [lookup_otherName hname])
      obtain ⟨rfl, rfl⟩ : c = c' ∧ d = d' := by
        rcases hfirst with rfl | hc
        · have hafter := List.tail_eq_of_cons_eq (List.append_cancel_left hrest)
          have hsuffix := List.append_cancel_left (List.tail_eq_of_cons_eq hafter)
          exact ⟨rfl, String.toList_inj.1 (List.tail_eq_of_cons_eq hsuffix)⟩
        · rcases hsecond with rfl | hd
          · exact ⟨String.toList_inj.1 (List.append_cancel_right hrest), rfl⟩
          · have hafter : ';' ∉ ' ' :: ((otherName name).toList ++ '=' :: d.toList) := by
              simp [hd, semicolon_notMem_name (isAuthCookieName_otherName name)]
            obtain ⟨hcs, -, htail⟩ := (List.append_cons_inj_of_notMem hc hafter).1 hrest
            have hsuffix := List.append_cancel_left (List.tail_eq_of_cons_eq htail)
            exact ⟨String.toList_inj.1 hcs, String.toList_inj.1 (List.tail_eq_of_cons_eq hsuffix)⟩
      rfl

/-! ### The jar of a merge -/

/-- A change of one name's cookie, seen at every name. -/
lemma lookup_map_at (f : Morsel → Morsel) (jar : CookieJar) (name other : String) :
    (jar.map fun item => if item.1 = name then (name, f item.2) else item).lookup other =
      if other = name then (jar.lookup name).map f else jar.lookup other := by
  induction jar with
  | nil => simp
  | cons item jar ih =>
    obtain ⟨key, morsel⟩ := item
    rw [List.map_cons, List.lookup_cons, List.lookup_cons, List.lookup_cons, ih]
    by_cases hkey : key = name
    · subst hkey
      by_cases hother : other = key
      · simp [hother]
      · simp [hother, beq_false_of_ne hother]
    · by_cases hother : other = name
      · subst hother
        simp [hkey, beq_false_of_ne (Ne.symm hkey)]
      · simp [hkey, hother]

lemma lookup_assignQuoted (jar : CookieJar) (name value other : String) :
    ((assignQuoted jar name value).lookup other).map Morsel.codedValue =
      if other = name then some (quote value) else (jar.lookup other).map Morsel.codedValue := by
  rw [assignQuoted]
  rcases hlookup : jar.lookup name with _ | morsel
  · rw [if_neg (by simp), List.lookup_append]
    by_cases hother : other = name
    · simp [hother, hlookup]
    · simp [List.lookup_cons, beq_false_of_ne hother, hother]
  · rw [Option.isSome_some, if_pos rfl,
      lookup_map_at fun morsel => ⟨value, quote value, morsel.maxAge, morsel.expires⟩]
    split_ifs with hother
    · simp [hlookup]
    · rfl

lemma nodup_assignQuoted (h : (jar.map Prod.fst).Nodup) (name value : String) :
    ((assignQuoted jar name value).map Prod.fst).Nodup := by
  rw [assignQuoted]
  split_ifs with hstored
  · rw [List.map_map]
    convert h using 2
    ext item : 1
    by_cases hitem : item.1 = name <;> simp [hitem]
  · rw [Option.not_isSome_iff_eq_none, Dictionary.lookup_eq_none_iff_notMem] at hstored
    rw [List.map_append, List.nodup_append]
    refine ⟨h, List.nodup_singleton _, ?_⟩
    rintro a ha b hb rfl
    obtain rfl : a = name := List.mem_singleton.1 hb
    exact hstored ha

/-- The items of a merged header. -/
def authItems (jar : CookieJar) : List (String × String) :=
  (jar.filter fun item => isAuthCookieName item.1).map fun item => (item.1, item.2.codedValue)

lemma auth_of_mem_authItems {item : String × String} (h : item ∈ authItems jar) :
    isAuthCookieName item.1 = true := by
  obtain ⟨cookie, hcookie, rfl⟩ := List.mem_map.1 h
  exact (List.mem_filter.1 hcookie).2

lemma nodup_authItems (h : (jar.map Prod.fst).Nodup) : ((authItems jar).map Prod.fst).Nodup := by
  have hfilter : (authItems jar).map Prod.fst = (jar.map Prod.fst).filter isAuthCookieName := by
    rw [authItems, List.map_map, List.filter_map]
    rfl
  rw [hfilter]
  exact h.filter _

lemma lookup_authItems (hname : isAuthCookieName name = true) :
    (authItems jar).lookup name = (jar.lookup name).map Morsel.codedValue := by
  induction jar with
  | nil => rfl
  | cons item jar ih =>
    obtain ⟨key, morsel⟩ := item
    by_cases hkey : key = name
    · subst hkey
      simp [authItems, hname]
    · have hbeq : (name == key) = false := beq_false_of_ne (Ne.symm hkey)
      rw [List.lookup_cons, hbeq, ← ih, authItems, authItems, List.filter_cons]
      split_ifs
      · rw [List.map_cons, List.lookup_cons, hbeq]
      · rfl

lemma eq_cookieText_of_jarHeader {merged : String} (h : jarHeader jar = some merged) :
    merged = cookieText (authItems jar) := by
  rw [jarHeader] at h
  split at h
  · cases h
  · cases h
    simp [cookieText, authItems, Function.comp_def]

/-- The cookie of a name after all updates. -/
lemma lookup_updatedJar (hcodec : codec.Documented) (hname : isAuthCookieName name = true) :
    ((updatedJar codec jar updates).lookup name).map Morsel.codedValue =
      match lastUpdate updates name with
      | some morsel => some (quote morsel.value)
      | none => (jar.lookup name).map Morsel.codedValue := by
  induction updates generalizing jar with
  | nil => rfl
  | cons update updates ih =>
    obtain ⟨key, morsel⟩ := update
    rw [updatedJar, List.foldl_cons, ← updatedJar, ih, lastUpdate, lastUpdate, List.reverse_cons,
      List.lookup_append]
    rcases updates.reverse.lookup name with _ | last
    · by_cases hkey : key = name
      · subst hkey
        simp [hname, hcodec.assign_eq, lookup_assignQuoted]
      · have hbeq : (name == key) = false := beq_false_of_ne (Ne.symm hkey)
        simp only [Option.none_or, List.lookup_cons, hbeq, List.lookup_nil]
        split_ifs
        · rw [hcodec.assign_eq, lookup_assignQuoted, if_neg (Ne.symm hkey)]
        · rfl
    · rfl

lemma nodup_updatedJar (hcodec : codec.Documented) (h : (jar.map Prod.fst).Nodup) :
    ((updatedJar codec jar updates).map Prod.fst).Nodup := by
  induction updates generalizing jar with
  | nil => exact h
  | cons update updates ih =>
    rw [updatedJar, List.foldl_cons, ← updatedJar]
    apply ih
    split_ifs
    · rw [hcodec.assign_eq]
      exact nodup_assignQuoted h _ _
    · exact h

/-! ### The octets of a merge -/

/-- The items of the updated jar are what they should be when the updates are written as they
came. -/
lemma preserves_of_writtenAsQuoted (hcodec : codec.Documented)
    (hstored : (stored.map Prod.fst).Nodup) (hwritten : WrittenAsQuoted updates) :
    Preserves stored updates (authItems (updatedJar codec stored updates)) where
  auth _ := auth_of_mem_authItems
  nodup := nodup_authItems (nodup_updatedJar hcodec hstored)
  updated name morsel hname hlast := by
    rw [lookup_authItems hname, lookup_updatedJar hcodec hname, hlast]
    exact congrArg some (hwritten name morsel hname hlast)
  kept name hname hlast := by
    rw [lookup_authItems hname, lookup_updatedJar hcodec hname, hlast]

/-- A header with the text of the updated jar can only be right when the updates are written as they
came. -/
lemma writtenAsQuoted_of_preserves (hcodec : codec.Documented)
    (hstored : (stored.map Prod.fst).Nodup) (hitems : Preserves stored updates items)
    (htext : cookieText (authItems (updatedJar codec stored updates)) = cookieText items) :
    WrittenAsQuoted updates := by
  have hlookup : ∀ name, isAuthCookieName name = true →
      (authItems (updatedJar codec stored updates)).lookup name =
        match lastUpdate updates name with
        | some morsel => some (quote morsel.value)
        | none => (stored.lookup name).map Morsel.codedValue := fun name hname => by
    rw [lookup_authItems hname, lookup_updatedJar hcodec hname]
  have heq : authItems (updatedJar codec stored updates) = items := by
    refine eq_of_cookieText_eq (fun _ => auth_of_mem_authItems) hitems.auth
      (nodup_authItems (nodup_updatedJar hcodec hstored)) hitems.nodup (fun name hname => ?_)
      (fun name c c' hc hc' => ?_) htext
    · rw [hlookup name hname]
      rcases hlast : lastUpdate updates name with _ | morsel
      · rw [hitems.kept name hname hlast]
      · rw [hitems.updated name morsel hname hlast]
        rfl
    · have hname := auth_of_mem_authItems (Dictionary.mem_of_lookup_eq_some hc)
      rw [hlookup name hname] at hc
      rcases hlast : lastUpdate updates name with _ | morsel
      · rw [hlast] at hc
        rw [hitems.kept name hname hlast] at hc'
        exact .inl (Option.some.inj (hc.symm.trans hc'))
      · rw [hlast] at hc
        cases hc
        exact .inr (semicolon_notMem_quote _)
  intro name morsel hname hlast
  have hupdated := hitems.updated name morsel hname hlast
  rw [← heq, hlookup name hname, hlast] at hupdated
  exact Option.some.inj hupdated

variable {env : Env} {r : Run} {cookieHeader merged : String} {headers : List String}

/-- What an accepted merge is made of. -/
lemma exists_of_merge
    (h : (mergeSetCookieHeaders codec env cookieHeader headers r).1 = .ok merged) :
    ∃ stored updates, codec.load [] cookieHeader = some stored ∧
      StorableUpdates codec env.wall r.cursor.wall headers updates ∧
      merged = cookieText (authItems (updatedJar codec stored updates)) := by
  have hends := @ends_mergeSetCookieHeaders codec env r cookieHeader headers
  rw [Ends] at hends
  split at hends
  · rename_i result r' hrun
    rw [hrun] at h
    cases h
    obtain ⟨⟨updates, hstorable⟩, hmerged, -⟩ := hends
    rw [mergedHeader, hstorable.1] at hmerged
    rcases hload : codec.load [] cookieHeader with _ | stored
    · simp [hload] at hmerged
    · rw [hload] at hmerged
      exact ⟨stored, updates, rfl, hstorable, eq_cookieText_of_jarHeader hmerged⟩
  · rename_i hrun
    rw [hrun] at h
    cases h
  · exact hends.elim

/-- An accepted merge keeps the octets of the server exactly when the last update of every
authentication cookie comes as its value is written. -/
theorem preservesOctets_iff (hcodec : codec.Documented)
    (hmerge : (mergeSetCookieHeaders codec env cookieHeader headers r).1 = .ok merged) :
    PreservesOctets codec env.wall r.cursor.wall cookieHeader headers merged ↔
      ∀ updates, cookieUpdates codec headers = some updates → WrittenAsQuoted updates := by
  obtain ⟨stored, updates, hload, hstorable, rfl⟩ := exists_of_merge hmerge
  have hnodup := hcodec.load_nodup hload
  constructor
  · rintro ⟨stored', updates', items, hload', hstorable', htext, hitems⟩ updates'' hupdates
    cases hload.symm.trans hload'
    cases hstorable.1.symm.trans hstorable'.1
    cases hstorable.1.symm.trans hupdates
    exact writtenAsQuoted_of_preserves hcodec hnodup hitems htext
  · intro hwritten
    exact ⟨stored, updates, _, hload, hstorable, rfl,
      preserves_of_writtenAsQuoted hcodec hnodup (hwritten updates hstorable.1)⟩

end

/-- The headers that a codec of examples reads, and their jars. -/
def exampleJars : List (String × CookieJar) :=
  [("access_token=a; refresh_token=b",
      [("access_token", ⟨"a", "a", "", ""⟩), ("refresh_token", ⟨"b", "b", "", ""⟩)]),
    ("access_token=c", [("access_token", ⟨"c", "c", "", ""⟩)]),
    ("refresh_token=d", [("refresh_token", ⟨"d", "d", "", ""⟩)]),
    ("refresh_token=d/e==", [("refresh_token", ⟨"d/e==", "d/e==", "", ""⟩)])]

/-- A codec that reads the headers of the examples, and writes as documented. -/
def exampleCodec : CookieCodec where
  load _ header := exampleJars.lookup header
  assign := assignQuoted
  parseDate _ := .malformed
  tokenPayload _ := none

lemma documented_exampleCodec : exampleCodec.Documented where
  load_nodup {header jar} h := by
    have hjars : ∀ item ∈ exampleJars, (item.2.map Prod.fst).Nodup := by decide
    exact hjars (header, jar) (Dictionary.mem_of_lookup_eq_some h)
  assign_eq _ _ _ := rfl

theorem preservesOctets_iff_token :
    PreservesOctets exampleCodec (Env.calm (worker 1) launch "r1").wall 0
        "access_token=a; refresh_token=b" ["access_token=c", "refresh_token=d"]
        "access_token=c; refresh_token=d" ↔
      ∀ updates, cookieUpdates exampleCodec ["access_token=c", "refresh_token=d"] = some updates →
        WrittenAsQuoted updates :=
  preservesOctets_iff (r := Run.start (Sys.installed firstAuth).world) documented_exampleCodec rfl

/-- A token with a slash is accepted and stored between quotes. -/
theorem not_preservesOctets_slash :
    (mergeSetCookieHeaders exampleCodec (.calm (worker 1) launch "r1")
        "access_token=a; refresh_token=b" ["access_token=c", "refresh_token=d/e=="]
        (Run.start (Sys.installed firstAuth).world)).1 =
      .ok "access_token=c; refresh_token=\"d/e==\"" ∧
    ¬ PreservesOctets exampleCodec (Env.calm (worker 1) launch "r1").wall 0
      "access_token=a; refresh_token=b" ["access_token=c", "refresh_token=d/e=="]
      "access_token=c; refresh_token=\"d/e==\"" := by
  have hmerge : (mergeSetCookieHeaders exampleCodec (.calm (worker 1) launch "r1")
      "access_token=a; refresh_token=b" ["access_token=c", "refresh_token=d/e=="]
      (Run.start (Sys.installed firstAuth).world)).1 =
        .ok "access_token=c; refresh_token=\"d/e==\"" := rfl
  refine ⟨hmerge, ?_⟩
  rintro ⟨stored, updates, items, hload, hstorable, htext, hitems⟩
  cases hload
  cases hstorable.1
  have hwritten := writtenAsQuoted_of_preserves documented_exampleCodec (by decide) hitems
    (htext ▸ by decide +kernel)
  exact absurd (hwritten "refresh_token" ⟨"d/e==", "d/e==", "", ""⟩ rfl rfl) (by decide +kernel)

end EnjiGuard.AuthSession
