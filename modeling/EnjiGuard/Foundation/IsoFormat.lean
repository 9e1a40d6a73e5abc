import EnjiGuard.Foundation.Calendar
import Mathlib.Algebra.Group.Nat.Defs

/-!
# Aware datetimes and their ISO 8601 text

`Datetime` is an aware datetime in UTC. `isoformat` prints it, and `fromIsoformat` reads the
formats the standard library's `datetime.fromisoformat` reads: extended and basic dates, week
dates, any separator, clocks down to the microsecond and an optional offset. What is printed is
read back (`fromIsoformat_isoformat`).
-/

namespace EnjiGuard.Foundation

def microsPerDay : Nat := 86400000000

/-- The first microsecond after the last representable datetime. -/
def maxMicros : Nat := maxOrdinal * microsPerDay

/-- A signed span of time in microseconds. -/
abbrev Timedelta := Int

/-- The span of a number of seconds. -/
def Timedelta.seconds (n : Int) : Timedelta := n * 1000000

/-- An aware datetime in UTC, counted in microseconds from the start of year one. -/
@[ext] structure Datetime where
  micros : Nat
  inRange : micros < maxMicros
  deriving DecidableEq, Repr

namespace Datetime

instance : LE Datetime := ⟨fun a b => a.micros ≤ b.micros⟩

instance : LT Datetime := ⟨fun a b => a.micros < b.micros⟩

instance (a b : Datetime) : Decidable (a ≤ b) := inferInstanceAs (Decidable (a.micros ≤ b.micros))

instance (a b : Datetime) : Decidable (a < b) := inferInstanceAs (Decidable (a.micros < b.micros))

lemma le_def {a b : Datetime} : a ≤ b ↔ a.micros ≤ b.micros := Iff.rfl

lemma lt_def {a b : Datetime} : a < b ↔ a.micros < b.micros := Iff.rfl

lemma not_le {a b : Datetime} : ¬ a ≤ b ↔ b < a := Nat.not_le

lemma not_lt {a b : Datetime} : ¬ a < b ↔ b ≤ a := Nat.not_lt

instance : Preorder Datetime where
  le_refl a := le_def.2 (Nat.le_refl _)
  le_trans _ _ _ hab hbc := le_def.2 (Nat.le_trans (le_def.1 hab) (le_def.1 hbc))
  lt_iff_le_not_ge a b := by simp only [lt_def, le_def]; omega

/-- A datetime from a signed microsecond count, when it is representable. -/
def ofMicros? (micros : Int) : Option Datetime :=
  if h : 0 ≤ micros ∧ micros < maxMicros then
    some ⟨micros.toNat, by have := h.1; have := h.2; omega⟩
  else none

/-- Addition of a span; `none` is the overflow error of the standard library. -/
def add? (t : Datetime) (d : Timedelta) : Option Datetime := ofMicros? (t.micros + d)

/-- The span between two datetimes. -/
def sub (a b : Datetime) : Timedelta := (a.micros : Int) - b.micros

lemma micros_of_ofMicros? {m : Int} {t : Datetime} (h : ofMicros? m = some t) :
    (t.micros : Int) = m := by
  unfold ofMicros? at h
  split at h
  · next hm => cases h; exact Int.toNat_of_nonneg hm.1
  · cases h

@[simp] lemma ofMicros?_micros (t : Datetime) : ofMicros? t.micros = some t := by
  have h := t.inRange
  unfold ofMicros?
  rw [dif_pos ⟨by omega, by exact_mod_cast h⟩]
  simp

lemma micros_of_add? {t u : Datetime} {d : Timedelta} (h : t.add? d = some u) :
    (u.micros : Int) = t.micros + d := micros_of_ofMicros? h

end Datetime

/-! ### Printing -/

/-- The last decimal digit of a number. -/
def digitChar (n : Nat) : Char := Char.ofNat (48 + n % 10)

/-- The last `width` decimal digits of a number, most significant first. -/
def digits : Nat → Nat → List Char
  | 0, _ => []
  | width + 1, n => digits width (n / 10) ++ [digitChar n]

def dateChars (date : CivilDate) : List Char :=
  digits 4 date.year ++ '-' :: digits 2 date.month ++ '-' :: digits 2 date.day

/-- Hours, minutes, seconds and microseconds. -/
structure Clock where
  hour : Nat
  minute : Nat
  second : Nat
  micro : Nat
  deriving DecidableEq, Repr

def Clock.micros (c : Clock) : Nat :=
  ((c.hour * 60 + c.minute) * 60 + c.second) * 1000000 + c.micro

/-- The clock that shows a number of microseconds after midnight. -/
def clockOf (micros : Nat) : Clock :=
  let second := micros / 1000000
  ⟨second / 3600, second / 60 % 60, second % 60, micros % 1000000⟩

/-- The characters of a clock; a fraction is printed only when there is one. -/
def clockChars (c : Clock) : List Char :=
  digits 2 c.hour ++ ':' :: digits 2 c.minute ++ ':' :: digits 2 c.second ++
    if c.micro = 0 then [] else '.' :: digits 6 c.micro

/-- The characters `isoformat` prints for a datetime. -/
def isoChars (t : Datetime) : List Char :=
  dateChars (civilOfOrdinal (t.micros / microsPerDay + 1)) ++
    'T' :: clockChars (clockOf (t.micros % microsPerDay)) ++ ['+', '0', '0', ':', '0', '0']

/-- The ISO 8601 text of an aware UTC datetime. -/
def isoformat (t : Datetime) : String := String.ofList (isoChars t)

/-! ### Reading -/

/-- What a text read by `fromIsoformat` denotes: a local time and, when aware, its offset. -/
structure IsoDatetime where
  localMicros : Nat
  offset : Option Timedelta
  deriving DecidableEq, Repr

/-- Conversion to UTC; `none` is the overflow error of the standard library. -/
def IsoDatetime.toUtc? (t : IsoDatetime) (offset : Timedelta) : Option Datetime :=
  Datetime.ofMicros? (t.localMicros - offset)

def digitValue (c : Char) : Option Nat :=
  if 48 ≤ c.toNat ∧ c.toNat ≤ 57 then some (c.toNat - 48) else none

/-- Reads exactly `width` digits onto an accumulator. -/
def takeDigitsOnto : Nat → Nat → List Char → Option (Nat × List Char)
  | 0, acc, cs => some (acc, cs)
  | _ + 1, _, [] => none
  | width + 1, acc, c :: cs =>
    match digitValue c with
    | some d => takeDigitsOnto width (acc * 10 + d) cs
    | none => none

/-- Reads exactly `width` digits. -/
def takeDigits (width : Nat) (cs : List Char) : Option (Nat × List Char) :=
  takeDigitsOnto width 0 cs

/-- Where the date ends, following the disambiguation rules of the standard library. -/
def separatorLocation (cs : List Char) : Option Nat :=
  let isDigitAt (i : Nat) : Bool := (cs[i]?.bind digitValue).isSome
  if cs.length = 7 then some 7
  else if cs[4]? = some '-' then
    if cs[5]? = some 'W' then
      if cs[8]? = some '-' then
        if cs.length = 9 then none
        else if isDigitAt 10 then some 8 else some 10
      else some 8
    else some 10
  else if cs[4]? = some 'W' then
    let idx := 7 + ((cs.drop 7).takeWhile fun c => (digitValue c).isSome).length
    if idx < 9 then some idx else if idx % 2 = 0 then some 7 else some 8
  else some 8

def civilOfIsoWeek (year week day : Nat) : Option CivilDate :=
  let first := daysBeforeYear year + 1
  let weekday := (first + 6) % 7
  let longYear := weekday = 3 ∨ (weekday = 2 ∧ isLeap year = true)
  if year = 0 ∨ maxYear < year ∨ week = 0 ∨ 53 < week ∨ (week = 53 ∧ ¬ longYear) then none
  else if day = 0 ∨ 7 < day then none
  else
    let monday := if weekday > 3 then first + 7 - weekday else first - weekday
    some (civilOfOrdinal (monday + (week - 1) * 7 + (day - 1)))

/-- Reads the date part. -/
def parseDate (cs : List Char) : Option CivilDate := do
  let (year, cs) ← takeDigits 4 cs
  let extended := cs.head? = some '-'
  let cs := if extended then cs.tail else cs
  match cs with
  | 'W' :: cs =>
    let (week, cs) ← takeDigits 2 cs
    match cs with
    | [] => civilOfIsoWeek year week 1
    | c :: rest =>
      if (c = '-') ≠ extended then none
      else
        let (day, rest) ← takeDigits 1 (if extended then rest else cs)
        if rest = [] then civilOfIsoWeek year week day else none
  | cs =>
    let (month, cs) ← takeDigits 2 cs
    if (cs.head? = some '-') ≠ extended then none
    else
      let (day, cs) ← takeDigits 2 (if extended then cs.tail else cs)
      if cs = [] then some ⟨year, month, day⟩ else none

/-- Reads an optional fraction of a second, in microseconds. -/
def parseFraction : List Char → Option Nat
  | [] => some 0
  | c :: cs =>
    if (c = '.' ∨ c = ',') ∧ cs ≠ [] ∧ cs.all (fun d => (digitValue d).isSome) then
      (takeDigits (min 6 cs.length) cs).map fun r => r.1 * 10 ^ (6 - min 6 cs.length)
    else none

/-- Reads `HH[:MM[:SS[.f]]]` or its basic form. -/
def parseClock (cs : List Char) : Option Clock := do
  let (hour, cs) ← takeDigits 2 cs
  match cs with
  | [] => some ⟨hour, 0, 0, 0⟩
  | ':' :: cs =>
    let (minute, cs) ← takeDigits 2 cs
    match cs with
    | [] => some ⟨hour, minute, 0, 0⟩
    | ':' :: cs =>
      let (second, cs) ← takeDigits 2 cs
      (parseFraction cs).map fun micro => ⟨hour, minute, second, micro⟩
    | _ => none
  | cs =>
    let (minute, cs) ← takeDigits 2 cs
    match cs with
    | [] => some ⟨hour, minute, 0, 0⟩
    | cs =>
      let (second, cs) ← takeDigits 2 cs
      (parseFraction cs).map fun micro => ⟨hour, minute, second, micro⟩

/-- Reads the offset that follows a clock; the outer `none` is a malformed offset. -/
def parseOffset : List Char → Option (Option Timedelta)
  | [] => some none
  | ['Z'] => some (some 0)
  | 'Z' :: _ => none
  | sign :: cs =>
    match parseClock cs with
    | none => none
    | some c =>
      if c.hour < 24 ∧ c.minute < 60 ∧ c.second < 60 then
        some (some (if sign = '-' then -(c.micros : Int) else c.micros))
      else none

/-- The number of days and the clock of a date and a clock, where `24:00` is the next day. -/
def localOf (date : CivilDate) (clock : Clock) : Option Nat :=
  let midnight := decide (clock = ⟨24, 0, 0, 0⟩)
  let clock := if midnight then ⟨0, 0, 0, 0⟩ else clock
  let day := date.toOrdinal - 1 + if midnight then 1 else 0
  if date.Valid ∧ day < maxOrdinal ∧ clock.hour < 24 ∧ clock.minute < 60 ∧ clock.second < 60 then
    some (day * microsPerDay + clock.micros)
  else none

def isOffsetStart (c : Char) : Bool := c = '+' || c = '-' || c = 'Z'

/-- Reads ISO 8601 text; `none` is the value error of the standard library. -/
def fromIsoformat (text : String) : Option IsoDatetime :=
  let cs := text.toList
  if cs.length < 7 then none
  else do
    let at_ ← separatorLocation cs
    let date ← parseDate (cs.take at_)
    match cs.drop (at_ + 1) with
    | [] =>
      let micros ← localOf date ⟨0, 0, 0, 0⟩
      some ⟨micros, none⟩
    | time =>
      let clock ← parseClock (time.takeWhile fun c => !isOffsetStart c)
      let offset ← parseOffset (time.dropWhile fun c => !isOffsetStart c)
      let micros ← localOf date clock
      some ⟨micros, offset⟩

/-! ### Printing then reading -/

lemma digitChar_toNat (n : Nat) : (digitChar n).toNat = 48 + n % 10 := by
  have h : n % 10 < 10 := Nat.mod_lt _ (by omega)
  have key : ∀ d : Fin 10, (Char.ofNat (48 + (d : Nat))).toNat = 48 + d := by decide
  exact key ⟨n % 10, h⟩

@[simp] lemma digitValue_digitChar (n : Nat) : digitValue (digitChar n) = some (n % 10) := by
  unfold digitValue
  rw [digitChar_toNat]
  have : n % 10 < 10 := Nat.mod_lt _ (by omega)
  rw [if_pos (by omega)]
  congr 1
  omega

/-- A digit is none of the separators. -/
lemma digitChar_ne {n : Nat} {c : Char} (h : digitValue c = none) : digitChar n ≠ c := by
  rintro rfl
  simp at h

/-- Reading digits in two goes. -/
lemma takeDigitsOnto_add (m k acc : Nat) (cs : List Char) :
    takeDigitsOnto (m + k) acc cs =
      (takeDigitsOnto m acc cs).bind fun r => takeDigitsOnto k r.1 r.2 := by
  induction m generalizing acc cs with
  | zero => simp [takeDigitsOnto]
  | succ m ih =>
    rw [Nat.add_right_comm]
    cases cs with
    | nil => simp [takeDigitsOnto]
    | cons c cs =>
      simp only [takeDigitsOnto]
      cases digitValue c with
      | none => rfl
      | some d => exact ih _ _

lemma takeDigitsOnto_digits (width acc n : Nat) (rest : List Char) :
    takeDigitsOnto width acc (digits width n ++ rest) =
      some (acc * 10 ^ width + n % 10 ^ width, rest) := by
  induction width generalizing n rest with
  | zero => simp [takeDigitsOnto, digits, Nat.mod_one]
  | succ width ih =>
    have hmod : n % 10 ^ (width + 1) = n / 10 % 10 ^ width * 10 + n % 10 := by
      rw [Nat.pow_succ, Nat.mul_comm, Nat.mod_mul]; omega
    rw [digits, List.append_assoc, takeDigitsOnto_add, ih, hmod, Nat.pow_succ]
    simp only [Option.bind_some, List.singleton_append, takeDigitsOnto, digitValue_digitChar,
      Option.some.injEq, Prod.mk.injEq, and_true]
    rw [Nat.add_mul, Nat.mul_assoc, Nat.add_assoc]

lemma takeDigits_digits {width n : Nat} (h : n < 10 ^ width) (rest : List Char) :
    takeDigits width (digits width n ++ rest) = some (n, rest) := by
  rw [takeDigits, takeDigitsOnto_digits, Nat.mod_eq_of_lt h]; simp

lemma digits_two (n : Nat) : digits 2 n = [digitChar (n / 10), digitChar n] := rfl

lemma daysInMonth_le (leap : Bool) (m : Nat) : daysInMonth leap m ≤ 31 := by
  unfold daysInMonth
  split
  · split <;> decide
  all_goals decide

/-- The printed date is read back. -/
lemma parseDate_digits {date : CivilDate} (h : date.Valid) :
    parseDate (dateChars date) = some date := by
  obtain ⟨-, hy, -, hm, -, hd⟩ := h
  have hday : date.day ≤ 31 := Nat.le_trans hd (daysInMonth_le _ _)
  unfold maxYear at hy
  have hyear : takeDigits 4 (digits 4 date.year ++
      ('-' :: (digits 2 date.month ++ '-' :: digits 2 date.day))) = _ :=
    takeDigits_digits (by omega) _
  have hmonth : takeDigits 2 (digits 2 date.month ++ ('-' :: digits 2 date.day)) = _ :=
    takeDigits_digits (by omega) _
  have hdays : takeDigits 2 (digits 2 date.day ++ []) = _ := takeDigits_digits (by omega) _
  rw [List.append_nil] at hdays
  have hw : digitChar (date.month / 10) ≠ 'W' := digitChar_ne (by decide)
  simp only [parseDate, dateChars, List.append_assoc, List.cons_append, hyear, Option.bind_eq_bind,
    Option.bind_some, List.head?_cons, List.tail_cons]
  simp only [digits_two date.month, List.cons_append, List.nil_append] at hmonth ⊢
  simp [hw, hmonth, hdays]

/-- The ranges of a clock of the day. -/
def Clock.Valid (c : Clock) : Prop :=
  c.hour < 24 ∧ c.minute < 60 ∧ c.second < 60 ∧ c.micro < 1000000

lemma clockOf_spec {n : Nat} (h : n < microsPerDay) :
    (clockOf n).Valid ∧ (clockOf n).micros = n := by
  unfold microsPerDay at h
  simp only [clockOf, Clock.Valid, Clock.micros]
  omega

/-- A printed fraction is read back. -/
lemma parseFraction_digits {micro : Nat} (h : micro < 1000000) :
    parseFraction (if micro = 0 then [] else '.' :: digits 6 micro) = some micro := by
  split_ifs with h0
  · rw [h0]; rfl
  · have hread : takeDigits 6 (digits 6 micro ++ []) = _ := takeDigits_digits (by omega) _
    rw [List.append_nil] at hread
    have hlen : (digits 6 micro).length = 6 := rfl
    have hall : (digits 6 micro).all (fun d => (digitValue d).isSome) = true := by simp [digits]
    have hne : digits 6 micro ≠ [] := by simp [digits]
    simp [parseFraction, hread, hlen, hall, hne]

/-- The printed clock is read back. -/
lemma parseClock_clockChars {c : Clock} (h : c.Valid) : parseClock (clockChars c) = some c := by
  obtain ⟨hh, hm, hs, hmicro⟩ := h
  have hread : ∀ {n : Nat} (cs : List Char), n < 60 →
      takeDigits 2 (digits 2 n ++ cs) = some (n, cs) :=
    fun cs hn => takeDigits_digits (by omega) cs
  simp only [parseClock, clockChars, List.append_assoc, List.cons_append,
    hread _ (Nat.lt_trans hh (by decide)), hread _ hm, hread _ hs, Option.bind_eq_bind,
    Option.bind_some, parseFraction_digits hmicro, Option.map_some]

/-- No character of a clock starts an offset. -/
lemma not_isOffsetStart_of_mem_clockChars {c : Clock} {ch : Char} (h : ch ∈ clockChars c) :
    isOffsetStart ch = false := by
  have hdigit : ∀ width n, ch ∈ digits width n → isOffsetStart ch = false := by
    intro width
    induction width with
    | zero => intro n hn; simp [digits] at hn
    | succ width ih =>
      intro n hn
      rw [digits, List.mem_append, List.mem_singleton] at hn
      rcases hn with hn | rfl
      · exact ih _ hn
      · simp [isOffsetStart, digitChar_ne (show digitValue '+' = none by decide),
          digitChar_ne (show digitValue '-' = none by decide),
          digitChar_ne (show digitValue 'Z' = none by decide)]
  simp only [clockChars, List.mem_append, List.mem_cons] at h
  rcases h with (((h | rfl | h) | rfl | h) | h)
  · exact hdigit _ _ h
  · decide
  · exact hdigit _ _ h
  · decide
  · exact hdigit _ _ h
  · split_ifs at h with h0
    · cases h
    · rcases List.mem_cons.1 h with rfl | h
      · decide
      · exact hdigit _ _ h

lemma length_dateChars (date : CivilDate) : (dateChars date).length = 10 := rfl

/-- In a printed datetime the date ends after ten characters. -/
lemma separatorLocation_dateChars (date : CivilDate) (rest : List Char) :
    separatorLocation (dateChars date ++ 'T' :: rest) = some 10 := by
  have h4 : (dateChars date ++ 'T' :: rest)[4]? = some '-' := rfl
  have h5 : (dateChars date ++ 'T' :: rest)[5]? = some (digitChar (date.month / 10)) := rfl
  have hlen : (dateChars date).length + (rest.length + 1) ≠ 7 := by
    rw [length_dateChars]; omega
  have hw : digitChar (date.month / 10) ≠ 'W' := digitChar_ne (by decide)
  simp [separatorLocation, h4, h5, hlen, hw]

/-- The date and clock of a datetime give its microseconds. -/
lemma localOf_datetime (t : Datetime) :
    localOf (civilOfOrdinal (t.micros / microsPerDay + 1)) (clockOf (t.micros % microsPerDay)) =
      some t.micros := by
  have hpos : 0 < microsPerDay := by decide
  have hday : t.micros / microsPerDay < maxOrdinal := by
    rw [Nat.div_lt_iff_lt_mul hpos]; exact t.inRange
  obtain ⟨hord, hvalid⟩ := @civilOfOrdinal_spec (t.micros / microsPerDay + 1)
    (Nat.le_add_left _ _) hday
  obtain ⟨⟨hh, hm, hs, hmicro⟩, hclock⟩ := clockOf_spec (Nat.mod_lt t.micros hpos)
  have hmid : clockOf (t.micros % microsPerDay) ≠ ⟨24, 0, 0, 0⟩ := by
    intro heq; rw [heq] at hh; exact absurd hh (by decide)
  simp only [localOf, hmid, decide_false, Bool.false_eq_true, if_false, hord]
  rw [if_pos ⟨hvalid, hday, hh, hm, hs⟩, hclock, Nat.add_sub_cancel, Nat.add_zero,
    Nat.mul_comm, Nat.div_add_mod]

/-- Printed text is read back as the same moment with the UTC offset. -/
theorem fromIsoformat_isoformat (t : Datetime) :
    fromIsoformat (isoformat t) = some ⟨t.micros, some 0⟩ := by
  have hpos : 0 < microsPerDay := by decide
  have hday : t.micros / microsPerDay < maxOrdinal := by
    rw [Nat.div_lt_iff_lt_mul hpos]; exact t.inRange
  obtain ⟨-, hvalid⟩ := @civilOfOrdinal_spec (t.micros / microsPerDay + 1)
    (Nat.le_add_left _ _) hday
  have hclock := (clockOf_spec (Nat.mod_lt t.micros hpos)).1
  generalize hdate : civilOfOrdinal (t.micros / microsPerDay + 1) = date at hvalid
  generalize hc : clockOf (t.micros % microsPerDay) = clock at hclock
  have hchars : (isoformat t).toList =
      dateChars date ++ 'T' :: (clockChars clock ++ ['+', '0', '0', ':', '0', '0']) := by
    simp [isoformat, isoChars, hdate, hc]
  have hall : ∀ ch ∈ clockChars clock, (!isOffsetStart ch) = true := fun ch hch => by
    rw [not_isOffsetStart_of_mem_clockChars hch]; rfl
  have htake : (clockChars clock ++ ['+', '0', '0', ':', '0', '0']).takeWhile
      (fun ch => !isOffsetStart ch) = clockChars clock := by
    rw [List.takeWhile_append_of_pos hall]; simp [isOffsetStart]
  have hdrop : (clockChars clock ++ ['+', '0', '0', ':', '0', '0']).dropWhile
      (fun ch => !isOffsetStart ch) = ['+', '0', '0', ':', '0', '0'] := by
    rw [List.dropWhile_append_of_pos hall]; simp [isOffsetStart]
  have hoffset : parseOffset ['+', '0', '0', ':', '0', '0'] = some (some 0) := by decide
  have hlocal : localOf date clock = some t.micros := by rw [← hdate, ← hc, localOf_datetime]
  have hdatePart : (dateChars date ++
      'T' :: (clockChars clock ++ ['+', '0', '0', ':', '0', '0'])).take 10 = dateChars date :=
    List.take_left' (length_dateChars date)
  have htimePart : (dateChars date ++
      'T' :: (clockChars clock ++ ['+', '0', '0', ':', '0', '0'])).drop 11 =
        clockChars clock ++ ['+', '0', '0', ':', '0', '0'] := rfl
  have hlen : ¬ (dateChars date ++
      'T' :: (clockChars clock ++ ['+', '0', '0', ':', '0', '0'])).length < 7 := by
    rw [List.length_append, length_dateChars]; omega
  unfold fromIsoformat
  simp only [hchars, if_neg hlen, separatorLocation_dateChars, Option.bind_eq_bind,
    Option.bind_some, hdatePart, parseDate_digits hvalid, htimePart]
  have hcons : ∃ ch rest, clockChars clock ++ ['+', '0', '0', ':', '0', '0'] = ch :: rest :=
    ⟨_, _, rfl⟩
  split
  · next h => obtain ⟨ch, rest, heq⟩ := hcons; rw [heq] at h; cases h
  · simp only [htake, hdrop, parseClock_clockChars hclock, hoffset, hlocal, Option.bind_some]

lemma isoformat_ne_empty (t : Datetime) : isoformat t ≠ "" := by
  intro h
  have hchars : isoChars t = [] := String.ofList_injective (h.trans String.ofList_nil.symm)
  have hlength := congrArg List.length hchars
  rw [isoChars, List.length_append] at hlength
  simp [length_dateChars] at hlength

/-- A moment with offset zero is itself. -/
lemma toUtc?_zero (t : Datetime) (offset : Option Timedelta) :
    IsoDatetime.toUtc? ⟨t.micros, offset⟩ 0 = some t := by
  unfold IsoDatetime.toUtc?
  have h : (t.micros : Int) - (0 : Int) = t.micros := Int.sub_zero _
  exact (congrArg Datetime.ofMicros? h).trans (Datetime.ofMicros?_micros t)

end EnjiGuard.Foundation
