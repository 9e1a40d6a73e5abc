import Mathlib.Data.List.Basic
import Mathlib.Data.List.TakeWhile
import Mathlib.Tactic.Common

/-!
# Quoted texts

A `ByteCode` writes some bytes as characters and escapes the others as `%` and two hexadecimal
digits; a text is written by the bytes that encode it. What a code writes it also reads, and a
character that neither stands for a byte nor belongs to an escape is never written, so that it can
separate what is quoted.
-/

namespace EnjiGuard.Foundation

/-! ### Separated texts -/

section Separated

variable {α : Type} {c sep : α} {text rest : List α} {parts : List (List α)}

lemma mem_intercalate_singleton (h : c ∈ [sep].intercalate parts) :
    c = sep ∨ ∃ part ∈ parts, c ∈ part := by
  induction parts with
  | nil => exact absurd h List.not_mem_nil
  | cons part parts ih =>
    cases parts with
    | nil =>
      rw [List.intercalate_singleton] at h
      exact .inr ⟨part, List.mem_cons_self, h⟩
    | cons other parts =>
      rw [List.intercalate_cons_cons, List.append_assoc, List.mem_append, List.mem_append,
        List.mem_singleton] at h
      rcases h with h | h | h
      · exact .inr ⟨part, List.mem_cons_self, h⟩
      · exact .inl h
      · rcases ih h with h | ⟨found, hfound, h⟩
        · exact .inl h
        · exact .inr ⟨found, List.mem_cons_of_mem _ hfound, h⟩

lemma mapM_map_eq_some {β : Type} {write : α → β} {read : β → Option α}
    (h : ∀ a, read (write a) = some a) (as : List α) : (as.map write).mapM read = some as := by
  induction as with
  | nil => rfl
  | cons a as ih =>
    rw [List.map_cons, List.mapM_cons, h, ih]
    rfl

variable [DecidableEq α]

lemma forall_ne_of_notMem (h : sep ∉ text) : ∀ c ∈ text, decide (c ≠ sep) = true := by
  intro c hc
  have hne : c ≠ sep := ne_of_mem_of_not_mem hc h
  simpa using hne

lemma takeWhile_ne_of_notMem (h : sep ∉ text) : text.takeWhile (· ≠ sep) = text :=
  List.takeWhile_eq_self_iff.2 (forall_ne_of_notMem h)

lemma takeWhile_ne_append (h : sep ∉ text) :
    (text ++ rest).takeWhile (· ≠ sep) = text ++ rest.takeWhile (· ≠ sep) :=
  List.takeWhile_append_of_pos (forall_ne_of_notMem h)

lemma dropWhile_ne_append (h : sep ∉ text) :
    (text ++ rest).dropWhile (· ≠ sep) = rest.dropWhile (· ≠ sep) :=
  List.dropWhile_append_of_pos (forall_ne_of_notMem h)

end Separated

/-! ### Hexadecimal digits -/

/-- The digits of an escape. -/
def hexDigits : List Char :=
  ['0', '1', '2', '3', '4', '5', '6', '7', '8', '9', 'A', 'B', 'C', 'D', 'E', 'F']

/-- The digit of a number below 16. -/
def hexDigit (n : Nat) : Char := hexDigits.getD n '0'

/-- What a digit stands for. -/
def hexValue? (c : Char) : Option Nat :=
  if '0' ≤ c ∧ c ≤ '9' then some (c.toNat - '0'.toNat)
  else if 'A' ≤ c ∧ c ≤ 'F' then some (c.toNat - 'A'.toNat + 10)
  else if 'a' ≤ c ∧ c ≤ 'f' then some (c.toNat - 'a'.toNat + 10)
  else none

lemma hexValue?_hexDigit {n : Nat} (h : n < 16) : hexValue? (hexDigit n) = some n := by
  have hall : ∀ n < 16, hexValue? (hexDigit n) = some n := by decide
  exact hall n h

lemma hexDigit_mem (n : Nat) : hexDigit n ∈ hexDigits := by
  rw [hexDigit, List.getD_eq_getElem?_getD]
  rcases h : hexDigits[n]? with _ | c
  · decide
  · exact List.mem_of_getElem? h

/-! ### Writing and reading bytes -/

/-- The bytes that are written as a character, and how a character is read. -/
structure ByteCode where
  kept : UInt8 → Option Char
  read : Char → Option UInt8
  read_of_kept {b : UInt8} {c : Char} : kept b = some c → c ≠ '%' ∧ read c = some b

namespace ByteCode

variable {code : ByteCode} {bytes : List UInt8} {c : Char}

/-- How a byte is written. -/
def escape (code : ByteCode) (b : UInt8) : List Char :=
  match code.kept b with
  | some c => [c]
  | none => ['%', hexDigit (b.toNat / 16), hexDigit (b.toNat % 16)]

/-- How bytes are written. -/
def encode (code : ByteCode) (bytes : List UInt8) : List Char := bytes.flatMap code.escape

/-- The bytes that are read, unless an escape is broken or a character stands for none. -/
def decode (code : ByteCode) : List Char → Option (List UInt8)
  | [] => some []
  | '%' :: high :: low :: text => do
    let h ← hexValue? high
    let l ← hexValue? low
    let bytes ← decode code text
    some (UInt8.ofNat (16 * h + l) :: bytes)
  | c :: text =>
    if c = '%' then none
    else do
      let b ← code.read c
      let bytes ← decode code text
      some (b :: bytes)

lemma decode_cons {text : List Char} (h : c ≠ '%') :
    code.decode (c :: text) =
      (code.read c).bind fun b => (code.decode text).bind fun bytes => some (b :: bytes) := by
  rw [decode, if_neg h]
  · rfl
  · rintro high low text rfl
    exact absurd rfl h

lemma decode_escape (b : UInt8) (text : List Char) :
    code.decode (code.escape b ++ text) = (code.decode text).map (b :: ·) := by
  rw [escape]
  rcases hkept : code.kept b with _ | c
  · have hhigh : b.toNat / 16 < 16 := by
      have := b.toNat_lt
      omega
    have hlow : b.toNat % 16 < 16 := Nat.mod_lt _ (by decide)
    have hbyte : UInt8.ofNat (16 * (b.toNat / 16) + b.toNat % 16) = b := by
      rw [Nat.div_add_mod, UInt8.ofNat_toNat]
    simp only [List.cons_append, List.nil_append, decode, hexValue?_hexDigit hhigh,
      hexValue?_hexDigit hlow, Option.bind_eq_bind, Option.bind_some, hbyte]
    cases code.decode text <;> rfl
  · obtain ⟨hescape, hread⟩ := code.read_of_kept hkept
    rw [List.cons_append, List.nil_append, decode_cons hescape, hread]
    cases code.decode text <;> rfl

/-- What is written is read. -/
@[simp] lemma decode_encode (code : ByteCode) (bytes : List UInt8) :
    code.decode (code.encode bytes) = some bytes := by
  induction bytes with
  | nil => rfl
  | cons b bytes ih =>
    rw [encode, List.flatMap_cons, decode_escape, ← encode, ih]
    rfl

/-- A character that stands neither for a byte nor in an escape. -/
structure Spares (code : ByteCode) (c : Char) : Prop where
  unkept (b : UInt8) : code.kept b ≠ some c
  unescaped : c ∉ '%' :: hexDigits

lemma Spares.not_mem_encode (h : code.Spares c) : c ∉ code.encode bytes := by
  intro hmem
  obtain ⟨b, -, hb⟩ := List.mem_flatMap.1 hmem
  rw [escape] at hb
  rcases hkept : code.kept b with _ | d
  · rw [hkept] at hb
    refine h.unescaped ?_
    rcases List.mem_cons.1 hb with rfl | hb
    · exact List.mem_cons_self
    · refine List.mem_cons_of_mem _ ?_
      rcases List.mem_cons.1 hb with rfl | hb
      · exact hexDigit_mem _
      · rw [List.mem_singleton.1 hb]
        exact hexDigit_mem _
  · rw [hkept] at hb
    obtain rfl := List.mem_singleton.1 hb
    exact h.unkept b hkept

/-! ### Writing and reading texts -/

/-- How a text is written. -/
def quote (code : ByteCode) (value : String) : List Char :=
  code.encode value.toByteArray.data.toList

/-- The text that is read, unless the bytes encode none. -/
def unquote (code : ByteCode) (text : List Char) : Option String := do
  let bytes ← code.decode text
  String.fromUTF8? ⟨bytes.toArray⟩

/-- A text that is written is read. -/
@[simp] lemma unquote_quote (code : ByteCode) (value : String) :
    code.unquote (code.quote value) = some value := by
  rw [unquote, quote, decode_encode, Option.bind_eq_bind, Option.bind_some, Array.toArray_toList]
  exact dif_pos value.isValidUTF8

lemma quote_injective (code : ByteCode) : Function.Injective code.quote := by
  intro value value' h
  have hread : some value = some value' := by rw [← unquote_quote code value, h, unquote_quote]
  exact Option.some.inj hread

lemma Spares.not_mem_quote (h : code.Spares c) (value : String) : c ∉ code.quote value :=
  h.not_mem_encode

end ByteCode

end EnjiGuard.Foundation
