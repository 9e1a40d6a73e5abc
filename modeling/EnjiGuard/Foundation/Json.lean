import Mathlib.Data.Rat.Defs
import Mathlib.Tactic.Common

/-!
# JSON values as a Python program reads them

Objects are the association lists of the parsed dictionaries. The readers below follow the
dictionary and comparison operations of the language: a missing key reads as `null`, numbers
compare across types, and a value that cannot be hashed cannot be looked up in a set.
-/

namespace EnjiGuard.Foundation

/-- A floating point number that JSON text can denote. -/
inductive JsonFloat
  | finite (value : Rat)
  | nan
  | infinity (negative : Bool)
  deriving DecidableEq, Repr

/-- A parsed JSON value. -/
inductive Json
  | null
  | bool (b : Bool)
  | int (n : Int)
  | float (x : JsonFloat)
  | str (s : String)
  | arr (items : List Json)
  | obj (fields : List (String × Json))

/-- The content of a file that is read as text and parsed as JSON. -/
inductive FileText
  | notUtf8
  | notJson (detail : String)
  /-- The parser raises something else than a syntax error: an integer has too many digits. -/
  | refused (typeName : String)
  | json (value : Json)

namespace Json

/-- The value a dictionary has for a key, `null` when it has none. -/
def lookup (key : String) : List (String × Json) → Json
  | [] => null
  | (k, v) :: fields => if k = key then v else lookup key fields

/-- Whether a dictionary has a key. -/
def hasKey (key : String) : List (String × Json) → Bool
  | [] => false
  | (k, _) :: fields => if k = key then true else hasKey key fields

/-- The text of a string value. -/
def str? : Json → Option String
  | str s => some s
  | _ => none

/-- A nullable string; the outer `none` is any other value. -/
def optionalStr? : Json → Option (Option String)
  | str s => some (some s)
  | null => some none
  | _ => none

/-- The value of an integer, booleans left out. -/
def int? : Json → Option Int
  | int n => some n
  | _ => none

/-- A nullable integer, booleans left out; the outer `none` is any other value. -/
def optionalInt? : Json → Option (Option Int)
  | int n => some (some n)
  | null => some none
  | _ => none

/-- The value of a boolean. -/
def bool? : Json → Option Bool
  | bool b => some b
  | _ => none

/-- Whether a value equals an integer, across the number types. -/
def equalsInt (n : Int) : Json → Bool
  | int m => m = n
  | bool b => (if b then 1 else 0) = n
  | float (.finite q) => q = n
  | _ => false

def equalsStr (text : String) : Json → Bool
  | str s => s = text
  | _ => false

/-- Membership in a set of strings; `none` is the type error of a value that has no hash. -/
def memberOf (texts : List String) : Json → Option Bool
  | str s => some (s ∈ texts)
  | arr _ => none
  | obj _ => none
  | _ => some false

/-- A string or `null`. -/
def ofOptionalStr : Option String → Json
  | some s => str s
  | none => null

/-- An integer or `null`. -/
def ofOptionalInt : Option Int → Json
  | some n => int n
  | none => null

section Lookup

variable {key k : String} {v : Json} {fields : List (String × Json)}

@[simp] lemma lookup_nil : lookup key [] = null := rfl

@[simp] lemma lookup_cons_self : lookup key ((key, v) :: fields) = v := if_pos rfl

end Lookup

@[simp] lemma str?_str (s : String) : (str s).str? = some s := rfl

@[simp] lemma bool?_bool (b : Bool) : (bool b).bool? = some b := rfl

@[simp] lemma int?_int (n : Int) : (int n).int? = some n := rfl

@[simp] lemma optionalStr?_ofOptionalStr (s : Option String) :
    (ofOptionalStr s).optionalStr? = some s := by
  cases s <;> rfl

@[simp] lemma optionalInt?_ofOptionalInt (n : Option Int) :
    (ofOptionalInt n).optionalInt? = some n := by
  cases n <;> rfl

@[simp] lemma equalsInt_int (m n : Int) : (int m).equalsInt n = decide (m = n) := rfl

end Json

end EnjiGuard.Foundation
