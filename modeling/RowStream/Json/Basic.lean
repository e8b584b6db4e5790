import RowStream.Number.Binary
import RowStream.Number.Machine

/-!
# JSON values

Values as configuration and requests carry them. Objects keep the order in which their members were
written; a key written twice keeps its first place and its last value (`insert`). Whole numbers that
fit a word of 64 bits, signed or unsigned, stay whole; every other number is floating point.
-/

namespace RowStream

inductive JsonNumber where
  /-- A whole number between `-2^63` and `2^64 - 1`. -/
  | integer (n : Int)
  | float (x : Binary64)
deriving DecidableEq, Repr, Inhabited

namespace JsonNumber

def toInt64? : JsonNumber → Option Int64
  | .integer n => int64? n
  | .float _ => none

def toNat? : JsonNumber → Option Nat
  | .integer n => if 0 ≤ n then some n.toNat else none
  | .float _ => none

def toBinary64 : JsonNumber → Binary64
  | .integer n => Binary64.ofInt n
  | .float x => x

end JsonNumber

inductive Json where
  | null
  | bool (b : Bool)
  | num (n : JsonNumber)
  | str (s : String)
  | arr (items : List Json)
  | obj (members : List (String × Json))
deriving Inhabited

namespace Json

/-- Puts a member into an object: in place of the one with the same key, or at the end. -/
def insert (key : String) (value : Json) : List (String × Json) → List (String × Json)
  | [] => [(key, value)]
  | (k, v) :: rest => if k = key then (k, value) :: rest else (k, v) :: insert key value rest

/-- An object of the given members, later ones winning. -/
def ofMembers (members : List (String × Json)) : Json :=
  .obj (members.foldl (fun acc m => insert m.1 m.2 acc) [])

def find? (key : String) : List (String × Json) → Option Json
  | [] => none
  | (k, v) :: rest => if k = key then some v else find? key rest

def get? (key : String) : Json → Option Json
  | .obj members => find? key members
  | _ => none

def str? : Json → Option String
  | .str s => some s
  | _ => none

def bool? : Json → Option Bool
  | .bool b => some b
  | _ => none

def nat? : Json → Option Nat
  | .num n => n.toNat?
  | _ => none

def int32? : Json → Option Int32
  | .num n => n.toInt64?.bind fun w => RowStream.int32? w.toInt
  | _ => none

def ofInt (n : Int) : Json := .num (.integer n)

/-- A floating-point number as a JSON number, `null` when it is not finite. -/
def ofBinary64 (x : Binary64) : Json :=
  match x.parts with
  | .finite .. => .num (.float x)
  | _ => .null

theorem find?_insert_self (key : String) (value : Json) (members : List (String × Json)) :
    find? key (insert key value members) = some value := by
  induction members with
  | nil => simp [insert, find?]
  | cons m rest ih =>
    obtain ⟨k, v⟩ := m
    by_cases h : k = key <;> simp [insert, find?, h, ih]

theorem find?_insert_of_ne {key other : String} (h : other ≠ key) (value : Json)
    (members : List (String × Json)) :
    find? other (insert key value members) = find? other members := by
  induction members with
  | nil => simp [insert, find?, h.symm]
  | cons m rest ih =>
    obtain ⟨k, v⟩ := m
    by_cases hk : k = key
    · subst hk
      simp [insert, find?, h.symm]
    · by_cases ho : k = other
      · subst ho
        simp [insert, find?, hk]
      · simp [insert, find?, hk, ho, ih]

end Json

end RowStream
