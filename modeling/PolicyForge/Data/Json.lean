import PolicyForge.Number.Style
import PolicyForge.Text.Quoted
/-!
# JSON values

An object is the list of its fields in ascending order of their names, each name once:
`insertField` keeps that order and replaces a field that is already there.  Floating-point numbers
are held by their bits, so `-0.0` and `1.0` are values of their own.
-/
namespace PolicyForge.Data

inductive Json where
  | null
  | bool (b : Bool)
  | int (i : Int)
  | float (bits : Nat)
  | string (s : String)
  | array (items : List Json)
  | object (fields : List (String × Json))
  deriving Inhabited, Repr, BEq

namespace Json

/-- The fields with `name` set to `value`, in their place in the order of names. -/
def insertField (name : String) (value : Json) : List (String × Json) → List (String × Json)
  | [] => [(name, value)]
  | (k, v) :: rest =>
    if name < k then (name, value) :: (k, v) :: rest
    else if name == k then (name, value) :: rest
    else (k, v) :: insertField name value rest

/-- The object of the given fields; of two with one name the later stands. -/
def ofFields (fields : List (String × Json)) : Json :=
  .object (fields.foldl (fun acc f => insertField f.1 f.2 acc) [])

/-- The value of the first field called `name`. -/
def lookup (name : String) : List (String × Json) → Option Json
  | [] => none
  | (k, v) :: rest => if k == name then some v else lookup name rest

def field? (j : Json) (name : String) : Option Json :=
  match j with
  | .object fields => lookup name fields
  | _ => none

/-- The object with the field `name` set; anything else is left as it is. -/
def setField (j : Json) (name : String) (value : Json) : Json :=
  match j with
  | .object fields => .object (insertField name value fields)
  | j => j

def string? : Json → Option String
  | .string s => some s
  | _ => none

/-- An optional value: absent is null. -/
def ofOption {α : Type} (f : α → Json) : Option α → Json
  | none => .null
  | some a => f a

theorem lookup_insertField_self (name : String) (value : Json) : ∀ (fields : List (String × Json)),
    lookup name (insertField name value fields) = some value
  | [] => by simp [insertField, lookup]
  | (k, v) :: rest => by
    unfold insertField
    split
    · simp [lookup]
    · split
      · simp [lookup]
      · rename_i h
        have : (k == name) = false := by
          rw [Bool.eq_false_iff]; intro hk; exact h (by rw [beq_iff_eq] at hk ⊢; exact hk.symm)
        simp [lookup, this, lookup_insertField_self name value rest]

theorem lookup_insertField_of_ne {name other : String} (value : Json) (h : name ≠ other) :
    ∀ (fields : List (String × Json)),
      lookup other (insertField name value fields) = lookup other fields
  | [] => by simp [insertField, lookup, h]
  | (k, v) :: rest => by
    unfold insertField
    split
    · simp [lookup, h]
    · split
      · rename_i hk
        have hk : name = k := by simpa using hk
        subst hk
        simp [lookup, h]
      · by_cases hk : k = other
        · simp [lookup, hk]
        · simp [lookup, hk, lookup_insertField_of_ne value h rest]

/-! ## Compact text -/

def writeChar (c : Char) : List Char :=
  if c == '"' then ['\\', '"']
  else if c == '\\' then ['\\', '\\']
  else if c == '\x08' then ['\\', 'b']
  else if c == '\x0C' then ['\\', 'f']
  else if c == '\n' then ['\\', 'n']
  else if c == '\r' then ['\\', 'r']
  else if c == '\t' then ['\\', 't']
  else if c.toNat < 0x20 then
    "\\u00".toList ++ (if c.toNat < 0x10 then ['0'] else []) ++ Text.hexDigits c.toNat
  else [c]

def writeString (s : String) : List Char := '"' :: s.toList.flatMap writeChar ++ ['"']

mutual

/-- The text of a value, without blanks. -/
def write : Json → List Char
  | .null => "null".toList
  | .bool b => (toString b).toList
  | .int i => (toString i).toList
  | .float bits => (Number.dataStyle.text Number.double bits).toList
  | .string s => writeString s
  | .array items => '[' :: writeItems items ++ [']']
  | .object fields => '\x7b' :: writeFields fields ++ ['\x7d']

def writeItems : List Json → List Char
  | [] => []
  | [j] => write j
  | j :: rest => write j ++ ',' :: writeItems rest

def writeFields : List (String × Json) → List Char
  | [] => []
  | [(k, v)] => writeString k ++ ':' :: write v
  | (k, v) :: rest => writeString k ++ ':' :: write v ++ ',' :: writeFields rest

end

def text (j : Json) : String := String.ofList j.write

end Json

end PolicyForge.Data
