import PolicyForge.Data.Tree
import PolicyForge.Data.Yaml.Plain
/-!
# Decoding scalars, lists and alternatives

A decoder takes a tree to a value or to the first thing that is wrong with it.  What is accepted
depends a little on where the tree comes from, its `Origin`; everything else is the same for all.
-/
namespace PolicyForge.Data

/-- Where a tree comes from. -/
inductive Origin where
  /-- A JSON value in memory. -/
  | value
  | text
  | yaml
  /-- A part of one of these that was held back until it was known what it should be. -/
  | buffered
  deriving DecidableEq, Repr

/-- What was found where something else was expected. -/
inductive Found where
  | null
  | boolean (b : Bool)
  | integer (i : Int)
  | floating (bits : Nat)
  | string (s : String)
  | sequence
  | mapping
  /-- The bare name of an alternative. -/
  | unitVariant
  deriving DecidableEq, Repr

inductive DecodeError where
  | malformed
  | missingField (name : String)
  | duplicateField (name : String)
  | invalidType (found : Found) (expected : String)
  | invalidValue (found : Found) (expected : String)
  | invalidLength (length : Nat) (expected : String)
  | unknownVariant (name : String) (known : List String)
  /-- A literal that cannot be stored. -/
  | unsupported (value : String)
  deriving DecidableEq, Repr

def Found.text : Found → String
  | .null => "null"
  | .boolean b => "boolean `" ++ toString b ++ "`"
  | .integer i => "integer `" ++ toString i ++ "`"
  | .floating bits => "floating point `" ++ Number.dataStyle.text Number.double bits ++ "`"
  | .string s => "string " ++ Text.quoted s
  | .sequence => "sequence"
  | .mapping => "map"
  | .unitVariant => "unit variant"

def DecodeError.message : DecodeError → String
  | .malformed => "malformed text"
  | .missingField name => "missing field `" ++ name ++ "`"
  | .duplicateField name => "duplicate field `" ++ name ++ "`"
  | .invalidType found expected => "invalid type: " ++ found.text ++ ", expected " ++ expected
  | .invalidValue found expected => "invalid value: " ++ found.text ++ ", expected " ++ expected
  | .invalidLength n expected => "invalid length " ++ toString n ++ ", expected " ++ expected
  | .unknownVariant name known =>
    "unknown variant `" ++ name ++ "`, expected one of " ++
      String.intercalate ", " (known.map fun k => "`" ++ k ++ "`")
  | .unsupported value => "Unsupported registry value: " ++ value

abbrev Decoded (α : Type) := Except DecodeError α

abbrev Decoder (α : Type) := Origin → Tree → Decoded α

/-- What a tree is, for a message. -/
def Tree.found : Tree → Option Found
  | .null => some .null
  | .bool b => some (.boolean b)
  | .int i => some (.integer i)
  | .float bits => some (.floating bits)
  | .string s | .plain s => some (.string s)
  | .sequence _ => some .sequence
  | .mapping _ => some .mapping
  | .tagged _ t => t.found
  | .unreadable _ | .fault => none

/-- The refusal of a tree that is of the wrong type; one without a value is refused as malformed. -/
def wrongType {α : Type} (t : Tree) (expected : String) : Decoded α :=
  match t.found with
  | some found => .error (.invalidType found expected)
  | none => .error .malformed

namespace Decode

def string : Decoder String
  | _, .string s | _, .plain s => .ok s
  | _, .tagged _ (.string s) | _, .tagged _ (.plain s) => .ok s
  | _, t => wrongType t "a string"

def path : Decoder String
  | _, .string s | _, .plain s => .ok s
  | _, .tagged _ (.string s) | _, .tagged _ (.plain s) => .ok s
  | _, t => wrongType t "path string"

/-- The typed reading of a scalar that may be unquoted. -/
def scalar (t : Tree) : Tree :=
  match t with
  | .plain s | .tagged _ (.plain s) => Yaml.resolve s
  | t => t

def bool : Decoder Bool := fun _ t =>
  match scalar t with
  | .bool b => .ok b
  | t => wrongType t "a boolean"

def integer (lo hi : Int) (expected : String) : Decoder Int := fun _ t =>
  match scalar t with
  | .int i =>
    if lo ≤ i && i ≤ hi then .ok i else .error (.invalidValue (.integer i) expected)
  | t => wrongType t expected

/-- A natural number of the given width; an unquoted one has no minus sign. -/
def unsigned (bits : Nat) (expected : String) : Decoder Nat := fun o t =>
  let signed := match t with
    | .plain s | .tagged _ (.plain s) => s.startsWith "-"
    | _ => false
  if signed then wrongType t expected
  else (integer 0 (Int.pow 2 bits - 1) expected o t).map Int.toNat

def u16 : Decoder UInt16 := fun o t => (unsigned 16 "u16" o t).map Nat.toUInt16
def u32 : Decoder UInt32 := fun o t => (unsigned 32 "u32" o t).map Nat.toUInt32
def u64 : Decoder UInt64 := fun o t => (unsigned 64 "u64" o t).map Nat.toUInt64
def usize : Decoder UInt64 := fun o t => (unsigned 64 "usize" o t).map Nat.toUInt64
def i64 : Decoder Int := integer (-(Int.pow 2 63)) (Int.pow 2 63 - 1) "i64"

/-- The bits of a number in the given binary format. -/
def floating (f : Number.Format) (expected : String) : Decoder Nat := fun _ t =>
  match scalar t with
  | .float bits => .ok (if f == Number.double then bits else Number.double.convert f bits)
  | .int i => .ok (f.ofInt i)
  | t => wrongType t expected

/-- Nothing at all; a part that was held back may also be an empty mapping. -/
def unit : Decoder Unit := fun o t =>
  match o, scalar t with
  | _, .null => .ok ()
  | .buffered, .mapping [] => .ok ()
  | _, t => wrongType t "unit"

def optional {α : Type} (d : Decoder α) : Decoder (Option α) := fun o t =>
  match t with
  | .null => .ok none
  | .plain s => if s.isEmpty || Yaml.isNull s then .ok none else (d o t).map some
  | .tagged "tag:yaml.org,2002:null" (.plain s) =>
    if Yaml.isNull s then .ok none else .error (.invalidValue (.string s) "null")
  | _ => (d o t).map some

def items {α : Type} (d : Decoder α) (o : Origin) : List Tree → Decoded (List α)
  | [] => .ok []
  | t :: rest =>
    match d o t with
    | .error e => .error e
    | .ok a =>
      match items d o rest with
      | .error e => .error e
      | .ok as => .ok (a :: as)

/-- A list; an empty scalar of a YAML document is an empty list. -/
def list {α : Type} (d : Decoder α) : Decoder (List α) := fun o t =>
  match t with
  | .sequence ts | .tagged _ (.sequence ts) => items d o ts
  | .plain s => if s.isEmpty then .ok [] else wrongType t "a sequence"
  | t => wrongType t "a sequence"

/-! ## Alternatives -/

/-- What follows the name of an alternative. -/
inductive Body (α : Type) where
  | unit (a : α)
  | one (d : Decoder α)
  /-- Named fields, as `d` decodes them from a mapping. -/
  | record (d : Decoder α)

def select {α : Type} (alternatives : List (String × Body α)) (name : String) : Decoded (Body α) :=
  match alternatives.find? (·.1 == name) with
  | some (_, b) => .ok b
  | none => .error (.unknownVariant name (alternatives.map (·.1)))

/-- An alternative given by its bare name. -/
def bare {α : Type} : Body α → Decoded α
  | .unit a => .ok a
  | .one _ => .error (.invalidType .unitVariant "newtype variant")
  | .record _ => .error (.invalidType .unitVariant "struct variant")

/-- An alternative given with what follows its name. -/
def withBody {α : Type} (b : Body α) (o : Origin) (t : Tree) : Decoded α :=
  match b with
  | .unit a => (unit o t).map fun _ => a
  | .one d => d o t
  | .record d =>
    match o, t with
    | .value, .mapping _ => d o t
    | .value, t => wrongType t "struct variant"
    | .buffered, .mapping _ | .buffered, .sequence _ => d o t
    | .buffered, t => wrongType t "struct variant"
    | _, t => d o t

def variantName (options : List String) : Decoder String := fun o t =>
  match o, t with
  | _, .string s | _, .plain s | _, .tagged _ (.plain s) | _, .tagged _ (.string s) => .ok s
  | .buffered, .int i =>
    match options[i.toNat]? with
    | some s => if 0 ≤ i then .ok s else wrongType t "variant identifier"
    | none => wrongType t "variant identifier"
  | _, t => wrongType t "variant identifier"

/-- One of several alternatives: a bare name, or a mapping of one name to what follows it; in a
YAML document a tag takes the place of the mapping. -/
def alternative {α : Type} (alternatives : List (String × Body α)) : Decoder α := fun o t => do
  let options := alternatives.map (·.1)
  match o, t with
  | .yaml, .tagged tag inner =>
    if tag.startsWith "!" then
      let b ← select alternatives (if tag == "!" then tag else (tag.drop 1).toString)
      withBody b o inner
    else
      match inner with
      | .plain s | .string s => bare (← select alternatives s)
      | _ => wrongType inner "a tag"
  | .yaml, .plain s | .yaml, .string s => bare (← select alternatives s)
  | .yaml, _ => wrongType t "a tag"
  | .text, .mapping [] => .error .malformed
  | .text, .mapping ((k, v) :: rest) =>
    let b ← select alternatives (← variantName options o k)
    let a ← withBody b o v
    if rest.isEmpty then .ok a else .error .malformed
  | .text, .string s => bare (← select alternatives s)
  | .text, _ => .error .malformed
  | _, .string s => bare (← select alternatives s)
  | _, .mapping [(k, v)] =>
    let b ← select alternatives (← variantName options o k)
    withBody b o v
  | _, .mapping _ => .error (.invalidValue .mapping "map with a single key")
  | _, t => wrongType t "string or map"

end Decode

end PolicyForge.Data
