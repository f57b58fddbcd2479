import PolicyForge.Data.Decode
/-!
# Decoding records

A record is decoded from a mapping of its field names or from a sequence of its fields in order.
Every field is looked up and decoded by itself and reports where in the document it failed; of all
failures the earliest stands, and a field that is missing fails after everything that is there.
This is what reading the entries one after the other would find.
-/
namespace PolicyForge.Data

/-- An entry of a mapping: the field that its key names, or why the key names none. -/
structure Entry where
  key : Decoded String
  value : Tree

/-- The entries from which a record is decoded. -/
structure Entries where
  origin : Origin
  /-- Whether the entries come with names, or by their position. -/
  named : Bool
  record : String
  /-- The fields of the record in order. -/
  names : List String
  entries : List Entry

/-- A failure, with the position of the entry that it is about. -/
abbrev Fault := Nat × DecodeError

def Fields (α : Type) : Type := Entries → Except Fault α

namespace Fields

/-- The decoding of a field and that of the others: the earlier failure stands. -/
def apply {α β : Type} (f : Fields (α → β)) (a : Fields α) : Fields β := fun es =>
  match f es, a es with
  | .ok f, .ok a => .ok (f a)
  | .ok _, .error e => .error e
  | .error e, .ok _ => .error e
  | .error e, .error e' => .error (if e'.1 < e.1 then e' else e)

def map {α β : Type} (f : α → β) (a : Fields α) : Fields β := fun es => (a es).map f

instance : Functor Fields where
  map := map

instance : Seq Fields where
  seq f a := apply f (a ())

/-- The positions and values of the entries called `name`, counting from `i`. -/
def occurrences (name : String) (i : Nat) : List Entry → List (Nat × Tree)
  | [] => []
  | e :: rest =>
    match e.key with
    | .ok k =>
      if k == name then (i, e.value) :: occurrences name (i + 1) rest
      else occurrences name (i + 1) rest
    | .error _ => occurrences name (i + 1) rest

/-- A field that may occur once; `absent` says what it is if it does not. -/
def field {α : Type} (name : String) (d : Decoder α) (absent : Entries → Decoded α) : Fields α :=
  fun es =>
    match occurrences name 0 es.entries with
    | [] =>
      match absent es with
      | .ok a => .ok a
      | .error e => .error (es.entries.length, e)
    | (i, t) :: rest =>
      match d es.origin t, rest with
      | .error e, _ => .error (i, e)
      | .ok a, [] => .ok a
      | .ok _, (j, _) :: _ => .error (j, .duplicateField name)

/-- The failure of a field that is not there.  A sequence that ends before the field is as long as
the fields before it, the ones with a value of their own included. -/
def missing {α : Type} (name : String) (es : Entries) : Decoded α :=
  if es.named then .error (.missingField name)
  else
    .error (.invalidLength (es.names.idxOf name)
      (es.record ++ " with " ++ toString es.names.length ++ " elements"))

/-- A field that has to be there. -/
def needed {α : Type} (name : String) (d : Decoder α) : Fields α := field name d (missing name)

/-- A field that has a value of its own if it is not there. -/
def withDefault {α : Type} (name : String) (d : Decoder α) (a : α) : Fields α :=
  field name d fun _ => .ok a

/-- A field that may be missing from a mapping but not from a sequence. -/
def nullable {α : Type} (name : String) (d : Decoder α) : Fields (Option α) :=
  field name (Decode.optional d) fun es => if es.named then .ok none else missing name es

end Fields

namespace Record

def fieldName (names : List String) (o : Origin) : Tree → Decoded String
  | .string s | .plain s | .tagged _ (.plain s) | .tagged _ (.string s) => .ok s
  | .int i =>
    if o == .buffered && 0 ≤ i then .ok ((names[i.toNat]?).getD "")
    else wrongType (.int i) "field identifier"
  | .fault | .unreadable _ => .error .malformed
  | t => if o == .text then .error .malformed else wrongType t "field identifier"

/-- The first failure that no field reports: a key that names nothing, or malformed text in an
entry that is skipped. -/
def strayFault (names : List String) (i : Nat) : List Entry → Option Fault
  | [] => none
  | e :: rest =>
    match e.key with
    | .error err => some (i, err)
    | .ok k =>
      if !names.contains k && e.value.hasFault then some (i, .malformed)
      else strayFault names (i + 1) rest

/-- What is wrong with the items after those that the fields take. -/
def surplus (o : Origin) (width : Nat) (items : List Tree) : Option DecodeError :=
  if items.length ≤ width then none
  else
    match o with
    | .value => some (.invalidLength items.length "fewer elements in array")
    | .buffered =>
      some (.invalidLength items.length
        (if width == 1 then "1 element in sequence" else toString width ++ " elements in sequence"))
    | .text | .yaml => some .malformed

/-- A record called `record`, whose fields in order are `names`. -/
def decode {α : Type} (record : String) (names : List String) (fields : Fields α) : Decoder α :=
  fun o t =>
    let fromMapping (es : List (Tree × Tree)) : Decoded α :=
      let entries := es.map fun e => ⟨fieldName names o e.1, e.2⟩
      match fields ⟨o, true, record, names, entries⟩, strayFault names 0 entries with
      | .ok a, none => .ok a
      | .ok _, some f => .error f.2
      | .error f, none => .error f.2
      | .error f, some f' => .error (if f'.1 < f.1 then f' else f).2
    let fromSequence (items : List Tree) : Decoded α :=
      let entries := (names.zip items).map fun e => ⟨.ok e.1, e.2⟩
      match fields ⟨o, false, record, names, entries⟩ with
      | .error f => .error f.2
      | .ok a =>
        match surplus o names.length items with
        | none => .ok a
        | some e => .error e
    match o, t with
    | _, .mapping es => fromMapping es
    | .yaml, .tagged _ (.mapping es) => fromMapping es
    | .yaml, .plain "" => fromMapping []
    | .yaml, t => wrongType t record
    | _, .sequence items => fromSequence items
    | _, t => wrongType t record

end Record

end PolicyForge.Data
