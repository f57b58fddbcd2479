import PolicyForge.Policy.Basic
import PolicyForge.Data.Record
/-!
# Policies from documents

The fields of each record are listed once by name and once, in the same order, by decoder.
-/
namespace PolicyForge

open Data Data.Fields

/-- A decimal: its text, or a number. -/
def decodeDecimal : Decoder Number.Decimal := fun _ t =>
  let expected := "a Decimal type representing a fixed-point number"
  match Decode.scalar t with
  | .int i => .ok (.ofInt i)
  | .float bits =>
    match Number.Decimal.ofDouble? bits with
    | some d => .ok d
    | none => .error (.invalidValue (.floating bits) expected)
  | .string s =>
    match Number.Decimal.ofText? s with
    | some d => .ok d
    | none => .error (.invalidValue (.string s) expected)
  | t => wrongType t expected

namespace Literal

def memberNames : List String := ["type_name", "member"]

def decodeMember : Decoder Literal := fun o t =>
  match t with
  | .mapping _ | .sequence _ =>
    Record.decode "struct variant Literal::Enum" memberNames
      (Literal.enum <$> needed "type_name" Decode.string <*> needed "member" Decode.string) o t
  | t => wrongType t "struct variant Literal::Enum"

/-- The kinds of literal by the names that documents give them. -/
def alternatives : List (String × Decode.Body Literal) :=
  [("bool", .one fun o t => (Decode.bool o t).map Literal.bool),
    ("char", .one fun o t => (Decode.u16 o t).map Literal.char),
    ("int", .one fun o t => (Decode.i64 o t).map Literal.int),
    ("u32", .one fun o t => (Decode.u32 o t).map Literal.u32),
    ("u64", .one fun o t => (Decode.u64 o t).map Literal.u64),
    ("f32", .one fun o t =>
      (Decode.floating Number.single "f32" o t).map fun b => .f32 b.toUInt32),
    ("f64", .one fun o t =>
      (Decode.floating Number.double "f64" o t).map fun b => .f64 b.toUInt64),
    ("decimal", .one fun o t => (decodeDecimal o t).map Literal.decimal),
    ("string", .one fun o t => (Decode.string o t).map Literal.string),
    ("enum", .record decodeMember),
    ("delete", .unit .delete)]

def decode : Decoder Literal := Decode.alternative alternatives

end Literal

/-- A registry value, by way of the literal that writes it. -/
def RegistryValue.decode : Decoder RegistryValue := fun o t =>
  match Literal.decode o t with
  | .error e => .error e
  | .ok l =>
    match RegistryValue.ofLiteral l with
    | .ok v => .ok v
    | .error text => .error (.unsupported text)

/-! ## Elements -/

/-- A key that may be absent. -/
def keyField : Fields (Option String) := withDefault "key" (Decode.optional Decode.string) none

/-- A choice that is off unless it is made. -/
def flag (name : String) : Fields Bool := withDefault name Decode.bool false

/-- The longest text that a text element takes unless it says otherwise. -/
def defaultMaxLength : UInt32 := 1023

def BooleanElement.decode : Decoder BooleanElement :=
  Record.decode "struct BooleanElement" ["id", "key", "value_name", "true_value", "false_value"]
    (BooleanElement.mk <$> needed "id" Decode.string <*> keyField
      <*> needed "value_name" Decode.string
      <*> withDefault "true_value" RegistryValue.decode (.decimal 1)
      <*> withDefault "false_value" RegistryValue.decode (.decimal 0))

def DecimalElement.decode : Decoder DecimalElement :=
  Record.decode "struct DecimalElement"
    ["id", "key", "value_name", "required", "min_value", "max_value", "store_as_text", "soft"]
    (DecimalElement.mk <$> needed "id" Decode.string <*> keyField
      <*> needed "value_name" Decode.string <*> flag "required"
      <*> withDefault "min_value" Decode.u32 0 <*> withDefault "max_value" Decode.u32 4294967295
      <*> flag "store_as_text" <*> flag "soft")

def LongDecimalElement.decode : Decoder LongDecimalElement :=
  Record.decode "struct LongDecimalElement"
    ["id", "key", "value_name", "required", "min_value", "max_value", "store_as_text", "soft"]
    (LongDecimalElement.mk <$> needed "id" Decode.string <*> keyField
      <*> needed "value_name" Decode.string <*> flag "required"
      <*> withDefault "min_value" Decode.u64 0
      <*> withDefault "max_value" Decode.u64 18446744073709551615
      <*> flag "store_as_text" <*> flag "soft")

def EnumerationItem.decode : Decoder EnumerationItem :=
  Record.decode "struct EnumerationItem" ["id", "display_name", "value"]
    (EnumerationItem.mk <$> needed "id" Decode.string <*> needed "display_name" Decode.string
      <*> needed "value" RegistryValue.decode)

def EnumerationElement.decode : Decoder EnumerationElement :=
  Record.decode "struct EnumerationElement" ["id", "key", "value_name", "required", "items"]
    (EnumerationElement.mk <$> needed "id" Decode.string <*> keyField
      <*> needed "value_name" Decode.string <*> flag "required"
      <*> needed "items" (Decode.list EnumerationItem.decode))

def ListElement.decode : Decoder ListElement :=
  Record.decode "struct ListElement"
    ["id", "key", "value_prefix", "additive", "explicit_value", "expandable"]
    (ListElement.mk <$> needed "id" Decode.string <*> keyField
      <*> withDefault "value_prefix" (Decode.optional Decode.string) none
      <*> flag "additive" <*> flag "explicit_value" <*> flag "expandable")

def MultiTextElement.decode : Decoder MultiTextElement :=
  Record.decode "struct MultiTextElement"
    ["id", "key", "value_name", "required", "max_length", "max_strings"]
    (MultiTextElement.mk <$> needed "id" Decode.string <*> keyField
      <*> needed "value_name" Decode.string <*> flag "required"
      <*> withDefault "max_length" Decode.u32 defaultMaxLength
      <*> withDefault "max_strings" Decode.u32 0)

def TextElement.decode : Decoder TextElement :=
  Record.decode "struct TextElement"
    ["id", "key", "value_name", "required", "max_length", "expandable"]
    (TextElement.mk <$> needed "id" Decode.string <*> keyField
      <*> needed "value_name" Decode.string <*> flag "required"
      <*> withDefault "max_length" Decode.u32 defaultMaxLength <*> flag "expandable")

namespace Element

def decodeAs : ElementKind → Decoder Element
  | .boolean => fun o t => (BooleanElement.decode o t).map Element.boolean
  | .decimal => fun o t => (DecimalElement.decode o t).map Element.decimal
  | .longDecimal => fun o t => (LongDecimalElement.decode o t).map Element.longDecimal
  | .enumeration => fun o t => (EnumerationElement.decode o t).map Element.enumeration
  | .list => fun o t => (ListElement.decode o t).map Element.list
  | .multiText => fun o t => (MultiTextElement.decode o t).map Element.multiText
  | .text => fun o t => (TextElement.decode o t).map Element.text

def decodeKind : Decoder ElementKind := fun o t =>
  match Decode.variantName (ElementKind.all.map ElementKind.tag) o t with
  | .error e => .error e
  | .ok name => (Decode.select (ElementKind.all.map fun k => (k.tag, Decode.Body.unit k)) name).bind
      Decode.bare

/-- How many containers deep a part may still go that is held back from a document of policies. -/
def room : Origin → Nat
  | .yaml => 125
  | _ => 124

/-- A part that is held back until its kind is known, if it is readable. -/
def heldBack (o : Origin) (t : Tree) : Decoded Tree :=
  let t := match o with
    | .value | .buffered => t
    | .text => t.limitDepth (room o)
    | .yaml => (Yaml.settle t).limitDepth (room o)
  if t.isReadable then .ok t else .error .malformed

/-- The kind among the entries of a mapping, and the other entries. -/
def splitKind (o : Origin) : List (Tree × Tree) → Option ElementKind → List (Tree × Tree) →
    Decoded (ElementKind × List (Tree × Tree))
  | [], none, _ => .error (.missingField "kind")
  | [], some k, others => .ok (k, others.reverse)
  | (key, value) :: rest, found, others =>
    match heldBack o key with
    | .error e => .error e
    | .ok (.string "kind") =>
      match found with
      | some _ => .error (.duplicateField "kind")
      | none =>
        match decodeKind o value with
        | .error e => .error e
        | .ok k => splitKind o rest (some k) others
    | .ok key =>
      match heldBack o value with
      | .error e => .error e
      | .ok value => splitKind o rest found ((key, value) :: others)

/-- The items of a sequence, held back. -/
def heldBackItems (o : Origin) (items : List Tree) : Decoded (List Tree) :=
  items.mapM (heldBack o)

/-- An element: a mapping with its kind among the entries, or a sequence with its kind first. -/
def decode : Decoder Element := fun o t =>
  match t with
  | .mapping entries =>
    match splitKind o entries none [] with
    | .error e => .error e
    | .ok (k, others) => decodeAs k .buffered (.mapping others)
  | .sequence [] => .error (.missingField "kind")
  | .sequence (first :: rest) =>
    match decodeKind o first with
    | .error e => .error e
    | .ok k =>
      match heldBackItems o rest with
      | .error e => .error e
      | .ok items => decodeAs k .buffered (.sequence items)
  | .tagged tag inner =>
    if tag.startsWith "!" then wrongType inner "internally tagged enum ElementItem"
    else
      match inner with
      | .mapping entries =>
        match splitKind o entries none [] with
        | .error e => .error e
        | .ok (k, others) => decodeAs k .buffered (.mapping others)
      | t => wrongType t "internally tagged enum ElementItem"
  | t => wrongType t "internally tagged enum ElementItem"

end Element

/-! ## Policies -/

def PolicyClass.decode : Decoder PolicyClass :=
  Decode.alternative [("user", .unit .user), ("machine", .unit .machine), ("both", .unit .both)]

namespace Policy

def fieldNames : List String :=
  ["name", "display_name", "explain_text", "namespace", "supported_on", "class", "key",
    "value_name", "enabled_value", "disabled_value", "elements"]

def optionalText (name : String) : Fields (Option String) :=
  withDefault name (Decode.optional Decode.string) none

def optionalValue (name : String) : Fields (Option RegistryValue) :=
  withDefault name (Decode.optional RegistryValue.decode) none

def decode : Decoder Policy :=
  Record.decode "struct Policy" fieldNames
    (Policy.mk <$> needed "name" Decode.string <*> withDefault "display_name" Decode.string ""
      <*> optionalText "explain_text" <*> needed "namespace" Decode.string
      <*> optionalText "supported_on" <*> withDefault "class" PolicyClass.decode .machine
      <*> needed "key" Decode.string <*> optionalText "value_name"
      <*> optionalValue "enabled_value" <*> optionalValue "disabled_value"
      <*> withDefault "elements" (Decode.list Element.decode) [])

end Policy

end PolicyForge
