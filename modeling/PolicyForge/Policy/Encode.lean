import PolicyForge.Policy.Basic
import PolicyForge.Data.Json
/-!
# Policies as JSON

Fields stand in ascending order of their names, as in every JSON object of this library.  Absent
values are written as null.
-/
namespace PolicyForge

open Data

def textOrNull (s : Option String) : Json := Json.ofOption Json.string s

/-- A literal as JSON: the name of its kind with its content, or the bare name of the deletion
mark. -/
def Literal.toJson : Literal → Json
  | .bool b => .object [("bool", .bool b)]
  | .char unit => .object [("char", .int unit.toNat)]
  | .int i => .object [("int", .int i)]
  | .u32 n => .object [("u32", .int n.toNat)]
  | .u64 n => .object [("u64", .int n.toNat)]
  | .f32 bits => .object [("f32", .float (Number.single.convert Number.double bits.toNat))]
  | .f64 bits => .object [("f64", .float bits.toNat)]
  | .decimal d => .object [("decimal", .string d.text)]
  | .string s => .object [("string", .string s)]
  | .enum typeName member =>
    .object [("enum", .object [("member", .string member), ("type_name", .string typeName)])]
  | .delete => .string "delete"

def RegistryValue.toJson (v : RegistryValue) : Json := v.toLiteral.toJson

def EnumerationItem.toJson (i : EnumerationItem) : Json :=
  .object [("display_name", .string i.displayName), ("id", .string i.id), ("value", i.value.toJson)]

namespace Element

def fields : Element → List (String × Json)
  | .boolean e =>
    [("false_value", e.falseValue.toJson), ("id", .string e.id), ("key", textOrNull e.key),
      ("true_value", e.trueValue.toJson), ("value_name", .string e.valueName)]
  | .decimal e =>
    [("id", .string e.id), ("key", textOrNull e.key), ("max_value", .int e.maxValue.toNat),
      ("min_value", .int e.minValue.toNat), ("required", .bool e.required), ("soft", .bool e.soft),
      ("store_as_text", .bool e.storeAsText), ("value_name", .string e.valueName)]
  | .longDecimal e =>
    [("id", .string e.id), ("key", textOrNull e.key), ("max_value", .int e.maxValue.toNat),
      ("min_value", .int e.minValue.toNat), ("required", .bool e.required), ("soft", .bool e.soft),
      ("store_as_text", .bool e.storeAsText), ("value_name", .string e.valueName)]
  | .enumeration e =>
    [("id", .string e.id), ("items", .array (e.items.map EnumerationItem.toJson)),
      ("key", textOrNull e.key), ("required", .bool e.required),
      ("value_name", .string e.valueName)]
  | .list e =>
    [("additive", .bool e.additive), ("expandable", .bool e.expandable),
      ("explicit_value", .bool e.explicitValue), ("id", .string e.id), ("key", textOrNull e.key),
      ("value_prefix", textOrNull e.valuePrefix)]
  | .multiText e =>
    [("id", .string e.id), ("key", textOrNull e.key), ("max_length", .int e.maxLength.toNat),
      ("max_strings", .int e.maxStrings.toNat), ("required", .bool e.required),
      ("value_name", .string e.valueName)]
  | .text e =>
    [("expandable", .bool e.expandable), ("id", .string e.id), ("key", textOrNull e.key),
      ("max_length", .int e.maxLength.toNat), ("required", .bool e.required),
      ("value_name", .string e.valueName)]

/-- An element without its kind. -/
def content (e : Element) : Json := .object e.fields

/-- An element, with its kind among its fields. -/
def toJson (e : Element) : Json :=
  .object (Json.insertField "kind" (.string e.kind.tag) e.fields)

end Element

def Policy.toJson (p : Policy) : Json :=
  .object
    [("class", .string p.policyClass.tag),
      ("disabled_value", Json.ofOption RegistryValue.toJson p.disabledValue),
      ("display_name", .string p.displayName),
      ("elements", .array (p.elements.map Element.toJson)),
      ("enabled_value", Json.ofOption RegistryValue.toJson p.enabledValue),
      ("explain_text", textOrNull p.explainText),
      ("key", .string p.key),
      ("name", .string p.name),
      ("namespace", .string p.namespacePath),
      ("supported_on", textOrNull p.supportedOn),
      ("value_name", textOrNull p.valueName)]

end PolicyForge
