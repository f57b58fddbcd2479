import PolicyForge.Template.Basic
/-!
# The template of a policy

The generated class of one policy, as a template over the policy's context.
-/
namespace PolicyForge.Source

open Template

def text (s : String) : Node := .text s

def plain (field : String) : Node := .put (.field field)

def put (helper field : String) : Node := .put (.call helper (.field field))

def lit (field : String) : Node := put "literal" field

/-- A registry value that is known to be there: the deletion mark is null. -/
def valueNodes (field : String) : List Node :=
  [.cond (.call "is_delval" (.field field)) [text "null"] [lit field]]

/-- The value of a state, with the numeral that stands for an absent one. -/
def stateNodes (field numeral : String) : List Node :=
  [.cond (.call "is_delval" (.field field)) [text "null"]
    [.cond (.field field) [lit field] [text numeral]]]

def commaSeparated : List (List Node) → List Node
  | [] => []
  | [ns] => ns
  | ns :: rest => ns ++ text ", " :: commaSeparated rest

/-- The start of a property that holds an element: its declaration up to the arguments. -/
def propertyStart (className : String) : List Node :=
  [text "\npublic ", plain "runtime", text ("." ++ className ++ " "), put "escape_identifier" "id",
    text "Element \x7b get; \x7d = new ", plain "runtime", text ("." ++ className ++ "(")]

def property (className : String) (arguments : List (List Node)) : List Node :=
  propertyStart className ++ commaSeparated arguments ++ [text ");\n"]

/-- What is shown for elements of one kind. -/
def elementBlock (k : ElementKind) (body : List Node) : Node :=
  .cond (.call (questionName k) .self) [.within (.call (castName k) .self) body] []

def booleanBlock : Node :=
  elementBlock .boolean <| property "BooleanElement"
    [[lit "id"], [lit "key"], [lit "value_name"], valueNodes "true_value", valueNodes "false_value"]

def decimalBlock : Node :=
  elementBlock .decimal <| property "DecimalElement"
    [[lit "id"], [lit "key"], [lit "value_name"], [lit "required"], [put "u32" "min_value"],
      [put "u32" "max_value"], [lit "store_as_text"]]

def longDecimalBlock : Node :=
  elementBlock .longDecimal <| property "LongDecimalElement"
    [[lit "id"], [lit "key"], [lit "value_name"], [lit "required"], [put "u64" "min_value"],
      [put "u64" "max_value"], [lit "store_as_text"]]

/-- The enumeration of an element's items, and the property with the value of each. -/
def enumerationBlock : Node :=
  elementBlock .enumeration <|
    [text "\npublic enum ", put "escape_type" "id", text "Option\n\x7b\n",
      .each "items" [put "escape_identifier" "id", text ",\n"], text "\x7d\n"] ++
    propertyStart "EnumerationElement" ++
    commaSeparated [[lit "id"], [lit "key"], [lit "value_name"], [lit "required"],
      [text "new global::System.Collections.Generic.Dictionary<string, object>\n\x7b\n"]] ++
    [.each "items" ([text "\x7b ", .put (.call "literal" (.call "escape_identifier" (.field "id"))),
        text ", "] ++ valueNodes "value" ++ [text " \x7d,\n"]),
      text "\x7d);\n"]

def listBlock : Node :=
  elementBlock .list <| property "ListElement"
    [[lit "id"], [lit "key"], [lit "value_prefix"], [lit "additive"], [lit "explicit_value"],
      [lit "expandable"]]

def multiTextBlock : Node :=
  elementBlock .multiText <| property "MultiTextElement"
    [[lit "id"], [lit "key"], [lit "value_name"], [lit "required"], [put "u32" "max_length"],
      [put "u32" "max_strings"]]

def textBlock : Node :=
  elementBlock .text <| property "TextElement"
    [[lit "id"], [lit "key"], [lit "value_name"], [lit "required"], [put "u32" "max_length"],
      [lit "expandable"]]

/-- The blocks of the seven kinds; of an element exactly one of them shows something. -/
def elementBlocks : List Node :=
  [booleanBlock, decimalBlock, longDecimalBlock, enumerationBlock, listBlock, multiTextBlock,
    textBlock]

def importNode : Node := .each "using_references" [.put .self, text "\n"]

/-- The namespace of a policy with its class. -/
def policyTemplate : List Node :=
  [text "namespace ", put "escape_namespace" "namespace", text "\n\x7b\n", importNode,
    text "\n/// <summary>\n", put "escape_xmldoc" "display_name", text "\n/// </summary>\n",
    .cond (.field "explain_text")
      [text "/// <remarks>\n", put "escape_xmldoc" "explain_text", text "\n/// </remarks>\n"] [],
    text "public sealed partial class ", put "escape_type" "name", text " : ", plain "runtime",
    text ".PolicyBase\n\x7b\npublic ", put "escape_type" "name", text "()\n: base(",
    plain "runtime", text ".PolicyClass.", plain "class_member", text ", "] ++
  commaSeparated [[lit "key"], [lit "value_name"], stateNodes "enabled_value" "1u",
    stateNodes "disabled_value" "0u"] ++
  [text ")\n\x7b\n\x7d\n\npublic override string DisplayName => ", lit "display_name",
    text ";\n\npublic override string ResourceId => ",
    .put (.call "literal" (.call "ref_id" (.field "display_name"))),
    text ";\n\npublic override string SupportedOn => ", lit "supported_on", text ";\n",
    .each "elements" elementBlocks,
    text "\npublic override global::System.Collections.Generic.IReadOnlyList<", plain "runtime",
    text ".IPolicyElement> Elements => new ", plain "runtime", text ".IPolicyElement[]\n\x7b\n",
    .each "elements" [put "escape_identifier" "id", text "Element,\n"],
    text "\x7d;\n\x7d\n\x7d\n"]

end PolicyForge.Source
