import PolicyForge.Proofs.Template.Evaluation
import PolicyForge.Source.Rendering
/-!
# The pieces of a block

A block is fixed text with names, values and comments in between.  `blockPieces` says which, in
their order.  Nothing of a policy gets into a block but through one of the pieces, and of its
strings each has one kind of piece that it is written as.
-/
namespace PolicyForge

def ElementKind.className : ElementKind → String
  | .boolean => "BooleanElement"
  | .decimal => "DecimalElement"
  | .longDecimal => "LongDecimalElement"
  | .enumeration => "EnumerationElement"
  | .list => "ListElement"
  | .multiText => "MultiTextElement"
  | .text => "TextElement"

namespace Source

open Data Template

/-! ## Pieces -/

/-- A part of a block. -/
inductive Piece where
  /-- Text of the template. -/
  | fixed (s : String)
  /-- The path of the support code of an assembly. -/
  | support (assembly : String)
  /-- A dotted name. -/
  | path (s : String)
  | typeName (s : String)
  | memberName (s : String)
  /-- A value as a literal. -/
  | value (v : RegistryValue)
  | flag (b : Bool)
  /-- The lines of a documentation comment. -/
  | comment (s : String)
  deriving DecidableEq, Repr

def Piece.string : Piece → String
  | .fixed s => s
  | .support assembly => supportPath (namespaceName assembly)
  | .path s => namespaceName s
  | .typeName s => Source.typeName s
  | .memberName s => Source.memberName s
  | .value v => literal v.toLiteral
  | .flag b => literal (.bool b)
  | .comment s => docComment s

def written : List Piece → String
  | [] => ""
  | p :: ps => p.string ++ written ps

theorem written_append : ∀ (ps qs : List Piece), written (ps ++ qs) = written ps ++ written qs
  | [], qs => by simp [written]
  | p :: ps, qs => by
    rw [List.cons_append, written, written, written_append ps qs, String.append_assoc]

/-- Pieces with commas between them. -/
def argumentPieces : List Piece → List Piece
  | [] => []
  | [p] => [p]
  | p :: ps => p :: .fixed ", " :: argumentPieces ps

/-! ## The pieces of a block -/

def elementArguments (p : Policy) (e : Element) : List Piece :=
  .value (.string e.id) :: .value (.string (p.elementKey e)) ::
    match e with
    | .boolean e => [.value (.string e.valueName), .value e.trueValue, .value e.falseValue]
    | .decimal e =>
      [.value (.string e.valueName), .flag e.required, .value (.decimal e.minValue),
        .value (.decimal e.maxValue), .flag e.storeAsText]
    | .longDecimal e =>
      [.value (.string e.valueName), .flag e.required, .value (.longDecimal e.minValue),
        .value (.longDecimal e.maxValue), .flag e.storeAsText]
    | .enumeration e =>
      [.value (.string e.valueName), .flag e.required,
        .fixed "new global::System.Collections.Generic.Dictionary<string, object>\n\x7b\n"]
    | .list e =>
      [.value (.ofText? e.valuePrefix), .flag e.additive, .flag e.explicitValue,
        .flag e.expandable]
    | .multiText e =>
      [.value (.string e.valueName), .flag e.required, .value (.decimal e.maxLength),
        .value (.decimal e.maxStrings)]
    | .text e =>
      [.value (.string e.valueName), .flag e.required, .value (.decimal e.maxLength),
        .flag e.expandable]

/-- The start of a property that holds an element, up to the arguments. -/
def propertyPieces (assembly : String) (e : Element) : List Piece :=
  [.fixed "\npublic ", .support assembly, .fixed ".", .fixed e.kind.className, .fixed " ",
    .memberName e.id, .fixed "Element \x7b get; \x7d = new ", .support assembly, .fixed ".",
    .fixed e.kind.className, .fixed "("]

/-- The name of an item, as it stands in the enumeration. -/
def optionPieces (i : EnumerationItem) : List Piece := [.memberName i.id, .fixed ",\n"]

/-- An item with its value, as it stands in the dictionary. -/
def entryPieces (i : EnumerationItem) : List Piece :=
  [.fixed "\x7b ", .value (.string (Source.memberName i.id)), .fixed ", ", .value i.value,
    .fixed " \x7d,\n"]

/-- An element: its property, and in front of it the enumeration of its items if it has any. -/
def elementPieces (assembly : String) (p : Policy) (e : Element) : List Piece :=
  let property := propertyPieces assembly e ++ argumentPieces (elementArguments p e)
  match e with
  | .enumeration n =>
    [Piece.fixed "\npublic enum ", .typeName n.id, .fixed "Option\n\x7b\n"] ++
      n.items.flatMap optionPieces ++ Piece.fixed "\x7d\n" :: property ++
      n.items.flatMap entryPieces ++ [Piece.fixed "\x7d);\n"]
  | _ => property ++ [Piece.fixed ");\n"]

/-- The explanation of a policy, if it has one. -/
def remarkPieces : Option String → List Piece
  | some s =>
    if s.isEmpty then []
    else [.fixed "/// <remarks>\n", .comment s, .fixed "\n/// </remarks>\n"]
  | none => []

def importPieces : List Piece :=
  importedNamespaces.flatMap fun n => [.fixed "using global::", .fixed n, .fixed ";\n"]

def headPieces (assembly : String) (p : Policy) : List Piece :=
  [Piece.fixed "namespace ", .path p.namespacePath, .fixed "\n\x7b\n"] ++ importPieces ++
  [Piece.fixed "\n/// <summary>\n", .comment p.displayName, .fixed "\n/// </summary>\n"] ++
  remarkPieces p.explainText ++
  [Piece.fixed "public sealed partial class ", .typeName p.name, .fixed " : ", .support assembly,
    .fixed ".PolicyBase\n\x7b\npublic ", .typeName p.name, .fixed "()\n: base(",
    .support assembly, .fixed ".PolicyClass."]

/-- What a policy writes and where. -/
def stateArguments (p : Policy) : List Piece :=
  [.value (.string p.key), .value (.ofText? p.valueName),
    .value (p.enabledValue.getD (.decimal 1)), .value (p.disabledValue.getD (.decimal 0))]

/-- The properties that every policy has. -/
def propertiesPieces (p : Policy) : List Piece :=
  [.fixed ")\n\x7b\n\x7d\n\npublic override string DisplayName => ",
    .value (.string p.displayName), .fixed ";\n\npublic override string ResourceId => ",
    .value (.string (referenceKey p.displayName)),
    .fixed ";\n\npublic override string SupportedOn => ", .value (.ofText? p.supportedOn),
    .fixed ";\n"]

/-- The list of the elements of a policy, and the end of a block. -/
def tailPieces (assembly : String) (p : Policy) : List Piece :=
  [Piece.fixed "\npublic override global::System.Collections.Generic.IReadOnlyList<",
    .support assembly, .fixed ".IPolicyElement> Elements => new ", .support assembly,
    .fixed ".IPolicyElement[]\n\x7b\n"] ++
  p.elements.flatMap (fun e => [Piece.memberName e.id, .fixed "Element,\n"]) ++
  [Piece.fixed "\x7d;\n\x7d\n\x7d\n"]

def blockPieces (assembly : String) (p : Policy) : List Piece :=
  headPieces assembly p ++ [Piece.fixed p.policyClass.memberName, .fixed ", "] ++
    argumentPieces (stateArguments p) ++
    (propertiesPieces p ++ p.elements.flatMap (elementPieces assembly p) ++
      tailPieces assembly p)

end Source

end PolicyForge
