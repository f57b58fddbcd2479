import PolicyForge.Policy.Decode
import PolicyForge.Source.Comment
import PolicyForge.Source.Literal
import PolicyForge.Source.Reference
/-!
# Template helpers

A helper is called by name with the values of its arguments.  Those that write text answer with a
string; those that ask about an element, or take it for one of a kind, answer with a value.
-/
namespace PolicyForge.Template

open Data

/-- Why a helper refuses a call. -/
inductive HelperError where
  | unknown (name : String)
  /-- The argument is missing that a helper finds by its place. -/
  | missingArgument (helper : String)
  /-- The argument is missing that a helper finds by its name. -/
  | missingParameter (helper parameter : String)
  | notUnsigned (helper : String) (value : Json)
  | noLiteralForm (value : Json)
  | notLiteral (value : Json) (error : DecodeError)
  | wrongKind (found : Option String) (wanted : ElementKind)

def HelperError.message : HelperError → String
  | .unknown name => "Helper not found " ++ name
  | .missingArgument helper =>
    "Helper/Decorator " ++ helper ++ " param at index 0 required but not found"
  | .missingParameter helper parameter =>
    "Helper/Decorator " ++ helper ++ " param with name " ++ parameter ++ " required but not found"
  | .notUnsigned helper value => helper ++ ": " ++ value.text ++ " is not a " ++ helper ++ " value"
  | .noLiteralForm value => "literal: " ++ value.text ++ " has no literal form"
  | .notLiteral value error =>
    "literal: " ++ value.text ++ " is not a literal value (" ++ error.message ++ ")"
  | .wrongKind found wanted =>
    "cannot cast " ++ found.getD "a non-element value" ++ " to a " ++ wanted.tag ++ " element"

/-- The literal that a value stands for in a template: an object names its kind, anything else has
one of its own, and null is the deletion mark. -/
def literalOf : Json → Except HelperError Literal
  | .null => .ok .delete
  | .bool b => .ok (.bool b)
  | .int i => .ok (if i < Int.pow 2 63 then .int i else .u64 i.toNat.toUInt64)
  | .float bits => .ok (.f64 bits.toUInt64)
  | .string s => .ok (.string s)
  | .object fields =>
    match Literal.decode .value (Tree.ofJson (.object fields)) with
    | .ok l => .ok l
    | .error e => .error (.notLiteral (.object fields) e)
  | .array items => .error (.noLiteralForm (.array items))

def kindOf (j : Json) : Option String := (j.field? "kind").bind Json.string?

/-- The text of the first argument, empty if it is no text. -/
def firstText (args : List Json) : String := (args.head?.bind Json.string?).getD ""

def unsigned (helper : String) (bits : Nat) (args : List Json) : Except HelperError Nat :=
  match args with
  | [] => .error (.missingArgument helper)
  | .int i :: _ =>
    if 0 ≤ i && i < Int.pow 2 bits then .ok i.toNat else .error (.notUnsigned helper (.int i))
  | j :: _ => .error (.notUnsigned helper j)

/-- What a kind is called in the name of a helper: the two parts around its tag. -/
def questionName (k : ElementKind) : String := "is_" ++ k.tag ++ "_item"

def castName (k : ElementKind) : String := "as_" ++ k.tag ++ "_item"

/-- The helpers that are there once for every kind of element. -/
def callKind (name : String) (args : List Json) : Except HelperError Json :=
  match ElementKind.all.find? fun k => questionName k == name with
  | some k => .ok (.bool (args.head?.bind kindOf == some k.tag))
  | none =>
    match ElementKind.all.find? fun k => castName k == name with
    | none => .error (.unknown name)
    | some k =>
      match args with
      | [] => .error (.missingArgument "element cast")
      | j :: _ => if kindOf j == some k.tag then .ok j else .error (.wrongKind (kindOf j) k)

def call (name : String) (args : List Json) : Except HelperError Json :=
  match name with
  | "escape_type" => .ok (.string (Source.typeName (firstText args)))
  | "escape_identifier" => .ok (.string (Source.memberName (firstText args)))
  | "escape_namespace" => .ok (.string (Source.namespaceName (firstText args)))
  | "escape_xmldoc" => .ok (.string (Source.docComment (firstText args)))
  | "ref_id" => .ok (.string (Source.referenceKey (firstText args)))
  | "literal" =>
    match args with
    | [] => .error (.missingArgument "literal")
    | j :: _ => (literalOf j).map fun l => .string (Source.literal l)
  | "u32" => (unsigned "u32" 32 args).map fun n => .string (Source.literal (.u32 n.toUInt32))
  | "u64" => (unsigned "u64" 64 args).map fun n => .string (Source.literal (.u64 n.toUInt64))
  | "is_delval" =>
    match args with
    | [] => .error (.missingParameter "is_delval" "v")
    | j :: _ => .ok (.bool (j.string? == some "delete"))
  | name => callKind name args

end PolicyForge.Template
