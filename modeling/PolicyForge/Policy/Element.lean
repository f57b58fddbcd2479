import PolicyForge.Policy.Value
/-!
# Elements

An element is one configurable value of a policy.  There are seven kinds, each with fields of its
own; `Element` is their sum.
-/
namespace PolicyForge

/-- An on/off choice between two registry values. -/
structure BooleanElement where
  id : String
  key : Option String
  valueName : String
  trueValue : RegistryValue
  falseValue : RegistryValue
  deriving DecidableEq, Repr

structure DecimalElement where
  id : String
  key : Option String
  valueName : String
  required : Bool
  minValue : UInt32
  maxValue : UInt32
  storeAsText : Bool
  soft : Bool
  deriving DecidableEq, Repr

structure LongDecimalElement where
  id : String
  key : Option String
  valueName : String
  required : Bool
  minValue : UInt64
  maxValue : UInt64
  storeAsText : Bool
  soft : Bool
  deriving DecidableEq, Repr

/-- One value that an enumeration permits. -/
structure EnumerationItem where
  id : String
  displayName : String
  value : RegistryValue
  deriving DecidableEq, Repr

structure EnumerationElement where
  id : String
  key : Option String
  valueName : String
  required : Bool
  items : List EnumerationItem
  deriving DecidableEq, Repr

/-- Entries of names and values under a key. -/
structure ListElement where
  id : String
  key : Option String
  valuePrefix : Option String
  additive : Bool
  explicitValue : Bool
  expandable : Bool
  deriving DecidableEq, Repr

structure MultiTextElement where
  id : String
  key : Option String
  valueName : String
  required : Bool
  maxLength : UInt32
  maxStrings : UInt32
  deriving DecidableEq, Repr

structure TextElement where
  id : String
  key : Option String
  valueName : String
  required : Bool
  maxLength : UInt32
  expandable : Bool
  deriving DecidableEq, Repr

inductive ElementKind where
  | boolean
  | decimal
  | longDecimal
  | enumeration
  | list
  | multiText
  | text
  deriving DecidableEq, Repr

/-- One configurable value of a policy. -/
inductive Element where
  | boolean (e : BooleanElement)
  | decimal (e : DecimalElement)
  | longDecimal (e : LongDecimalElement)
  | enumeration (e : EnumerationElement)
  | list (e : ListElement)
  | multiText (e : MultiTextElement)
  | text (e : TextElement)
  deriving DecidableEq, Repr

def ElementKind.all : List ElementKind :=
  [.boolean, .decimal, .longDecimal, .enumeration, .list, .multiText, .text]

def ElementKind.tag : ElementKind → String
  | .boolean => "boolean"
  | .decimal => "decimal"
  | .longDecimal => "long_decimal"
  | .enumeration => "enumeration"
  | .list => "list"
  | .multiText => "multi_text"
  | .text => "text"

namespace Element

def kind : Element → ElementKind
  | .boolean _ => .boolean
  | .decimal _ => .decimal
  | .longDecimal _ => .longDecimal
  | .enumeration _ => .enumeration
  | .list _ => .list
  | .multiText _ => .multiText
  | .text _ => .text

def id : Element → String
  | .boolean e => e.id
  | .decimal e => e.id
  | .longDecimal e => e.id
  | .enumeration e => e.id
  | .list e => e.id
  | .multiText e => e.id
  | .text e => e.id

def key : Element → Option String
  | .boolean e => e.key
  | .decimal e => e.key
  | .longDecimal e => e.key
  | .enumeration e => e.key
  | .list e => e.key
  | .multiText e => e.key
  | .text e => e.key

def isKind (k : ElementKind) (e : Element) : Bool := e.kind == k

/-- What is said of an element that is taken for one of another kind. -/
def castMessage (k : ElementKind) (e : Element) : String :=
  "as_" ++ k.tag ++ " called on a " ++ e.kind.tag ++ " element"

/-- The element taken for one of the given kind. -/
def cast (k : ElementKind) (e : Element) : Except String Element :=
  if e.isKind k then .ok e else .error (castMessage k e)

end Element

theorem ElementKind.tag_inj {k l : ElementKind} (h : k.tag = l.tag) : k = l := by
  cases k <;> cases l <;> first | rfl | (exact absurd h (by decide))

end PolicyForge
