import PolicyForge.Text.Blank
import PolicyForge.Text.Category
import PolicyForge.Text.Lines
/-!
# Legal names

A name of the model may be any text; a name of the generated source has to be an identifier that
is no keyword.  Characters that cannot stand in an identifier are dropped, and an underscore goes
in front of what would still not be legal.  A blank name has no legal form at all, which shows as
the empty text.
-/
namespace PolicyForge.Source

/-- The reserved words of the generated language. -/
def reservedWords : List String := [
  "__arglist", "__makeref", "__reftype", "__refvalue", "abstract", "as", "base", "bool", "break",
  "byte", "case", "catch", "char", "checked", "class", "const", "continue", "decimal", "default",
  "delegate", "do", "double", "else", "enum", "event", "explicit", "extern", "false", "finally",
  "fixed", "float", "for", "foreach", "goto", "if", "implicit", "in", "int", "interface",
  "internal", "is", "lock", "long", "namespace", "new", "null", "object", "operator", "out",
  "override", "params", "private", "protected", "public", "readonly", "ref", "return", "sbyte",
  "sealed", "short", "sizeof", "stackalloc", "static", "string", "struct", "switch", "this",
  "throw", "true", "try", "typeof", "uint", "ulong", "unchecked", "unsafe", "ushort", "using",
  "virtual", "void", "volatile", "while"]

def isReserved (word : List Char) : Bool := reservedWords.any fun r => r.toList == word

/-- Whether an identifier may start with what these characters start with. -/
def leads (underscoreLeads : Bool) : List Char → Bool
  | [] => false
  | c :: _ => Text.isAsciiLetter c || (underscoreLeads && c == '_')

/-- The legal form of a name that keeps the characters satisfying `keep`. -/
def legalName (keep : Char → Bool) (underscoreLeads : Bool) (name : List Char) : List Char :=
  if Text.allBlank name then []
  else
    let kept := name.filter keep
    if leads underscoreLeads kept && !isReserved kept then kept else '_' :: kept

/-- Characters that may follow the first of an identifier. -/
def isMemberPart (c : Char) : Bool := c == '_' || Text.isNamePart c

/-- The legal name of a type: no underscore of the model is kept. -/
def typeChars (name : List Char) : List Char := legalName Text.isNamePart false name

/-- The legal name of a member: underscores are kept and may lead. -/
def memberChars (name : List Char) : List Char := legalName isMemberPart true name

/-- The legal names of the segments between dots, blank ones left out. -/
def segments (name : List Char) : List (List Char) :=
  ((Text.splitOn (· == '.') name).map typeChars).filter (!·.isEmpty)

/-- The legal form of a dotted name. -/
def namespaceChars (name : List Char) : List Char := Text.join ['.'] (segments name)

def typeName (name : String) : String := String.ofList (typeChars name.toList)

def memberName (name : String) : String := String.ofList (memberChars name.toList)

def namespaceName (name : String) : String := String.ofList (namespaceChars name.toList)

@[simp] theorem toList_typeName (name : String) : (typeName name).toList = typeChars name.toList := by
  simp [typeName]

@[simp] theorem toList_memberName (name : String) :
    (memberName name).toList = memberChars name.toList := by
  simp [memberName]

@[simp] theorem toList_namespaceName (name : String) :
    (namespaceName name).toList = namespaceChars name.toList := by
  simp [namespaceName]

/-- A name has no legal form exactly when it is blank. -/
theorem legalName_eq_nil {keep : Char → Bool} {lead : Bool} {name : List Char} :
    legalName keep lead name = [] ↔ Text.allBlank name = true := by
  unfold legalName
  split
  · simp_all
  · rename_i h
    refine ⟨fun hk => ?_, fun hb => absurd hb h⟩
    revert hk
    show (if _ then _ else _) = [] → _
    split
    · rename_i hl
      intro hk
      rw [hk] at hl
      simp [leads] at hl
    · exact fun hk => absurd hk (List.cons_ne_nil _ _)

end PolicyForge.Source
