import PolicyForge.Proofs.Source.Declarations
import PolicyForge.Proofs.Source.Identifiers
import PolicyForge.Proofs.Source.Meaning
/-!
# The tokens of a block

A block in parts with whole words (`blockParts`), and its tokens as the rows of the declarations that it
consists of (`blockTokens`).  Both say the same text (`tokens_block`).
-/
namespace PolicyForge.Source

/-- A member of the support code, by its full path. -/
def supportMember (assembly member : String) : String :=
  supportPath (namespaceName assembly) ++ "." ++ member

/-- The class of the support code that holds elements of a kind. -/
def runtimeClass (assembly : String) (k : ElementKind) : String :=
  supportMember assembly k.className

theorem isName_supportMember (assembly : String) {member : String}
    (h : member.toList.all isSupportPart = true) : IsName (supportMember assembly member) := by
  have hpath : IsName (supportPath (namespaceName assembly)) :=
    fun _ => isSupportPart_of_mem_supportPath
  exact (hpath.append (isName_of_all (by decide))).append (isName_of_all h)

theorem isName_runtimeClass (assembly : String) (k : ElementKind) :
    IsName (runtimeClass assembly k) :=
  isName_supportMember assembly (by cases k <;> decide)

theorem isName_policyClass (assembly : String) (c : PolicyClass) :
    IsName (supportMember assembly ("PolicyClass." ++ c.memberName)) :=
  isName_supportMember assembly (by cases c <;> decide)

theorem isName_of_isIdentifier {s : String} (h : IsIdentifier s.toList) : IsName s :=
  fun c hc => isSupportPart_of_isPathPart (isPathPart_of_isMemberPart (h.2.1 c hc))

theorem isName_property (id : String) : IsName (memberName id ++ "Element") :=
  isName_of_isIdentifier (isIdentifier_property id)

theorem isName_option (id : String) : IsName (typeName id ++ "Option") :=
  isName_of_isIdentifier (isIdentifier_option id)

theorem isName_typeName (s : String) : IsName (typeName s) :=
  fun _ => isSupportPart_of_shape (p := .typeName s) rfl

theorem isName_namespaceName (s : String) : IsName (namespaceName s) :=
  fun _ => isSupportPart_of_shape (p := .path s) rfl

/-! ## Parts -/

def importParts : List Part :=
  [.fixed "using global::System;\n", .fixed "using global::System.Collections.Generic;\n",
    .fixed "using global::System.ComponentModel;\n",
    .fixed "using global::System.Globalization;\n",
    .fixed "using global::System.Runtime.InteropServices;\n",
    .fixed "using global::System.Text;\n"]

theorem spelled_importParts : spelled importParts = written importPieces := by decide +kernel

def namespaceParts (p : Policy) : List Part :=
  [Part.fixed "namespace ", .word _ (isName_namespaceName p.namespacePath),
    .fixed "\n\x7b\n"] ++ importParts ++ [.fixed "\n/// <summary>\n", .comment p.displayName,
    .fixed "\n/// </summary>\n"] ++ (remarkPieces p.explainText).map Piece.part

def classParts (assembly : String) (p : Policy) : List Part :=
  [Part.fixed "public sealed partial class ", .word _ (isName_typeName p.name),
    .fixed " : ",
    .word (supportMember assembly "PolicyBase") (isName_supportMember assembly (by decide)),
    .fixed "\n\x7b\npublic ", .word _ (isName_typeName p.name), .fixed "()\n: base(",
    .word _ (isName_policyClass assembly p.policyClass), .fixed ", "] ++
    (argumentPieces (stateArguments p) ++ propertiesPieces p).map Piece.part

def optionParts : Element → List Part
  | .enumeration n =>
    [Part.fixed "\npublic enum ", .word _ (isName_option n.id), .fixed "\n\x7b\n"] ++
      (n.items.flatMap optionPieces).map Piece.part ++ [.fixed "\x7d\n"]
  | _ => []

/-- What stands after the arguments of an element. -/
def ending : Element → String
  | .enumeration _ => "\x7d);\n"
  | _ => ");\n"

def elementParts (assembly : String) (p : Policy) (e : Element) : List Part :=
  optionParts e ++
    [Part.fixed "\npublic ", .word _ (isName_runtimeClass assembly e.kind),
      .fixed " ", .word _ (isName_property e.id),
      .fixed " \x7b get; \x7d = new ",
      .word _ (isName_runtimeClass assembly e.kind), .fixed "("] ++
    (argumentPieces (elementArguments p e)).map Piece.part ++
    ((elementItems e).flatMap entryPieces).map Piece.part ++ [.fixed (ending e)]

def listParts (assembly : String) (p : Policy) : List Part :=
  [Part.fixed "\npublic override global::System.Collections.Generic.IReadOnlyList<",
    .word (supportMember assembly "IPolicyElement") (isName_supportMember assembly (by decide)),
    .fixed "> Elements => new ",
    .word (supportMember assembly "IPolicyElement") (isName_supportMember assembly (by decide)),
    .fixed "[]\n\x7b\n"] ++
  p.elements.flatMap (fun e => [Part.word _ (isName_property e.id), .fixed ",\n"]) ++
  [Part.fixed "\x7d;\n\x7d\n\x7d\n"]

def blockParts (assembly : String) (p : Policy) : List Part :=
  namespaceParts p ++ (classParts assembly p ++ (p.elements.flatMap (elementParts assembly p) ++
    listParts assembly p))

theorem spelled_elementParts (assembly : String) (p : Policy) (e : Element) :
    spelled (elementParts assembly p e) = written (elementPieces assembly p e) := by
  have hget : "Element \x7b get; \x7d = new " = "Element" ++ " \x7b get; \x7d = new " := rfl
  have hoption : "Option\n\x7b\n" = "Option" ++ "\n\x7b\n" := rfl
  cases e with
  | enumeration n =>
    simp only [elementParts, optionParts, elementItems, ending, elementPieces, propertyPieces,
      spelled_append, written_append, spelled_map_part, spelled, written, Part.string, Piece.string,
      runtimeClass, supportMember, hget, hoption, String.append_assoc, String.append_empty, Element.id]
  | _ =>
    simp only [elementParts, optionParts, elementItems, ending, elementPieces, propertyPieces,
      spelled_append, written_append, spelled_map_part, spelled, written, Part.string, Piece.string,
      runtimeClass, supportMember, hget, String.append_assoc, String.append_empty, String.empty_append,
      List.flatMap_nil, List.map_nil, Element.id]

theorem spelled_flatMap {f : Element → List Part} {g : Element → List Piece}
    (h : ∀ e, spelled (f e) = written (g e)) (es : List Element) :
    spelled (es.flatMap f) = written (es.flatMap g) := by
  induction es with
  | nil => rfl
  | cons e es ih => rw [List.flatMap_cons, List.flatMap_cons, spelled_append, written_append, h, ih]

theorem spelled_blockParts (assembly : String) (p : Policy) :
    spelled (blockParts assembly p) = written (blockPieces assembly p) := by
  have helements := spelled_flatMap (spelled_elementParts assembly p) p.elements
  have hlist : spelled (p.elements.flatMap fun e =>
      [Part.word _ (isName_property e.id), .fixed ",\n"]) =
      written (p.elements.flatMap fun e => [Piece.memberName e.id, .fixed "Element,\n"]) := by
    refine spelled_flatMap (fun e => ?_) p.elements
    simp only [spelled, written, Part.string, Piece.string, String.append_assoc,
      String.append_empty]
    rfl
  have hbase : ".PolicyBase\n\x7b\npublic " = "." ++ ("PolicyBase" ++ "\n\x7b\npublic ") := rfl
  have hinterface : ".IPolicyElement> Elements => new " =
    "." ++ ("IPolicyElement" ++ "> Elements => new ") := rfl
  have harray : ".IPolicyElement[]\n\x7b\n" = "." ++ ("IPolicyElement" ++ "[]\n\x7b\n") := rfl
  have hclass : ".PolicyClass." = "." ++ "PolicyClass." := rfl
  simp only [blockParts, namespaceParts, classParts, listParts, blockPieces, headPieces, tailPieces,
    spelled_append, written_append, spelled_map_part, spelled_importParts, spelled, written,
    Part.string, Piece.string, helements, hlist, hbase, hinterface, harray, hclass, supportMember,
    String.append_assoc, String.append_empty]

/-! ## Rows of tokens -/

def importTokens (n : String) : List Token := [.word "using", .word ("global::" ++ n), .mark ';']

/-- A constructor up to its body, which is empty. -/
def constructorHead (assembly : String) (p : Policy) : List Token :=
  [.word "public", .word (typeName p.name), .mark '(', .mark ')', .word ":", .word "base", .mark '(',
    .word (supportMember assembly ("PolicyClass." ++ p.policyClass.memberName)), .mark ',',
    valueToken (.string p.key), .mark ',', valueToken (.ofText? p.valueName), .mark ',',
    valueToken (p.enabledValue.getD (.decimal 1)), .mark ',',
    valueToken (p.disabledValue.getD (.decimal 0)), .mark ')']

def constructorTokens (assembly : String) (p : Policy) : List Token :=
  constructorHead assembly p ++ [.mark '\x7b', .mark '\x7d']

def overrideTokens (name : String) (v : RegistryValue) : List Token :=
  [.word "public", .word "override", .word "string", .word name, .mark '=', .mark '>',
    valueToken v] ++ [.mark ';']

def namedTokens (s : String) : List Token := wordTokens s ++ [.mark ',']

/-- The enumeration of the items of an element, if it has items. -/
def optionTokens : Element → List (List Token)
  | .enumeration n =>
    [[.word "public", .word "enum", .word (typeName n.id ++ "Option")] ++ .mark '\x7b' ::
      (n.items.map fun i => namedTokens (memberName i.id)).flatten ++ [.mark '\x7d']]
  | _ => []

def entryTokens (i : EnumerationItem) : List Token :=
  [.mark '\x7b', .text (memberName i.id), .mark ',', valueToken i.value, .mark '\x7d', .mark ',']

/-- The arguments of an element, up to its items. -/
def argumentTokens (p : Policy) (e : Element) : List Token :=
  ((argumentPieces (elementArguments p e)).map Piece.part).flatMap Part.tokens

def endingTokens : Element → List Token
  | .enumeration _ => [.mark '\x7d', .mark ')']
  | _ => [.mark ')']

def settingTokens (p : Policy) (e : Element) : List Token :=
  argumentTokens p e ++ (((elementItems e).map entryTokens).flatten ++ endingTokens e)

def propertyTokens (assembly : String) (p : Policy) (e : Element) : List Token :=
  .word "public" :: .word (runtimeClass assembly e.kind) :: .word (memberName e.id ++ "Element") ::
    .mark '\x7b' :: .word "get" :: .mark ';' :: .mark '\x7d' :: .mark '=' :: .word "new" ::
    .word (runtimeClass assembly e.kind) :: .mark '(' :: settingTokens p e ++ [.mark ';']

def listTokens (assembly : String) (p : Policy) : List Token :=
  [.word "public", .word "override", .word "global::System.Collections.Generic.IReadOnlyList",
      .mark '<', .word (supportMember assembly "IPolicyElement"), .mark '>', .word "Elements",
      .mark '=', .mark '>', .word "new", .word (supportMember assembly "IPolicyElement"), .mark '[',
      .mark ']', .mark '\x7b'] ++
    ((p.elements.map fun e => namedTokens (memberName e.id ++ "Element")).flatten ++
      [.mark '\x7d']) ++ [.mark ';']

def elementTokens (assembly : String) (p : Policy) (e : Element) : List (List Token) :=
  optionTokens e ++ [propertyTokens assembly p e]

def memberTokens (assembly : String) (p : Policy) : List (List Token) :=
  [constructorTokens assembly p, overrideTokens "DisplayName" (.string p.displayName),
      overrideTokens "ResourceId" (.string (referenceKey p.displayName)),
      overrideTokens "SupportedOn" (.ofText? p.supportedOn)] ++
    p.elements.flatMap (elementTokens assembly p) ++ [listTokens assembly p]

def classTokens (assembly : String) (p : Policy) : List Token :=
  [.word "public", .word "sealed", .word "partial", .word "class", .word (typeName p.name),
      .word ":", .word (supportMember assembly "PolicyBase")] ++
    .mark '\x7b' :: (memberTokens assembly p).flatten ++ [.mark '\x7d']

def blockTokens (assembly : String) (p : Policy) : List Token :=
  [.word "namespace", .word (namespaceName p.namespacePath)] ++
    .mark '\x7b' :: (importedNamespaces.map importTokens ++ [classTokens assembly p]).flatten ++
    [.mark '\x7d']

/-! ## The tokens of the parts -/

set_option maxRecDepth 4000

theorem tokens_flatMap {α : Type} {f : α → List Part} {g : α → List Token} {xs : List α}
    (h : ∀ x ∈ xs, (f x).flatMap Part.tokens = g x) :
    (xs.flatMap f).flatMap Part.tokens = (xs.map g).flatten := by
  rw [List.flatMap_assoc, List.flatMap_def]
  exact congrArg List.flatten (List.map_congr_left h)

theorem tokens_flatMap_pieces {α : Type} {f : α → List Piece} {g : α → List Token} {xs : List α}
    (h : ∀ x ∈ xs, ((f x).map Piece.part).flatMap Part.tokens = g x) :
    ((xs.flatMap f).map Piece.part).flatMap Part.tokens = (xs.map g).flatten := by
  rw [List.map_flatMap]
  exact tokens_flatMap h

theorem separated_namespaceParts (p : Policy) : separated (namespaceParts p) = true := by
  refine separated_append (separated_append (separated_append ?_ ?_) ?_) ?_
  · rfl
  · decide +kernel
  · rfl
  · cases p.explainText with
    | none => rfl
    | some s =>
      rw [remarkPieces]
      split
      · rfl
      · rfl

theorem separated_classParts (assembly : String) (p : Policy) :
    separated (classParts assembly p) = true := by
  rfl

theorem separated_optionParts (e : Element) : separated (optionParts e) = true := by
  cases e with
  | enumeration n =>
    refine separated_append (separated_append rfl ?_) rfl
    rw [List.map_flatMap]
    exact separated_flatMap fun i _ => rfl
  | _ => rfl

theorem separated_elementParts (assembly : String) (p : Policy) (e : Element) :
    separated (elementParts assembly p e) = true := by
  have hsettings : separated ((argumentPieces (elementArguments p e)).map Piece.part ++
      (((elementItems e).flatMap entryPieces).map Piece.part ++ [.fixed (ending e)])) = true := by
    cases e with
    | enumeration n =>
      refine separated_append ?_ (separated_append ?_ ?_)
      · rfl
      · rw [List.map_flatMap]
        exact separated_flatMap fun i _ => rfl
      · dsimp only [ending]
        rfl
    | _ =>
      dsimp only [ending]
      rfl
  rw [elementParts, List.append_assoc _ _ [Part.fixed _], List.append_assoc _ _ (_ ++ _)]
  exact separated_append (separated_append (separated_optionParts e) rfl) hsettings

theorem separated_listParts (assembly : String) (p : Policy) :
    separated (listParts assembly p) = true := by
  refine separated_append (separated_append ?_ (separated_flatMap fun _ _ => rfl)) ?_
  · rfl
  · rfl

theorem tokens_importParts :
    importParts.flatMap Part.tokens = (importedNamespaces.map importTokens).flatten := by
  decide +kernel

/-- A comment has no tokens. -/
theorem tokens_remarkPieces (s : Option String) :
    ((remarkPieces s).map Piece.part).flatMap Part.tokens = [] := by
  cases s with
  | none => rfl
  | some s =>
    rw [remarkPieces]
    split
    · rfl
    · rfl

theorem tokens_namespaceParts {p : Policy} (h : namespaceName p.namespacePath ≠ "") :
    (namespaceParts p).flatMap Part.tokens = [.word "namespace",
      .word (namespaceName p.namespacePath), .mark '\x7b'] ++
        (importedNamespaces.map importTokens).flatten := by
  simp only [namespaceParts, List.flatMap_append, tokens_importParts, tokens_remarkPieces,
    List.flatMap_cons, List.flatMap_nil, Part.tokens, wordTokens_of_ne h, List.append_nil]
  rfl

theorem supportMember_ne (assembly member : String) : supportMember assembly member ≠ "" := by
  intro h
  have hlist := congrArg String.toList h
  simp [supportMember, supportPath] at hlist

theorem tokens_classParts (assembly : String) {p : Policy} (h : typeName p.name ≠ "") :
    (classParts assembly p).flatMap Part.tokens = [.word "public", .word "sealed",
      .word "partial", .word "class", .word (typeName p.name), .word ":",
      .word (supportMember assembly "PolicyBase"), .mark '\x7b'] ++
    [constructorTokens assembly p, overrideTokens "DisplayName" (.string p.displayName),
      overrideTokens "ResourceId" (.string (referenceKey p.displayName)),
      overrideTokens "SupportedOn" (.ofText? p.supportedOn)].flatten := by
  simp only [classParts, List.flatMap_append, List.flatMap_cons, List.flatMap_nil, Part.tokens,
    wordTokens_of_ne h, wordTokens_of_ne (supportMember_ne _ _), List.append_nil]
  rfl

theorem ne_of_isIdentifier {s : String} (h : IsIdentifier s.toList) : s ≠ "" := by
  rintro rfl
  exact absurd h (by decide)

theorem tokens_optionParts (e : Element) :
    (optionParts e).flatMap Part.tokens = (optionTokens e).flatten := by
  cases e with
  | enumeration n =>
    have hitems : ((n.items.flatMap optionPieces).map Piece.part).flatMap Part.tokens =
        (n.items.map fun i => namedTokens (memberName i.id)).flatten :=
      tokens_flatMap_pieces fun i _ => rfl
    simp only [optionParts, List.flatMap_append, List.flatMap_cons, List.flatMap_nil, Part.tokens,
      wordTokens_of_ne (ne_of_isIdentifier (isIdentifier_option n.id)), hitems, List.append_nil]
    simp only [optionTokens, List.flatten_cons, List.flatten_nil, List.append_nil]
    rfl
  | _ => rfl

theorem tokens_elementParts (assembly : String) (p : Policy) (e : Element) :
    (elementParts assembly p e).flatMap Part.tokens = (elementTokens assembly p e).flatten := by
  have hentries : (((elementItems e).flatMap entryPieces).map Piece.part).flatMap Part.tokens =
      ((elementItems e).map entryTokens).flatten :=
    tokens_flatMap_pieces fun i _ => rfl
  have hending : (Reading.start.run (ending e).toList).1 = endingTokens e ++ [.mark ';'] := by
    cases e <;> (dsimp only [ending]; rfl)
  simp only [elementParts, List.flatMap_append, List.flatMap_cons, List.flatMap_nil,
    tokens_optionParts, hentries, Part.tokens, hending, runtimeClass,
    wordTokens_of_ne (supportMember_ne _ _),
    wordTokens_of_ne (ne_of_isIdentifier (isIdentifier_property e.id))]
  simp only [elementTokens, List.flatten_append, List.flatten_cons, List.flatten_nil,
    propertyTokens, settingTokens, List.append_nil, List.append_assoc, List.cons_append]
  rfl

theorem tokens_listParts (assembly : String) (p : Policy) :
    (listParts assembly p).flatMap Part.tokens =
      listTokens assembly p ++ [.mark '\x7d', .mark '\x7d'] := by
  have hnames : (p.elements.flatMap fun e =>
      [Part.word _ (isName_property e.id), .fixed ",\n"]).flatMap Part.tokens =
        (p.elements.map fun e => namedTokens (memberName e.id ++ "Element")).flatten :=
    tokens_flatMap fun e _ => rfl
  simp only [listParts, List.flatMap_append, hnames, List.flatMap_cons, List.flatMap_nil,
    Part.tokens, wordTokens_of_ne (supportMember_ne _ _), List.append_nil]
  simp only [listTokens, List.append_assoc]
  rfl

theorem separated_blockParts (assembly : String) (p : Policy) :
    separated (blockParts assembly p) = true :=
  separated_append (separated_namespaceParts p) (separated_append (separated_classParts assembly p)
    (separated_append (separated_flatMap fun e _ => separated_elementParts assembly p e)
      (separated_listParts assembly p)))

theorem tokens_blockParts (assembly : String) {p : Policy} (hname : typeName p.name ≠ "")
    (hpath : namespaceName p.namespacePath ≠ "") :
    (blockParts assembly p).flatMap Part.tokens = blockTokens assembly p := by
  have helements : (p.elements.flatMap (elementParts assembly p)).flatMap Part.tokens =
      (p.elements.flatMap (elementTokens assembly p)).flatten := by
    rw [tokens_flatMap fun e _ => tokens_elementParts assembly p e, List.flatMap_def,
      List.flatten_flatten, List.map_map]
    rfl
  simp only [blockParts, List.flatMap_append, tokens_namespaceParts hpath,
    tokens_classParts assembly hname, helements, tokens_listParts, blockTokens, classTokens,
    memberTokens, List.flatten_append, List.flatten_cons, List.flatten_nil, List.append_assoc,
    List.cons_append, List.nil_append, List.append_nil]

/-- **The tokens of a block** whose policy has a name and a namespace. -/
theorem tokens_block (assembly : String) {p : Policy} (hname : typeName p.name ≠ "")
    (hpath : namespaceName p.namespacePath ≠ "") :
    tokens (written (blockPieces assembly p)) = blockTokens assembly p := by
  rw [← spelled_blockParts, tokens_spelled (separated_blockParts assembly p),
    tokens_blockParts assembly hname hpath]

end PolicyForge.Source
