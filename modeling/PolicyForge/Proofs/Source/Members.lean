import PolicyForge.Proofs.Source.Outcome
import PolicyForge.Proofs.Source.Parts
import Mathlib.Data.List.Perm.Basic
/-!
# The members of a generated class

The members that a class is checked against before its block is written are the members that the block
declares.  A reader of the block finds one property for every element, of the class that belongs to the
kind of the element, and one enumeration for every element with items (`block_declares`).
-/
namespace PolicyForge.Source

/-! ## What a class declares -/

/-- A property that holds an element, with the keys of its items. -/
structure Property where
  name : String
  type : String
  /-- The class whose constructor is called. -/
  made : String
  keys : List String
  deriving DecidableEq, Repr

namespace Member

def property? : Member → Option Property
  | .property type name made arguments => some ⟨name, type, made, keys arguments⟩
  | _ => none

def enumeration? : Member → Option (String × List String)
  | .enumeration name members => some (name, members)
  | _ => none

/-- The name that a member declares; a constructor declares none. -/
def name? : Member → Option String
  | .constructor _ => none
  | .override name _ => some name
  | .property _ name _ _ => some name
  | .enumeration name _ => some name

/-- The names that the list of elements holds. -/
def listed : Member → List String
  | .override "Elements" value => names (body value)
  | _ => []

end Member

namespace Class

def properties (c : Class) : List Property := c.members.filterMap Member.property?

def enumerations (c : Class) : List (String × List String) :=
  c.members.filterMap Member.enumeration?

def declared (c : Class) : List String := c.members.filterMap Member.name?

def listed (c : Class) : List String := c.members.flatMap Member.listed

end Class

def elementProperty (assembly : String) (e : Element) : Property where
  name := memberName e.id ++ "Element"
  type := runtimeClass assembly e.kind
  made := runtimeClass assembly e.kind
  keys := (elementItems e).map fun i => memberName i.id

def elementEnumeration? : Element → Option (String × List String)
  | .enumeration n => some (typeName n.id ++ "Option", n.items.map fun i => memberName i.id)
  | _ => none

/-- A class declares what its policy says, in its order, and nothing else. -/
structure Declares (assembly : String) (p : Policy) (c : Class) : Prop where
  name : c.name = typeName p.name
  properties : c.properties = p.elements.map (elementProperty assembly)
  enumerations : c.enumerations = p.elements.filterMap elementEnumeration?
  listed : c.listed = c.properties.map Property.name
  /-- The items of an enumeration are the keys of the property that goes with it. -/
  keys : c.enumerations.map Prod.snd =
    (c.properties.filter fun q => q.made == runtimeClass assembly .enumeration).map Property.keys
  declared : c.declared.Perm (memberNames p)
  distinct : c.name ∉ c.declared

/-! ## The rows are declarations -/

set_option maxRecDepth 4000

theorem isPlain_of_mem_namedTokens {s : String} {t : Token} (ht : t ∈ namedTokens s) :
    t.isPlain = true := by
  rcases List.mem_append.1 ht with ht | ht
  · by_cases hs : s = ""
    · rw [hs] at ht
      cases ht
    · rw [wordTokens_of_ne hs, List.mem_singleton] at ht
      rw [ht]
      rfl
  · rw [List.mem_singleton.1 ht]
    rfl

theorem passes_named {α : Type} (f : α → String) (xs : List α) (s : Span) (next : Option Token) :
    passes s next (xs.map fun x => namedTokens (f x)).flatten = some s := by
  refine passes_flatten fun ts hts next => ?_
  obtain ⟨x, -, rfl⟩ := List.mem_map.1 hts
  exact passes_of_isPlain (fun _ => isPlain_of_mem_namedTokens) s next

theorem isDeclaration_importTokens (n : String) : IsDeclaration (importTokens n) :=
  @isDeclaration_of_semicolon [.word "using", .word ("global::" ++ n)] false (by simp) rfl

theorem isDeclaration_constructorTokens (assembly : String) (p : Policy) :
    IsDeclaration (constructorTokens assembly p) := by
  refine @isDeclaration_of_braces (constructorHead assembly p) [] ?_ rfl
  simp [constructorHead]

theorem isDeclaration_overrideTokens (name : String) (v : RegistryValue) :
    IsDeclaration (overrideTokens name v) := by
  refine @isDeclaration_of_semicolon _ true (by simp) ?_
  simp [passes_mark, Span.turn, Span.start]

theorem isDeclaration_of_mem_optionTokens {e : Element} {d : List Token} (h : d ∈ optionTokens e) :
    IsDeclaration d := by
  cases e with
  | enumeration n =>
    rw [List.mem_singleton.1 h]
    exact isDeclaration_of_braces (by simp) (passes_named _ _ _ _)
  | _ => cases h

/-- The arguments of an element with items go on to the brace in front of its items. -/
theorem argumentTokens_enumeration (p : Policy) (n : EnumerationElement) : ∃ ts,
    argumentTokens p (.enumeration n) = ts ++ [.mark '\x7b'] ∧ ∀ t ∈ ts, t.isPlain = true := by
  refine ⟨[valueToken (.string n.id), .mark ',', valueToken (.string (p.elementKey (.enumeration n))),
    .mark ',', valueToken (.string n.valueName), .mark ',', .word (literal (.bool n.required)),
    .mark ',', .word "new", .word "global::System.Collections.Generic.Dictionary", .mark '<',
    .word "string", .mark ',', .word "object", .mark '>'], ?_, ?_⟩
  · rfl
  · simp

/-- Other arguments are values with commas between them. -/
theorem isPlain_of_mem_argumentTokens {p : Policy} {e : Element} (he : e.kind ≠ .enumeration)
    {t : Token} (ht : t ∈ argumentTokens p e) : t.isPlain = true := by
  have hcomma : (Reading.start.run [',', ' ']).1 = [.mark ','] := rfl
  revert t
  cases e with
  | enumeration n => exact absurd rfl he
  | _ =>
    simp [argumentTokens, elementArguments, argumentPieces, Piece.part, Part.tokens, hcomma]

theorem passes_entryTokens (i : EnumerationItem) (k : Nat) (b : Bool) (next : Option Token) :
    passes ⟨k + 1, b⟩ next (entryTokens i) = some ⟨k + 1, b⟩ := by
  simp [entryTokens, passes_mark, Span.turn]

/-- What an element is made from ends nothing. -/
theorem passes_settingTokens (p : Policy) (e : Element) (next : Option Token) :
    passes ⟨0, true⟩ next (settingTokens p e) = some ⟨0, true⟩ := by
  by_cases he : e.kind = .enumeration
  · obtain ⟨n, rfl⟩ := exists_enumeration he
    obtain ⟨ts, hts, hplain⟩ := argumentTokens_enumeration p n
    -- the arguments open a brace, the entries stand within it, and the ending closes it
    have harguments : ∀ next, passes ⟨0, true⟩ next (argumentTokens p (.enumeration n)) =
        some ⟨1, true⟩ := by
      intro next
      rw [hts]
      exact passes_append (passes_of_isPlain hplain _ _) rfl
    refine passes_append (harguments _) (passes_append (m := ⟨1, true⟩) (passes_flatten ?_) rfl)
    intro us hus next
    obtain ⟨i, -, rfl⟩ := List.mem_map.1 hus
    exact passes_entryTokens i 0 true next
  · refine passes_of_isPlain (fun t ht => ?_) _ _
    rw [settingTokens, elementItems_of_ne he, List.map_nil, List.flatten_nil, List.nil_append,
      List.mem_append] at ht
    rcases ht with ht | ht
    · exact isPlain_of_mem_argumentTokens he ht
    · have hending : endingTokens e = [.mark ')'] := by
        cases e with
        | enumeration n => exact absurd rfl he
        | _ => rfl
      rw [hending, List.mem_singleton] at ht
      rw [ht]
      rfl

theorem isDeclaration_propertyTokens (assembly : String) (p : Policy) (e : Element) :
    IsDeclaration (propertyTokens assembly p e) :=
  @isDeclaration_of_semicolon (_ :: _ :: _ :: _ :: _ :: _ :: _ :: _ :: _ :: _ :: _ :: settingTokens p e)
    true (by simp) (passes_settingTokens p e _)

theorem isDeclaration_listTokens (assembly : String) (p : Policy) :
    IsDeclaration (listTokens assembly p) := by
  have hnames := passes_named (fun e : Element => memberName e.id ++ "Element") p.elements
  refine @isDeclaration_of_semicolon _ true (by simp) ?_
  exact passes_append (m := ⟨1, true⟩) rfl (passes_append (hnames _ _) rfl)

theorem isDeclaration_of_mem_memberTokens {assembly : String} {p : Policy} {d : List Token}
    (h : d ∈ memberTokens assembly p) : IsDeclaration d := by
  simp only [memberTokens, List.mem_append, List.mem_cons, List.not_mem_nil, or_false,
    List.mem_flatMap, elementTokens] at h
  rcases h with ((rfl | rfl | rfl | rfl) | ⟨e, -, hd | rfl⟩) | rfl
  · exact isDeclaration_constructorTokens assembly p
  · exact isDeclaration_overrideTokens _ _
  · exact isDeclaration_overrideTokens _ _
  · exact isDeclaration_overrideTokens _ _
  · exact isDeclaration_of_mem_optionTokens hd
  · exact isDeclaration_propertyTokens assembly p e
  · exact isDeclaration_listTokens assembly p

/-- A body of declarations stands within its braces. -/
theorem passes_declarations {ds : List (List Token)} (h : ∀ d ∈ ds, IsDeclaration d)
    (next : Option Token) : passes ⟨1, false⟩ next ds.flatten = some ⟨1, false⟩ :=
  passes_flatten fun d hd next => (h d hd).passes 0 false next

theorem isDeclaration_classTokens (assembly : String) (p : Policy) :
    IsDeclaration (classTokens assembly p) :=
  isDeclaration_of_braces (by simp)
    (passes_declarations (fun _ => isDeclaration_of_mem_memberTokens) _)

theorem isDeclaration_of_mem_namespace {assembly : String} {p : Policy} {d : List Token}
    (h : d ∈ importedNamespaces.map importTokens ++ [classTokens assembly p]) :
    IsDeclaration d := by
  rcases List.mem_append.1 h with h | h
  · obtain ⟨n, -, rfl⟩ := List.mem_map.1 h
    exact isDeclaration_importTokens n
  · rw [List.mem_singleton.1 h]
    exact isDeclaration_classTokens assembly p

theorem isDeclaration_blockTokens (assembly : String) (p : Policy) :
    IsDeclaration (blockTokens assembly p) :=
  isDeclaration_of_braces (by simp)
    (passes_declarations (fun _ => isDeclaration_of_mem_namespace) _)

/-! ## What is read -/

theorem names_named (s : String) (ts : List Token) : names (namedTokens s ++ ts) = s :: names ts := by
  by_cases hs : s = ""
  · rw [hs]
    rfl
  · rw [namedTokens, wordTokens_of_ne hs]
    rfl

/-- Names that commas end are read up to the brace after them. -/
theorem names_flatten {α : Type} (f : α → String) (xs : List α) (rest : List Token) :
    names ((xs.map fun x => namedTokens (f x)).flatten ++ .mark '\x7d' :: rest) = xs.map f := by
  induction xs with
  | nil => rfl
  | cons x xs ih => rw [List.map_cons, List.flatten_cons, List.append_assoc, names_named, ih,
      List.map_cons]

theorem keys_cons_of_isPlain {t : Token} (h : t.isPlain = true) (ts : List Token) :
    keys (t :: ts) = keys ts := by
  rw [keys]
  rintro k us rfl -
  cases h

theorem keys_append_of_isPlain {ts : List Token} (h : ∀ t ∈ ts, t.isPlain = true)
    (us : List Token) : keys (ts ++ us) = keys us := by
  induction ts with
  | nil => rfl
  | cons t ts ih =>
    rw [List.cons_append, keys_cons_of_isPlain (h t List.mem_cons_self)]
    exact ih fun u hu => h u (List.mem_cons_of_mem t hu)

theorem keys_entryTokens (i : EnumerationItem) (ts : List Token) :
    keys (entryTokens i ++ ts) = memberName i.id :: keys ts := by
  have hvalue : keys (valueToken i.value :: .mark '\x7d' :: .mark ',' :: ts) = keys ts :=
    keys_cons_of_isPlain (isPlain_valueToken i.value) _
  exact congrArg (memberName i.id :: ·) hvalue

theorem keys_entries (items : List EnumerationItem) (ts : List Token) :
    keys ((items.map entryTokens).flatten ++ ts) = items.map (fun i => memberName i.id) ++ keys ts := by
  induction items with
  | nil => rfl
  | cons i items ih => rw [List.map_cons, List.flatten_cons, List.append_assoc, keys_entryTokens, ih,
      List.map_cons, List.cons_append]

/-- The brace in front of the items is followed by one of theirs or by the brace that closes them. -/
theorem keys_cons_entries (items : List EnumerationItem) (rest : List Token) :
    keys (.mark '\x7b' :: ((items.map entryTokens).flatten ++ .mark '\x7d' :: rest)) =
      keys ((items.map entryTokens).flatten ++ .mark '\x7d' :: rest) := by
  cases items with
  | nil => rfl
  | cons i items => rfl

/-- **The keys of a property are the items of its element.** -/
theorem keys_settingTokens (p : Policy) (e : Element) :
    keys (settingTokens p e ++ [.mark ';']) = (elementItems e).map fun i => memberName i.id := by
  have hentries := keys_entries (elementItems e) (endingTokens e ++ [.mark ';'])
  have hending : keys (endingTokens e ++ [.mark ';']) = [] := by cases e <;> rfl
  rw [hending, List.append_nil] at hentries
  rw [settingTokens, List.append_assoc, List.append_assoc]
  by_cases he : e.kind = .enumeration
  · obtain ⟨n, rfl⟩ := exists_enumeration he
    obtain ⟨ts, hts, hplain⟩ := argumentTokens_enumeration p n
    rw [hts, List.append_assoc, keys_append_of_isPlain hplain]
    exact (keys_cons_entries n.items _).trans hentries
  · rw [keys_append_of_isPlain fun t => isPlain_of_mem_argumentTokens he]
    exact hentries

theorem runtimeClass_ne (assembly : String) (k : ElementKind) {word : String}
    (h : word ∈ reservedWords) : runtimeClass assembly k ≠ word := by
  have hcolon : ∀ r ∈ reservedWords, ':' ∉ r.toList := by decide
  rintro rfl
  refine hcolon _ h ?_
  simp [runtimeClass, supportMember, supportPath]

theorem read_constructorTokens (assembly : String) {p : Policy} (h : typeName p.name ≠ "") :
    Member.read (constructorTokens assembly p) = some (.constructor (typeName p.name)) := by
  have hoverride : typeName p.name ≠ "override" := (isIdentifier_typeName h).ne (by decide)
  simp [Member.read, constructorTokens, constructorHead]

theorem read_overrideTokens (name : String) (v : RegistryValue) :
    Member.read (overrideTokens name v) = some (.override name [valueToken v, .mark ';']) := rfl

/-- The member that an element brings besides its property. -/
def optionMembers : Element → List Member
  | .enumeration n =>
    [.enumeration (typeName n.id ++ "Option") (n.items.map fun i => memberName i.id)]
  | _ => []

def propertyMember (assembly : String) (p : Policy) (e : Element) : Member :=
  .property (runtimeClass assembly e.kind) (memberName e.id ++ "Element")
    (runtimeClass assembly e.kind) (settingTokens p e ++ [.mark ';'])

def listMember (assembly : String) (p : Policy) : Member :=
  .override "Elements" ([.word "new", .word (supportMember assembly "IPolicyElement"), .mark '[',
    .mark ']', .mark '\x7b'] ++ (p.elements.map fun e =>
      namedTokens (memberName e.id ++ "Element")).flatten ++ [.mark '\x7d', .mark ';'])

def classMembers (assembly : String) (p : Policy) : List Member :=
  [.constructor (typeName p.name),
      .override "DisplayName" [valueToken (.string p.displayName), .mark ';'],
      .override "ResourceId" [valueToken (.string (referenceKey p.displayName)), .mark ';'],
      .override "SupportedOn" [valueToken (.ofText? p.supportedOn), .mark ';']] ++
    p.elements.flatMap (fun e => optionMembers e ++ [propertyMember assembly p e]) ++
    [listMember assembly p]

theorem read_propertyTokens (assembly : String) (p : Policy) (e : Element) :
    Member.read (propertyTokens assembly p e) = some (propertyMember assembly p e) := by
  have hoverride := runtimeClass_ne assembly e.kind (by decide : "override" ∈ reservedWords)
  have henum := runtimeClass_ne assembly e.kind (by decide : "enum" ∈ reservedWords)
  simp [Member.read, propertyTokens, propertyMember]

theorem read_optionTokens (e : Element) :
    List.Forall₂ (fun d m => Member.read d = some m) (optionTokens e) (optionMembers e) := by
  cases e with
  | enumeration n =>
    refine .cons ?_ .nil
    have hnames := names_flatten (fun i : EnumerationItem => memberName i.id) n.items []
    exact congrArg (fun ms => some (Member.enumeration (typeName n.id ++ "Option") ms)) hnames
  | _ => exact .nil

theorem read_listTokens (assembly : String) (p : Policy) :
    Member.read (listTokens assembly p) = some (listMember assembly p) := by
  simp only [listTokens, listMember, List.append_assoc]
  rfl

theorem read_memberTokens (assembly : String) {p : Policy} (h : typeName p.name ≠ "") :
    List.Forall₂ (fun d m => Member.read d = some m) (memberTokens assembly p)
      (classMembers assembly p) := by
  refine List.rel_append (List.rel_append ?_ ?_) (.cons (read_listTokens assembly p) .nil)
  · exact .cons (read_constructorTokens assembly h) (.cons (read_overrideTokens _ _)
      (.cons (read_overrideTokens _ _) (.cons (read_overrideTokens _ _) .nil)))
  · induction p.elements with
    | nil => exact .nil
    | cons e es ih =>
      rw [List.flatMap_cons, List.flatMap_cons]
      refine List.rel_append ?_ ih
      exact List.rel_append (read_optionTokens e) (.cons (read_propertyTokens assembly p e) .nil)

theorem mapM_of_forall₂ {α β : Type} {f : α → Option β} {xs : List α} {ys : List β}
    (h : List.Forall₂ (fun x y => f x = some y) xs ys) : xs.mapM f = some ys := by
  induction h with
  | nil => rfl
  | cons hx _ ih => simp [List.mapM_cons, hx, ih]

theorem read_classTokens (assembly : String) {p : Policy} (h : typeName p.name ≠ "") :
    Class.read (classTokens assembly p) = some ⟨typeName p.name, classMembers assembly p⟩ := by
  have hmembers : declarations ((memberTokens assembly p).flatten ++ [.mark '\x7d']) =
      memberTokens assembly p :=
    declarations_flatten (fun _ => isDeclaration_of_mem_memberTokens) (.inr rfl)
  have hname : nameAfter "class" (classTokens assembly p) = some (typeName p.name, [.word ":",
      .word (supportMember assembly "PolicyBase")] ++ .mark '\x7b' ::
        (memberTokens assembly p).flatten ++ [.mark '\x7d']) := by
    simp [nameAfter, classTokens]
  have hbody : body ([.word ":", .word (supportMember assembly "PolicyBase")] ++ .mark '\x7b' ::
      (memberTokens assembly p).flatten ++ [.mark '\x7d']) =
        (memberTokens assembly p).flatten ++ [.mark '\x7d'] := rfl
  rw [Class.read, hname]
  simp only [Option.bind_eq_bind, Option.bind_some, hbody, hmembers,
    mapM_of_forall₂ (read_memberTokens assembly h)]
  rfl

/-- **The class of a policy is read back from its block**, and nothing else is in its namespace. -/
theorem read_blockTokens (assembly : String) {p : Policy} (hname : typeName p.name ≠ "") :
    Namespace.read (blockTokens assembly p) =
      some ⟨namespaceName p.namespacePath, [⟨typeName p.name, classMembers assembly p⟩]⟩ := by
  have hinside : declarations ((importedNamespaces.map importTokens ++
      [classTokens assembly p]).flatten ++ [.mark '\x7d']) =
        importedNamespaces.map importTokens ++ [classTokens assembly p] :=
    declarations_flatten (fun _ => isDeclaration_of_mem_namespace) (.inr rfl)
  have himports : (importedNamespaces.map importTokens).filter (fun d => !isImport d) = [] := by
    rw [List.filter_eq_nil_iff]
    intro d hd
    obtain ⟨n, -, rfl⟩ := List.mem_map.1 hd
    simp [isImport, importTokens]
  have hclass : (importedNamespaces.map importTokens ++ [classTokens assembly p]).filter
      (fun d => !isImport d) = [classTokens assembly p] := by
    rw [List.filter_append, himports]
    rfl
  have hread : Namespace.read (blockTokens assembly p) = (do
      let classes ← ((declarations ((importedNamespaces.map importTokens ++
        [classTokens assembly p]).flatten ++ [.mark '\x7d'])).filter
          fun d => !isImport d).mapM Class.read
      return ⟨namespaceName p.namespacePath, classes⟩) := rfl
  rw [hread, hinside, hclass, mapM_of_forall₂ (.cons (read_classTokens assembly hname) .nil)]
  rfl

theorem readNamespace_block (assembly : String) {p : Policy} (hname : typeName p.name ≠ "")
    (hpath : namespaceName p.namespacePath ≠ "") :
    readNamespace (written (blockPieces assembly p)) =
      some ⟨namespaceName p.namespacePath, [⟨typeName p.name, classMembers assembly p⟩]⟩ := by
  have hwhole : declarations (blockTokens assembly p) = [blockTokens assembly p] := by
    have h := @declarations_flatten [blockTokens assembly p] [] (by
      intro d hd
      rw [List.mem_singleton.1 hd]
      exact isDeclaration_blockTokens assembly p) (.inl rfl)
    rwa [List.flatten_singleton, List.append_nil] at h
  rw [readNamespace, tokens_block assembly hname hpath, hwhole]
  exact read_blockTokens assembly hname

/-! ## What the class declares -/

theorem property?_optionMembers (e : Element) :
    (optionMembers e).filterMap Member.property? = [] := by
  cases e <;> rfl

theorem filterMap_property? (assembly : String) (p : Policy) (es : List Element) :
    (es.flatMap fun e => optionMembers e ++ [propertyMember assembly p e]).filterMap
      Member.property? = es.map (elementProperty assembly) := by
  have helement : ∀ e, (optionMembers e ++ [propertyMember assembly p e]).filterMap
      Member.property? = [elementProperty assembly e] := by
    intro e
    rw [List.filterMap_append, property?_optionMembers, List.nil_append]
    simp only [List.filterMap_cons, List.filterMap_nil, propertyMember, Member.property?,
      keys_settingTokens, elementProperty]
  rw [List.filterMap_flatMap, List.map_eq_flatMap]
  exact congrArg (fun f => List.flatMap f es) (funext helement)

theorem filterMap_enumeration? (assembly : String) (p : Policy) (es : List Element) :
    (es.flatMap fun e => optionMembers e ++ [propertyMember assembly p e]).filterMap
      Member.enumeration? = es.filterMap elementEnumeration? := by
  rw [List.filterMap_flatMap, List.filterMap_eq_flatMap_toList]
  refine congrArg (fun f => List.flatMap f es) (funext fun e => ?_)
  cases e <;> rfl

theorem flatMap_listed (assembly : String) (p : Policy) (es : List Element) :
    (es.flatMap fun e => optionMembers e ++ [propertyMember assembly p e]).flatMap Member.listed =
      [] := by
  rw [List.flatMap_assoc, List.flatMap_eq_nil_iff]
  intro e _
  cases e <;> rfl

theorem listed_listMember (assembly : String) (p : Policy) :
    (listMember assembly p).listed = p.elements.map fun e => memberName e.id ++ "Element" :=
  names_flatten (fun e : Element => memberName e.id ++ "Element") p.elements [.mark ';']

theorem name?_elementMembers (assembly : String) (p : Policy) (es : List Element) :
    ((es.flatMap fun e => optionMembers e ++ [propertyMember assembly p e]).filterMap
      Member.name?).Perm (es.flatMap elementMembers) := by
  rw [List.filterMap_flatMap]
  refine List.Perm.flatMap_left es fun e _ => ?_
  cases e with
  | enumeration n => exact List.Perm.swap _ _ _
  | _ => exact List.Perm.refl _

theorem runtimeClass_inj {assembly : String} {k l : ElementKind}
    (h : runtimeClass assembly k = runtimeClass assembly l) : k = l := by
  have hlist := congrArg String.toList h
  simp only [runtimeClass, supportMember, String.toList_append] at hlist
  exact className_inj (String.toList_inj.1 (List.append_cancel_left hlist))

/-- Properties with items and enumerations go together. -/
theorem map_snd_enumerations (assembly : String) (es : List Element) :
    (es.filterMap elementEnumeration?).map Prod.snd =
      ((es.map (elementProperty assembly)).filter fun q =>
        q.made == runtimeClass assembly .enumeration).map Property.keys := by
  induction es with
  | nil => rfl
  | cons e es ih =>
    by_cases he : e.kind = .enumeration
    · obtain ⟨n, rfl⟩ := exists_enumeration he
      have hmade : ((elementProperty assembly (.enumeration n)).made ==
          runtimeClass assembly .enumeration) = true := beq_self_eq_true _
      simp only [List.map_cons, List.filter_cons, hmade, if_true, ← ih]
      rfl
    · have hmade : ¬ ((elementProperty assembly e).made ==
          runtimeClass assembly .enumeration) = true := by
        rw [beq_iff_eq]
        exact fun hclass => he (runtimeClass_inj hclass)
      have hnone : elementEnumeration? e = none := by
        cases e with
        | enumeration n => exact absurd rfl he
        | _ => rfl
      simp only [List.map_cons, List.filter_cons, hmade, Bool.false_eq_true, if_false, ← ih,
        List.filterMap_cons_none hnone]

theorem declares_classMembers (assembly : String) {p : Policy}
    (h : typeName p.name ∉ memberNames p) :
    Declares assembly p ⟨typeName p.name, classMembers assembly p⟩ := by
  have hproperties : Class.properties ⟨typeName p.name, classMembers assembly p⟩ =
      p.elements.map (elementProperty assembly) := by
    rw [Class.properties, classMembers, List.filterMap_append, List.filterMap_append,
      filterMap_property?]
    exact List.append_nil _
  have henumerations : Class.enumerations ⟨typeName p.name, classMembers assembly p⟩ =
      p.elements.filterMap elementEnumeration? := by
    rw [Class.enumerations, classMembers, List.filterMap_append, List.filterMap_append,
      filterMap_enumeration?]
    exact List.append_nil _
  have hlisted : Class.listed ⟨typeName p.name, classMembers assembly p⟩ =
      p.elements.map fun e => memberName e.id ++ "Element" := by
    rw [Class.listed, classMembers, List.flatMap_append, List.flatMap_append, flatMap_listed,
      List.flatMap_singleton, listed_listMember]
    rfl
  have hdeclared : (Class.declared ⟨typeName p.name, classMembers assembly p⟩).Perm
      (memberNames p) := by
    rw [Class.declared, classMembers, List.filterMap_append, List.filterMap_append, memberNames,
      List.append_assoc]
    -- the list of elements is declared last and checked before the elements
    refine List.Perm.append_left ["DisplayName", "ResourceId", "SupportedOn"] ?_
    exact List.perm_append_comm.trans ((name?_elementMembers assembly p p.elements).append_left _)
  refine ⟨rfl, hproperties, henumerations, ?_, ?_, hdeclared, ?_⟩
  · rw [hlisted, hproperties, List.map_map]
    rfl
  · rw [henumerations, hproperties, map_snd_enumerations]
  · exact fun hmem => h (hdeclared.mem_iff.1 hmem)

/-- **No element is lost, written twice or written as another kind**, and the names that a class is
checked against are those that it declares. -/
theorem block_declares (assembly : String) {p : Policy} (h : refusal? p = none) :
    ∃ text c, block (namespaceName assembly) p = .ok text ∧
      readNamespace text = some ⟨namespaceName p.namespacePath, [c]⟩ ∧ Declares assembly p c := by
  obtain ⟨hname, hpath, hmember⟩ := refusal?_eq_none_iff.1 h
  exact ⟨_, _, block_eq assembly p, readNamespace_block assembly hname hpath,
    declares_classMembers assembly hmember⟩

/-- An element without items, and one with a blank item. -/
theorem block_declares_blank_item :
    let p := { Policy.named "a" "n" "k" with elements := [
      .text ⟨"b c", none, "v", true, 1, false⟩,
      .enumeration ⟨"for", none, "v", true,
        [⟨" ", "d", .delete⟩, ⟨"default", "d", .string "\x7b"⟩]⟩] }
    refusal? p = none ∧ ∃ text c, block (namespaceName "A") p = .ok text ∧
      readNamespace text = some ⟨namespaceName p.namespacePath, [c]⟩ ∧ Declares "A" p c := by
  intro p
  have hp : refusal? p = none := by decide
  exact ⟨hp, block_declares "A" hp⟩

end PolicyForge.Source
