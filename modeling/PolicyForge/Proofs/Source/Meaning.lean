import PolicyForge.Proofs.Source.Decoding
/-!
# What a block says

A block determines what its policy does to the registry (`block_meaning`).  Of a policy it leaves
out only what has no part in that, and the spelling of a default.  No quote, suffix or separator
is missing that would let two policies have one text.
-/
namespace PolicyForge

/-! ## Meanings -/

/-- The settings that elements of a kind have of their own. -/
inductive ElementParameters where
  | boolean (valueName : String) (trueValue falseValue : RegistryValue)
  | decimal (valueName : String) (required : Bool) (minValue maxValue : UInt32)
    (storeAsText : Bool)
  | longDecimal (valueName : String) (required : Bool) (minValue maxValue : UInt64)
    (storeAsText : Bool)
  /-- The items are the names of members with their values. -/
  | enumeration (valueName : String) (required : Bool) (items : List (String × RegistryValue))
  | list (valuePrefix : Option String) (additive explicitValue expandable : Bool)
  | multiText (valueName : String) (required : Bool) (maxLength maxStrings : UInt32)
  | text (valueName : String) (required : Bool) (maxLength : UInt32) (expandable : Bool)
  deriving DecidableEq, Repr

/-- What an element of a policy does; its key is that of the policy unless it has its own. -/
structure ElementMeaning where
  id : String
  key : String
  parameters : ElementParameters
  deriving DecidableEq, Repr

/-- What a policy does to the registry, and what it is called. -/
structure PolicyMeaning where
  policyClass : PolicyClass
  key : String
  valueName : Option String
  displayName : String
  supportedOn : Option String
  enabledValue : RegistryValue
  disabledValue : RegistryValue
  elements : List ElementMeaning
  deriving DecidableEq, Repr

namespace Source

def itemMeaning (i : EnumerationItem) : String × RegistryValue := (memberName i.id, i.value)

def parameters : Element → ElementParameters
  | .boolean e => .boolean e.valueName e.trueValue e.falseValue
  | .decimal e => .decimal e.valueName e.required e.minValue e.maxValue e.storeAsText
  | .longDecimal e => .longDecimal e.valueName e.required e.minValue e.maxValue e.storeAsText
  | .enumeration e => .enumeration e.valueName e.required (e.items.map itemMeaning)
  | .list e => .list e.valuePrefix e.additive e.explicitValue e.expandable
  | .multiText e => .multiText e.valueName e.required e.maxLength e.maxStrings
  | .text e => .text e.valueName e.required e.maxLength e.expandable

def elementMeaning (p : Policy) (e : Element) : ElementMeaning :=
  ⟨e.id, p.elementKey e, parameters e⟩

/-- What a policy means: an absent value of a state is one for enabled and zero for disabled. -/
def meaning (p : Policy) : PolicyMeaning where
  policyClass := p.policyClass
  key := p.key
  valueName := p.valueName
  displayName := p.displayName
  supportedOn := p.supportedOn
  enabledValue := p.enabledValue.getD (.decimal 1)
  disabledValue := p.disabledValue.getD (.decimal 0)
  elements := p.elements.map (elementMeaning p)

/-! ## Reading an element back -/

@[simp] theorem ofText?_inj {s t : Option String} :
    RegistryValue.ofText? s = RegistryValue.ofText? t ↔ s = t := by
  cases s <;> cases t <;> simp [RegistryValue.ofText?]

theorem className_inj {k l : ElementKind} (h : k.className = l.className) : k = l := by
  cases k <;> cases l <;> first | rfl | exact absurd h (by decide)

/-- The enumeration of items goes on to its closing brace. -/
theorem ne_of_mem_optionPieces {items : List EnumerationItem} {c : Char}
    (hc : c ∈ (written (items.flatMap optionPieces)).toList) : (c != '\x7d') = true := by
  induction items with
  | nil => cases hc
  | cons i items ih =>
    rw [List.flatMap_cons, toList_written_append, List.mem_append, optionPieces,
      toList_written_cons, List.mem_append] at hc
    rcases hc with (hc | hc) | hc
    · rw [bne_iff_ne]
      exact Text.ne_of_holds (isSupportPart_of_shape rfl hc) (by decide)
    · exact List.all_eq_true.1 (by decide : (written [.fixed ",\n"]).toList.all (· != '\x7d')) c hc
    · exact ih hc

theorem alike_entryPieces (i j : EnumerationItem) : Alike (entryPieces i) (entryPieces j) := by
  apply alike_of_spells
  · dsimp only [entryPieces]
    repeat constructor
  · dsimp only [entryPieces]
    repeat constructor
  · decide

theorem cut_entryPieces {i j : EnumerationItem} {r r' : List Char}
    (h : (written (entryPieces i)).toList ++ r = (written (entryPieces j)).toList ++ r') :
    itemMeaning i = itemMeaning j ∧ r = r' := by
  obtain ⟨hdata, hr⟩ := data_eq_of_alike (alike_entryPieces i j) h
  simp only [entryPieces, List.map_cons, List.map_nil, Piece.datum, List.cons.injEq,
    Option.some.injEq, toLiteral_inj, RegistryValue.string.injEq, and_true, true_and] at hdata
  exact ⟨by rw [itemMeaning, itemMeaning, hdata.1, hdata.2], hr⟩

/-- The dictionary of items goes on to its closing brace. -/
theorem ne_entryPieces (i : EnumerationItem) (r t : List Char) :
    (written (entryPieces i)).toList ++ t ≠ (written [.fixed "\x7d);\n"]).toList ++ r :=
  written_ne rfl rfl (by decide) _ _ t r

theorem written_elementPieces (assembly : String) (p : Policy) {e : Element}
    (h : e.kind ≠ .enumeration) : ∃ t, (written (elementPieces assembly p e)).toList =
      (written [.fixed "\npublic ", .support assembly, .fixed "."]).toList ++
        (e.kind.className.toList ++ ' ' :: t) := by
  have hpieces : ∃ ps, elementPieces assembly p e =
      [Piece.fixed "\npublic ", .support assembly, .fixed "."] ++
        ([Piece.fixed e.kind.className] ++ Piece.fixed " " :: ps) := by
    cases e with
    | enumeration n => exact absurd rfl h
    | _ => exact ⟨_, rfl⟩
  obtain ⟨ps, hps⟩ := hpieces
  refine ⟨(written ps).toList, ?_⟩
  have hname : (written [.fixed e.kind.className]).toList = e.kind.className.toList := by
    rw [written, written, String.append_empty, Piece.string]
  have hspace : (Piece.fixed " ").string.toList = [' '] := rfl
  rw [hps, toList_written_append, toList_written_append, hname, toList_written_cons (.fixed " "),
    hspace, List.singleton_append]

theorem written_enumerationPieces (assembly : String) (p : Policy) (n : EnumerationElement) :
    ∃ t, (written (elementPieces assembly p (.enumeration n))).toList =
      "\npublic ".toList ++ 'e' :: t := by
  have hpieces : ∃ ps, elementPieces assembly p (.enumeration n) =
      .fixed "\npublic enum " :: ps := ⟨_, rfl⟩
  obtain ⟨ps, hps⟩ := hpieces
  refine ⟨"num ".toList ++ (written ps).toList, ?_⟩
  rw [hps, toList_written_cons]
  rfl

theorem written_support (assembly : String) :
    ∃ t, (written [.fixed "\npublic ", .support assembly, .fixed "."]).toList =
      "\npublic ".toList ++ 'g' :: t := by
  have hpath : ∃ t, (Piece.support assembly).string.toList = 'g' :: t := by
    rw [Piece.string, supportPath, String.toList_append, String.toList_append,
      String.toList_append, List.append_assoc, List.append_assoc]
    exact ⟨_, rfl⟩
  obtain ⟨t, ht⟩ := hpath
  refine ⟨t ++ (written [.fixed "."]).toList, ?_⟩
  rw [toList_written_cons, toList_written_cons, ht]
  rfl

theorem exists_enumeration {e : Element} (h : e.kind = .enumeration) :
    ∃ n, e = .enumeration n := by
  cases e with
  | enumeration n => exact ⟨n, rfl⟩
  | _ => cases h

/-- **The kind of an element is read back.** -/
theorem kind_eq {assembly : String} {p q : Policy} {e f : Element} {r r' : List Char}
    (h : (written (elementPieces assembly p e)).toList ++ r =
      (written (elementPieces assembly q f)).toList ++ r') : e.kind = f.kind := by
  -- after `public` an enumeration goes on with a keyword, and a property with the support code
  have hmixed : ∀ {p q : Policy} {e f : Element} {r r' : List Char}, e.kind = .enumeration →
      f.kind ≠ .enumeration → (written (elementPieces assembly p e)).toList ++ r ≠
        (written (elementPieces assembly q f)).toList ++ r' := by
    intro p q e f r r' he hf h
    obtain ⟨n, rfl⟩ := exists_enumeration he
    obtain ⟨t, ht⟩ := written_enumerationPieces assembly p n
    obtain ⟨u, hu⟩ := written_elementPieces assembly q hf
    obtain ⟨v, hv⟩ := written_support assembly
    rw [ht, hu, hv] at h
    simp only [List.append_assoc, List.cons_append] at h
    cases (List.cons.inj (List.append_cancel_left h)).1
  by_cases he : e.kind = .enumeration <;> by_cases hf : f.kind = .enumeration
  · rw [he, hf]
  · exact absurd h (hmixed he hf)
  · exact absurd h.symm (hmixed hf he)
  · obtain ⟨t, ht⟩ := written_elementPieces assembly p he
    obtain ⟨u, hu⟩ := written_elementPieces assembly q hf
    rw [ht, hu] at h
    simp only [List.append_assoc, List.cons_append] at h
    have htail := List.append_cancel_left h
    have hne : ∀ k : ElementKind, ∀ c ∈ k.className.toList, (c != ' ') = true := by
      intro k
      rw [← List.all_eq_true]
      cases k <;> decide
    have hname := (cut_run (hne _) (hne _) (by decide) (by decide) htail).1
    exact className_inj (String.toList_inj.1 hname)

theorem alike_propertyPieces (assembly : String) {e f : Element} (h : e.kind = f.kind) :
    Alike (propertyPieces assembly e) (propertyPieces assembly f) := by
  rw [propertyPieces, propertyPieces, h]
  cases f.kind
  all_goals
    apply alike_of_spells
    · dsimp only [ElementKind.className]
      repeat constructor
    · dsimp only [ElementKind.className]
      repeat constructor
    · decide

/-- What ends the arguments of an element, unless they end by themselves. -/
def argumentsEnd : ElementKind → List Piece
  | .enumeration => []
  | _ => [.fixed ");\n"]

theorem alike_arguments (p q : Policy) {e f : Element} (h : e.kind = f.kind) :
    Alike (argumentPieces (elementArguments p e) ++ argumentsEnd e.kind)
      (argumentPieces (elementArguments q f) ++ argumentsEnd f.kind) := by
  cases e <;> cases f <;> cases h
  all_goals
    apply alike_of_spells
    · dsimp only [elementArguments, argumentPieces, argumentsEnd, Element.kind]
      repeat constructor
    · dsimp only [elementArguments, argumentPieces, argumentsEnd, Element.kind]
      repeat constructor
    · decide

def elementItems : Element → List EnumerationItem
  | .enumeration e => e.items
  | _ => []

/-- The arguments of an element and its items determine its meaning. -/
theorem elementMeaning_eq {p q : Policy} {e f : Element} (hkind : e.kind = f.kind)
    (hdata : (argumentPieces (elementArguments p e) ++ argumentsEnd e.kind).map Piece.datum =
      (argumentPieces (elementArguments q f) ++ argumentsEnd f.kind).map Piece.datum)
    (hitems : (elementItems e).map itemMeaning = (elementItems f).map itemMeaning) :
    elementMeaning p e = elementMeaning q f := by
  cases e <;> cases f <;> cases hkind
  all_goals
    simp only [elementArguments, argumentPieces, argumentsEnd, Element.kind, List.cons_append,
      List.nil_append, List.map_cons, List.map_nil, Piece.datum, List.cons.injEq,
      Option.some.injEq, toLiteral_inj, ofText?_inj, RegistryValue.string.injEq,
      RegistryValue.decimal.injEq, RegistryValue.longDecimal.injEq, Literal.bool.injEq, and_true,
      true_and] at hdata
    simp only [elementItems] at hitems
    simp only [elementMeaning, parameters, hdata, hitems]

/-- The arguments of an element are read back from the property that holds it. -/
theorem cut_property {assembly : String} {p q : Policy} {e f : Element} {ps qs : List Piece}
    {r r' : List Char} (hkind : e.kind = f.kind)
    (h : (written (propertyPieces assembly e ++
        ((argumentPieces (elementArguments p e) ++ argumentsEnd e.kind) ++ ps))).toList ++ r =
      (written (propertyPieces assembly f ++
        ((argumentPieces (elementArguments q f) ++ argumentsEnd f.kind) ++ qs))).toList ++ r') :
    (argumentPieces (elementArguments p e) ++ argumentsEnd e.kind).map Piece.datum =
      (argumentPieces (elementArguments q f) ++ argumentsEnd f.kind).map Piece.datum ∧
      (written ps).toList ++ r = (written qs).toList ++ r' := by
  have hproperty := cut_append (alike_propertyPieces assembly hkind) h
  exact cut_append (alike_arguments p q hkind) hproperty.2

theorem alike_enumerationStart (m n : EnumerationElement) :
    Alike [.fixed "\npublic enum ", .typeName m.id, .fixed "Option\n\x7b\n"]
      [.fixed "\npublic enum ", .typeName n.id, .fixed "Option\n\x7b\n"] := by
  apply alike_of_spells
  · repeat constructor
  · repeat constructor
  · decide

theorem cut_optionPieces {items items' : List EnumerationItem} {ps qs : List Piece}
    {r r' : List Char}
    (h : (written (items.flatMap optionPieces ++ Piece.fixed "\x7d\n" :: ps)).toList ++ r =
      (written (items'.flatMap optionPieces ++ Piece.fixed "\x7d\n" :: qs)).toList ++ r') :
    (written ps).toList ++ r = (written qs).toList ++ r' := by
  have hbrace : ∀ (ps : List Piece) (r : List Char), (written (.fixed "\x7d\n" :: ps)).toList ++ r =
      '\x7d' :: '\n' :: ((written ps).toList ++ r) := by
    intro ps r
    rw [toList_written_cons, List.append_assoc]
    rfl
  rw [toList_written_append_append, toList_written_append_append (items'.flatMap _), hbrace,
    hbrace] at h
  have hrest := (cut_run (fun _ => ne_of_mem_optionPieces) (fun _ => ne_of_mem_optionPieces)
    (by decide) (by decide) h).2
  exact (List.cons.inj (List.cons.inj hrest).2).2

/-- The property of an element with items stands between two lists of them. -/
theorem elementPieces_enumeration (assembly : String) (p : Policy) (n : EnumerationElement) :
    elementPieces assembly p (.enumeration n) =
      [Piece.fixed "\npublic enum ", .typeName n.id, .fixed "Option\n\x7b\n"] ++
        (n.items.flatMap optionPieces ++ (Piece.fixed "\x7d\n" ::
          (propertyPieces assembly (.enumeration n) ++
            ((argumentPieces (elementArguments p (.enumeration n)) ++
              argumentsEnd (Element.enumeration n).kind) ++
          (n.items.flatMap entryPieces ++ [Piece.fixed "\x7d);\n"]))))) := by
  simp only [elementPieces, argumentsEnd, Element.kind, List.append_assoc, List.cons_append,
    List.nil_append]

/-- An element without items is a property. -/
theorem elementPieces_of_ne (assembly : String) (p : Policy) {e : Element}
    (h : e.kind ≠ .enumeration) : elementPieces assembly p e = propertyPieces assembly e ++
      ((argumentPieces (elementArguments p e) ++ argumentsEnd e.kind) ++ []) := by
  cases e with
  | enumeration n => exact absurd rfl h
  | _ => rfl

theorem elementItems_of_ne {e : Element} (h : e.kind ≠ .enumeration) : elementItems e = [] := by
  cases e with
  | enumeration n => exact absurd rfl h
  | _ => rfl

/-- **An element is read back from its text.** -/
theorem cut_elementPieces {assembly : String} {p q : Policy} {e f : Element} {r r' : List Char}
    (h : (written (elementPieces assembly p e)).toList ++ r =
      (written (elementPieces assembly q f)).toList ++ r') :
    elementMeaning p e = elementMeaning q f ∧ r = r' := by
  have hkind := kind_eq h
  by_cases he : e.kind = .enumeration
  · obtain ⟨m, rfl⟩ := exists_enumeration he
    obtain ⟨n, rfl⟩ := exists_enumeration (hkind ▸ he)
    rw [elementPieces_enumeration, elementPieces_enumeration] at h
    have hoptions := cut_append (alike_enumerationStart m n) h
    obtain ⟨hdata, hentries⟩ := cut_property hkind (cut_optionPieces hoptions.2)
    obtain ⟨hitems, hend⟩ := cut_flatMap (fun _ _ _ _ => cut_entryPieces)
      (fun i => ne_entryPieces i _) (fun i => ne_entryPieces i _) hentries
    exact ⟨elementMeaning_eq hkind hdata hitems, List.append_cancel_left hend⟩
  · have hf : f.kind ≠ .enumeration := hkind ▸ he
    rw [elementPieces_of_ne assembly p he, elementPieces_of_ne assembly q hf] at h
    obtain ⟨hdata, hr⟩ := cut_property hkind h
    exact ⟨elementMeaning_eq hkind hdata (by rw [elementItems_of_ne he, elementItems_of_ne hf]), hr⟩

/-! ## Reading a block back -/

section

variable (assembly : String) (p q : Policy)

/-- The start of a block, up to its explanation. -/
def headStart (p : Policy) : List Piece :=
  [Piece.fixed "namespace ", .path p.namespacePath, .fixed "\n\x7b\n"] ++ importPieces ++
  [Piece.fixed "\n/// <summary>\n", .comment p.displayName, .fixed "\n/// </summary>\n"]

/-- The start of a block, from its explanation to the class of its policy. -/
def headEnd (p : Policy) : List Piece :=
  [.fixed "public sealed partial class ", .typeName p.name, .fixed " : ", .support assembly,
    .fixed ".PolicyBase\n\x7b\npublic ", .typeName p.name, .fixed "()\n: base("]

theorem alike_headStart : Alike (headStart p) (headStart q) := by
  apply alike_of_spells
  · dsimp only [headStart, importPieces, importedNamespaces]
    repeat constructor
  · dsimp only [headStart, importPieces, importedNamespaces]
    repeat constructor
  · decide

theorem alike_headEnd : Alike (headEnd assembly p) (headEnd assembly q) := by
  apply alike_of_spells
  · repeat constructor
  · repeat constructor
  · decide

theorem alike_state : Alike (argumentPieces (stateArguments p) ++ propertiesPieces p)
    (argumentPieces (stateArguments q) ++ propertiesPieces q) := by
  apply alike_of_spells
  · dsimp only [stateArguments, argumentPieces, propertiesPieces]
    repeat constructor
  · dsimp only [stateArguments, argumentPieces, propertiesPieces]
    repeat constructor
  · decide

theorem alike_remark (s t : String) :
    Alike [.fixed "/// <remarks>\n", .comment s, .fixed "\n/// </remarks>\n"]
      [.fixed "/// <remarks>\n", .comment t, .fixed "\n/// </remarks>\n"] := by
  apply alike_of_spells
  · repeat constructor
  · repeat constructor
  · decide

theorem remarkPieces_cases (s : Option String) : remarkPieces s = [] ∨
    ∃ t, remarkPieces s =
      [.fixed "/// <remarks>\n", .comment t, .fixed "\n/// </remarks>\n"] := by
  cases s with
  | none => exact .inl rfl
  | some t =>
    rw [remarkPieces]
    split
    · exact .inl rfl
    · exact .inr ⟨t, rfl⟩

end

/-- Whether there is an explanation shows. -/
theorem ne_remark {assembly : String} {p : Policy} {t : String} {ps qs : List Piece}
    {r r' : List Char} :
    (written (headEnd assembly p ++ ps)).toList ++ r ≠
      (written ([Piece.fixed "/// <remarks>\n", .comment t, .fixed "\n/// </remarks>\n"] ++
        qs)).toList ++ r' :=
  written_ne rfl rfl (by decide) _ _ r r'

theorem cut_remarkPieces {assembly : String} {p q : Policy} {s s' : Option String}
    {ps qs : List Piece} {r r' : List Char}
    (h : (written (remarkPieces s ++ (headEnd assembly p ++ ps))).toList ++ r =
      (written (remarkPieces s' ++ (headEnd assembly q ++ qs))).toList ++ r') :
    (written (headEnd assembly p ++ ps)).toList ++ r =
      (written (headEnd assembly q ++ qs)).toList ++ r' := by
  rcases remarkPieces_cases s with hs | ⟨t, hs⟩ <;>
    rcases remarkPieces_cases s' with hs' | ⟨t', hs'⟩ <;> rw [hs, hs'] at h
  · exact h
  · exact absurd h ne_remark
  · exact absurd h.symm ne_remark
  · exact (cut_append (alike_remark t t') h).2

def classPieces (assembly : String) (c : PolicyClass) : List Piece :=
  [.support assembly, .fixed ".PolicyClass.", .fixed c.memberName, .fixed ", "]

theorem cut_classPieces {assembly : String} {c d : PolicyClass} {ps qs : List Piece}
    {r r' : List Char} (h : (written (classPieces assembly c ++ ps)).toList ++ r =
      (written (classPieces assembly d ++ qs)).toList ++ r') :
    c = d ∧ (written ps).toList ++ r = (written qs).toList ++ r' := by
  have htext : ∀ c ps r, (written (classPieces assembly c ++ ps)).toList ++ r =
      (Piece.support assembly).string.toList ++ (".PolicyClass.".toList ++ (c.memberName.toList ++
        ',' :: ' ' :: ((written ps).toList ++ r))) := by
    intro c ps r
    have hcomma : (Piece.fixed ", ").string.toList = [',', ' '] := by decide
    simp only [classPieces, List.cons_append, List.nil_append, toList_written_cons, hcomma,
      List.append_assoc]
    rfl
  have hne : ∀ c : PolicyClass, ∀ x ∈ c.memberName.toList, (x != ',') = true := by
    intro c
    rw [← List.all_eq_true]
    cases c <;> decide
  rw [htext, htext] at h
  obtain ⟨hname, hrest⟩ := cut_run (hne c) (hne d) (by decide) (by decide)
    (List.append_cancel_left (List.append_cancel_left h))
  refine ⟨?_, (List.cons.inj (List.cons.inj hrest).2).2⟩
  cases c <;> cases d <;> first | rfl | exact absurd hname (by decide)

theorem blockPieces_eq (assembly : String) (p : Policy) : blockPieces assembly p =
    headStart p ++ (remarkPieces p.explainText ++ (headEnd assembly p ++
      (classPieces assembly p.policyClass ++
        ((argumentPieces (stateArguments p) ++ propertiesPieces p) ++
          (p.elements.flatMap (elementPieces assembly p) ++ tailPieces assembly p))))) := by
  simp only [blockPieces, headPieces, headStart, headEnd, classPieces, List.append_assoc,
    List.cons_append, List.nil_append]

/-- The list of the elements begins otherwise than an element. -/
theorem ne_tailPieces {assembly : String} {p q : Policy} (e : Element) (r t : List Char) :
    (written (elementPieces assembly p e)).toList ++ t ≠
      (written (tailPieces assembly q)).toList ++ r := by
  intro h
  have htail : ∃ u, (written (tailPieces assembly q)).toList = "\npublic ".toList ++ 'o' :: u := by
    rw [tailPieces, List.append_assoc, List.cons_append, toList_written_cons]
    exact ⟨_, rfl⟩
  have helement : ∃ c u, c ≠ 'o' ∧
      (written (elementPieces assembly p e)).toList = "\npublic ".toList ++ c :: u := by
    by_cases he : e.kind = .enumeration
    · obtain ⟨n, rfl⟩ := exists_enumeration he
      obtain ⟨u, hu⟩ := written_enumerationPieces assembly p n
      exact ⟨'e', u, by decide, hu⟩
    · obtain ⟨u, hu⟩ := written_elementPieces assembly p he
      obtain ⟨v, hv⟩ := written_support assembly
      rw [hv, List.append_assoc] at hu
      exact ⟨'g', _, by decide, hu⟩
  obtain ⟨u, hu⟩ := htail
  obtain ⟨c, v, hc, hv⟩ := helement
  rw [hu, hv, List.append_assoc, List.append_assoc "\npublic ".toList ('o' :: u)] at h
  exact hc (List.cons.inj (List.append_cancel_left h)).1

/-- **A block determines what its policy does to the registry.**  Two policies with the same text
agree on everything that `PolicyMeaning` holds, element by element. -/
theorem block_meaning {assembly text : String} {p q : Policy}
    (hp : block (namespaceName assembly) p = .ok text)
    (hq : block (namespaceName assembly) q = .ok text) : meaning p = meaning q := by
  rw [block_eq, Except.ok.injEq] at hp hq
  have h : (written (blockPieces assembly p)).toList ++ [] =
      (written (blockPieces assembly q)).toList ++ [] := by
    rw [hp, hq]
  rw [blockPieces_eq, blockPieces_eq] at h
  have hremark := (cut_append (alike_headStart p q) h).2
  have hhead := cut_remarkPieces hremark
  obtain ⟨hclass, hstate⟩ := cut_classPieces (cut_append (alike_headEnd assembly p q) hhead).2
  obtain ⟨hdata, helements⟩ := cut_append (alike_state p q) hstate
  have hmap := (cut_flatMap (fun _ _ _ _ => cut_elementPieces) (fun e => ne_tailPieces e _)
    (fun e => ne_tailPieces e _) helements).1
  simp only [stateArguments, argumentPieces, propertiesPieces, List.cons_append, List.nil_append,
    List.map_cons, List.map_nil, Piece.datum, List.cons.injEq, Option.some.injEq, toLiteral_inj,
    ofText?_inj, RegistryValue.string.injEq, and_true, true_and] at hdata
  obtain ⟨hkey, hname, henabled, hdisabled, hdisplay, -, hsupported⟩ := hdata
  simp only [meaning, hclass, hkey, hname, hdisplay, hsupported, henabled, hdisabled, hmap]

/-- Policies that differ in spelling alone: a default, an element's key that is the policy's, and an
explanation that says nothing. -/
theorem block_meaning_spelling : ∃ p q text, p ≠ q ∧
    block (namespaceName "A") p = .ok text ∧ block (namespaceName "A") q = .ok text ∧
    meaning p = meaning q := by
  have hp := block_eq "A" { Policy.named "a" "n" "k" with
    elements := [.enumeration ⟨"e", none, "v", true, [⟨"i", "I", .string "\""⟩]⟩] }
  have hq := block_eq "A" { Policy.named "a" "n" "k" with
    explainText := some "", enabledValue := some (.decimal 1),
    elements := [.enumeration ⟨"e", some "k", "v", true, [⟨"i", "J", .string "\""⟩]⟩] }
  exact ⟨_, _, _, by decide, hp, hq, block_meaning hp hq⟩

end Source

end PolicyForge
