import Mathlib.Data.List.Forall2
import PolicyForge.Proofs.Source.Pieces
/-!
# The text of a block

The template comes to the pieces of a block in their order, for every policy (`block_eq`).  Of the
template's helpers none fails on what a policy holds.
-/
namespace PolicyForge.Source

open Data Template

/-! ## What the template comes to -/

theorem field?_policyContext (p : Policy) (support name : String)
    (h : name ∉ ["elements", "class_member", "runtime", "using_references"]) :
    (policyContext p support).field? name = p.toJson.field? name := by
  simp only [List.mem_cons, List.not_mem_nil, or_false, not_or] at h
  obtain ⟨h1, h2, h3, h4⟩ := h
  exact (((Template.field?_setField_of_ne _ _ (Ne.symm h4)).trans
    (Template.field?_setField_of_ne _ _ (Ne.symm h3))).trans
    (Template.field?_setField_of_ne _ _ (Ne.symm h2))).trans
    (Template.field?_setField_of_ne _ _ (Ne.symm h1))

section

variable {context : Json}

/-- A value that has a field counts as there. -/
theorem holds_of_field? {j value : Json} {name : String} (h : j.field? name = some value) :
    holds j = true := by
  cases j with
  | object fields =>
    cases fields with
    | nil => cases h
    | cons f rest => rfl
  | _ => cases h

theorem eval_field {field : String} {j : Json} (h : context.field? field = some j) :
    (Expr.field field).eval context = .ok j := by
  rw [Expr.eval, h, Option.getD_some]

theorem evalAll_fixed (s : String) (rest : List Node) :
    evalAll context (text s :: rest) = (evalAll context rest).map (s ++ ·) :=
  evalAll_text s rest

theorem evalAll_plain {field s : String} (h : context.field? field = some (.string s))
    (rest : List Node) :
    evalAll context (plain field :: rest) = (evalAll context rest).map (s ++ ·) :=
  evalAll_put (eval_field h) rest

theorem evalAll_put_call {helper field s : String} {j : Json} (h : context.field? field = some j)
    (hs : call helper [j] = .ok (.string s)) (rest : List Node) :
    evalAll context (put helper field :: rest) = (evalAll context rest).map (s ++ ·) :=
  evalAll_put ((eval_call helper (eval_field h)).trans hs) rest

/-- The nodes come to the piece. -/
def Says (context : Json) (ns : List Node) (p : Piece) : Prop := evalAll context ns = .ok p.string

theorem says_put {helper field : String} {j : Json} {p : Piece} (h : context.field? field = some j)
    (hp : call helper [j] = .ok (.string p.string)) : Says context [put helper field] p := by
  rw [Says, evalAll_put_call h hp, evalAll, Except.map, String.append_empty]

theorem says_text {field s : String} (h : context.field? field = some (.string s)) :
    Says context [lit field] (.value (.string s)) :=
  says_put h (call_literal_string s)

theorem says_textOrNull {field : String} {s : Option String}
    (h : context.field? field = some (textOrNull s)) :
    Says context [lit field] (.value (.ofText? s)) :=
  says_put h (call_literal_textOrNull s)

theorem says_flag {field : String} {b : Bool} (h : context.field? field = some (.bool b)) :
    Says context [lit field] (.flag b) :=
  says_put h (call_literal_bool b)

theorem says_u32 {field : String} {n : UInt32} (h : context.field? field = some (.int n.toNat)) :
    Says context [put "u32" field] (.value (.decimal n)) :=
  says_put h (call_u32 n)

theorem says_u64 {field : String} {n : UInt64} (h : context.field? field = some (.int n.toNat)) :
    Says context [put "u64" field] (.value (.longDecimal n)) :=
  says_put h (call_u64 n)

theorem says_valueNodes {field : String} {v : RegistryValue}
    (h : context.field? field = some v.toJson) : Says context (valueNodes field) (.value v) := by
  have hdelval := (eval_call "is_delval" (eval_field h)).trans (call_is_delval v)
  rw [Says, valueNodes, evalAll_singleton, eval_cond hdelval]
  cases hv : v.isDelete with
  | true =>
    cases v with
    | delete => rfl
    | _ => cases hv
  | false => exact says_put h (call_literal (literalOf_toJson hv))

theorem holds_toJson (v : RegistryValue) : holds v.toJson = true := by
  cases v <;> rfl

/-- The value of a state, and what stands for it when it is absent. -/
theorem says_stateNodes {field numeral : String} {v : Option RegistryValue} {n : UInt32}
    (h : context.field? field = some (Json.ofOption RegistryValue.toJson v))
    (hn : literal (.u32 n) = numeral) :
    Says context (stateNodes field numeral) (.value (v.getD (.decimal n))) := by
  cases v with
  | none =>
    have hdelval : (Expr.call "is_delval" (.field field)).eval context = .ok (.bool false) :=
      eval_call "is_delval" (eval_field h)
    rw [Says, stateNodes, evalAll_singleton, eval_cond hdelval]
    show evalAll context [.cond (.field field) [lit field] [text numeral]] = _
    rw [evalAll_singleton, eval_cond (eval_field h)]
    show evalAll context [.text numeral] = _
    rw [evalAll_singleton, Node.eval, ← hn]
    rfl
  | some v =>
    have hv : context.field? field = some v.toJson := h
    have hvalue := says_valueNodes hv
    rw [Says, valueNodes, evalAll_singleton, Node.eval] at hvalue
    rw [Says, stateNodes, evalAll_singleton, Node.eval, evalAll_singleton (.cond _ _ _),
      eval_cond (eval_field hv), if_pos (holds_toJson v)]
    exact hvalue

/-- Arguments that come to pieces come to those pieces with commas between them. -/
theorem evalAll_commaSeparated : ∀ {arguments : List (List Node)} {ps : List Piece},
    List.Forall₂ (Says context) arguments ps →
      evalAll context (commaSeparated arguments) = .ok (written (argumentPieces ps))
  | _, _, .nil => by
    rw [commaSeparated, evalAll]
    rfl
  | _, _, .cons h .nil => by
    rw [commaSeparated, show evalAll context _ = _ from h, argumentPieces, written, written,
      String.append_empty]
  | _, _, .cons h (.cons h' rest) => by
    have ih := evalAll_commaSeparated (.cons h' rest)
    rw [commaSeparated, evalAll_append h, evalAll_fixed, ih]
    · rfl
    · exact List.cons_ne_nil _ _

end

/-! ## Elements -/

/-- What the template says of elements of a kind. -/
def elementBody : ElementKind → List Node
  | .boolean => property "BooleanElement"
      [[lit "id"], [lit "key"], [lit "value_name"], valueNodes "true_value",
        valueNodes "false_value"]
  | .decimal => property "DecimalElement"
      [[lit "id"], [lit "key"], [lit "value_name"], [lit "required"], [put "u32" "min_value"],
        [put "u32" "max_value"], [lit "store_as_text"]]
  | .longDecimal => property "LongDecimalElement"
      [[lit "id"], [lit "key"], [lit "value_name"], [lit "required"], [put "u64" "min_value"],
        [put "u64" "max_value"], [lit "store_as_text"]]
  | .enumeration =>
      [text "\npublic enum ", put "escape_type" "id", text "Option\n\x7b\n",
        .each "items" [put "escape_identifier" "id", text ",\n"], text "\x7d\n"] ++
      propertyStart "EnumerationElement" ++
      commaSeparated [[lit "id"], [lit "key"], [lit "value_name"], [lit "required"],
        [text "new global::System.Collections.Generic.Dictionary<string, object>\n\x7b\n"]] ++
      [.each "items" ([text "\x7b ",
          .put (.call "literal" (.call "escape_identifier" (.field "id"))), text ", "] ++
            valueNodes "value" ++ [text " \x7d,\n"]),
        text "\x7d);\n"]
  | .list => property "ListElement"
      [[lit "id"], [lit "key"], [lit "value_prefix"], [lit "additive"], [lit "explicit_value"],
        [lit "expandable"]]
  | .multiText => property "MultiTextElement"
      [[lit "id"], [lit "key"], [lit "value_name"], [lit "required"], [put "u32" "max_length"],
        [put "u32" "max_strings"]]
  | .text => property "TextElement"
      [[lit "id"], [lit "key"], [lit "value_name"], [lit "required"], [put "u32" "max_length"],
        [lit "expandable"]]

theorem elementBlocks_eq :
    elementBlocks = ElementKind.all.map fun k => elementBlock k (elementBody k) := rfl

theorem eval_elementBlock {context : Json} {k : ElementKind} (hk : kindOf context = some k.tag)
    (hc : holds context = true) (l : ElementKind) (body : List Node) :
    (elementBlock l body).eval context = if k = l then evalAll context body else .ok "" := by
  have hquestion : (Expr.call (questionName l) .self).eval context = .ok (.bool (k == l)) := by
    rw [eval_call _ rfl, call_questionName, hk]
    have hiff : (some k.tag == some l.tag) = (k == l) := by
      rw [Bool.eq_iff_iff, beq_iff_eq, beq_iff_eq, Option.some_inj]
      exact ⟨ElementKind.tag_inj, congrArg _⟩
    rw [hiff]
  rw [elementBlock, eval_cond hquestion]
  by_cases h : k = l
  · subst h
    have hcast : (Expr.call (castName k) .self).eval context = .ok context := by
      rw [eval_call _ rfl, call_castName hk]
    simp only [holds, beq_self_eq_true, if_true]
    rw [evalAll_singleton, eval_within hcast hc]
  · have hne : (k == l) = false := beq_eq_false_iff_ne.2 h
    simp only [holds, hne, Bool.false_eq_true, if_false, if_neg h]
    rw [evalAll]

/-- Of the blocks of all kinds one says something. -/
theorem evalAll_elementBlocks {context : Json} {k : ElementKind} {s : String}
    (hk : kindOf context = some k.tag) (hc : holds context = true)
    (h : evalAll context (elementBody k) = .ok s) : evalAll context elementBlocks = .ok s := by
  rw [elementBlocks_eq, ElementKind.all]
  simp only [List.map_cons, List.map_nil, evalAll, eval_elementBlock hk hc]
  cases k <;> simp [h]

/-! ### The fields of an element -/

section

variable (p : Policy) (support : String)

theorem field?_elementContext (e : Element) {name : String} (h : name ∉ ["kind", "key", "runtime"]) :
    (elementContext p support e).field? name = Json.lookup name e.fields := by
  simp only [List.mem_cons, List.not_mem_nil, or_false, not_or] at h
  obtain ⟨hkind, hkey, hruntime⟩ := h
  exact ((field?_setField_of_ne _ _ (Ne.symm hruntime)).trans
    (field?_setField_of_ne _ _ (Ne.symm hkey))).trans
    (Json.lookup_insertField_of_ne _ (Ne.symm hkind) _)

theorem field?_key (e : Element) :
    (elementContext p support e).field? "key" = some (.string (p.elementKey e)) :=
  (field?_setField_of_ne _ _ (by decide)).trans (field?_setField_self _ _ _)

theorem field?_runtime (e : Element) :
    (elementContext p support e).field? "runtime" = some (.string support) :=
  field?_setField_self _ _ _

theorem field?_id (e : Element) :
    (elementContext p support e).field? "id" = some (.string e.id) := by
  rw [field?_elementContext p support e (by decide)]
  cases e <;> rfl

theorem kindOf_elementContext (e : Element) :
    kindOf (elementContext p support e) = some e.kind.tag := by
  have hkind : (elementContext p support e).field? "kind" = some (.string e.kind.tag) :=
    ((field?_setField_of_ne _ _ (by decide)).trans (field?_setField_of_ne _ _ (by decide))).trans
      (Json.lookup_insertField_self _ _ _)
  rw [kindOf, hkind]
  rfl

theorem holds_elementContext (e : Element) : holds (elementContext p support e) = true :=
  holds_of_field? (field?_runtime p support e)

end

/-! ### The text of an element -/

section

variable {context : Json} {assembly : String}

theorem evalAll_propertyStart {e : Element} {p : Policy}
    (h : context = elementContext p (supportPath (namespaceName assembly)) e) :
    evalAll context (propertyStart e.kind.className) = .ok (written (propertyPieces assembly e)) := by
  have hruntime := field?_runtime p (supportPath (namespaceName assembly)) e
  have hid := field?_id p (supportPath (namespaceName assembly)) e
  rw [← h] at hruntime hid
  rw [propertyStart, evalAll_fixed, evalAll_plain hruntime, evalAll_fixed,
    evalAll_put_call hid (call_escape_identifier e.id), evalAll_fixed,
    evalAll_plain hruntime, evalAll_fixed, evalAll_nil]
  simp only [propertyPieces, written, Piece.string, Except.map, String.append_assoc]

theorem evalAll_property {e : Element} {p : Policy} {arguments : List (List Node)}
    {ps : List Piece} (h : context = elementContext p (supportPath (namespaceName assembly)) e)
    (hps : List.Forall₂ (Says context) arguments ps) :
    evalAll context (property e.kind.className arguments) =
      .ok (written (propertyPieces assembly e ++ argumentPieces ps ++ [.fixed ");\n"])) := by
  have hstart := evalAll_propertyStart h
  have harguments := evalAll_commaSeparated hps
  rw [property, List.append_assoc, evalAll_append hstart, evalAll_append harguments, evalAll_fixed,
    evalAll, List.append_assoc, written_append, written_append]
  rfl

/-- The name of an item in the enumeration. -/
theorem evalAll_option (i : EnumerationItem) :
    evalAll i.toJson [put "escape_identifier" "id", text ",\n"] = .ok (written (optionPieces i)) := by
  have hid : i.toJson.field? "id" = some (.string i.id) := rfl
  rw [evalAll_put_call hid (call_escape_identifier i.id), evalAll_fixed, evalAll_nil]
  rfl

/-- An item in the dictionary. -/
theorem evalAll_entry (i : EnumerationItem) :
    evalAll i.toJson ([text "\x7b ",
      .put (.call "literal" (.call "escape_identifier" (.field "id"))), text ", "] ++
        valueNodes "value" ++ [text " \x7d,\n"]) = .ok (written (entryPieces i)) := by
  have hid : (Expr.field "id").eval i.toJson = .ok (.string i.id) := rfl
  have hname := (eval_call "escape_identifier" hid).trans (call_escape_identifier i.id)
  have hliteral := (eval_call "literal" hname).trans (call_literal_string _)
  have hvalue : evalAll i.toJson (valueNodes "value") = .ok (Piece.value i.value).string :=
    says_valueNodes rfl
  rw [List.append_assoc, List.cons_append, List.cons_append, List.cons_append, List.nil_append,
    evalAll_fixed, evalAll_put hliteral, evalAll_fixed, evalAll_append hvalue, evalAll_fixed,
    evalAll_nil]
  rfl

theorem join_map_written {α : Type} (f : α → List Piece) : ∀ (xs : List α),
    String.join (xs.map fun x => written (f x)) = written (xs.flatMap f)
  | [] => rfl
  | x :: xs => by
    rw [List.flatMap_cons, written_append, ← join_map_written f xs, List.map_cons, String.join_cons]

/-- The enumeration of the items of an element. -/
theorem evalAll_options {id : String} {items : List EnumerationItem}
    (hid : context.field? "id" = some (.string id))
    (hitems : context.field? "items" = some (.array (items.map EnumerationItem.toJson))) :
    evalAll context [text "\npublic enum ", put "escape_type" "id", text "Option\n\x7b\n",
        .each "items" [put "escape_identifier" "id", text ",\n"], text "\x7d\n"] =
      .ok (written ([.fixed "\npublic enum ", .typeName id, .fixed "Option\n\x7b\n"] ++
        items.flatMap optionPieces ++ [.fixed "\x7d\n"])) := by
  have heach := eval_each hitems evalAll_option
  rw [join_map_written] at heach
  rw [evalAll_fixed, evalAll_put_call hid (call_escape_type id), evalAll_fixed, evalAll,
    heach, evalAll_fixed, evalAll, List.append_assoc, written_append, written_append]
  simp only [Except.map, written, Piece.string, String.append_empty, String.append_assoc]

/-- The dictionary of the items of an element, and the end of the element. -/
theorem evalAll_entries {items : List EnumerationItem}
    (hitems : context.field? "items" = some (.array (items.map EnumerationItem.toJson))) :
    evalAll context [.each "items" ([text "\x7b ",
        .put (.call "literal" (.call "escape_identifier" (.field "id"))), text ", "] ++
          valueNodes "value" ++ [text " \x7d,\n"]), text "\x7d);\n"] =
      .ok (written (items.flatMap entryPieces ++ [.fixed "\x7d);\n"])) := by
  have heach := eval_each hitems evalAll_entry
  rw [join_map_written] at heach
  rw [evalAll, heach, evalAll_fixed, evalAll, written_append]
  rfl

theorem says_dictionaryStart :
    Says context
      [text "new global::System.Collections.Generic.Dictionary<string, object>\n\x7b\n"]
      (.fixed "new global::System.Collections.Generic.Dictionary<string, object>\n\x7b\n") := by
  rw [Says, evalAll_fixed, evalAll_nil]
  rfl

theorem evalAll_enumerationBody (p : Policy) (e : EnumerationElement)
    (h : context = elementContext p (supportPath (namespaceName assembly)) (.enumeration e)) :
    evalAll context (elementBody .enumeration) =
      .ok (written (elementPieces assembly p (.enumeration e))) := by
  have hfield : ∀ name, name ∉ ["kind", "key", "runtime"] →
      context.field? name = Json.lookup name (Element.enumeration e).fields := by
    intro name hname
    rw [h, field?_elementContext p _ _ hname]
  have hid := h ▸ field?_id p (supportPath (namespaceName assembly)) _
  have hkey := says_text (h ▸ field?_key p (supportPath (namespaceName assembly)) _)
  have hname := says_text (hfield "value_name" (by decide))
  have hrequired := says_flag (hfield "required" (by decide))
  have hitems := hfield "items" (by decide)
  -- the four parts of the body: the enumeration, the start of the property, its arguments up to
  -- the dictionary, and the items there
  have hoptions := evalAll_options hid hitems
  have hstart := evalAll_propertyStart h
  have harguments := evalAll_commaSeparated (.cons (says_text hid) (.cons hkey (.cons hname
    (.cons hrequired (.cons says_dictionaryStart .nil)))))
  have hentries := evalAll_entries hitems
  have hall := evalAll_append_ok
    (evalAll_append_ok (evalAll_append_ok hoptions hstart) harguments) hentries
  refine hall.trans (congrArg Except.ok ?_)
  rw [← written_append, ← written_append, ← written_append]
  refine congrArg written ?_
  simp only [elementPieces, elementArguments, List.append_assoc, List.cons_append,
    List.nil_append]
  rfl

/-- **What the template says of an element.** -/
theorem evalAll_elementBody (p : Policy) (e : Element)
    (h : context = elementContext p (supportPath (namespaceName assembly)) e) :
    evalAll context (elementBody e.kind) = .ok (written (elementPieces assembly p e)) := by
  have hfield : ∀ name, name ∉ ["kind", "key", "runtime"] →
      context.field? name = Json.lookup name e.fields := by
    intro name hname
    rw [h, field?_elementContext p _ e hname]
  have hid := says_text (h ▸ field?_id p (supportPath (namespaceName assembly)) e)
  have hkey := says_text (h ▸ field?_key p (supportPath (namespaceName assembly)) e)
  cases e with
  | boolean e =>
    have hname := says_text (hfield "value_name" (by decide))
    have htrue := says_valueNodes (hfield "true_value" (by decide))
    have hfalse := says_valueNodes (hfield "false_value" (by decide))
    exact evalAll_property (e := .boolean e) h
      (.cons hid (.cons hkey (.cons hname (.cons htrue (.cons hfalse .nil)))))
  | decimal e =>
    have hname := says_text (hfield "value_name" (by decide))
    have hrequired := says_flag (hfield "required" (by decide))
    have hmin := says_u32 (hfield "min_value" (by decide))
    have hmax := says_u32 (hfield "max_value" (by decide))
    have hstore := says_flag (hfield "store_as_text" (by decide))
    exact evalAll_property (e := .decimal e) h (.cons hid (.cons hkey (.cons hname
      (.cons hrequired (.cons hmin (.cons hmax (.cons hstore .nil)))))))
  | longDecimal e =>
    have hname := says_text (hfield "value_name" (by decide))
    have hrequired := says_flag (hfield "required" (by decide))
    have hmin := says_u64 (hfield "min_value" (by decide))
    have hmax := says_u64 (hfield "max_value" (by decide))
    have hstore := says_flag (hfield "store_as_text" (by decide))
    exact evalAll_property (e := .longDecimal e) h (.cons hid (.cons hkey (.cons hname
      (.cons hrequired (.cons hmin (.cons hmax (.cons hstore .nil)))))))
  | enumeration e => exact evalAll_enumerationBody p e h
  | list e =>
    have hprefix := says_textOrNull (hfield "value_prefix" (by decide))
    have hadditive := says_flag (hfield "additive" (by decide))
    have hexplicit := says_flag (hfield "explicit_value" (by decide))
    have hexpandable := says_flag (hfield "expandable" (by decide))
    exact evalAll_property (e := .list e) h (.cons hid (.cons hkey (.cons hprefix
      (.cons hadditive (.cons hexplicit (.cons hexpandable .nil))))))
  | multiText e =>
    have hname := says_text (hfield "value_name" (by decide))
    have hrequired := says_flag (hfield "required" (by decide))
    have hlength := says_u32 (hfield "max_length" (by decide))
    have hstrings := says_u32 (hfield "max_strings" (by decide))
    exact evalAll_property (e := .multiText e) h (.cons hid (.cons hkey (.cons hname
      (.cons hrequired (.cons hlength (.cons hstrings .nil))))))
  | text e =>
    have hname := says_text (hfield "value_name" (by decide))
    have hrequired := says_flag (hfield "required" (by decide))
    have hlength := says_u32 (hfield "max_length" (by decide))
    have hexpandable := says_flag (hfield "expandable" (by decide))
    exact evalAll_property (e := .text e) h (.cons hid (.cons hkey (.cons hname
      (.cons hrequired (.cons hlength (.cons hexpandable .nil))))))

end

/-! ## Blocks -/

section

variable {context : Json} {assembly : String} {p : Policy}

theorem eval_importNode (h : context.field? "using_references" =
      some (.array (importLines.map Json.string))) :
    importNode.eval context = .ok (written importPieces) := by
  have hnames : importLines.map Json.string =
      importedNamespaces.map fun n => .string ("using global::" ++ n ++ ";") := by
    rw [importLines, List.map_map]
    rfl
  rw [importPieces, ← join_map_written]
  refine eval_each (h.trans (by rw [hnames])) fun n => ?_
  rw [evalAll_put (j := .string ("using global::" ++ n ++ ";")) rfl, evalAll_fixed, evalAll_nil]
  simp only [Except.map, shown, written, Piece.string, String.append_assoc]
  rfl

theorem eval_remarks {s : Option String} (h : context.field? "explain_text" = some (textOrNull s)) :
    (Node.cond (.field "explain_text") [text "/// <remarks>\n", put "escape_xmldoc" "explain_text",
      text "\n/// </remarks>\n"] []).eval context = .ok (written (remarkPieces s)) := by
  rw [eval_cond (eval_field h)]
  cases s with
  | none =>
    show evalAll context [] = _
    rw [evalAll]
    rfl
  | some s =>
    cases hs : s.isEmpty with
    | true =>
      rw [if_neg (by simp [textOrNull, Json.ofOption, holds, hs]), evalAll, remarkPieces, if_pos hs]
      rfl
    | false =>
      rw [if_pos (by simp [textOrNull, Json.ofOption, holds, hs]), evalAll_fixed,
        evalAll_put_call h (call_escape_xmldoc s), evalAll_fixed, evalAll, remarkPieces, hs]
      rfl

theorem field?_elements (support : String) : (policyContext p support).field? "elements" =
    some (.array (p.elements.map (elementContext p support))) :=
  (((field?_setField_of_ne _ _ (by decide)).trans (field?_setField_of_ne _ _ (by decide))).trans
    (field?_setField_of_ne _ _ (by decide))).trans (field?_setField_self _ _ _)

theorem field?_classMember (support : String) :
    (policyContext p support).field? "class_member" = some (.string p.policyClass.memberName) :=
  ((field?_setField_of_ne _ _ (by decide)).trans (field?_setField_of_ne _ _ (by decide))).trans
    (field?_setField_self _ _ _)

theorem field?_policyRuntime (support : String) :
    (policyContext p support).field? "runtime" = some (.string support) :=
  (field?_setField_of_ne _ _ (by decide)).trans (field?_setField_self _ _ _)

theorem field?_usingReferences (support : String) :
    (policyContext p support).field? "using_references" =
      some (.array (importLines.map Json.string)) :=
  field?_setField_self _ _ _

theorem evalAll_head (h : context = policyContext p (supportPath (namespaceName assembly))) :
    evalAll context
        [text "namespace ", put "escape_namespace" "namespace", text "\n\x7b\n", importNode,
          text "\n/// <summary>\n", put "escape_xmldoc" "display_name", text "\n/// </summary>\n",
          .cond (.field "explain_text")
            [text "/// <remarks>\n", put "escape_xmldoc" "explain_text", text "\n/// </remarks>\n"]
            [],
          text "public sealed partial class ", put "escape_type" "name", text " : ",
          plain "runtime", text ".PolicyBase\n\x7b\npublic ", put "escape_type" "name",
          text "()\n: base(", plain "runtime", text ".PolicyClass.", plain "class_member",
          text ", "] =
      .ok (written (headPieces assembly p ++ [.fixed p.policyClass.memberName, .fixed ", "])) := by
  have hfield : ∀ name, name ∉ ["elements", "class_member", "runtime", "using_references"] →
      context.field? name = p.toJson.field? name := fun name hname => by
    rw [h, field?_policyContext p _ name hname]
  have hnamespace : context.field? "namespace" = some (.string p.namespacePath) :=
    hfield "namespace" (by decide)
  have hdisplay : context.field? "display_name" = some (.string p.displayName) :=
    hfield "display_name" (by decide)
  have hname : context.field? "name" = some (.string p.name) := hfield "name" (by decide)
  have himports := eval_importNode (h ▸ field?_usingReferences (p := p) _)
  have hremarks := eval_remarks (hfield "explain_text" (by decide))
  have hruntime := h ▸ field?_policyRuntime (p := p) (supportPath (namespaceName assembly))
  have hclass := h ▸ field?_classMember (p := p) (supportPath (namespaceName assembly))
  simp only [evalAll_fixed, evalAll_put_call hnamespace (call_escape_namespace _),
    evalAll_cons himports, evalAll_put_call hdisplay (call_escape_xmldoc _), evalAll_cons hremarks,
    evalAll_put_call hname (call_escape_type _), evalAll_plain hruntime, evalAll_plain hclass,
    evalAll_nil, Except.map]
  simp only [headPieces, written_append, written, Piece.string, String.append_empty,
    String.append_assoc]

theorem evalAll_element (e : Element) :
    evalAll (elementContext p (supportPath (namespaceName assembly)) e) elementBlocks =
      .ok (written (elementPieces assembly p e)) :=
  evalAll_elementBlocks (kindOf_elementContext p _ e) (holds_elementContext p _ e)
    (evalAll_elementBody p e rfl)

theorem evalAll_reference (e : Element) :
    evalAll (elementContext p (supportPath (namespaceName assembly)) e)
        [put "escape_identifier" "id", text "Element,\n"] =
      .ok (written [.memberName e.id, .fixed "Element,\n"]) := by
  rw [evalAll_put_call (field?_id p _ e) (call_escape_identifier e.id), evalAll_fixed,
    evalAll_nil]
  rfl

theorem evalAll_rest (h : context = policyContext p (supportPath (namespaceName assembly))) :
    evalAll context
        [text ")\n\x7b\n\x7d\n\npublic override string DisplayName => ", lit "display_name",
          text ";\n\npublic override string ResourceId => ",
          .put (.call "literal" (.call "ref_id" (.field "display_name"))),
          text ";\n\npublic override string SupportedOn => ", lit "supported_on", text ";\n",
          .each "elements" elementBlocks,
          text "\npublic override global::System.Collections.Generic.IReadOnlyList<",
          plain "runtime", text ".IPolicyElement> Elements => new ", plain "runtime",
          text ".IPolicyElement[]\n\x7b\n",
          .each "elements" [put "escape_identifier" "id", text "Element,\n"],
          text "\x7d;\n\x7d\n\x7d\n"] =
      .ok (written (propertiesPieces p ++ p.elements.flatMap (elementPieces assembly p) ++
        tailPieces assembly p)) := by
  have hdisplay : context.field? "display_name" = some (.string p.displayName) := by
    rw [h, field?_policyContext p _ _ (by decide)]
    rfl
  have hsupported : context.field? "supported_on" = some (textOrNull p.supportedOn) := by
    rw [h, field?_policyContext p _ _ (by decide)]
    rfl
  have hruntime := h ▸ field?_policyRuntime (p := p) (supportPath (namespaceName assembly))
  have hreference := (eval_call "literal" ((eval_call "ref_id" (eval_field hdisplay)).trans
    (call_ref_id _))).trans (call_literal_string _)
  have hfield := h ▸ field?_elements (p := p) (supportPath (namespaceName assembly))
  have helements := eval_each hfield evalAll_element
  have hlist := eval_each hfield evalAll_reference
  rw [join_map_written] at helements hlist
  simp only [lit, evalAll_fixed, evalAll_put_call hdisplay (call_literal_string _),
    evalAll_put hreference, evalAll_put_call hsupported (call_literal_textOrNull _),
    evalAll_cons helements, evalAll_plain hruntime, evalAll_cons hlist, evalAll_nil,
    Except.map]
  simp only [propertiesPieces, tailPieces, written_append, written, Piece.string,
    String.append_empty, String.append_assoc, shown]
  rfl

theorem evalAll_state (h : context = policyContext p (supportPath (namespaceName assembly))) :
    evalAll context (commaSeparated [[lit "key"], [lit "value_name"],
        stateNodes "enabled_value" "1u", stateNodes "disabled_value" "0u"]) =
      .ok (written (argumentPieces (stateArguments p))) := by
  have hfield : ∀ name, name ∉ ["elements", "class_member", "runtime", "using_references"] →
      context.field? name = p.toJson.field? name := fun name hname => by
    rw [h, field?_policyContext p _ name hname]
  have hkey := says_text (hfield "key" (by decide))
  have hname := says_textOrNull (hfield "value_name" (by decide))
  have henabled := says_stateNodes (n := 1) (hfield "enabled_value" (by decide)) rfl
  have hdisabled := says_stateNodes (n := 0) (hfield "disabled_value" (by decide)) rfl
  exact evalAll_commaSeparated
    (.cons hkey (.cons hname (.cons henabled (.cons hdisabled .nil))))

/-- **The text of a block**: what the template comes to, for every policy. -/
theorem block_eq (assembly : String) (p : Policy) :
    block (namespaceName assembly) p = .ok (written (blockPieces assembly p)) := by
  obtain ⟨context, h⟩ : ∃ context, context = policyContext p (supportPath (namespaceName assembly)) :=
    ⟨_, rfl⟩
  have hall := evalAll_append_ok (evalAll_append_ok (evalAll_head h) (evalAll_state h))
    (evalAll_rest h)
  rw [block, ← h, blockPieces, written_append, written_append]
  exact hall

end

end PolicyForge.Source
