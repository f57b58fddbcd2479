import PolicyForge.Policy.Encode
import PolicyForge.Policy.Model
import PolicyForge.Proofs.Data.Reordering
/-!
# Policies survive as JSON

A policy is read back from the JSON that is made of it, in memory and as text, in whatever order the
fields stand (`json_roundTrip`).  An element names its kind, and what is read back is of this kind.
-/
namespace PolicyForge

open Data Data.Fields

/-! ## Scalars and values -/

section

variable {o : Origin}

theorem decodes_string (o : Origin) (s : String) : Decodes Decode.string o (.string s) s := by
  rintro _ ⟨⟩
  cases o <;> rfl

theorem decodes_bool (o : Origin) (b : Bool) : Decodes Decode.bool o (.bool b) b := by
  rintro _ ⟨⟩
  rfl

theorem decodes_text (o : Origin) (s : Option String) :
    Decodes (Decode.optional Decode.string) o (textOrNull s) s := by
  cases s with
  | none =>
    rintro _ ⟨⟩
    rfl
  | some s =>
    rintro _ ⟨⟩
    cases o <;> rfl

theorem unsigned_ofNat {bits n : Nat} (hn : (n : Int) < Int.pow 2 bits) (expected : String) (o : Origin) :
    Decode.unsigned bits expected o (.int n) = .ok n := by
  have hrange : (decide ((0 : Int) ≤ n) && decide ((n : Int) ≤ Int.pow 2 bits - 1)) = true := by
    rw [Bool.and_eq_true, decide_eq_true_eq, decide_eq_true_eq]
    omega
  simp only [Decode.unsigned, Bool.false_eq_true, if_false, Decode.integer, Decode.scalar]
  rw [if_pos hrange]
  rfl

theorem decodes_u32 (o : Origin) (n : UInt32) : Decodes Decode.u32 o (.int n.toNat) n := by
  rintro _ ⟨⟩
  have hn : (n.toNat : Int) < Int.pow 2 32 := Int.ofNat_lt.2 n.toNat_lt
  rw [Tree.ofJson, Decode.u32, unsigned_ofNat hn]
  simp [Except.map]

theorem decodes_u64 (o : Origin) (n : UInt64) : Decodes Decode.u64 o (.int n.toNat) n := by
  rintro _ ⟨⟩
  have hn : (n.toNat : Int) < Int.pow 2 64 := Int.ofNat_lt.2 n.toNat_lt
  rw [Tree.ofJson, Decode.u64, unsigned_ofNat hn]
  simp [Except.map]

/-! ## Alternatives -/

theorem alternative_of_one {α : Type} {alternatives : List (String × Decode.Body α)} {name : String}
    {d : Decoder α} {t : Tree} {a : α} (ho : o ≠ .yaml)
    (hname : Decode.select alternatives name = .ok (.one d)) (ht : d o t = .ok a) :
    Decode.alternative alternatives o (.mapping [(.string name, t)]) = .ok a := by
  cases o with
  | yaml => exact absurd rfl ho
  | value | buffered =>
    simp only [Decode.alternative, Decode.variantName, bind, Except.bind, hname, Decode.withBody, ht]
  | text =>
    simp only [Decode.alternative, Decode.variantName, bind, Except.bind, hname, Decode.withBody, ht]
    rfl

theorem alternative_of_unit {α : Type} {alternatives : List (String × Decode.Body α)}
    {name : String} {a : α} (ho : o ≠ .yaml)
    (hname : Decode.select alternatives name = .ok (.unit a)) :
    Decode.alternative alternatives o (.string name) = .ok a := by
  cases o with
  | yaml => exact absurd rfl ho
  | value | text | buffered =>
    simp only [Decode.alternative, bind, Except.bind, hname, Decode.bare]

theorem same_single {name : String} {j k : Json} (h : Json.Same (.object [(name, j)]) k) :
    ∃ k', j.Same k' ∧ k = .object [(name, k')] := by
  cases h with
  | object hs hperm =>
    cases hs with
    | cons _ hj hs =>
      cases hs
      exact ⟨_, hj, by rw [List.perm_singleton.1 hperm.symm]⟩

/-- A registry value is read back; the mark of a value to be removed is no text. -/
theorem decodes_registryValue (ho : o ≠ .yaml) (v : RegistryValue) :
    Decodes RegistryValue.decode o v.toJson v := by
  intro k hk
  have hliteral : Literal.decode o (.ofJson k) = .ok v.toLiteral := by
    cases v with
    | decimal n =>
      obtain ⟨j, hj, rfl⟩ := same_single hk
      refine alternative_of_one ho rfl ?_
      rw [decodes_u32 o n j hj]
      rfl
    | longDecimal n =>
      obtain ⟨j, hj, rfl⟩ := same_single hk
      refine alternative_of_one ho rfl ?_
      rw [decodes_u64 o n j hj]
      rfl
    | string s =>
      obtain ⟨j, hj, rfl⟩ := same_single hk
      refine alternative_of_one ho rfl ?_
      rw [decodes_string o s j hj]
      rfl
    | delete =>
      cases hk
      exact alternative_of_unit ho rfl
  rw [RegistryValue.decode, hliteral]
  dsimp only
  rw [RegistryValue.ofLiteral_toLiteral]

theorem toJson_cases (v : RegistryValue) :
    (∃ fs, v.toJson = .object fs) ∨ ∃ s, v.toJson = .string s := by
  cases v with
  | decimal n => exact .inl ⟨_, rfl⟩
  | longDecimal n => exact .inl ⟨_, rfl⟩
  | string s => exact .inl ⟨_, rfl⟩
  | delete => exact .inr ⟨_, rfl⟩

theorem decodes_optional (ho : o ≠ .yaml) (v : Option RegistryValue) :
    Decodes (Decode.optional RegistryValue.decode) o (Json.ofOption RegistryValue.toJson v) v := by
  cases v with
  | none =>
    rintro _ ⟨⟩
    rfl
  | some v =>
    intro k hk
    have hv := decodes_registryValue ho v k hk
    have hsome : Decode.optional RegistryValue.decode o (.ofJson k) =
        (RegistryValue.decode o (.ofJson k)).map some := by
      rcases toJson_cases v with ⟨fs, hfs⟩ | ⟨s, hs⟩
      · rw [Json.ofOption, hfs] at hk
        cases hk
        rfl
      · rw [Json.ofOption, hs] at hk
        cases hk
        rfl
    rw [hsome, hv]
    rfl

theorem decodes_class (ho : o ≠ .yaml) (c : PolicyClass) :
    Decodes PolicyClass.decode o (.string c.tag) c := by
  rintro _ ⟨⟩
  cases c <;> exact alternative_of_unit ho rfl

/-! ## Lists -/

theorem decodes_list {α : Type} {d : Decoder α} {toJson : α → Json}
    (hd : ∀ a, Decodes d o (toJson a) a) (as : List α) :
    Decodes (Decode.list d) o (.array (as.map toJson)) as := by
  have hitems : ∀ (as : List α) (ks : List Json), Json.SameItems (as.map toJson) ks →
      Decode.items d o (Tree.ofItems ks) = .ok as := by
    intro as
    induction as with
    | nil =>
      rintro _ ⟨⟩
      rfl
    | cons a as ih =>
      rintro _ (_ | ⟨hk, hks⟩)
      rw [Tree.ofItems, Decode.items, hd a _ hk]
      dsimp only
      rw [ih _ hks]
  rintro _ (_ | _ | _ | _ | _ | hks)
  rw [Tree.ofJson, Decode.list]
  exact hitems as _ hks

/-! ## Elements -/

theorem decodes_item (ho : o ≠ .yaml) (i : EnumerationItem) :
    Decodes EnumerationItem.decode o i.toJson i := by
  intro k hk
  obtain ⟨hs, rfl, hholds⟩ := Json.holds_of_same hk (by simp)
  refine Record.decode_of_holds hholds (by simp) fun es hes => ?_
  exact seq_ok (seq_ok (map_ok _ (field_ok hes (by simp) (decodes_string o i.id)))
    (field_ok hes (by simp) (decodes_string o i.displayName)))
    (field_ok hes (by simp) (decodes_registryValue ho i.value))

section

variable {es : Entries} {fs : List (String × Json)}

theorem needed_ok (hes : es.Gives o fs) (name s : String) (hmem : (name, .string s) ∈ fs) :
    needed name Decode.string es = .ok s := field_ok hes hmem (decodes_string o s)

theorem flag_ok (hes : es.Gives o fs) (name : String) (b : Bool) (hmem : (name, .bool b) ∈ fs) :
    flag name es = .ok b := by
  rw [flag, withDefault]
  exact field_ok hes hmem (decodes_bool o b)

theorem text_ok (hes : es.Gives o fs) (name : String) (s : Option String)
    (hmem : (name, textOrNull s) ∈ fs) :
    withDefault name (Decode.optional Decode.string) none es = .ok s :=
  field_ok hes hmem (decodes_text o s)

theorem u32_ok (hes : es.Gives o fs) (name : String) (n : UInt32) (hmem : (name, .int n.toNat) ∈ fs)
    (absent : UInt32) : withDefault name Decode.u32 absent es = .ok n :=
  field_ok hes hmem (decodes_u32 o n)

theorem u64_ok (hes : es.Gives o fs) (name : String) (n : UInt64) (hmem : (name, .int n.toNat) ∈ fs)
    (absent : UInt64) : withDefault name Decode.u64 absent es = .ok n :=
  field_ok hes hmem (decodes_u64 o n)

theorem registryValue_ok (ho : o ≠ .yaml) (hes : es.Gives o fs) (name : String) (v : RegistryValue)
    (hmem : (name, v.toJson) ∈ fs) (absent : RegistryValue) :
    withDefault name RegistryValue.decode absent es = .ok v :=
  field_ok hes hmem (decodes_registryValue ho v)

end

section

variable {hs : List (String × Json)}

theorem boolean_of_holds (ho : o ≠ .yaml) (e : BooleanElement)
    (h : Json.Holds (Element.boolean e).fields hs) :
    BooleanElement.decode o (.ofJson (.object hs)) = .ok e := by
  refine Record.decode_of_holds h (by simp [Element.fields]) fun es hes => ?_
  have hid := needed_ok hes "id" e.id (by simp [Element.fields])
  have hkey := text_ok hes "key" e.key (by simp [Element.fields])
  have hname := needed_ok hes "value_name" e.valueName (by simp [Element.fields])
  have htrue := registryValue_ok ho hes "true_value" e.trueValue (by simp [Element.fields]) (.decimal 1)
  have hfalse := registryValue_ok ho hes "false_value" e.falseValue
    (by simp [Element.fields]) (.decimal 0)
  exact seq_ok (seq_ok (seq_ok (seq_ok (map_ok _ hid) hkey) hname) htrue) hfalse

theorem decimal_of_holds (e : DecimalElement) (h : Json.Holds (Element.decimal e).fields hs) :
    DecimalElement.decode o (.ofJson (.object hs)) = .ok e := by
  refine Record.decode_of_holds h (by simp [Element.fields]) fun es hes => ?_
  have hid := needed_ok hes "id" e.id (by simp [Element.fields])
  have hkey := text_ok hes "key" e.key (by simp [Element.fields])
  have hname := needed_ok hes "value_name" e.valueName (by simp [Element.fields])
  have hrequired := flag_ok hes "required" e.required (by simp [Element.fields])
  have hmin := u32_ok hes "min_value" e.minValue (by simp [Element.fields]) 0
  have hmax := u32_ok hes "max_value" e.maxValue (by simp [Element.fields]) 4294967295
  have htext := flag_ok hes "store_as_text" e.storeAsText (by simp [Element.fields])
  have hsoft := flag_ok hes "soft" e.soft (by simp [Element.fields])
  exact seq_ok (seq_ok (seq_ok (seq_ok (seq_ok (seq_ok (seq_ok (map_ok _ hid) hkey) hname)
    hrequired) hmin) hmax) htext) hsoft

theorem longDecimal_of_holds (e : LongDecimalElement) (h : Json.Holds (Element.longDecimal e).fields hs) :
    LongDecimalElement.decode o (.ofJson (.object hs)) = .ok e := by
  refine Record.decode_of_holds h (by simp [Element.fields]) fun es hes => ?_
  have hid := needed_ok hes "id" e.id (by simp [Element.fields])
  have hkey := text_ok hes "key" e.key (by simp [Element.fields])
  have hname := needed_ok hes "value_name" e.valueName (by simp [Element.fields])
  have hrequired := flag_ok hes "required" e.required (by simp [Element.fields])
  have hmin := u64_ok hes "min_value" e.minValue (by simp [Element.fields]) 0
  have hmax := u64_ok hes "max_value" e.maxValue (by simp [Element.fields]) 18446744073709551615
  have htext := flag_ok hes "store_as_text" e.storeAsText (by simp [Element.fields])
  have hsoft := flag_ok hes "soft" e.soft (by simp [Element.fields])
  exact seq_ok (seq_ok (seq_ok (seq_ok (seq_ok (seq_ok (seq_ok (map_ok _ hid) hkey) hname)
    hrequired) hmin) hmax) htext) hsoft

theorem enumeration_of_holds (ho : o ≠ .yaml) (e : EnumerationElement)
    (h : Json.Holds (Element.enumeration e).fields hs) :
    EnumerationElement.decode o (.ofJson (.object hs)) = .ok e := by
  refine Record.decode_of_holds h (by simp [Element.fields]) fun es hes => ?_
  have hid := needed_ok hes "id" e.id (by simp [Element.fields])
  have hkey := text_ok hes "key" e.key (by simp [Element.fields])
  have hname := needed_ok hes "value_name" e.valueName (by simp [Element.fields])
  have hrequired := flag_ok hes "required" e.required (by simp [Element.fields])
  have hitems : needed "items" (Decode.list EnumerationItem.decode) es = .ok e.items :=
    field_ok hes (by simp [Element.fields]) (decodes_list (decodes_item ho) e.items)
  exact seq_ok (seq_ok (seq_ok (seq_ok (map_ok _ hid) hkey) hname) hrequired) hitems

theorem list_of_holds (e : ListElement) (h : Json.Holds (Element.list e).fields hs) :
    ListElement.decode o (.ofJson (.object hs)) = .ok e := by
  refine Record.decode_of_holds h (by simp [Element.fields]) fun es hes => ?_
  have hid := needed_ok hes "id" e.id (by simp [Element.fields])
  have hkey := text_ok hes "key" e.key (by simp [Element.fields])
  have hstart := text_ok hes "value_prefix" e.valuePrefix (by simp [Element.fields])
  have hadditive := flag_ok hes "additive" e.additive (by simp [Element.fields])
  have hexplicit := flag_ok hes "explicit_value" e.explicitValue (by simp [Element.fields])
  have hexpandable := flag_ok hes "expandable" e.expandable (by simp [Element.fields])
  exact seq_ok (seq_ok (seq_ok (seq_ok (seq_ok (map_ok _ hid) hkey) hstart) hadditive) hexplicit)
    hexpandable

theorem multiText_of_holds (e : MultiTextElement) (h : Json.Holds (Element.multiText e).fields hs) :
    MultiTextElement.decode o (.ofJson (.object hs)) = .ok e := by
  refine Record.decode_of_holds h (by simp [Element.fields]) fun es hes => ?_
  have hid := needed_ok hes "id" e.id (by simp [Element.fields])
  have hkey := text_ok hes "key" e.key (by simp [Element.fields])
  have hname := needed_ok hes "value_name" e.valueName (by simp [Element.fields])
  have hrequired := flag_ok hes "required" e.required (by simp [Element.fields])
  have hlength := u32_ok hes "max_length" e.maxLength (by simp [Element.fields]) defaultMaxLength
  have hstrings := u32_ok hes "max_strings" e.maxStrings (by simp [Element.fields]) 0
  exact seq_ok (seq_ok (seq_ok (seq_ok (seq_ok (map_ok _ hid) hkey) hname) hrequired) hlength) hstrings

theorem text_of_holds (e : TextElement) (h : Json.Holds (Element.text e).fields hs) :
    TextElement.decode o (.ofJson (.object hs)) = .ok e := by
  refine Record.decode_of_holds h (by simp [Element.fields]) fun es hes => ?_
  have hid := needed_ok hes "id" e.id (by simp [Element.fields])
  have hkey := text_ok hes "key" e.key (by simp [Element.fields])
  have hname := needed_ok hes "value_name" e.valueName (by simp [Element.fields])
  have hrequired := flag_ok hes "required" e.required (by simp [Element.fields])
  have hlength := u32_ok hes "max_length" e.maxLength (by simp [Element.fields]) defaultMaxLength
  have hexpandable := flag_ok hes "expandable" e.expandable (by simp [Element.fields])
  exact seq_ok (seq_ok (seq_ok (seq_ok (seq_ok (map_ok _ hid) hkey) hname) hrequired) hlength) hexpandable

/-- An element is decoded from its fields, in whatever order they stand. -/
theorem decodeAs_of_holds (ho : o ≠ .yaml) (e : Element) (h : Json.Holds e.fields hs) :
    Element.decodeAs e.kind o (.ofJson (.object hs)) = .ok e := by
  have hmap : ∀ {α : Type} {d : Decoded α} {a : α} (f : α → Element),
      d = .ok a → d.map f = .ok (f a) := by
    rintro α _ a f rfl
    rfl
  cases e with
  | boolean e => exact hmap _ (boolean_of_holds ho e h)
  | decimal e => exact hmap _ (decimal_of_holds e h)
  | longDecimal e => exact hmap _ (longDecimal_of_holds e h)
  | enumeration e => exact hmap _ (enumeration_of_holds ho e h)
  | list e => exact hmap _ (list_of_holds e h)
  | multiText e => exact hmap _ (multiText_of_holds e h)
  | text e => exact hmap _ (text_of_holds e h)

end

/-! ## The kind of an element -/

theorem heldBack_ok (ho : o ≠ .yaml) {j : Json} (hj : j.depth ≤ 124) :
    Element.heldBack o (.ofJson j) = .ok (.ofJson j) := by
  have hreadable := Tree.isReadable_ofJson j
  cases o with
  | yaml => exact absurd rfl ho
  | value | buffered => rw [Element.heldBack, if_pos hreadable]
  | text =>
    have hlimit := Tree.limitDepth_ofJson j hj
    simp only [Element.heldBack, Element.room, hlimit, hreadable, if_true]

theorem decodeKind_tag (o : Origin) (k : ElementKind) : Element.decodeKind o (.string k.tag) = .ok k := by
  cases k <;> cases o <;> rfl

theorem heldBack_name (ho : o ≠ .yaml) (name : String) :
    Element.heldBack o (.string name) = .ok (.string name) :=
  heldBack_ok (j := .string name) ho (Nat.zero_le _)

/-- A field by another name is kept. -/
theorem splitKind_other (ho : o ≠ .yaml) {name : String} (hname : name ≠ "kind") {j : Json}
    (hj : j.depth ≤ 124) (hs : List (String × Json)) (found : Option ElementKind)
    (others : List (Tree × Tree)) :
    Element.splitKind o (Tree.ofFields ((name, j) :: hs)) found others =
      Element.splitKind o (Tree.ofFields hs) found ((.string name, .ofJson j) :: others) := by
  rw [Tree.ofFields, Element.splitKind.eq_def]
  dsimp only
  rw [heldBack_name ho]
  split
  · rename_i heq
    cases heq
  · rename_i heq
    cases heq
    exact absurd rfl hname
  · rename_i heq
    cases heq
    rw [heldBack_ok ho hj]

theorem splitKind_kind (ho : o ≠ .yaml) (k : ElementKind) (hs : List (String × Json))
    (others : List (Tree × Tree)) :
    Element.splitKind o (Tree.ofFields (("kind", .string k.tag) :: hs)) none others =
      Element.splitKind o (Tree.ofFields hs) (some k) others := by
  rw [Tree.ofFields, Element.splitKind, heldBack_name ho, Tree.ofJson, decodeKind_tag]
  rfl

theorem splitKind_some (ho : o ≠ .yaml) (k : ElementKind) :
    ∀ (hs : List (String × Json)) (others : List (Tree × Tree)),
      (∀ h ∈ hs, h.1 ≠ "kind" ∧ h.2.depth ≤ 124) →
      Element.splitKind o (Tree.ofFields hs) (some k) others =
        .ok (k, others.reverse ++ Tree.ofFields hs) := by
  intro hs
  induction hs with
  | nil =>
    intro others _
    rw [Tree.ofFields, Element.splitKind, List.append_nil]
  | cons h hs ih =>
    intro others hall
    obtain ⟨hne, hdepth⟩ := hall _ List.mem_cons_self
    rw [splitKind_other ho hne hdepth, ih _ fun h hh => hall h (List.mem_cons_of_mem _ hh),
      List.reverse_cons, List.append_assoc]
    rfl

/-- The kind is found wherever it stands, and the other fields are kept. -/
theorem splitKind_ok (ho : o ≠ .yaml) (k : ElementKind) :
    ∀ (hs : List (String × Json)) (others : List (Tree × Tree)), (hs.map Prod.fst).Nodup →
      ("kind", .string k.tag) ∈ hs → (∀ h ∈ hs, h.2.depth ≤ 124) →
      Element.splitKind o (Tree.ofFields hs) none others =
        .ok (k, others.reverse ++ Tree.ofFields (hs.filter (·.1 != "kind"))) := by
  intro hs
  induction hs with
  | nil =>
    intro others _ hmem
    cases hmem
  | cons h hs ih =>
    intro others hnodup hmem hdepth
    rw [List.map_cons, List.nodup_cons] at hnodup
    rcases List.mem_cons.1 hmem with rfl | hmem
    · have hne : ∀ h ∈ hs, h.1 ≠ "kind" := fun h hh he => hnodup.1 (List.mem_map.2 ⟨h, hh, he⟩)
      have hfilter : hs.filter (·.1 != "kind") = hs :=
        List.filter_eq_self.2 fun h hh => bne_iff_ne.2 (hne h hh)
      rw [splitKind_kind ho, List.filter_cons_of_neg (by simp), hfilter]
      exact splitKind_some ho k hs others fun h hh => ⟨hne h hh, hdepth h (List.mem_cons_of_mem _ hh)⟩
    · have hne : h.1 ≠ "kind" := fun he => hnodup.1 (List.mem_map.2 ⟨_, hmem, he.symm⟩)
      rw [splitKind_other ho hne (hdepth _ List.mem_cons_self),
        ih _ hnodup.2 hmem fun h hh => hdepth h (List.mem_cons_of_mem _ hh), List.reverse_cons,
        List.append_assoc, List.filter_cons_of_pos (by simpa using hne)]
      rfl

/-! ## Elements and policies -/

theorem depth_registryValue (v : RegistryValue) : v.toJson.depth ≤ 1 := by
  cases v <;> simp [RegistryValue.toJson, RegistryValue.toLiteral, Literal.toJson, Json.depth,
    Json.fieldsDepth]

theorem depth_textOrNull (s : Option String) : (textOrNull s).depth = 0 := by
  cases s <;> rfl

theorem depth_items (items : List EnumerationItem) :
    Json.itemsDepth (items.map EnumerationItem.toJson) ≤ 2 := by
  induction items with
  | nil => exact Nat.zero_le _
  | cons i items ih =>
    have hvalue := depth_registryValue i.value
    simp only [List.map_cons, Json.itemsDepth, EnumerationItem.toJson, Json.depth, Json.fieldsDepth]
    omega

/-- What an element holds does not go deep. -/
theorem depth_fields (e : Element) : Json.fieldsDepth e.fields ≤ 3 := by
  cases e with
  | boolean e =>
    have htrue := depth_registryValue e.trueValue
    have hfalse := depth_registryValue e.falseValue
    simp only [Element.fields, Json.fieldsDepth, Json.depth, depth_textOrNull]
    omega
  | enumeration e =>
    have hitems := depth_items e.items
    simp only [Element.fields, Json.fieldsDepth, Json.depth, depth_textOrNull]
    omega
  | decimal e | longDecimal e | list e | multiText e | text e =>
    simp [Element.fields, Json.fieldsDepth, Json.depth, depth_textOrNull]

theorem nodup_fields (e : Element) : (e.fields.map Prod.fst).Nodup := by
  cases e <;> simp [Element.fields]

theorem kind_not_mem_fields (e : Element) : "kind" ∉ e.fields.map Prod.fst := by
  cases e <;> simp [Element.fields]

/-- An element names its kind, and is read back as an element of this kind. -/
theorem decodes_element (ho : o ≠ .yaml) (e : Element) {j : Json} (hj : e.toJson.Same j) :
    j.field? "kind" = some (.string e.kind.tag) ∧ Element.decode o (.ofJson j) = .ok e := by
  obtain ⟨hs, rfl, hholds⟩ :=
    Json.holds_of_same hj (Json.nodup_insertField _ (kind_not_mem_fields e) (nodup_fields e))
  have hmem : ∀ f, f ∈ Json.insertField "kind" (.string e.kind.tag) e.fields ↔
      f = ("kind", .string e.kind.tag) ∨ f ∈ e.fields :=
        fun _ => Json.mem_insertField (kind_not_mem_fields e)
  have hkind : ("kind", Json.string e.kind.tag) ∈ hs := by
    obtain ⟨k, hk, hmem⟩ := hholds.given _ ((hmem _).2 (.inl rfl))
    cases hk
    exact hmem
  have hdepth : ∀ h ∈ hs, h.2.depth ≤ 124 := by
    intro h hh
    obtain ⟨f, hf, -, hsame⟩ := hholds.only h hh
    have hle := hsame.depth_le
    rcases (hmem _).1 hf with rfl | hf
    · exact Nat.le_trans hle (Nat.zero_le _)
    · have := Json.fieldsDepth_le_iff.1 (depth_fields e) f hf
      omega
  refine ⟨Json.lookup_of_mem hholds.nodup hkind, ?_⟩
  have hsplit := splitKind_ok ho e.kind hs [] hholds.nodup hkind hdepth
  rw [Tree.ofJson, Element.decode, hsplit]
  exact decodeAs_of_holds (by decide) e (hholds.filter (kind_not_mem_fields e))

/-- A policy is decoded from its fields, in whatever order they stand. -/
theorem decodes_policy (ho : o ≠ .yaml) (p : Policy) : Decodes Policy.decode o p.toJson p := by
  intro j hj
  obtain ⟨hs, rfl, hholds⟩ := Json.holds_of_same hj (by simp)
  refine Record.decode_of_holds hholds (by simp [Policy.fieldNames]) fun es hes => ?_
  have helement : ∀ e : Element, Decodes Element.decode o e.toJson e :=
    fun e _ hk => (decodes_element ho e hk).2
  have hname := needed_ok hes "name" p.name (by simp)
  have hdisplay : withDefault "display_name" Decode.string "" es = .ok p.displayName :=
    field_ok hes (by simp) (decodes_string o p.displayName)
  have hexplain := text_ok hes "explain_text" p.explainText (by simp)
  have hnamespace := needed_ok hes "namespace" p.namespacePath (by simp)
  have hsupported := text_ok hes "supported_on" p.supportedOn (by simp)
  have hclass : withDefault "class" PolicyClass.decode .machine es = .ok p.policyClass :=
    field_ok hes (by simp) (decodes_class ho p.policyClass)
  have hkey := needed_ok hes "key" p.key (by simp)
  have hvalue := text_ok hes "value_name" p.valueName (by simp)
  have henabled : withDefault "enabled_value" (Decode.optional RegistryValue.decode) none es =
      .ok p.enabledValue :=
    field_ok hes (by simp) (decodes_optional ho p.enabledValue)
  have hdisabled : withDefault "disabled_value" (Decode.optional RegistryValue.decode) none es =
      .ok p.disabledValue :=
    field_ok hes (by simp) (decodes_optional ho p.disabledValue)
  have helements : withDefault "elements" (Decode.list Element.decode) [] es = .ok p.elements :=
    field_ok hes (by simp) (decodes_list helement p.elements)
  exact seq_ok (seq_ok (seq_ok (seq_ok (seq_ok (seq_ok (seq_ok (seq_ok (seq_ok (seq_ok
    (map_ok _ hname) hdisplay) hexplain) hnamespace) hsupported) hclass) hkey) hvalue)
    henabled) hdisabled) helements

end

/-! ## Texts of policies -/

theorem isPlain_string (s : String) : (Json.string s).IsPlain := trivial

theorem isPlain_bool (b : Bool) : (Json.bool b).IsPlain := trivial

theorem isPlain_u32 (n : UInt32) : (Json.int n.toNat).IsPlain := by
  have hlt : UInt32.size < UInt64.size := by decide
  exact ⟨n.toNat, rfl, Nat.lt_trans n.toNat_lt hlt⟩

theorem isPlain_u64 (n : UInt64) : (Json.int n.toNat).IsPlain := ⟨n.toNat, rfl, n.toNat_lt⟩

theorem isPlain_textOrNull (s : Option String) : (textOrNull s).IsPlain := by
  cases s <;> trivial

theorem isPlain_registryValue (v : RegistryValue) : v.toJson.IsPlain := by
  cases v with
  | decimal n => exact ⟨isPlain_u32 n, trivial⟩
  | longDecimal n => exact ⟨isPlain_u64 n, trivial⟩
  | string s => exact ⟨trivial, trivial⟩
  | delete => trivial

theorem isPlain_optional (v : Option RegistryValue) : (Json.ofOption RegistryValue.toJson v).IsPlain := by
  cases v with
  | none => trivial
  | some v => exact isPlain_registryValue v

theorem itemsPlain_map {α : Type} {toJson : α → Json} (h : ∀ a, (toJson a).IsPlain) (as : List α) :
    Json.ItemsPlain (as.map toJson) := by
  induction as with
  | nil => trivial
  | cons a as ih => exact ⟨h a, ih⟩

theorem isPlain_item (i : EnumerationItem) : i.toJson.IsPlain :=
  ⟨trivial, trivial, isPlain_registryValue i.value, trivial⟩

theorem fieldsPlain_element (e : Element) : Json.FieldsPlain e.fields := by
  cases e with
  | enumeration e =>
    exact ⟨trivial, itemsPlain_map isPlain_item e.items, isPlain_textOrNull e.key, trivial,
      trivial, trivial⟩
  | boolean | decimal | longDecimal | list | multiText | text =>
    simp only [Element.fields, Json.FieldsPlain, isPlain_string, isPlain_bool, isPlain_u32, isPlain_u64,
      isPlain_textOrNull, isPlain_registryValue, and_self]

theorem isPlain_element (e : Element) : e.toJson.IsPlain := by
  refine Json.fieldsPlain_iff.2 fun f hf => ?_
  rcases (Json.mem_insertField (kind_not_mem_fields e)).1 hf with rfl | hf
  · trivial
  · exact Json.fieldsPlain_iff.1 (fieldsPlain_element e) f hf

theorem isPlain_policy (p : Policy) : p.toJson.IsPlain :=
  ⟨trivial, isPlain_optional p.disabledValue, trivial, itemsPlain_map isPlain_element p.elements,
    isPlain_optional p.enabledValue, isPlain_textOrNull p.explainText, trivial, trivial, trivial,
    isPlain_textOrNull p.supportedOn, isPlain_textOrNull p.valueName, trivial⟩

theorem ofJsonText_text (p : Policy) {j : Json} (hj : p.toJson.Same j) :
    Definition.ofJsonText j.text = .ok p := by
  have hread := Json.read_text (hj.isPlain (isPlain_policy p))
  have hdecode := decodes_policy (o := .text) (by decide) p j hj
  rw [Definition.ofJsonText, hread]
  simp only [hdecode]
  rfl

/-- **The JSON form of a policy loses nothing**: with its fields in whatever order, a policy is read
back from it, both in memory and as a text; and every element names its own kind. -/
theorem json_roundTrip :
    (∀ (p : Policy) (j : Json), p.toJson.Same j →
      Policy.decode .value (.ofJson j) = .ok p ∧ Definition.ofJsonText j.text = .ok p) ∧
    ∀ (e : Element) (j : Json), e.toJson.Same j →
      j.field? "kind" = some (.string e.kind.tag) ∧ Element.decode .value (.ofJson j) = .ok e := by
  have hmemory : Origin.value ≠ .yaml := by decide
  refine ⟨fun p j hj => ⟨?_, ofJsonText_text p hj⟩, fun e j hj => decodes_element hmemory e hj⟩
  exact decodes_policy hmemory p j hj

/-- Switching this policy on writes the word that marks a value to be removed. -/
def wordPolicy : Policy :=
  { Policy.named "Word" "Edge" "Software\\Edge" with
    enabledValue := some (.string "delete"), disabledValue := some .delete,
    elements := [.list ⟨"Sites", none, some "", true, false, false⟩] }

def wordElement : Json :=
  .object
    [("kind", .string "list"), ("additive", .bool true), ("expandable", .bool false),
      ("explicit_value", .bool false), ("id", .string "Sites"), ("key", .null),
      ("value_prefix", .string "")]

def wordFields : List (String × Json) :=
  [("value_name", .null), ("supported_on", .null), ("namespace", .string "Edge"),
    ("name", .string "Word"), ("key", .string "Software\\Edge"), ("explain_text", .null),
    ("enabled_value", .object [("string", .string "delete")]), ("elements", .array [wordElement]),
    ("display_name", .string "Word"), ("disabled_value", .string "delete"),
    ("class", .string "machine")]

theorem json_roundTrip_word :
    (wordPolicy.toJson.Same (.object wordFields) ∧
      Policy.decode .value (.ofJson (.object wordFields)) = .ok wordPolicy ∧
      Definition.ofJsonText (Json.object wordFields).text = .ok wordPolicy) ∧
    ∀ e ∈ wordPolicy.elements, e.toJson.Same wordElement ∧
      wordElement.field? "kind" = some (.string e.kind.tag) ∧
      Element.decode .value (.ofJson wordElement) = .ok e := by
  have hkind : ∀ (front back : List (String × Json)) (f : String × Json),
      (Json.object (front ++ f :: back)).Same (.object (f :: (front ++ back))) :=
    fun _ _ _ => .object (.refl _) List.perm_middle
  have helement : ∀ e ∈ wordPolicy.elements, e.toJson.Same wordElement := by
    intro e he
    obtain rfl := List.mem_singleton.1 he
    exact hkind [("additive", .bool true), ("expandable", .bool false), ("explicit_value", .bool false),
      ("id", .string "Sites"), ("key", .null)] [("value_prefix", .string "")] ("kind", .string "list")
  have hpolicy : wordPolicy.toJson.Same (.object wordFields) := by
    refine .object (?_ : Json.SameFields _ wordFields.reverse) (List.reverse_perm _)
    refine .cons _ (.refl _) (.cons _ (.refl _) (.cons _ (.refl _) (.cons _ ?_ (.refl _))))
    exact .array (.cons (helement _ List.mem_cons_self) .nil)
  exact ⟨⟨hpolicy, json_roundTrip.1 _ _ hpolicy⟩,
    fun e he => ⟨helement e he, json_roundTrip.2 _ _ (helement e he)⟩⟩

end PolicyForge
