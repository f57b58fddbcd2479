import PolicyForge.Proofs.Source.Assembly
/-!
# Legal names in a unit

Every name that a rendered unit declares is a legal identifier but for the members of enumerations: an
item with a blank name becomes a member with an empty one, as nothing looks at the names of items
before a policy is written (`render_identifiers`).
-/
namespace PolicyForge.Source

open Text

/-! ## Declared names -/

/-- The names between the dots of a path. -/
def pathNames (path : String) : List (List Char) := splitOn (· == '.') path.toList

namespace Class

/-- The names of the class, its properties and its enumerations. -/
def typeNames (c : Class) : List (List Char) :=
  c.name.toList :: c.properties.map (fun q => q.name.toList) ++
    c.enumerations.map fun d => d.1.toList

def itemNames (c : Class) : List (List Char) :=
  c.enumerations.flatMap fun d => d.2.map String.toList

end Class

namespace Assembly

def typeNames (a : Assembly) : List (List Char) :=
  pathNames a.path ++ a.namespaces.flatMap (fun n => pathNames n.path) ++
    a.classes.flatMap Class.typeNames

def itemNames (a : Assembly) : List (List Char) := a.classes.flatMap Class.itemNames

end Assembly

/-! ## Paths -/

theorem isIdentifier_of_mem_segments {name s : List Char} (h : s ∈ segments name) :
    IsIdentifier s := by
  rw [segments, List.mem_filter, List.mem_map] at h
  obtain ⟨⟨t, -, rfl⟩, hne⟩ := h
  refine (typeChars_eq_nil_or_isIdentifier t).resolve_left fun hnil => ?_
  rw [hnil] at hne
  cases hne

/-- The dots of a legal path are those that were put between its segments. -/
theorem pathNames_namespaceName {name : String} (h : namespaceName name ≠ "") :
    pathNames (namespaceName name) = segments name.toList := by
  rw [pathNames, toList_namespaceName, namespaceChars]
  refine splitOn_join (fun hnil => h ?_) fun s hs hdot => ?_
  · rw [namespaceName, namespaceChars, hnil]
    rfl
  · exact absurd ((isIdentifier_of_mem_segments hs).2.1 '.' hdot) (by decide)

theorem isIdentifier_of_mem_pathNames {name : String} (h : namespaceName name ≠ "")
    {s : List Char} (hs : s ∈ pathNames (namespaceName name)) : IsIdentifier s := by
  rw [pathNames_namespaceName h] at hs
  exact isIdentifier_of_mem_segments hs

/-! ## Classes -/

def itemIds (e : Element) : List String := (elementItems e).map EnumerationItem.id

theorem Declares.isIdentifier_typeNames {assembly : String} {p : Policy} {c : Class}
    (h : Declares assembly p c) (hname : typeName p.name ≠ "") {s : List Char}
    (hs : s ∈ c.typeNames) : IsIdentifier s := by
  rw [Class.typeNames, h.name, h.properties, h.enumerations] at hs
  simp only [List.mem_append, List.mem_cons, List.mem_map] at hs
  rcases hs with (rfl | ⟨q, ⟨e, -, rfl⟩, rfl⟩) | ⟨d, hd, rfl⟩
  · exact isIdentifier_typeName hname
  · exact isIdentifier_property e.id
  · obtain ⟨e, -, he⟩ := List.mem_filterMap.1 hd
    cases e with
    | enumeration n =>
      cases he
      exact isIdentifier_option n.id
    | _ => cases he

/-- The members of the enumerations of a class are the items of the elements of its policy. -/
theorem Declares.itemNames {assembly : String} {p : Policy} {c : Class}
    (h : Declares assembly p c) :
    c.itemNames = p.elements.flatMap fun e => (itemIds e).map fun id => memberChars id.toList := by
  rw [Class.itemNames, h.enumerations, List.filterMap_eq_flatMap_toList, List.flatMap_assoc]
  refine congrArg (fun f => List.flatMap f p.elements) (funext fun e => ?_)
  cases e with
  | enumeration n =>
    simp [elementEnumeration?, itemIds, elementItems, Function.comp_def]
  | _ => rfl

theorem Reads.isIdentifier_typeNames {assembly : String} {ps : List Policy}
    {classOf : Policy → Class} {a : Assembly} (h : Reads assembly ps classOf a)
    (hname : namespaceName assembly ≠ "") (hps : ∀ p ∈ ps, Acceptable p) {s : List Char}
    (hs : s ∈ a.typeNames) : IsIdentifier s := by
  rw [Assembly.typeNames, h.path, h.namespaces, h.classes] at hs
  simp only [List.mem_append, List.mem_flatMap, List.mem_map] at hs
  rcases hs with (hs | ⟨n, ⟨p, hp, rfl⟩, hs⟩) | ⟨c, ⟨p, hp, rfl⟩, hs⟩
  · exact isIdentifier_of_mem_pathNames hname hs
  · exact isIdentifier_of_mem_pathNames (hps p hp).2.1 hs
  · exact (h.declares p hp).isIdentifier_typeNames (hps p hp).1 hs

theorem Reads.isIdentifier_itemNames {assembly : String} {ps : List Policy}
    {classOf : Policy → Class} {a : Assembly} (h : Reads assembly ps classOf a) :
    (∀ s ∈ a.itemNames, IsIdentifier s) ↔
      ∀ p ∈ ps, ∀ e ∈ p.elements, ∀ id ∈ itemIds e, allBlank id.toList = false := by
  have hitems : a.itemNames = ps.flatMap fun p => p.elements.flatMap fun e =>
      (itemIds e).map fun id => memberChars id.toList := by
    rw [Assembly.itemNames, h.classes, List.flatMap_map, List.flatMap_def, List.flatMap_def]
    exact congrArg List.flatten (List.map_congr_left fun p hp => (h.declares p hp).itemNames)
  simp only [hitems, List.mem_flatMap, List.mem_map]
  constructor
  · intro hlegal p hp e he id hid
    exact isIdentifier_memberChars_iff.1 (hlegal _ ⟨p, hp, e, he, id, hid, rfl⟩)
  · rintro hblank s ⟨p, hp, e, he, id, hid, rfl⟩
    exact isIdentifier_memberChars (hblank p hp e he id hid)

theorem Reads.map_name {assembly : String} {ps : List Policy} {classOf : Policy → Class}
    {a : Assembly} (h : Reads assembly ps classOf a) :
    a.classes.map Class.name = ps.map fun p => typeName p.name := by
  rw [h.classes, List.map_map]
  exact List.map_congr_left fun p hp => (h.declares p hp).name

/-- **Every name that a rendered unit declares is legal if and only if no item has a blank name.**
The names of namespaces, classes, properties and enumerations are legal in any case. -/
theorem render_identifiers {model : Model} {assembly : String} {interrupt : Interrupt} {pen : Pen}
    (h : render model assembly interrupt = (.ok (), pen)) :
    ∃ policies text a, model.policies = .ok policies ∧
      pen.written = banner ++ text ++ supplement ++ closing ∧ readAssembly text = some a ∧
      a.classes.map Class.name = policies.toList.map (fun p => typeName p.name) ∧
      (∀ s ∈ a.typeNames, IsIdentifier s) ∧
      ((∀ s ∈ a.itemNames, IsIdentifier s) ↔
        ∀ p ∈ policies.toList, ∀ e ∈ p.elements, ∀ id ∈ itemIds e, allBlank id.toList = false) := by
  obtain ⟨policies, text, a, classOf, hpolicies, hname, hps, hwritten, hread, hreads⟩ :=
    render_reads h
  exact ⟨policies, text, a, hpolicies, hwritten, hread, hreads.map_name,
    fun s => hreads.isIdentifier_typeNames hname hps, hreads.isIdentifier_itemNames⟩

/-- Reserved words and a digit in front do no harm. -/
theorem render_identifiers_reserved :
    let p := { Policy.named "class" "2.for" "k" with elements :=
      [.enumeration ⟨"enum", none, "v", true, [⟨"default", "d", .delete⟩]⟩] }
    ∃ pen, render (.ofPolicy p) "A" .quiet = (.ok (), pen) ∧ ∃ text a,
      pen.written = banner ++ text ++ supplement ++ closing ∧ readAssembly text = some a ∧
      ∀ s ∈ a.typeNames ++ a.itemNames, IsIdentifier s := by
  intro p
  obtain ⟨pen, hpen⟩ := exists_pen_of_isOk (by decide :
    (render (.ofPolicy p) "A" .quiet).1.isOk = true)
  obtain ⟨policies, text, a, hpolicies, hwritten, hread, -, htypes, hitems⟩ :=
    render_identifiers hpen
  refine ⟨pen, hpen, text, a, hwritten, hread, fun s hs => ?_⟩
  obtain rfl : PolicySet.single p = policies := Except.ok.inj hpolicies
  rcases List.mem_append.1 hs with hs | hs
  · exact htypes s hs
  · exact hitems.2 (by decide) s hs

/-- A blank item is written as a member without a name. -/
theorem render_blank_item :
    let p := { Policy.named "a" "n" "k" with elements :=
      [.enumeration ⟨"m", none, "v", true, [⟨"", "d", .delete⟩]⟩] }
    ∃ pen, render (.ofPolicy p) "A" .quiet = (.ok (), pen) ∧ ∃ text a,
      pen.written = banner ++ text ++ supplement ++ closing ∧ readAssembly text = some a ∧
      ¬ ∀ s ∈ a.typeNames ++ a.itemNames, IsIdentifier s := by
  intro p
  obtain ⟨pen, hpen⟩ := exists_pen_of_isOk (by decide :
    (render (.ofPolicy p) "A" .quiet).1.isOk = true)
  obtain ⟨policies, text, a, classOf, hpolicies, -, -, hwritten, hread, hreads⟩ := render_reads hpen
  refine ⟨pen, hpen, text, a, hwritten, hread, fun hlegal => ?_⟩
  obtain rfl : PolicySet.single p = policies := Except.ok.inj hpolicies
  have hblank := hreads.isIdentifier_itemNames.1 fun s hs => hlegal s (List.mem_append_right _ hs)
  exact absurd hblank (by decide)

end PolicyForge.Source
