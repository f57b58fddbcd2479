import PolicyForge.Proofs.Source.Assembly
import Mathlib.Data.List.Nodup
import Mathlib.Data.List.Perm.Basic
/-!
# Distinct names in a unit

Escaping joins names: `a-b` and `ab` become the same type name.  Names that are declared in one place are
distinct exactly when the escaped names of the model are (`render_distinct`), which distinct names in
the model do not suffice for.  Names of different sorts never meet: fixed members, properties and
enumerations are told apart by how they end.
-/
namespace PolicyForge.Source

/-! ## Members -/

/-- The names of the elements as they stand in their properties. -/
def propertyIds (p : Policy) : List String := p.elements.map fun e => memberName e.id

def optionId? : Element → Option String
  | .enumeration n => some (typeName n.id)
  | _ => none

/-- The names of the elements with items as they stand in their enumerations. -/
def optionIds (p : Policy) : List String := p.elements.filterMap optionId?

theorem append_right_injective (suffix : String) :
    Function.Injective fun s : String => s ++ suffix := by
  intro s t h
  have hlist := congrArg String.toList h
  simp only [String.toList_append] at hlist
  exact String.toList_inj.1 (List.append_cancel_right hlist)

theorem memberNames_perm (p : Policy) : (memberNames p).Perm (fixedMembers ++
    ((propertyIds p).map (· ++ "Element") ++ (optionIds p).map (· ++ "Option"))) := by
  have helement : elementMembers = fun e => (memberName e.id ++ "Element") ::
      ((optionId? e).map (· ++ "Option")).toList := by
    funext e
    cases e <;> rfl
  have hoptions : (optionIds p).map (· ++ "Option") =
      p.elements.flatMap fun e => ((optionId? e).map (· ++ "Option")).toList := by
    rw [optionIds, List.map_filterMap, List.filterMap_eq_flatMap_toList]
  rw [memberNames, helement, hoptions, propertyIds, List.map_map]
  exact (List.map_append_flatMap_perm p.elements _ _).symm.append_left fixedMembers

/-- Texts differ if the shorter of their endings does not end the longer one. -/
theorem append_ne_append {s t u v : String} (hlength : u.toList.length ≤ v.toList.length)
    (hsuffix : u.toList.isSuffixOf v.toList = false) : s ++ u ≠ t ++ v := by
  intro h
  have hlist := congrArg String.toList h
  rw [String.toList_append, String.toList_append] at hlist
  have hu : u.toList <:+ t.toList ++ v.toList := hlist ▸ List.suffix_append _ _
  have hends := List.suffix_of_suffix_length_le hu (List.suffix_append _ _) hlength
  rw [List.isSuffixOf_iff_suffix.2 hends] at hsuffix
  cases hsuffix

theorem ne_append_of_mem_fixedMembers {name suffix : String} (h : name ∈ fixedMembers)
    (hsuffix : suffix = "Element" ∨ suffix = "Option") (s : String) : s ++ suffix ≠ name := by
  have hends : ∀ f ∈ fixedMembers, ∀ u ∈ ["Element", "Option"],
      u.toList.length ≤ f.toList.length ∧ u.toList.isSuffixOf f.toList = false := by decide
  obtain ⟨hlength, hnot⟩ := hends name h suffix (by simpa using hsuffix)
  rw [← String.empty_append (s := name)]
  exact append_ne_append hlength hnot

/-- **Members are distinct when the names of elements are**, those of the properties and those of the
enumerations each among themselves. -/
theorem nodup_memberNames_iff (p : Policy) :
    (memberNames p).Nodup ↔ (propertyIds p).Nodup ∧ (optionIds p).Nodup := by
  have hfixed : fixedMembers.Nodup := by decide
  have hsorts : ∀ a ∈ (propertyIds p).map (· ++ "Element"),
      ∀ b ∈ (optionIds p).map (· ++ "Option"), a ≠ b := by
    intro a ha b hb
    obtain ⟨s, -, rfl⟩ := List.mem_map.1 ha
    obtain ⟨t, -, rfl⟩ := List.mem_map.1 hb
    exact (append_ne_append (by decide) (by decide)).symm
  have hdisjoint : ∀ a ∈ fixedMembers, ∀ b ∈ (propertyIds p).map (· ++ "Element") ++
      (optionIds p).map (· ++ "Option"), a ≠ b := by
    intro a ha b hb
    rcases List.mem_append.1 hb with hb | hb
    · obtain ⟨s, -, rfl⟩ := List.mem_map.1 hb
      exact (ne_append_of_mem_fixedMembers ha (.inl rfl) s).symm
    · obtain ⟨s, -, rfl⟩ := List.mem_map.1 hb
      exact (ne_append_of_mem_fixedMembers ha (.inr rfl) s).symm
  rw [(memberNames_perm p).nodup_iff, List.nodup_append, List.nodup_append,
    List.nodup_map_iff (append_right_injective _), List.nodup_map_iff (append_right_injective _)]
  exact ⟨fun h => ⟨h.2.1.1, h.2.1.2.1⟩, fun h => ⟨hfixed, ⟨h.1, h.2, hsorts⟩, hdisjoint⟩⟩

/-! ## Classes -/

/-- The names of the classes with the paths of the namespaces that they are in. -/
def Assembly.qualifiedNames (a : Assembly) : List String :=
  a.namespaces.flatMap fun n => n.classes.map fun c => a.path ++ "." ++ n.path ++ "." ++ c.name

/-- What the class of a policy is called. -/
def classPath (p : Policy) : String × String := (namespaceName p.namespacePath, typeName p.name)

/-- The last dot tells a path from the name after it. -/
theorem eq_of_append_dot {s t m n : String} (hm : '.' ∉ m.toList) (hn : '.' ∉ n.toList)
    (h : s ++ "." ++ m = t ++ "." ++ n) : s = t ∧ m = n := by
  have hne : ∀ w : String, '.' ∉ w.toList → ∀ c ∈ w.toList.reverse, (c != '.') = true := by
    intro w hw c hc
    rw [bne_iff_ne]
    rintro rfl
    exact hw (List.mem_reverse.1 hc)
  have hreverse := congrArg (fun w : String => w.toList.reverse) h
  simp only [String.toList_append, List.reverse_append] at hreverse
  obtain ⟨hnames, hpaths⟩ := cut_run (hne m hm) (hne n hn) (by decide) (by decide) hreverse
  exact ⟨String.toList_inj.1 (List.reverse_inj.1 (List.cons.inj hpaths).2),
    String.toList_inj.1 (List.reverse_inj.1 hnames)⟩

theorem dot_not_mem_typeName (name : String) : '.' ∉ (typeName name).toList := by
  intro h
  rw [toList_typeName] at h
  have hpart := isMemberPart_of_mem_legalName (fun _ => isMemberPart_of_isNamePart) h
  exact absurd hpart (by decide)

section

variable {assembly : String} {ps : List Policy} {classOf : Policy → Class} {a : Assembly}

theorem Reads.nodup_qualifiedNames (h : Reads assembly ps classOf a) :
    a.qualifiedNames.Nodup ↔ (ps.map classPath).Nodup := by
  have hnames : a.qualifiedNames = (ps.map classPath).map fun q =>
      namespaceName assembly ++ "." ++ q.1 ++ "." ++ q.2 := by
    rw [Assembly.qualifiedNames, h.namespaces, h.path, List.flatMap_map, List.map_map,
      List.map_eq_flatMap, List.flatMap_def, List.flatMap_def]
    refine congrArg List.flatten (List.map_congr_left fun p hp => ?_)
    simp only [List.map_cons, List.map_nil, (h.declares p hp).name, Function.comp_apply, classPath]
  rw [hnames]
  refine ⟨List.Nodup.of_map _, fun hps => hps.map_on fun q hq r hr heq => ?_⟩
  have hdot : ∀ q ∈ ps.map classPath, '.' ∉ q.2.toList := by
    intro q hq
    obtain ⟨p, -, rfl⟩ := List.mem_map.1 hq
    exact dot_not_mem_typeName p.name
  obtain ⟨hpath, hname⟩ := eq_of_append_dot (hdot q hq) (hdot r hr) heq
  have hlist := congrArg String.toList hpath
  simp only [String.toList_append] at hlist
  exact Prod.ext (String.toList_inj.1 (List.append_cancel_left hlist)) hname

theorem Reads.nodup_declared (h : Reads assembly ps classOf a) :
    (∀ c ∈ a.classes, c.declared.Nodup) ↔
      ∀ p ∈ ps, (propertyIds p).Nodup ∧ (optionIds p).Nodup := by
  rw [h.classes, List.forall_mem_map]
  refine forall₂_congr fun p hp => ?_
  rw [(h.declares p hp).declared.nodup_iff, nodup_memberNames_iff]

theorem Reads.nodup_enumerations (h : Reads assembly ps classOf a) :
    (∀ c ∈ a.classes, ∀ d ∈ c.enumerations, d.2.Nodup) ↔
      ∀ p ∈ ps, ∀ e ∈ p.elements, ((elementItems e).map fun i => memberName i.id).Nodup := by
  rw [h.classes, List.forall_mem_map]
  refine forall₂_congr fun p hp => ?_
  rw [(h.declares p hp).enumerations]
  constructor
  · intro hnodup e he
    cases e with
    | enumeration n => exact hnodup _ (List.mem_filterMap.2 ⟨_, he, rfl⟩)
    | _ => exact List.nodup_nil
  · intro hnodup d hd
    obtain ⟨e, he, hde⟩ := List.mem_filterMap.1 hd
    cases e with
    | enumeration n =>
      cases hde
      exact hnodup _ he
    | _ => cases hde

theorem Reads.nodup_keys (h : Reads assembly ps classOf a) :
    (∀ c ∈ a.classes, ∀ q ∈ c.properties, q.keys.Nodup) ↔
      ∀ p ∈ ps, ∀ e ∈ p.elements, ((elementItems e).map fun i => memberName i.id).Nodup := by
  rw [h.classes, List.forall_mem_map]
  refine forall₂_congr fun p hp => ?_
  rw [(h.declares p hp).properties, List.forall_mem_map]
  rfl

end

/-- **Names that a rendered unit declares in one place are distinct if and only if the escaped names
of the model are**: those of the policies, of the elements in a policy and of the items in an element. -/
theorem render_distinct {model : Model} {assembly : String} {interrupt : Interrupt} {pen : Pen}
    (h : render model assembly interrupt = (.ok (), pen)) :
    ∃ policies text a, model.policies = .ok policies ∧
      pen.written = banner ++ text ++ supplement ++ closing ∧ readAssembly text = some a ∧
      (a.qualifiedNames.Nodup ↔ (policies.toList.map classPath).Nodup) ∧
      ((∀ c ∈ a.classes, c.declared.Nodup) ↔
        ∀ p ∈ policies.toList, (propertyIds p).Nodup ∧ (optionIds p).Nodup) ∧
      ((∀ c ∈ a.classes, ∀ d ∈ c.enumerations, d.2.Nodup) ↔ ∀ p ∈ policies.toList,
        ∀ e ∈ p.elements, ((elementItems e).map fun i => memberName i.id).Nodup) ∧
      ((∀ c ∈ a.classes, ∀ q ∈ c.properties, q.keys.Nodup) ↔ ∀ p ∈ policies.toList,
        ∀ e ∈ p.elements, ((elementItems e).map fun i => memberName i.id).Nodup) := by
  obtain ⟨policies, text, a, classOf, hpolicies, -, -, hwritten, hread, hreads⟩ := render_reads h
  exact ⟨policies, text, a, hpolicies, hwritten, hread, hreads.nodup_qualifiedNames,
    hreads.nodup_declared, hreads.nodup_enumerations, hreads.nodup_keys⟩

/-- Two classes of one name in two namespaces, and an enumeration called like a property. -/
theorem render_distinct_namespaces :
    let e := Element.enumeration ⟨"e", none, "v", true, [⟨"x", "d", .delete⟩, ⟨"y", "d", .delete⟩]⟩
    let ps := [{ Policy.named "a" "m" "k" with elements := [e, .text ⟨"f", none, "v", true, 1, false⟩] },
      Policy.named "a" "n" "k"]
    ∃ pen, render (.ofPolicies ps) "A" .quiet = (.ok (), pen) ∧ ∃ text a,
      pen.written = banner ++ text ++ supplement ++ closing ∧ readAssembly text = some a ∧
      a.qualifiedNames.Nodup ∧ ∀ c ∈ a.classes, c.declared.Nodup ∧
        (∀ d ∈ c.enumerations, d.2.Nodup) ∧ ∀ q ∈ c.properties, q.keys.Nodup := by
  intro e ps
  obtain ⟨pen, hpen⟩ := exists_pen_of_isOk (by decide :
    (render (.ofPolicies ps) "A" .quiet).1.isOk = true)
  obtain ⟨policies, text, a, hpolicies, hwritten, hread, hclasses, hmembers, hitems, hkeys⟩ :=
    render_distinct hpen
  obtain rfl : PolicySet.many ps = policies := Except.ok.inj hpolicies
  refine ⟨pen, hpen, text, a, hwritten, hread, hclasses.2 (by decide), fun c hc => ⟨?_, ?_, ?_⟩⟩
  · exact hmembers.2 (by decide) c hc
  · exact hitems.2 (by decide) c hc
  · exact hkeys.2 (by decide) c hc

/-- Policies, elements and items have names of their own, each in its place. -/
def DistinctlyNamed (ps : List Policy) : Prop :=
  (ps.map fun p => (p.namespacePath, p.name)).Nodup ∧ ∀ p ∈ ps, (p.elements.map Element.id).Nodup ∧
    ∀ e ∈ p.elements, ((elementItems e).map EnumerationItem.id).Nodup

/-- Two elements with names of their own share a property. -/
theorem render_shared_property :
    let p := { Policy.named "p" "n" "k" with elements :=
      [.text ⟨"a", none, "v", true, 1, false⟩, .text ⟨"a-", none, "w", true, 1, false⟩] }
    DistinctlyNamed [p] ∧ ∃ pen, render (.ofPolicies [p]) "A" .quiet = (.ok (), pen) ∧ ∃ text a,
      pen.written = banner ++ text ++ supplement ++ closing ∧ readAssembly text = some a ∧
      ¬ ∀ c ∈ a.classes, c.declared.Nodup := by
  intro p
  have hnamed : DistinctlyNamed [p] := by
    unfold DistinctlyNamed
    decide
  obtain ⟨pen, hpen⟩ := exists_pen_of_isOk (by decide :
    (render (.ofPolicies [p]) "A" .quiet).1.isOk = true)
  obtain ⟨policies, text, a, classOf, hpolicies, -, -, hwritten, hread, hreads⟩ := render_reads hpen
  obtain rfl : PolicySet.many [p] = policies := Except.ok.inj hpolicies
  refine ⟨hnamed, pen, hpen, text, a, hwritten, hread, fun hdistinct => ?_⟩
  have hids := (hreads.nodup_declared.1 hdistinct p (List.mem_singleton_self p)).1
  exact absurd hids (by decide)

end PolicyForge.Source
