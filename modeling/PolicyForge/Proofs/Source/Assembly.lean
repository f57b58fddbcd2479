import PolicyForge.Proofs.Source.Members
/-!
# Reading a rendered unit

What stands between the banner and the support code of a unit is read as one namespace, with a
namespace in it for every policy that holds the class of the policy and nothing else (`render_reads`).
-/
namespace PolicyForge.Source

def openingParts (assembly : String) : List Part := (openingPieces assembly).map Piece.part

/-- A unit between its banner and the support code. -/
def unitParts (assembly : String) (ps : List Policy) : List Part :=
  openingParts assembly ++ ps.flatMap fun p => blockParts assembly p ++ [.fixed "\n"]

theorem spelled_unitParts (assembly : String) (ps : List Policy) :
    banner ++ spelled (unitParts assembly ps) =
      upTo (namespaceName assembly) (ps.map fun p => written (blockPieces assembly p)) := by
  have hblocks : spelled (ps.flatMap fun p => blockParts assembly p ++ [.fixed "\n"]) =
      String.join ((ps.map fun p => written (blockPieces assembly p)).map (· ++ "\n")) := by
    induction ps with
    | nil => rfl
    | cons p ps ih =>
      rw [List.flatMap_cons, List.map_cons, List.map_cons, String.join_cons, spelled_append, ih,
        spelled_append, spelled_blockParts]
      simp only [spelled, Part.string, String.append_empty]
  rw [unitParts, spelled_append, hblocks, openingParts, spelled_map_part, written_openingPieces,
    upTo, String.append_assoc]

set_option maxRecDepth 4000

theorem separated_unitParts (assembly : String) (ps : List Policy) :
    separated (unitParts assembly ps) = true := by
  refine separated_append ?_ (separated_flatMap fun p _ => ?_)
  · rfl
  · exact separated_append (separated_blockParts assembly p) rfl

/-- The tokens in front of the namespace of the assembly. -/
def pragmaTokens : List Token :=
  [.mark '#', .word "pragma", .word "warning", .word "disable", .word "CS0219", .mark ',',
    .word "CS1591", .mark ',', .word "CS8019"]

theorem tokens_unitParts {assembly : String} (hname : namespaceName assembly ≠ "")
    {ps : List Policy} (hps : ∀ p ∈ ps, Acceptable p) :
    (unitParts assembly ps).flatMap Part.tokens = pragmaTokens ++ [.word "namespace",
      .word (namespaceName assembly), .mark '\x7b'] ++ (ps.map (blockTokens assembly)).flatten := by
  have hblocks : (ps.flatMap fun p => blockParts assembly p ++ [.fixed "\n"]).flatMap Part.tokens =
      (ps.map (blockTokens assembly)).flatten := by
    refine tokens_flatMap fun p hp => ?_
    obtain ⟨hpname, hpath, -⟩ := hps p hp
    rw [List.flatMap_append, tokens_blockParts assembly hpname hpath]
    exact List.append_nil _
  rw [unitParts, List.flatMap_append, hblocks]
  simp only [openingParts, openingPieces, List.map_cons, List.map_nil, Piece.part,
    List.flatMap_cons, List.flatMap_nil, Part.tokens, wordTokens_of_ne hname, List.append_nil]
  rfl

/-- **A unit is read back** up to the support code: the namespace of the assembly, and in it a
namespace with a class for every policy. -/
theorem readAssembly_unitParts {assembly : String} (hname : namespaceName assembly ≠ "")
    {ps : List Policy} (hps : ∀ p ∈ ps, Acceptable p) :
    readAssembly (spelled (unitParts assembly ps)) = some ⟨namespaceName assembly,
      ps.map fun p =>
        ⟨namespaceName p.namespacePath, [⟨typeName p.name, classMembers assembly p⟩]⟩⟩ := by
  have htokens : tokens (spelled (unitParts assembly ps)) = pragmaTokens ++ [.word "namespace",
      .word (namespaceName assembly), .mark '\x7b'] ++ (ps.map (blockTokens assembly)).flatten := by
    rw [tokens_spelled (separated_unitParts assembly ps), tokens_unitParts hname hps]
  have hafter : nameAfter "namespace" (tokens (spelled (unitParts assembly ps))) =
      some (namespaceName assembly, .mark '\x7b' :: (ps.map (blockTokens assembly)).flatten) := by
    rw [htokens]
    simp [nameAfter, pragmaTokens]
  have hblocks : declarations (ps.map (blockTokens assembly)).flatten =
      ps.map (blockTokens assembly) := by
    have h := @declarations_flatten (ps.map (blockTokens assembly)) [] (by
      intro d hd
      obtain ⟨p, -, rfl⟩ := List.mem_map.1 hd
      exact isDeclaration_blockTokens assembly p) (.inl rfl)
    rwa [List.append_nil] at h
  have hread : (ps.map (blockTokens assembly)).mapM Namespace.read = some (ps.map fun p =>
      ⟨namespaceName p.namespacePath, [⟨typeName p.name, classMembers assembly p⟩]⟩) := by
    refine mapM_of_forall₂ ?_
    rw [List.forall₂_map_left_iff, List.forall₂_map_right_iff, List.forall₂_same]
    exact fun p hp => read_blockTokens assembly (hps p hp).1
  rw [readAssembly, hafter]
  simp only [Option.bind_eq_bind, Option.bind_some, body, hblocks, hread]
  rfl

/-- In an assembly every policy has a namespace of its own, with one class in it. -/
structure Reads (assembly : String) (ps : List Policy) (classOf : Policy → Class) (a : Assembly) :
    Prop where
  path : a.path = namespaceName assembly
  namespaces : a.namespaces = ps.map fun p => ⟨namespaceName p.namespacePath, [classOf p]⟩
  declares : ∀ p ∈ ps, Declares assembly p (classOf p)

def Assembly.classes (a : Assembly) : List Class := a.namespaces.flatMap Namespace.classes

theorem Reads.classes {assembly : String} {ps : List Policy} {classOf : Policy → Class}
    {a : Assembly} (h : Reads assembly ps classOf a) : a.classes = ps.map classOf := by
  rw [Assembly.classes, h.namespaces, List.flatMap_map, List.map_eq_flatMap]

/-- **What a rendering that succeeds has written is read** as the namespaces and classes of the
policies. -/
theorem render_reads {model : Model} {assembly : String} {interrupt : Interrupt} {pen : Pen}
    (h : render model assembly interrupt = (.ok (), pen)) :
    ∃ policies text a classOf, model.policies = .ok policies ∧ namespaceName assembly ≠ "" ∧
      (∀ p ∈ policies.toList, Acceptable p) ∧
      pen.written = banner ++ text ++ supplement ++ closing ∧ readAssembly text = some a ∧
      Reads assembly policies.toList classOf a := by
  obtain ⟨policies, hpolicies, -, hwritten⟩ := render_ok h
  obtain ⟨result, pen', hrender, hends⟩ := render_cases hpolicies assembly interrupt
  rw [h, Prod.mk.injEq] at hrender
  obtain ⟨rfl, rfl⟩ := hrender
  obtain ⟨hname, hps⟩ := hends.of_ok rfl
  refine ⟨policies, _, _, fun p => ⟨typeName p.name, classMembers assembly p⟩, hpolicies, hname,
    hps, ?_, readAssembly_unitParts hname hps, rfl, rfl, ?_⟩
  · rw [spelled_unitParts, hwritten, upTo, List.map_map]
    rfl
  · exact fun p hp => declares_classMembers assembly (hps p hp).2.2

end PolicyForge.Source
