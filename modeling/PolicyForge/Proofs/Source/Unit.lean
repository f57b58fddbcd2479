import PolicyForge.Proofs.Source.Block
/-!
# The text of a unit

A rendering that succeeds has written the banner, the start of the namespace, the block of every
policy with an empty line after it, the support code and the end of the namespace, and nothing else
(`render_ok`).  The text around the blocks is given in pieces, as the blocks are.
-/
namespace PolicyForge.Source

/-! ## The pieces around the blocks -/

def bannerPieces : List Piece :=
  [.fixed "//------------------------------------------------------------------------------\n",
    .fixed "// <auto-generated>\n",
    .fixed "//     This code was generated by policygen ", .fixed version, .fixed ".\n",
    .fixed "//\n",
    .fixed "//     Changes to this file may cause incorrect behavior and will be lost if\n",
    .fixed "//     the code is regenerated.\n",
    .fixed "// </auto-generated>\n",
    .fixed "//------------------------------------------------------------------------------\n"]

def openingPieces (assembly : String) : List Piece :=
  [.fixed "\n#pragma warning disable CS0219, CS1591, CS8019\n\nnamespace ", .path assembly,
    .fixed "\n\x7b\n"]

def sectionPieces (lines : List String) : List Piece :=
  lines.flatMap (fun line => [Piece.fixed line, .fixed "\n"]) ++ [Piece.fixed "\n\n"]

def supplementPieces : List Piece :=
  [Piece.fixed "namespace ", .fixed supportNamespace, .fixed "\n\x7b\n"] ++ importPieces ++
    [Piece.fixed "\n"] ++ supportSections.flatMap sectionPieces ++ [Piece.fixed "\x7d\n"]

theorem written_bannerPieces : written bannerPieces = banner := by
  simp only [bannerPieces, written, Piece.string, String.append_empty]
  unfold banner
  simp only [String.join_cons, String.join_nil, String.append_empty, String.append_assoc]

theorem written_openingPieces (assembly : String) :
    written (openingPieces assembly) = opening (namespaceName assembly) := by
  simp only [openingPieces, written, Piece.string, String.append_empty]
  unfold opening
  exact (String.append_assoc ..).symm

theorem written_sectionPieces (lines : List String) :
    written (sectionPieces lines) = sectionText lines ++ "\n\n" := by
  rw [sectionPieces, written_append, ← join_map_written, sectionText]
  simp only [written, Piece.string, String.append_empty]

theorem written_importPieces :
    written importPieces = String.join (importLines.map (· ++ "\n")) := by
  have hline : ∀ n, written [.fixed "using global::", .fixed n, .fixed ";\n"] =
      "using global::" ++ n ++ ";" ++ "\n" := by
    intro n
    rw [String.append_assoc, String.append_assoc]
    rfl
  rw [importPieces, ← join_map_written, importLines, List.map_map]
  exact congrArg String.join (List.map_congr_left fun n _ => hline n)

theorem written_supplementPieces : written supplementPieces = supplement := by
  have hsections : written (supportSections.flatMap sectionPieces) =
      String.join (supportSections.map fun lines => sectionText lines ++ "\n\n") := by
    rw [← join_map_written]
    exact congrArg String.join (List.map_congr_left fun lines _ => written_sectionPieces lines)
  unfold supplement
  rw [supplementPieces, written_append, written_append, written_append, written_append, hsections,
    written_importPieces]
  generalize String.join (importLines.map (· ++ "\n")) = imports
  generalize String.join (supportSections.map _) = sections
  simp only [written, Piece.string, String.append_empty, String.append_assoc]

/-! ## Writing -/

namespace Writing

/-- What goes well in two steps goes well in each. -/
theorem bind_ok {α β : Type} {x : Writing α} {f : α → Writing β} {pen pen' : Pen} {b : β}
    (h : (x >>= f) pen = (.ok b, pen')) : ∃ a mid, x pen = (.ok a, mid) ∧ f a mid = (.ok b, pen') := by
  cases hx : x pen with
  | mk r mid =>
    have hbind : (x >>= f) pen = ExceptT.bindCont f r mid := by
      show (StateT.bind x (ExceptT.bindCont f)) pen = _
      rw [StateT.bind, hx]
      rfl
    rw [hbind] at h
    cases r with
    | ok a => exact ⟨a, mid, rfl, h⟩
    | error e => cases h

theorem checkpoint_ok {pen pen' : Pen} (h : checkpoint pen = (.ok (), pen')) :
    pen'.written = pen.written := by
  rw [checkpoint, Prod.mk.injEq] at h
  rw [← h.2]

theorem put_ok {s : String} {pen pen' : Pen} (h : put s pen = (.ok (), pen')) :
    pen'.written = pen.written ++ s := by
  rw [put, Prod.mk.injEq] at h
  rw [← h.2]

end Writing

/-- A policy that is written passes its check, and its block is written. -/
theorem writePolicy_ok {assembly : String} {p : Policy} {pen pen' : Pen}
    (h : writePolicy (namespaceName assembly) p pen = (.ok (), pen')) :
    refusal? p = none ∧ pen'.written = pen.written ++ (written (blockPieces assembly p) ++ "\n") := by
  obtain ⟨_, mid, hcheck, h⟩ := Writing.bind_ok h
  cases hrefusal : refusal? p with
  | some reason =>
    rw [hrefusal] at h
    cases h
  | none =>
    simp only [hrefusal, block_eq] at h
    exact ⟨rfl, by rw [Writing.put_ok h, Writing.checkpoint_ok hcheck]⟩

theorem writePolicies_ok {assembly : String} : ∀ {ps : List Policy} {pen pen' : Pen},
    writePolicies (namespaceName assembly) ps pen = (.ok (), pen') →
      (∀ p ∈ ps, refusal? p = none) ∧ pen'.written = pen.written ++
        String.join (ps.map fun p => written (blockPieces assembly p) ++ "\n")
  | [], pen, pen', h => by
    cases h
    exact ⟨fun p hp => (List.not_mem_nil hp).elim, String.append_empty.symm⟩
  | p :: rest, pen, pen', h => by
    obtain ⟨_, mid, hp, hrest⟩ := Writing.bind_ok h
    obtain ⟨hrefusal, hwritten⟩ := writePolicy_ok hp
    obtain ⟨hrefusals, hwrittens⟩ := writePolicies_ok hrest
    refine ⟨fun q hq => ?_, ?_⟩
    · rcases List.mem_cons.1 hq with rfl | hq
      · exact hrefusal
      · exact hrefusals q hq
    · rw [hwrittens, hwritten, List.map_cons, String.join_cons, String.append_assoc]

/-- A rendering that succeeds writes the policies and looks at the interrupt once more. -/
theorem render_stages {model : Model} {assembly : String} {interrupt : Interrupt} {pen : Pen}
    (h : render model assembly interrupt = (.ok (), pen)) :
    ∃ policies mid, model.policies = .ok policies ∧
      writePolicies (namespaceName assembly) policies.toList
        ⟨banner ++ opening (namespaceName assembly), interrupt⟩ = (.ok (), mid) ∧
      pen = ⟨mid.written ++ supplement ++ closing, mid.interrupt.afterLook⟩ := by
  rw [render, writeUnit] at h
  cases hpolicies : model.policies with
  | error e =>
    rw [hpolicies] at h
    cases h
  | ok policies =>
    rw [hpolicies] at h
    cases hroot : (namespaceName assembly).isEmpty with
    | true =>
      simp only [hroot, if_true] at h
      cases h
    | false =>
      simp only [hroot, Bool.false_eq_true, if_false] at h
      obtain ⟨_, pen₁, hbanner, h⟩ := Writing.bind_ok h
      cases hbanner
      obtain ⟨_, pen₂, hopening, h⟩ := Writing.bind_ok h
      cases hopening
      obtain ⟨_, mid, hps, h⟩ := Writing.bind_ok h
      obtain ⟨_, pen₄, hcheck, h⟩ := Writing.bind_ok h
      obtain rfl := (Prod.mk.inj hcheck).2
      obtain ⟨_, pen₅, hsupplement, h⟩ := Writing.bind_ok h
      cases hsupplement
      cases h
      rw [String.empty_append] at hps
      exact ⟨policies, mid, rfl, hps, rfl⟩

/-- **What a rendering that succeeds has written.** -/
theorem render_ok {model : Model} {assembly : String} {interrupt : Interrupt} {pen : Pen}
    (h : render model assembly interrupt = (.ok (), pen)) :
    ∃ policies, model.policies = .ok policies ∧ (∀ p ∈ policies.toList, refusal? p = none) ∧
      pen.written = banner ++ opening (namespaceName assembly) ++
        String.join (policies.toList.map fun p => written (blockPieces assembly p) ++ "\n") ++
        supplement ++ closing := by
  obtain ⟨policies, mid, hpolicies, hps, rfl⟩ := render_stages h
  obtain ⟨hrefusals, hwritten⟩ := writePolicies_ok hps
  exact ⟨policies, hpolicies, hrefusals, by rw [hwritten]⟩

end PolicyForge.Source
