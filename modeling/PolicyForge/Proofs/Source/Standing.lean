import PolicyForge.Proofs.Source.Containment
import PolicyForge.Proofs.Source.LineBreaks
/-!
# Where the pieces of a unit stand

Pieces stand between two places if read at the first they lead to the second, every value among
them begins in code, and the template spells out no stray break (`Stands`).  For parts that hold a
fixed number of pieces this is told by evaluating their shapes; parts one after the other and parts
repeated stand where each of them does.  So a block stands at the margin and comes back there at
the same depth (`stands_blockPieces`), and so does the support code.
-/
namespace PolicyForge.Source

open Layout Text

/-! ## Stray breaks of the template -/

/-- The template spells out no stray break. -/
def Shape.isTidy : Shape → Bool
  | .fixed s => !s.any isStray
  | _ => true

def Piece.isTidy (q : Piece) : Bool := q.shape.isTidy

theorem isTidy_of_spells {ps : List Piece} {ss : List Shape} (h : Spells ps ss)
    (hss : ss.all Shape.isTidy = true) : ∀ q ∈ ps, q.isTidy = true := by
  intro q hq
  have hmem : q.shape ∈ ss := h.map_shape ▸ List.mem_map_of_mem hq
  exact List.all_eq_true.1 hss _ hmem

/-! ## Values -/

/-- Read at a place, the pieces have every value of theirs begin in code. -/
def ValuesInCode (a : Place × Nat) (ps : List Piece) : Prop :=
  ∀ before v after, ps = before ++ .value v :: after →
    ∃ depth, Leads a (written before).toList (.within .code, depth)

theorem valuesInCode_of_not_mem {a : Place × Nat} {ps : List Piece} (h : ∀ v, .value v ∉ ps) :
    ValuesInCode a ps := by
  rintro before v after rfl
  exact absurd (by simp) (h v)

theorem valuesInCode_append {a b : Place × Nat} {ps qs : List Piece} (hps : ValuesInCode a ps)
    (hleads : Leads a (written ps).toList b) (hqs : ValuesInCode b qs) :
    ValuesInCode a (ps ++ qs) := by
  intro before v after hsplit
  rcases List.append_eq_append_iff.1 hsplit with ⟨mid, rfl, hmid⟩ | ⟨mid, rfl, hmid⟩
  · obtain ⟨depth, hdepth⟩ := hqs mid v after hmid
    exact ⟨depth, leads_written_append hleads hdepth⟩
  · cases mid with
    | nil =>
      obtain ⟨depth, hdepth⟩ := hqs [] v after (by simpa using hmid.symm)
      rw [List.append_nil] at hleads
      have hbefore := leads_written_append hleads hdepth
      rw [List.append_nil] at hbefore
      exact ⟨depth, hbefore⟩
    | cons q mid =>
      obtain ⟨rfl, -⟩ := List.cons.inj hmid
      exact hps before v mid rfl

theorem steps_append : ∀ (ss ts : List Shape) (a : Place × Nat),
    steps (ss ++ ts) a = (steps ss a).bind (steps ts)
  | [], _, _ => rfl
  | s :: ss, ts, a => by
    rw [List.cons_append, steps, steps, Option.bind_assoc]
    exact congrArg _ (funext fun b => steps_append ss ts b)

/-- Shapes that lead somewhere have their values begin in code. -/
theorem valuesInCode_of_spells (depth u : Nat) {p : Place} {b : Place × Nat} {ps : List Piece}
    {ss : List Shape} (h : Spells ps ss) (hss : steps ss (p, u) = some b) :
    ValuesInCode (p, depth + u) ps := by
  rintro before w after rfl
  rw [← h.map_shape, List.map_append, steps_append] at hss
  obtain ⟨⟨place, d⟩, hbefore, hrest⟩ := Option.bind_eq_some_iff.1 hss
  rw [List.map_cons, steps] at hrest
  obtain ⟨c, hvalue, -⟩ := Option.bind_eq_some_iff.1 hrest
  have hcode : place = .within .code := by
    by_contra hne
    simp [Piece.shape, Shape.step, hne] at hvalue
  have hadd := steps_add depth hbefore
  rw [Nat.add_comm u, Nat.add_comm d, hcode] at hadd
  exact ⟨depth + d, leads_of_steps hadd⟩

/-! ## Standing -/

/-- Pieces stand between two places: read at the first they lead to the second, and on the way no
value and no stray break is out of place. -/
structure Stands (a : Place × Nat) (ps : List Piece) (b : Place × Nat) : Prop where
  leads : Leads a (written ps).toList b
  values : ValuesInCode a ps
  tidy : ∀ q ∈ ps, q.isTidy = true

namespace Stands

theorem nil (a : Place × Nat) : Stands a [] a :=
  ⟨leads_nil a, valuesInCode_of_not_mem fun _ => List.not_mem_nil, nofun⟩

theorem append {a b c : Place × Nat} {ps qs : List Piece} (hps : Stands a ps b)
    (hqs : Stands b qs c) : Stands a (ps ++ qs) c :=
  ⟨leads_written_append hps.leads hqs.leads, valuesInCode_append hps.values hps.leads hqs.values,
    List.forall_mem_append.2 ⟨hps.tidy, hqs.tidy⟩⟩

theorem flatMap {α : Type} {a : Place × Nat} {f : α → List Piece} : ∀ {xs : List α},
    (∀ x ∈ xs, Stands a (f x) a) → Stands a (xs.flatMap f) a
  | [], _ => nil a
  | x :: xs, h => by
    rw [List.flatMap_cons]
    exact (h x List.mem_cons_self).append (flatMap fun y hy => h y (List.mem_cons_of_mem x hy))

/-- Pieces stand where the evaluation of their shapes at depth `u` says. -/
theorem of_spells (depth u v : Nat) {p q : Place} {ps : List Piece} {ss : List Shape}
    (h : Spells ps ss) (hss : steps ss (p, u) = some (q, v)) (htidy : ss.all Shape.isTidy = true) :
    Stands (p, depth + u) ps (q, depth + v) :=
  ⟨leads_of_spells depth u v h hss, valuesInCode_of_spells depth u h hss, isTidy_of_spells h htidy⟩

/-- A line that is a name with fixed text after it.  Its shape does not tell where it leads: a name
at the margin may be empty, and then the fixed text starts the line. -/
theorem nameLine (depth : Nat) (id : String) {s : String} {t : List Char}
    (hs : s.toList = t ++ ['\n']) (ht : t.all isPlain = true)
    (htidy : (Piece.fixed s).isTidy = true) :
    Stands (.margin, depth) [.memberName id, .fixed s] (.margin, depth) := by
  refine ⟨?_, valuesInCode_of_not_mem (by simp), ?_⟩
  · have htext : (written [.memberName id, .fixed s]).toList =
        memberChars id.toList ++ t ++ ['\n'] := by
      rw [written, written, written, String.append_empty, String.toList_append, Piece.string,
        Piece.string, toList_memberName, hs, List.append_assoc]
    rw [htext]
    refine leads_plain_line (fun c hc => ?_) depth
    rcases List.mem_append.1 hc with hc | hc
    · exact isPlain_of_isSupportPart
        (isSupportPart_of_isPathPart (isPathPart_of_mem_memberChars hc))
    · exact List.all_eq_true.1 ht c hc
  · simpa using ⟨rfl, htidy⟩

end Stands

/-! ## Blocks -/

section

variable (assembly : String) (p : Policy) (depth : Nat)

theorem stands_importPieces : Stands (.margin, depth) importPieces (.margin, depth) := by
  apply Stands.of_spells depth 0 0
  · dsimp only [importPieces, importedNamespaces]
    repeat constructor
  · decide
  · decide

theorem stands_remarkPieces (s : Option String) :
    Stands (.margin, depth) (remarkPieces s) (.margin, depth) := by
  cases s with
  | none => exact .nil _
  | some s =>
    rw [remarkPieces]
    split
    · exact .nil _
    · apply Stands.of_spells depth 0 0
      · repeat constructor
      · decide
      · decide

theorem stands_headPieces :
    Stands (.margin, depth) (headPieces assembly p) (.within .code, depth + 2) := by
  have hstart : Stands (.margin, depth)
      [.fixed "namespace ", .path p.namespacePath, .fixed "\n\x7b\n"] (.margin, depth + 1) := by
    apply Stands.of_spells depth 0 1
    · repeat constructor
    · decide
    · decide
  have hcomment : Stands (.margin, depth + 1)
      [.fixed "\n/// <summary>\n", .comment p.displayName, .fixed "\n/// </summary>\n"]
      (.margin, depth + 1) := by
    apply Stands.of_spells depth 1 1
    · repeat constructor
    · decide
    · decide
  refine (((hstart.append (stands_importPieces _)).append hcomment).append
    (stands_remarkPieces _ _)).append ?_
  apply Stands.of_spells depth 1 2
  · repeat constructor
  · decide
  · decide

theorem stands_class (c : PolicyClass) :
    Stands (.within .code, depth) [.fixed c.memberName, .fixed ", "] (.within .code, depth) := by
  cases c
  all_goals
    apply Stands.of_spells depth 0 0
    · dsimp only [PolicyClass.memberName]
      repeat constructor
    · decide
    · decide

theorem stands_stateArguments :
    Stands (.within .code, depth) (argumentPieces (stateArguments p)) (.within .code, depth) := by
  apply Stands.of_spells depth 0 0
  · dsimp only [stateArguments, argumentPieces]
    repeat constructor
  · decide
  · decide

theorem stands_propertiesPieces :
    Stands (.within .code, depth) (propertiesPieces p) (.margin, depth) := by
  apply Stands.of_spells depth 0 0
  · dsimp only [propertiesPieces]
    repeat constructor
  · decide
  · decide

theorem stands_optionPieces (i : EnumerationItem) :
    Stands (.margin, depth) (optionPieces i) (.margin, depth) :=
  .nameLine depth i.id (t := [',']) rfl (by decide) (by decide)

theorem stands_entryPieces (i : EnumerationItem) :
    Stands (.margin, depth) (entryPieces i) (.margin, depth) := by
  apply Stands.of_spells depth 0 0
  · dsimp only [entryPieces]
    repeat constructor
  · decide
  · decide

/-- **An element stands at the margin and comes back there at the same depth.** -/
theorem stands_elementPieces (e : Element) :
    Stands (.margin, depth) (elementPieces assembly p e) (.margin, depth) := by
  cases e with
  | enumeration n =>
    have hstart : Stands (.margin, depth)
        [.fixed "\npublic enum ", .typeName n.id, .fixed "Option\n\x7b\n"]
        (.margin, depth + 1) := by
      apply Stands.of_spells depth 0 1
      · repeat constructor
      · decide
      · decide
    -- the brace that ends the options and the one before the entries are in one part: between
    -- them the depth goes down and up again
    have hproperty : Stands (.margin, depth + 1)
        (.fixed "\x7d\n" :: (propertyPieces assembly (.enumeration n) ++
          argumentPieces (elementArguments p (.enumeration n)))) (.margin, depth + 1) := by
      apply Stands.of_spells depth 1 1
      · dsimp only [propertyPieces, elementArguments, argumentPieces, Element.kind,
          ElementKind.className]
        repeat constructor
      · decide
      · decide
    have hend : Stands (.margin, depth + 1) [.fixed "\x7d);\n"] (.margin, depth) := by
      apply Stands.of_spells depth 1 0
      · repeat constructor
      · decide
      · decide
    exact (((hstart.append (.flatMap fun i _ => stands_optionPieces _ i)).append hproperty).append
      (.flatMap fun i _ => stands_entryPieces _ i)).append hend
  | _ =>
    apply Stands.of_spells depth 0 0
    · dsimp only [elementPieces, propertyPieces, elementArguments, argumentPieces, Element.kind,
        ElementKind.className]
      repeat constructor
    · decide
    · decide

theorem stands_tailPieces :
    Stands (.margin, depth + 2) (tailPieces assembly p) (.margin, depth) := by
  have hstart : Stands (.margin, depth + 2)
      [.fixed "\npublic override global::System.Collections.Generic.IReadOnlyList<",
        .support assembly, .fixed ".IPolicyElement> Elements => new ", .support assembly,
        .fixed ".IPolicyElement[]\n\x7b\n"] (.margin, depth + 3) := by
    apply Stands.of_spells depth 2 3
    · repeat constructor
    · decide
    · decide
  have hline (e : Element) : Stands (.margin, depth + 3) [.memberName e.id, .fixed "Element,\n"]
      (.margin, depth + 3) :=
    .nameLine (depth + 3) e.id (t := "Element,".toList) rfl (by decide) (by decide)
  have hend : Stands (.margin, depth + 3) [.fixed "\x7d;\n\x7d\n\x7d\n"] (.margin, depth) := by
    apply Stands.of_spells depth 3 0
    · repeat constructor
    · decide
    · decide
  exact (hstart.append (.flatMap fun e _ => hline e)).append hend

/-- **A block stands at the margin and comes back there at the same depth.** -/
theorem stands_blockPieces :
    Stands (.margin, depth) (blockPieces assembly p) (.margin, depth) :=
  (((stands_headPieces assembly p depth).append (stands_class _ _)).append
    (stands_stateArguments p _)).append
    (((stands_propertiesPieces p _).append
      (.flatMap fun e _ => stands_elementPieces assembly p _ e)).append
      (stands_tailPieces assembly p depth))

end

/-! ## Around the blocks -/

theorem stands_bannerPieces : Stands (.margin, 0) bannerPieces (.margin, 0) := by
  apply Stands.of_spells 0 0 0
  · dsimp only [bannerPieces, version]
    repeat constructor
  · decide
  · decide

theorem stands_openingPieces (assembly : String) :
    Stands (.margin, 0) (openingPieces assembly) (.margin, 1) := by
  apply Stands.of_spells 0 0 1
  · dsimp only [openingPieces]
    repeat constructor
  · decide
  · decide

theorem stands_sectionPieces {lines : List String} (h : lines ∈ supportSections) :
    Stands (.margin, 2) (sectionPieces lines) (.margin, 2) := by
  simp only [supportSections, List.mem_cons, List.not_mem_nil, or_false] at h
  rcases h with rfl | rfl | rfl | rfl | rfl | rfl
  all_goals
    apply Stands.of_spells 0 2 2
    · dsimp only [sectionPieces, Support.elementLines, Support.contractLines, Support.objectLines,
        Support.actionLines, Support.platformLines, Support.registryLines]
      repeat constructor
    · decide +kernel
    · decide +kernel

theorem stands_supplementPieces : Stands (.margin, 1) supplementPieces (.margin, 1) := by
  have hstart : Stands (.margin, 1)
      [.fixed "namespace ", .fixed supportNamespace, .fixed "\n\x7b\n"] (.margin, 2) := by
    apply Stands.of_spells 0 1 2
    · dsimp only [supportNamespace]
      repeat constructor
    · decide
    · decide
  have hgap : Stands (.margin, 2) [.fixed "\n"] (.margin, 2) := by
    apply Stands.of_spells 0 2 2
    · repeat constructor
    · decide
    · decide
  have hend : Stands (.margin, 2) [.fixed "\x7d\n"] (.margin, 1) := by
    apply Stands.of_spells 0 2 1
    · repeat constructor
    · decide
    · decide
  exact (((hstart.append (stands_importPieces 2)).append hgap).append
    (.flatMap fun _ => stands_sectionPieces)).append hend

end PolicyForge.Source
