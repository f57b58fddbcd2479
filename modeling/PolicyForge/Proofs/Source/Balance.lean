import PolicyForge.Proofs.Source.Standing
/-!
# Every block ends where it began

To the scan of the layout, every block of a unit and the support code begin and end in code, one
level deep, and the unit ends with everything closed (`render_balanced`).  No brace of a policy is
ever taken for one of the code, so no closing brace meets depth zero.
-/
namespace PolicyForge.Source

open Layout Text

/-! ## Parts of a unit -/

theorem leads_blockPieces (assembly : String) (p : Policy) (depth : Nat) :
    Leads (.margin, depth) (written (blockPieces assembly p)).toList (.margin, depth) :=
  (stands_blockPieces assembly p depth).leads

theorem leads_banner : Leads (.margin, 0) banner.toList (.margin, 0) :=
  written_bannerPieces ▸ stands_bannerPieces.leads

theorem leads_opening (assembly : String) :
    Leads (.margin, 0) (opening (namespaceName assembly)).toList (.margin, 1) :=
  written_openingPieces assembly ▸ (stands_openingPieces assembly).leads

theorem leads_supplement : Leads (.margin, 1) supplement.toList (.margin, 1) :=
  written_supplementPieces ▸ stands_supplementPieces.leads

/-! ## Units -/

/-- What leads from margin to margin ends in code. -/
theorem scansTo_of_leads {s : List Char} {depth : Nat}
    (h : Leads (.margin, 0) s (.margin, depth)) : ScansTo s ⟨.code, depth⟩ := by
  have hread : Layout.read strict .margin 0 (s ++ ['\n']) = some (.margin, depth) :=
    (h ['\n'] ⟨'\n', [], rfl, by decide⟩).2
  rw [read_append] at hread
  obtain ⟨⟨place, d⟩, hs, hnewline⟩ := Option.bind_eq_some_iff.1 hread
  have hend : Layout.read strict place d ['\n'] = some (Place.ofCarry place.carry, d) :=
    read_newline place d []
  rw [hend, Option.some_inj, Prod.mk.injEq] at hnewline
  have hcarry : place.carry = .code := by
    cases hc : place.carry with
    | code => rfl
    | _ =>
      rw [hc] at hnewline
      cases hnewline.1
  have hfresh : readLines strict .fresh s = (Layout.read strict .margin 0 s).map lineEndOf :=
    readLines_eq_read .fresh s
  rw [hs, Option.map_some, lineEndOf, hcarry, hnewline.2] at hfresh
  exact scansTo_of_readLines hfresh

def upTo (root : String) (blocks : List String) : String :=
  banner ++ opening root ++ String.join (blocks.map (· ++ "\n"))

/-- In the unit of these blocks nothing is open where it should not be, and no closing brace is
without its opening one. -/
structure Balanced (root : String) (blocks : List String) (unit : String) : Prop where
  text : unit = upTo root blocks ++ supplement ++ closing
  block : ∀ before text after, blocks = before ++ text :: after →
    ScansTo (upTo root before).toList ⟨.code, 1⟩ ∧
      ScansTo (upTo root before ++ text).toList ⟨.code, 1⟩
  /-- So does the support code. -/
  support : ScansTo (upTo root blocks).toList ⟨.code, 1⟩ ∧
    ScansTo (upTo root blocks ++ supplement).toList ⟨.code, 1⟩
  /-- The unit ends with everything closed. -/
  whole : ScansTo unit.toList ⟨.code, 0⟩

theorem leads_upTo (assembly : String) {blocks : List String}
    (h : ∀ text ∈ blocks, Leads (.margin, 1) text.toList (.margin, 1)) :
    Leads (.margin, 0) (upTo (namespaceName assembly) blocks).toList (.margin, 1) := by
  have hblocks : Leads (.margin, 1) (String.join (blocks.map (· ++ "\n"))).toList (.margin, 1) := by
    induction blocks with
    | nil => exact leads_nil _
    | cons text rest ih =>
      have hend : Leads (.margin, 1) ['\n'] (.margin, 1) := leads_of_read (by decide) rfl
      rw [List.map_cons, String.join_cons, String.toList_append, String.toList_append]
      exact leads_append (leads_append (h text List.mem_cons_self) hend)
        (ih fun t ht => h t (List.mem_cons_of_mem text ht))
  rw [upTo, String.toList_append, String.toList_append]
  exact leads_append (leads_append leads_banner (leads_opening assembly)) hblocks

theorem balanced_of_leads (assembly : String) {blocks : List String}
    (h : ∀ text ∈ blocks, Leads (.margin, 1) text.toList (.margin, 1)) :
    Balanced (namespaceName assembly) blocks
      (upTo (namespaceName assembly) blocks ++ supplement ++ closing) := by
  have hsupplement := leads_append (leads_upTo assembly h) leads_supplement
  have hclosing : Leads (.margin, 1) closing.toList (.margin, 0) := leads_of_read (by decide) rfl
  refine ⟨rfl, fun before text after hblocks => ?_, ⟨?_, ?_⟩, ?_⟩
  · rw [hblocks] at h
    have hbefore := leads_upTo assembly fun t ht => h t (List.mem_append_left _ ht)
    have htext := h text (List.mem_append_right _ List.mem_cons_self)
    refine ⟨scansTo_of_leads hbefore, ?_⟩
    rw [String.toList_append]
    exact scansTo_of_leads (leads_append hbefore htext)
  · exact scansTo_of_leads (leads_upTo assembly h)
  · rw [String.toList_append]
    exact scansTo_of_leads hsupplement
  · rw [String.toList_append, String.toList_append]
    exact scansTo_of_leads (leads_append hsupplement hclosing)

/-- **No text of a model gets out of its literal or comment.**  In a unit that is rendered, every
block and the support code begin and end in code, one level deep, and the unit ends with everything
closed; no closing brace of code meets depth zero. -/
theorem render_balanced {model : Model} {assembly : String} {interrupt : Interrupt} {pen : Pen}
    (h : render model assembly interrupt = (.ok (), pen)) :
    ∃ policies blocks, model.policies = .ok policies ∧
      List.Forall₂ (fun p text => block (namespaceName assembly) p = .ok text)
        policies.toList blocks ∧
      Balanced (namespaceName assembly) blocks pen.written := by
  obtain ⟨policies, hpolicies, -, hwritten⟩ := render_ok h
  have hblocks : ∀ text ∈ policies.toList.map fun p => written (blockPieces assembly p),
      Leads (.margin, 1) text.toList (.margin, 1) := by
    intro text htext
    obtain ⟨p, -, rfl⟩ := List.mem_map.1 htext
    exact leads_blockPieces assembly p 1
  have hbalanced := balanced_of_leads assembly hblocks
  have hunit : upTo (namespaceName assembly)
      (policies.toList.map fun p => written (blockPieces assembly p)) ++ supplement ++ closing =
      pen.written := by
    rw [hwritten, upTo, List.map_map]
    rfl
  refine ⟨policies, _, hpolicies, ?_, hunit ▸ hbalanced⟩
  rw [List.forall₂_map_right_iff, List.forall₂_same]
  exact fun p _ => block_eq assembly p

/-- A policy whose texts are braces, quotes and comment marks. -/
theorem render_balanced_marks :
    ∃ blocks pen, render (.ofPolicy { Policy.named "a" "n" "\x7d\"\n#" with
        displayName := "/*\r\"\x7b", explainText := some "*/\x7d\n\x7d" }) "A" .quiet = (.ok (), pen) ∧
      Balanced (namespaceName "A") blocks pen.written := by
  generalize hm : Model.ofPolicy _ = model
  have hok : (render model "A" .quiet).1.isOk = true := by
    rw [← hm]
    decide
  cases hr : render model "A" .quiet with
  | mk result pen =>
    rw [hr] at hok
    cases result with
    | error e => cases hok
    | ok u =>
      obtain ⟨-, blocks, -, -, hbalanced⟩ := render_balanced hr
      exact ⟨blocks, pen, rfl, hbalanced⟩

end PolicyForge.Source
