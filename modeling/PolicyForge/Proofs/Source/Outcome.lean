import PolicyForge.Proofs.Host.Interrupt
import PolicyForge.Proofs.Source.Balance
/-!
# How a rendering ends

A rendering goes through a fixed row of checks: the name of the assembly, then before every policy
the interrupt and the policy itself, and the interrupt once more before the support code.  `Ends`
says for each of these how a rendering ends there and what has been written by then.  There is no
other end (`render_ends`): once a policy has passed its check, its block is written whole, as no
helper fails on what a policy holds.
-/
namespace PolicyForge

namespace Source

/-- The names of the policy have legal forms, and its class is called like none of its members. -/
def Acceptable (p : Policy) : Prop :=
  typeName p.name ≠ "" ∧ namespaceName p.namespacePath ≠ "" ∧ typeName p.name ∉ memberNames p

instance : DecidablePred Acceptable := fun p =>
  inferInstanceAs (Decidable (typeName p.name ≠ "" ∧ namespaceName p.namespacePath ≠ "" ∧
    typeName p.name ∉ memberNames p))

theorem refusal?_eq_none_iff {p : Policy} : refusal? p = none ↔ Acceptable p := by
  simp only [refusal?, Acceptable, List.contains_eq_mem, decide_eq_true_eq, String.isEmpty_iff]
  by_cases hname : typeName p.name = ""
  · simp [hname]
  by_cases hpath : namespaceName p.namespacePath = ""
  · simp [hname, hpath]
  by_cases hmember : typeName p.name ∈ memberNames p
  · simp [hname, hpath, hmember]
  · simp [hname, hpath, hmember]

/-- The texts are the blocks of the policies, in order. -/
def Blocks (assembly : String) : List Policy → List String → Prop :=
  List.Forall₂ fun p text => block (namespaceName assembly) p = .ok text

/-- How a rendering of some policies may end, and what it has written at that end. -/
inductive Ends (assembly : String) (interrupt : Interrupt) (policies : List Policy) :
    Except RenderError Unit → String → Prop where
  /-- The assembly has no legal name. -/
  | unnamed (hname : namespaceName assembly = "") :
    Ends assembly interrupt policies (.error (.invalidAssemblyName assembly)) ""
  /-- A policy is not acceptable, and it is the first of which this holds. -/
  | refused {done rest : List Policy} {p : Policy} {reason : String} {blocks : List String}
    (hname : namespaceName assembly ≠ "") (hpolicies : policies = done ++ p :: rest)
    (hdone : ∀ q ∈ done, Acceptable q) (hp : ¬ Acceptable p) (hreason : refusal? p = some reason)
    (hquiet : interrupt.QuietAt done.length) (hblocks : Blocks assembly done blocks) :
    Ends assembly interrupt policies (.error (.invalidPolicy p.name reason))
      (upTo (namespaceName assembly) blocks)
  /-- The interrupt is set at the look before a policy, or at that before the support code. -/
  | cancelled {done rest : List Policy} {blocks : List String}
    (hname : namespaceName assembly ≠ "") (hpolicies : policies = done ++ rest)
    (hdone : ∀ q ∈ done, Acceptable q) (hset : interrupt.quietFor = some done.length)
    (hblocks : Blocks assembly done blocks) :
    Ends assembly interrupt policies (.error .cancelled) (upTo (namespaceName assembly) blocks)
  | complete {blocks : List String} (hname : namespaceName assembly ≠ "")
    (hdone : ∀ q ∈ policies, Acceptable q) (hquiet : interrupt.QuietAt policies.length)
    (hblocks : Blocks assembly policies blocks) :
    Ends assembly interrupt policies (.ok ())
      (upTo (namespaceName assembly) blocks ++ supplement ++ closing)

namespace Ends

variable {assembly written : String} {interrupt : Interrupt} {policies : List Policy}
  {result : Except RenderError Unit}

theorem of_ok (h : Ends assembly interrupt policies result written) (hok : result = .ok ()) :
    namespaceName assembly ≠ "" ∧ ∀ p ∈ policies, Acceptable p := by
  subst hok
  cases h with
  | complete hname hdone _ _ => exact ⟨hname, hdone⟩

/-- Nothing but what is wrong with a name ends a rendering that is not disturbed. -/
theorem ok_of_acceptable (h : Ends assembly .quiet policies result written)
    (hname : namespaceName assembly ≠ "") (hps : ∀ p ∈ policies, Acceptable p) :
    result = .ok () := by
  cases h with
  | unnamed hnone => exact absurd hnone hname
  | refused _ hpolicies _ hp _ _ _ =>
    rw [hpolicies] at hps
    exact absurd (hps _ (List.mem_append_right _ List.mem_cons_self)) hp
  | cancelled _ _ _ hset _ => cases hset
  | complete => rfl

end Ends

theorem upTo_concat (root : String) (blocks : List String) (text : String) :
    upTo root (blocks ++ [text]) = upTo root blocks ++ (text ++ "\n") := by
  simp [upTo, String.append_assoc]

namespace Writing

variable {α β : Type}

theorem bind_of_ok {x : Writing α} {f : α → Writing β} {pen mid : Pen} {a : α}
    (h : x pen = (.ok a, mid)) : (x >>= f) pen = f a mid := by
  show (StateT.bind x (ExceptT.bindCont f)) pen = _
  rw [StateT.bind, h]
  rfl

theorem bind_of_error {x : Writing α} {f : α → Writing β} {pen mid : Pen} {e : RenderError}
    (h : x pen = (.error e, mid)) : (x >>= f) pen = (.error e, mid) := by
  show (StateT.bind x (ExceptT.bindCont f)) pen = _
  rw [StateT.bind, h]
  rfl

theorem checkpoint_of_quiet {pen : Pen} (h : pen.interrupt.isSet = false) :
    checkpoint pen = (.ok (), ⟨pen.written, pen.interrupt.afterLook⟩) := by
  simp [checkpoint, h]

theorem checkpoint_of_set {pen : Pen} (h : pen.interrupt.isSet = true) :
    checkpoint pen = (.error .cancelled, ⟨pen.written, pen.interrupt.afterLook⟩) := by
  simp [checkpoint, h]

end Writing

def writeRest (root : String) (rest : List Policy) : Writing Unit := do
  writePolicies root rest
  Writing.checkpoint
  Writing.put supplement
  Writing.put closing

theorem writeRest_cons (root : String) (p : Policy) (rest : List Policy) :
    writeRest root (p :: rest) = (do writePolicy root p; writeRest root rest) := by
  simp only [writeRest, writePolicies, bind_assoc]

theorem writeRest_nil_of_quiet {root : String} {pen : Pen} (hquiet : pen.interrupt.isSet = false) :
    writeRest root [] pen =
      (.ok (), ⟨pen.written ++ supplement ++ closing, pen.interrupt.afterLook⟩) :=
  Writing.bind_of_ok (f := fun _ => do Writing.put supplement; Writing.put closing)
    (Writing.checkpoint_of_quiet hquiet)

theorem writeRest_nil_of_set {root : String} {pen : Pen} (hset : pen.interrupt.isSet = true) :
    writeRest root [] pen = (.error .cancelled, ⟨pen.written, pen.interrupt.afterLook⟩) :=
  Writing.bind_of_error (f := fun _ => do Writing.put supplement; Writing.put closing)
    (Writing.checkpoint_of_set hset)

theorem writePolicy_of_acceptable {assembly text : String} {p : Policy} {pen : Pen}
    (hquiet : pen.interrupt.isSet = false) (hp : Acceptable p)
    (htext : block (namespaceName assembly) p = .ok text) :
    writePolicy (namespaceName assembly) p pen =
      (.ok (), ⟨pen.written ++ (text ++ "\n"), pen.interrupt.afterLook⟩) := by
  rw [writePolicy, Writing.bind_of_ok (Writing.checkpoint_of_quiet hquiet),
    refusal?_eq_none_iff.2 hp, htext]
  rfl

theorem writePolicy_of_refusal {root reason : String} {p : Policy} {pen : Pen}
    (hquiet : pen.interrupt.isSet = false) (hp : refusal? p = some reason) :
    writePolicy root p pen =
      (.error (.invalidPolicy p.name reason), ⟨pen.written, pen.interrupt.afterLook⟩) := by
  rw [writePolicy, Writing.bind_of_ok (Writing.checkpoint_of_quiet hquiet), hp]
  rfl

theorem writePolicy_of_set {root : String} {p : Policy} {pen : Pen}
    (hset : pen.interrupt.isSet = true) :
    writePolicy root p pen = (.error .cancelled, ⟨pen.written, pen.interrupt.afterLook⟩) := by
  rw [writePolicy, Writing.bind_of_error (Writing.checkpoint_of_set hset)]

/-- **From every policy on a rendering ends as it should**, whatever has been written before. -/
theorem writeRest_ends {assembly : String} {interrupt : Interrupt}
    (hname : namespaceName assembly ≠ "") : ∀ (rest done : List Policy) (blocks : List String),
    (∀ q ∈ done, Acceptable q) → Blocks assembly done blocks →
    (∀ m < done.length, interrupt.QuietAt m) →
    ∃ result pen, writeRest (namespaceName assembly) rest
        ⟨upTo (namespaceName assembly) blocks, interrupt.afterLooks done.length⟩ = (result, pen) ∧
      Ends assembly interrupt (done ++ rest) result pen.written
  | [], done, blocks, hdone, hblocks, hquiet => by
    rcases Interrupt.isSet_afterLooks hquiet with ⟨hisSet, hset⟩ | ⟨hisSet, hquiet'⟩
    · exact ⟨_, _, writeRest_nil_of_set hisSet, .cancelled hname rfl hdone hset hblocks⟩
    · rw [List.append_nil]
      exact ⟨_, _, writeRest_nil_of_quiet hisSet, .complete hname hdone hquiet' hblocks⟩
  | p :: rest, done, blocks, hdone, hblocks, hquiet => by
    rw [writeRest_cons]
    rcases Interrupt.isSet_afterLooks hquiet with ⟨hisSet, hset⟩ | ⟨hisSet, hquiet'⟩
    · exact ⟨_, _, Writing.bind_of_error (writePolicy_of_set hisSet),
        .cancelled hname rfl hdone hset hblocks⟩
    · by_cases hp : Acceptable p
      · -- the policy joins those that are done, and its look those that were quiet
        obtain ⟨text, htext⟩ : ∃ text, block (namespaceName assembly) p = .ok text :=
          ⟨_, block_eq assembly p⟩
        have hwrite : writePolicy (namespaceName assembly) p
            ⟨upTo (namespaceName assembly) blocks, interrupt.afterLooks done.length⟩ =
            (.ok (), ⟨upTo (namespaceName assembly) (blocks ++ [text]),
              interrupt.afterLooks (done.length + 1)⟩) := by
          rw [upTo_concat, ← Interrupt.afterLook_afterLooks]
          exact writePolicy_of_acceptable hisSet hp htext
        have hdone' : ∀ q ∈ done ++ [p], Acceptable q := by
          intro q hq
          rcases List.mem_append.1 hq with hq | hq
          · exact hdone q hq
          · rw [List.mem_singleton.1 hq]
            exact hp
        have hblocks' : Blocks assembly (done ++ [p]) (blocks ++ [text]) :=
          List.rel_append hblocks (.cons htext .nil)
        have hquiet'' : ∀ m < (done ++ [p]).length, interrupt.QuietAt m := by
          intro m hm
          rw [List.length_append, List.length_singleton] at hm
          rcases Nat.lt_succ_iff_lt_or_eq.1 hm with hm | rfl
          · exact hquiet m hm
          · exact hquiet'
        have ih := writeRest_ends hname rest (done ++ [p]) (blocks ++ [text]) hdone' hblocks' hquiet''
        rw [List.length_append, List.length_singleton, List.append_assoc] at ih
        rw [Writing.bind_of_ok hwrite]
        exact ih
      · obtain ⟨reason, hreason⟩ : ∃ reason, refusal? p = some reason :=
          Option.ne_none_iff_exists'.1 fun hnone => hp (refusal?_eq_none_iff.1 hnone)
        exact ⟨_, _, Writing.bind_of_error (writePolicy_of_refusal hisSet hreason),
          .refused hname rfl hdone hp hreason hquiet' hblocks⟩

theorem render_cases {model : Model} {policies : PolicySet} (h : model.policies = .ok policies)
    (assembly : String) (interrupt : Interrupt) : ∃ result pen,
      render model assembly interrupt = (result, pen) ∧
        Ends assembly interrupt policies.toList result pen.written := by
  rw [render, writeUnit, h]
  by_cases hname : namespaceName assembly = ""
  · exact ⟨_, _, by simp [hname]; rfl, .unnamed hname⟩
  · have hwrite : ∀ pen, (do
        if (namespaceName assembly).isEmpty then throw (.invalidAssemblyName assembly)
        Writing.put banner
        Writing.put (opening (namespaceName assembly))
        writeRest (namespaceName assembly) policies.toList : Writing Unit) pen =
          writeRest (namespaceName assembly) policies.toList
            ⟨pen.written ++ banner ++ opening (namespaceName assembly), pen.interrupt⟩ := by
      intro pen
      simp only [String.isEmpty_iff, hname, if_false]
      rfl
    have hnone : ∀ m < ([] : List Policy).length, interrupt.QuietAt m := by simp
    obtain ⟨result, pen, hrest, hends⟩ :=
      writeRest_ends hname policies.toList [] [] (by simp) .nil hnone
    refine ⟨result, pen, ?_, hends⟩
    refine (hwrite ⟨"", interrupt⟩).trans (Eq.trans ?_ hrest)
    simp [upTo, Interrupt.afterLooks]

theorem exists_pen_of_isOk {model : Model} {assembly : String} {interrupt : Interrupt}
    (h : (render model assembly interrupt).1.isOk = true) :
    ∃ pen, render model assembly interrupt = (.ok (), pen) := by
  cases hrender : render model assembly interrupt with
  | mk result pen =>
    rw [hrender] at h
    cases result with
    | error e => cases h
    | ok u => exact ⟨pen, rfl⟩

/-- **A rendering of a loaded model ends in one of the ways of `Ends`.**  Undisturbed it succeeds if
and only if the assembly has a legal name and every policy is acceptable; no helper of the template
fails on any policy. -/
theorem render_ends {model : Model} {policies : PolicySet} (h : model.policies = .ok policies)
    (assembly : String) :
    ((render model assembly .quiet).1 = .ok () ↔
      namespaceName assembly ≠ "" ∧ ∀ p ∈ policies.toList, Acceptable p) ∧
    (∀ interrupt, Ends assembly interrupt policies.toList
      (render model assembly interrupt).1 (render model assembly interrupt).2.written) ∧
    (∀ interrupt e, (render model assembly interrupt).1 ≠ .error (.template e)) ∧
    ∀ p, ∃ text, block (namespaceName assembly) p = .ok text := by
  have hends : ∀ interrupt, Ends assembly interrupt policies.toList
      (render model assembly interrupt).1 (render model assembly interrupt).2.written := by
    intro interrupt
    obtain ⟨result, pen, hrender, hends⟩ := render_cases h assembly interrupt
    rw [hrender]
    exact hends
  refine ⟨⟨fun hok => ?_, fun ⟨hname, hps⟩ => ?_⟩, hends, fun interrupt e he => ?_, fun p => ?_⟩
  · exact (hends .quiet).of_ok hok
  · exact (hends .quiet).ok_of_acceptable hname hps
  · have hends := hends interrupt
    rw [he] at hends
    cases hends
  · exact ⟨_, block_eq assembly p⟩

/-- Two policies without a name after one that has a name: the rendering ends at the first of them. -/
theorem render_ends_unnamed_policy :
    let ps : List Policy := [.named "a" "n" "k", .named " " "n" "k", .named "" "n" "k"]
    let model := Model.ofPolicies ps
    model.policies = .ok (.many ps) ∧ ¬ (render model "A" .quiet).1 = .ok () ∧
      Ends "A" .quiet ps (render model "A" .quiet).1 (render model "A" .quiet).2.written := by
  intro ps model
  have hpolicies : model.policies = .ok (.many ps) := rfl
  obtain ⟨hok, hends, -⟩ := render_ends hpolicies "A"
  refine ⟨rfl, fun h => ?_, hends .quiet⟩
  have hp : Acceptable (.named " " "n" "k") := (hok.1 h).2 _ (by decide)
  exact absurd hp (by decide)

end Source
end PolicyForge
