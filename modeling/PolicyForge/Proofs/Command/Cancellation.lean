import Mathlib.Logic.Relation
import PolicyForge.Command.Settings
import PolicyForge.Proofs.Build.Compiler
import PolicyForge.Proofs.Package.Filling
import PolicyForge.Proofs.Policy.Loading
import PolicyForge.Proofs.Source.Outcome
/-!
# Under a set interrupt nothing happens

A stage that starts under a set interrupt fails at its first look and has done nothing by then
(`inert_of_isSet`).  Its error may be wrapped by any number of later stages; however it is wrapped,
it is recognised as an interrupt, as every wrapping shows of an error what the error shows itself
(`Wraps.isCancelled_eq`).
-/
namespace PolicyForge

/-! ## Errors in errors -/

/-- An error of some stage. -/
inductive StageError where
  | model (e : ModelError)
  | render (e : RenderError)
  | references (e : ReferenceError)
  | build (e : BuildError)
  | command (e : CommandError)

namespace StageError

def isCancelled : StageError → Bool
  | .model e => e.isCancelled
  | .render e => e.isCancelled
  | .references e => e.isCancelled
  | .build e => e.isCancelled
  | .command e => e.isCancelled

/-- The second error is that of a stage for which the first, of an earlier stage, is the reason. -/
inductive Wraps : StageError → StageError → Prop where
  | modelInRender (e : ModelError) : Wraps (.model e) (.render (.model e))
  | modelInBuild (e : ModelError) : Wraps (.model e) (.build (.model e))
  | renderInBuild (e : RenderError) : Wraps (.render e) (.build (.render e))
  | referencesInBuild (e : ReferenceError) : Wraps (.references e) (.build (.references e))
  | modelInCommand (e : ModelError) : Wraps (.model e) (.command (.model e))
  | referencesInCommand (e : ReferenceError) : Wraps (.references e) (.command (.references e))
  | buildInCommand (e : BuildError) : Wraps (.build e) (.command (.build e))

theorem Wraps.isCancelled_eq {e e' : StageError} (h : Wraps e e') : e'.isCancelled = e.isCancelled := by
  cases h <;> rfl

/-- The error shows that an interrupt is the reason, and so does whatever it is wrapped in. -/
def ShowsInterrupt (e : StageError) : Prop :=
  ∀ e', Relation.ReflTransGen Wraps e e' → e'.isCancelled = true

theorem showsInterrupt_of_isCancelled {e : StageError} (he : e.isCancelled = true) :
    e.ShowsInterrupt := by
  intro e' hwraps
  induction hwraps with
  | refl => exact he
  | tail _ hstep ih => rw [hstep.isCancelled_eq, ih]

end StageError

open StageError

/-! ## Stages -/

theorem Interrupt.not_quietAt_of_isSet {i : Interrupt} (hs : i.isSet = true) (n : Nat) :
    ¬i.QuietAt n := by
  intro hq
  have hquiet := isSet_eq_false_iff.2 (hq.mono (Nat.zero_le n))
  rw [hs] at hquiet
  cases hquiet

theorem Model.exists_policies {m : Model} (hm : m.isLoaded = true) :
    ∃ policies, m.policies = .ok policies := by
  cases m with
  | file path policy =>
    obtain ⟨p, rfl⟩ := Option.isSome_iff_exists.1 hm
    exact ⟨.single p, rfl⟩
  | directory path policies =>
    obtain ⟨ps, rfl⟩ := Option.isSome_iff_exists.1 hm
    exact ⟨.many ps, rfl⟩

/-- A rendering under a set interrupt ends before its first policy, if there is any. -/
theorem Source.Ends.of_isSet {assembly written : String} {interrupt : Interrupt} {policies : List Policy}
    {result : Except RenderError Unit} (h : Ends assembly interrupt policies result written)
    (hs : interrupt.isSet = true) (hname : namespaceName assembly ≠ "") :
    result = .error .cancelled ∧ written = banner ++ opening (namespaceName assembly) := by
  cases h with
  | unnamed hnone => exact absurd hnone hname
  | refused _ _ _ _ _ hquiet _ => exact absurd hquiet (Interrupt.not_quietAt_of_isSet hs _)
  | complete _ _ hquiet _ => exact absurd hquiet (Interrupt.not_quietAt_of_isSet hs _)
  | @cancelled done rest blocks _ _ _ hset hblocks =>
    have hdone : done = [] := by
      rw [Interrupt.isSet, hset, beq_iff_eq, Option.some.injEq] at hs
      exact List.eq_nil_of_length_eq_zero hs
    subst hdone
    cases hblocks
    refine ⟨rfl, ?_⟩
    simp [upTo]

section

variable {h : Host} (hs : h.interrupt.isSet = true)

include hs

theorem Model.reload_of_isSet (decode : Definition.Decoder) (m : Model)
    (hm : ∀ path policy, m = .file path policy → Definition.form? path ≠ none) :
    reload decode m h = ((.error .cancelled, m), h) := by
  have hq := Interrupt.not_quietAt_of_isSet hs 0
  cases m with
  | file path policy =>
    obtain ⟨form, hform⟩ := Option.ne_none_iff_exists'.1 (hm path policy rfl)
    rw [reload_file, Definition.readFile_of_not_quietAt hform hq]
  | directory path policies => rw [reload_directory, Definition.readDirectory_of_not_quietAt hq]

theorem Source.render_of_isSet {m : Model} {assembly : String} (hm : m.isLoaded = true)
    (hname : namespaceName assembly ≠ "") :
    ∃ pen, render m assembly h.interrupt = (.error .cancelled, pen) ∧
      pen.written = banner ++ opening (namespaceName assembly) := by
  obtain ⟨policies, hpolicies⟩ := Model.exists_policies hm
  obtain ⟨result, pen, hrender, hends⟩ := render_cases hpolicies assembly h.interrupt
  obtain ⟨rfl, hwritten⟩ := hends.of_isSet hs hname
  exact ⟨pen, hrender, hwritten⟩

theorem ReferenceResolver.resolve_of_isSet (r : ReferenceResolver) :
    r.resolve h = (.error .cancelled, h) :=
  Act.bind_of_error (r.package_of_isSet hs)

theorem Build.emit_of_isSet_before (source : ReferenceSource) (c : Compiler) {m : Model}
    {assembly : String} (dir : String) (hname : Text.allBlank assembly.toList = false)
    (hm : m.isLoaded = true) :
    emit source c m assembly dir h = (.error .cancelled, h) := by
  obtain ⟨policies, hpolicies⟩ := Model.exists_policies hm
  have hloaded : requireLoaded m h = (.ok (), h) := by
    rw [requireLoaded, hpolicies]
    rfl
  have hstart : start m assembly h = (.error .cancelled, h) := by
    rw [start_of_not_blank m hname, Act.bind_of_ok hloaded, Act.checkpoint_of_isSet _ hs]
  exact emit_of_prepare_error c (Act.bind_of_error hstart)

end

/-- **Under a set interrupt every stage is inert.**  Loading, rendering, resolving and building fail
at their first look, with the model and the host as they were, whatever the source of references and
the compiler would do.  Only a file that cannot be a definition fails for another reason.  The error
shows the interrupt through everything that it is wrapped in. -/
theorem inert_of_isSet {h : Host} (hs : h.interrupt.isSet = true) :
    (∀ decode m, ∃ e, Model.reload decode m h = ((.error e, m), h) ∧
      ((∀ path policy, m = .file path policy → Definition.form? path ≠ none) →
        ShowsInterrupt (.model e))) ∧
    (∀ m assembly, m.isLoaded = true → Source.namespaceName assembly ≠ "" →
      ∃ e pen, Source.render m assembly h.interrupt = (.error e, pen) ∧
        pen.written = Source.banner ++ Source.opening (Source.namespaceName assembly) ∧
        ShowsInterrupt (.render e)) ∧
    (∀ r : ReferenceResolver, ∃ e, r.resolve h = (.error e, h) ∧ ShowsInterrupt (.references e)) ∧
    ∀ source c m assembly dir, Text.allBlank assembly.toList = false → m.isLoaded = true →
      ∃ e, Build.emit source c m assembly dir h = (.error e, h) ∧ ShowsInterrupt (.build e) := by
  refine ⟨fun decode m => ?_, fun m assembly hm hname => ?_, fun r => ?_,
    fun source c m assembly dir hname hm => ?_⟩
  · by_cases hform : ∀ path policy, m = .file path policy → Definition.form? path ≠ none
    · exact ⟨_, Model.reload_of_isSet hs decode m hform, fun _ => showsInterrupt_of_isCancelled rfl⟩
    · simp only [not_forall, not_not] at hform
      obtain ⟨path, policy, rfl, hnone⟩ := hform
      refine ⟨.invalidPath path, ?_, fun hform => absurd hnone (hform path policy rfl)⟩
      rw [Model.reload_file, Definition.readFile_of_none hnone]
  · obtain ⟨pen, hrender, hwritten⟩ := Source.render_of_isSet hs hm hname
    exact ⟨_, pen, hrender, hwritten, showsInterrupt_of_isCancelled rfl⟩
  · exact ⟨_, r.resolve_of_isSet hs, showsInterrupt_of_isCancelled rfl⟩
  · exact ⟨_, Build.emit_of_isSet_before hs source c dir hname hm, showsInterrupt_of_isCancelled rfl⟩

/-- With a definition, an earlier build and a feed at hand, an interrupt that is set keeps all of them as
they are. -/
theorem inert_of_isSet_over_earlier :
    let p := Policy.named "a" "n" "k"
    let r : ReferenceResolver := ⟨.given ⟨.modern, ⟨8, 0, 4, "", ""⟩⟩, ⟨"cache"⟩, ⟨"http://feed"⟩⟩
    let disk : Disk :=
      ⟨[(["in"], .directory), (["in", "a.json"], .file p.toJson.text.toUTF8 false), (["out"], .directory),
        (["out", "A.cs"], .file "earlier".toUTF8 false), (["out", "A.dll"], .file "MZ".toUTF8 false)]⟩
    let feed : Network := ⟨fun _ => .answered 200 ["PK".toUTF8] .complete false, []⟩
    let h : Host := { Host.withDisk disk feed with interrupt := .set }
    let unread := Model.directory "in" none
    h.interrupt.isSet = true ∧
      (∃ e, unread.reload Definition.ofText h = ((.error e, unread), h) ∧ ShowsInterrupt (.model e)) ∧
      (∃ e pen, Source.render (.ofPolicy p) "A" h.interrupt = (.error e, pen) ∧
        pen.written = Source.banner ++ Source.opening "A" ∧ ShowsInterrupt (.render e)) ∧
      (∃ e, r.resolve h = (.error e, h) ∧ ShowsInterrupt (.references e)) ∧
      ∃ e, Build.emit (.fixed [⟨"R.dll", "MZ".toUTF8⟩]) (.simulated .pass) (.ofPolicy p) "A" "out" h =
        (.error e, h) ∧ ShowsInterrupt (.build e) := by
  intro p r disk feed h unread
  have hs : h.interrupt.isSet = true := rfl
  obtain ⟨hload, hrender, hresolve, hbuild⟩ := inert_of_isSet hs
  obtain ⟨e, hkept, hshows⟩ := hload Definition.ofText unread
  exact ⟨hs,
    ⟨e, hkept, hshows fun _ _ hfile => nomatch (hfile : Model.directory "in" none = .file _ _)⟩,
    hrender _ "A" rfl (by decide), hresolve r, hbuild _ _ _ _ _ (by decide) rfl⟩

end PolicyForge
