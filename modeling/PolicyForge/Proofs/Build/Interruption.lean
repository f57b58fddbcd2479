import PolicyForge.Proofs.Build.Emission
import PolicyForge.Proofs.Build.Failure
/-!
# What an interrupted build leaves

An interrupt may be set at any moment: it is found at one of the looks before the compiler, or at the
one after it.  Before, the outputs are as they were, but that the source file may be complete; after,
the targets are gone (`emit_interrupted`).  In either case there is no result.
-/
namespace PolicyForge

open Act

namespace Compiler

/-- A compiler that is interrupted while it compiles. -/
def interrupted (c : Compiler) : Compiler where
  name := "interrupted"
  emit r := do
    let o ← c.emit r
    Act.update fun h => { h with interrupt := .set }
    return o

theorem interrupted_writesOnlyTargets {c : Compiler} (hc : c.WritesOnlyTargets) :
    c.interrupted.WritesOnlyTargets := fun r cwd =>
  (hc r cwd).bind fun o =>
    Keeps.bind (keeps_update (by simp) (by simp)) fun _ => keeps_pure o

theorem interrupted_failsOnlyToRun {c : Compiler} (hc : c.FailsOnlyToRun) :
    c.interrupted.FailsOnlyToRun := by
  intro r h e h' he
  rcases bind_error he with he | ⟨o, mid, -, he⟩
  · exact hc r h e h' he
  · cases he

end Compiler

namespace Build

/-- The source file is as it was, or it is complete. -/
def SourceWhole (m : Model) (dir assembly : String) (h h' : Host) : Prop :=
  h'.disk.fileAt (Location.ofPath h.cwd (sourcePath dir assembly)) =
      h.disk.fileAt (Location.ofPath h.cwd (sourcePath dir assembly)) ∨
    ∃ text, Rendered m assembly text ∧
      h'.disk.readText h.cwd (sourcePath dir assembly) = .ok (Layout.normalize text)

def NoneLeft (paths : List String) (cwd : Location) (d : Disk) : Prop :=
  ∀ path ∈ paths, d.fileAt (Location.ofPath cwd path) = none

section

variable {source : ReferenceSource} {c : Compiler} {m : Model} {assembly dir t : String}
  {h h' before after : Host} {r : EmitRequest} {o : CompilerOutcome} {e : BuildError}

theorem mem_outputPaths (ht : t ∈ (EmitTargets.inDirectory dir assembly).toList) :
    t ∈ outputPaths dir assembly := List.mem_cons_of_mem _ ht

/-- Before it is compiled, no target is touched. -/
theorem keeps_prepare_target (cwd : Location) (ht : t ∈ (EmitTargets.inDirectory dir assembly).toList)
    (hsource : Keeps (.file cwd (Location.ofPath cwd t)) source) :
    Keeps (.file cwd (Location.ofPath cwd t)) (prepare source m assembly dir) := by
  refine keeps_prepare cwd (Frame.file_of_changes ?_) hsource
  rintro (hl | hl)
  · exact temporaryLocation_ne (mem_outputPaths ht) hl
  · exact sourceLocation_ne ht hl.symm

theorem prepare_cwd (hspares : SparesOutputs source h.cwd dir assembly)
    {result : Except BuildError EmitRequest} (hp : prepare source m assembly dir h = (result, h')) :
    h'.cwd = h.cwd := by
  have ht : (EmitTargets.inDirectory dir assembly).binary ∈
      (EmitTargets.inDirectory dir assembly).toList := List.mem_cons_self
  exact ((keeps_prepare_target h.cwd ht (hspares _ (mem_outputPaths ht))).of_eq hp rfl).1

theorem sourceWhole_of_prepare (hspares : SparesOutputs source h.cwd dir assembly)
    (hp : prepare source m assembly dir h = (.error e, h')) (he : e.isCancelled = true) :
    SourceWhole m dir assembly h h' := by
  have hpath : sourcePath dir assembly ∈ outputPaths dir assembly := List.mem_cons_self
  have hcwd := prepare_cwd hspares hp
  rcases bind_error hp with hp | ⟨_, mid, hstart, hp⟩
  · obtain rfl := start_error hp
    exact .inl rfl
  rcases bind_error hp with hp | ⟨references, gathered, hgather, hp⟩
  · exact .inl (fileAt_of_gather hspares hpath hstart hp)
  · have hkept := fileAt_of_gather hspares hpath hstart hgather
    obtain ⟨-, text, hrendered, hholds⟩ := gather_ok hgather
    rcases makeRequest_error hholds hp with ⟨i, rfl⟩ | ⟨-, hdisk | hsource⟩
    · cases he
    · exact .inl (by rw [hdisk, hkept])
    · exact .inr ⟨text, hrendered, hcwd ▸ hsource.readText⟩

theorem readText_of_conclude {text : String} {result : Except BuildError BuildResult}
    (hc : c.WritesOnlyTargets) (hr : r.targets = .inDirectory dir assembly)
    (hholds : HoldsText before (sourcePath dir assembly) text)
    (hcompile : c.emit r before = (.ok o, after))
    (hconclude : conclude assembly dir r o after = (result, h')) :
    h'.disk.readText before.cwd (sourcePath dir assembly) = .ok text := by
  have hafter := hholds.of_compile hc hr hcompile
  have hcwd : after.cwd = before.cwd := ((hc r before.cwd).of_eq hcompile rfl).1
  obtain ⟨hcwd', hchanges⟩ := (keeps_conclude after.cwd (fun _ => False)).of_eq hconclude rfl
  have hlast := hafter.of_changes hcwd' hchanges (by
    rintro ⟨t, ht, hl⟩
    rw [hr] at ht
    exact sourceLocation_ne ht hl)
  rw [← hcwd, ← hcwd']
  exact hlast.readText

/-- An interrupt that is set when the compiler is through always ends the build. -/
theorem emit_of_isSet (hp : prepare source m assembly dir h = (.ok r, before))
    (hcompile : c.emit r before = (.ok o, after)) (hset : after.interrupt.isSet = true) :
    ∃ h', emit source c m assembly dir h = (.error .cancelled, h') := by
  cases hconclude : conclude assembly dir r o after with
  | mk result h' =>
    have hemit : emit source c m assembly dir h = (result, h') :=
      (congrFun (emit_eq source c m assembly dir) h).trans
        ((bind_of_ok hp).trans ((bind_of_ok hcompile).trans hconclude))
    cases result with
    | ok value =>
      have hquiet := (conclude_ok hconclude).2.1
      rw [hset] at hquiet
      cases hquiet
    | error e =>
      obtain rfl := conclude_error_cancelled hconclude
      exact ⟨h', hemit⟩

/-- **An interrupted build has no result and leaves none.**  A result means that the interrupt was
quiet when the compiler was through.  If an interrupt is why there is no result, the targets are
untouched if the compiler has not been run, and gone if it has; the source file is whole. -/
theorem emit_interrupted (hc : c.WritesOnlyTargets) (hfails : c.FailsOnlyToRun)
    (hspares : SparesOutputs source h.cwd dir assembly) :
    (∀ result h', emit source c m assembly dir h = (.ok result, h') →
      ∃ request before outcome after,
        RunsOnce (fun c => emit source c m assembly dir) h request before ∧
        c.emit request before = (.ok outcome, after) ∧ after.interrupt.isSet = false) ∧
    ∀ e h', emit source c m assembly dir h = (.error e, h') → e.isCancelled = true →
      ((RunsNone (fun c => emit source c m assembly dir) h ∧
          ∀ t ∈ (EmitTargets.inDirectory dir assembly).toList,
            h'.disk.fileAt (Location.ofPath h.cwd t) = h.disk.fileAt (Location.ofPath h.cwd t)) ∨
        ∃ request before, RunsOnce (fun c => emit source c m assembly dir) h request before ∧
          NoneLeft (EmitTargets.inDirectory dir assembly).toList h.cwd h'.disk) ∧
      SourceWhole m dir assembly h h' := by
  refine ⟨fun result h' he => ?_, fun e h' he hcancelled => ?_⟩
  · rw [emit_eq] at he
    obtain ⟨r, before, hprepare, he⟩ := bind_ok he
    obtain ⟨o, after, hcompile, hconclude⟩ := bind_ok he
    exact ⟨r, before, o, after, runsOnce_of_prepare hprepare, hcompile, (conclude_ok hconclude).2.1⟩
  · rw [emit_eq] at he
    rcases bind_error he with hprepare | ⟨r, before, hprepare, he⟩
    · refine ⟨.inl ⟨runsNone_of_prepare hprepare, fun t ht => ?_⟩,
        sourceWhole_of_prepare hspares hprepare hcancelled⟩
      have hkeeps := keeps_prepare_target (m := m) h.cwd ht (hspares t (mem_outputPaths ht))
      exact (hkeeps.of_eq hprepare rfl).2
    have hcwd := prepare_cwd hspares hprepare
    obtain ⟨references, text, -, hrendered, hr, hholds, hreaches⟩ := prepare_ok hprepare
    rcases bind_error he with hcompile | ⟨o, after, hcompile, hconclude⟩
    · -- a compiler that cannot be run is no interrupt
      rcases hfails r before e h' hcompile with ⟨i, rfl⟩ | ⟨name, reason, rfl⟩ <;> cases hcancelled
    · have htargets : r.targets = .inDirectory dir assembly := by rw [hr]; rfl
      obtain ⟨hcwd', hcompiled⟩ := (hc r h.cwd).of_eq hcompile hcwd
      have hgone := conclude_error
        (hreaches.of_directories (hcwd'.trans hcwd.symm) hcompiled.directory) hconclude
      rw [htargets, hcwd'] at hgone
      refine ⟨.inr ⟨r, before, runsOnce_of_prepare hprepare, hgone⟩, .inr ⟨text, hrendered, ?_⟩⟩
      have hsource : HoldsText before (sourcePath dir assembly) (Layout.normalize text) := by
        rw [hr] at hholds
        exact hholds
      rw [← hcwd]
      exact readText_of_conclude hc htargets hsource hcompile hconclude

/-- An interrupt while the compiler runs takes the assembly of an earlier build with it. -/
theorem emit_interrupted_over_earlier :
    let h := hostWith ⟨[(["out"], .directory), (["out", "A.dll"], .file "old".toUTF8 false)]⟩
    let c := (Compiler.simulated .pass).interrupted
    let m := Model.ofPolicy (.named "a" "n" "k")
    ∃ h', emit (.fixed [⟨"R.dll", .empty⟩]) c m "A" "out" h = (.error .cancelled, h') ∧
      NoneLeft (EmitTargets.inDirectory "out" "A").toList [] h'.disk ∧
      SourceWhole m "out" "A" h h' := by
  intro h c m
  obtain ⟨text, hrendered⟩ := exists_rendered
  have hfiles : ∀ path ∈ buildPaths "out" "A", CanWrite h.disk h.cwd path := by decide
  obtain ⟨before, hprepare, hr⟩ := prepare_total [⟨"R.dll", .empty⟩] "out" (by decide)
    (List.cons_ne_nil _ _) hrendered (h := h) rfl rfl hfiles
  obtain ⟨after, hcompile, -⟩ :=
    hr.simulated .pass (r := requestFor "out" "A" [⟨"R.dll", .empty⟩] text) rfl
  obtain ⟨h', he⟩ := emit_of_isSet (c := c) hprepare (bind_of_ok hcompile) rfl
  have hspares := sparesOutputs_fixed [⟨"R.dll", .empty⟩] h.cwd "out" "A"
  obtain ⟨-, hleaves⟩ := emit_interrupted (m := m)
    (Compiler.interrupted_writesOnlyTargets (Compiler.simulated_writesOnlyTargets .pass))
    (Compiler.interrupted_failsOnlyToRun (Compiler.simulated_failsOnlyToRun .pass)) hspares
  obtain ⟨⟨hnone, -⟩ | ⟨-, -, -, hgone⟩, hsource⟩ := hleaves _ _ he rfl
  · -- uninterrupted, the compiler would have come to a result
    obtain ⟨result, h'', hok, -⟩ := emit_total [⟨"R.dll", .empty⟩] "out" (by decide)
      (List.cons_ne_nil _ _) hrendered (h := h) rfl rfl hfiles .pass
    have hsame := hok.symm.trans ((hnone (.simulated .pass) c).trans he)
    cases hsame
  · exact ⟨h', he, hgone, hsource⟩

end

end Build

end PolicyForge
