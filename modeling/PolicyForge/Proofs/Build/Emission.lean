import PolicyForge.Proofs.Build.Readiness
/-!
# What a build that comes to a result has done

It has rendered the model, put the normalized rendering into the source file, had exactly that
compiled once, and tells what the compiler said of it (`emit_ok`).  Beyond its own files it has
changed nothing but that directories have been made on the way to the output directory.
-/
namespace PolicyForge.Build

open Act

def IsBuildFile (cwd : Location) (dir assembly : String) (l : Location) : Prop :=
  ∃ path ∈ buildPaths dir assembly, l = Location.ofPath cwd path

/-- How a build came to its result: the request, what the compiler made of it, and what that did to
the host. -/
structure Emission (references : List Reference) (c : Compiler) (m : Model) (assembly dir : String)
    (h h' : Host) (result : BuildResult) (request : EmitRequest) (before : Host)
    (outcome : CompilerOutcome) (after : Host) : Prop where
  /-- What is compiled is the complete rendering of the model, with its layout normalized. -/
  rendering : ∃ text, Rendered m assembly text ∧ request = requestFor dir assembly references text
  once : RunsOnce (fun c => emit (.fixed references) c m assembly dir) h request before
  compiled : c.emit request before = (.ok outcome, after)
  /-- The source file holds what is compiled, when it is compiled and in the end. -/
  source_before : before.disk.readText h.cwd (sourcePath dir assembly) = .ok request.source
  source_after : h'.disk.readText h.cwd (sourcePath dir assembly) = .ok request.source
  /-- Warnings and errors are passed on, in order, with the lines of what is compiled. -/
  diagnostics : result.diagnostics =
    (outcome.diagnostics.filter fun d => d.severity = .warning ∨ d.severity = .error).map
      fun d => formatDiagnostic d request.source
  succeeded : result.succeeded = outcome.success
  /-- The assembly, its directory and its files are named exactly if the compiler succeeded. -/
  named : (result.assembly, result.directory, result.binary, result.symbols, result.documentation) =
    if outcome.success then
      (some assembly, some dir, some request.targets.binary, some request.targets.symbols,
        some request.targets.documentation)
    else (none, none, none, none, none)
  /-- Nothing else changes, but that directories are made where the path of the output directory
  names one that was not there. -/
  others : h.disk.Changes (IsBuildFile h.cwd dir assembly) (Disk.Passes h.cwd dir) h'.disk

section

variable (assembly dir source : String) (targets : EmitTargets) (o : CompilerOutcome)

theorem resultOf_diagnostics :
    (resultOf assembly dir source targets o).diagnostics = reported source o.diagnostics := by
  cases hs : o.success <;> simp [resultOf, hs, BuildResult.success, BuildResult.failed]

theorem resultOf_succeeded : (resultOf assembly dir source targets o).succeeded = o.success := by
  cases hs : o.success <;> simp [resultOf, hs, BuildResult.success, BuildResult.failed]

theorem resultOf_named :
    let result := resultOf assembly dir source targets o
    (result.assembly, result.directory, result.binary, result.symbols, result.documentation) =
      if o.success then
        (some assembly, some dir, some targets.binary, some targets.symbols,
          some targets.documentation)
      else (none, none, none, none, none) := by
  cases hs : o.success <;> simp [resultOf, hs, BuildResult.success, BuildResult.failed]

end

theorem succeeded_simulated {source : ReferenceSource} {outcome : CompilerOutcome} {m : Model}
    {assembly dir : String} {h h' : Host} {result : BuildResult}
    (he : emit source (.simulated outcome) m assembly dir h = (.ok result, h')) :
    result.succeeded = outcome.success := by
  rw [emit_eq] at he
  obtain ⟨r, before, -, he⟩ := bind_ok he
  obtain ⟨o, after, hcompile, hconclude⟩ := bind_ok he
  obtain ⟨rfl, -⟩ := conclude_ok hconclude
  obtain ⟨_, counted, -, hcompile⟩ := bind_ok hcompile
  have ho : o = outcome := by
    dsimp only at hcompile
    split at hcompile
    · obtain ⟨_, written, -, hcompile⟩ := bind_ok hcompile
      exact pure_ok hcompile
    · exact pure_ok hcompile
  rw [resultOf_succeeded, ho]

theorem reported_eq (source : String) (ds : List Diagnostic) : reported source ds =
    (ds.filter fun d => d.severity = .warning ∨ d.severity = .error).map
      fun d => formatDiagnostic d source := by
  have hreported : ∀ s : Severity, s.isReported = decide (s = .warning ∨ s = .error) := by
    intro s
    cases s <;> decide
  simp only [reported, hreported]

section

variable {references : List Reference} {c : Compiler} {m : Model} {assembly dir : String} {h h' : Host}
  {result : BuildResult}

theorem sourceLocation_ne {cwd : Location} {t : String}
    (ht : t ∈ (EmitTargets.inDirectory dir assembly).toList) :
    Location.ofPath cwd (sourcePath dir assembly) ≠ Location.ofPath cwd t := by
  obtain ⟨s, rfl, hs, -, -, hne⟩ := exists_suffix ht
  exact Location.ofPath_join_ne cwd dir assembly isSuffix_source hs hne.symm

theorem HoldsText.of_compile (hc : c.WritesOnlyTargets) {text : String} {before after : Host}
    {r : EmitRequest} {o : Except BuildError CompilerOutcome}
    (hr : r.targets = .inDirectory dir assembly) (hcompile : c.emit r before = (o, after))
    (hholds : HoldsText before (sourcePath dir assembly) text) :
    HoldsText after (sourcePath dir assembly) text := by
  obtain ⟨hcwd, hchanges⟩ := (hc r before.cwd).of_eq hcompile rfl
  refine hholds.of_changes hcwd hchanges ?_
  rintro ⟨t, ht, hl⟩
  rw [hr] at ht
  exact sourceLocation_ne ht hl

theorem keeps_prepare_fixed (cwd : Location) :
    Keeps (.changes cwd (IsBuildFile cwd dir assembly) (Disk.Passes cwd dir))
      (prepare (.fixed references) m assembly dir) := by
  refine keeps_prepare cwd (Frame.changes_mono ?_ fun _ hm => hm) (keeps_fixed references)
  rintro l (hl | hl)
  · exact ⟨_, List.mem_cons_self, hl⟩
  · exact ⟨_, by simp [buildPaths, outputPaths], hl⟩

/-- **A build that comes to a result has compiled the normalized rendering once**, and what it
reports is what the compiler found in it. -/
theorem emit_ok (hc : c.WritesOnlyTargets)
    (he : emit (.fixed references) c m assembly dir h = (.ok result, h')) :
    ∃ request before outcome after,
      Emission references c m assembly dir h h' result request before outcome after := by
  rw [emit_eq] at he
  obtain ⟨r, before, hprepare, he⟩ := bind_ok he
  obtain ⟨outcome, after, hcompile, hconclude⟩ := bind_ok he
  obtain ⟨given, text, ⟨-, asked, answered, hgiven⟩, hrendered, hr, hsource, -⟩ := prepare_ok hprepare
  obtain rfl := fixed_ok hgiven
  obtain ⟨hresult, -, hdisk⟩ := conclude_ok hconclude
  have htargets : r.targets = .inDirectory dir assembly := by rw [hr]; rfl
  have hpath : r.sourcePath = sourcePath dir assembly := by rw [hr]; rfl
  rw [hpath] at hsource
  obtain ⟨hcwd, hprepared⟩ := (keeps_prepare_fixed h.cwd).of_eq hprepare rfl
  obtain ⟨hcwd', hcompiled⟩ := (hc r h.cwd).of_eq hcompile hcwd
  have hlast : h'.disk.readText h.cwd (sourcePath dir assembly) = .ok r.source := by
    rw [hdisk, ← hcwd']
    exact (hsource.of_compile hc htargets hcompile).readText
  refine ⟨r, before, outcome, after, ⟨text, hrendered, hr⟩, runsOnce_of_prepare hprepare, hcompile,
    hcwd ▸ hsource.readText, hlast, ?_, ?_, ?_, ?_⟩
  · rw [hresult, resultOf_diagnostics, reported_eq]
  · rw [hresult, resultOf_succeeded]
  · rw [hresult, resultOf_named]
  · rw [hdisk]
    refine hprepared.trans (hcompiled.mono ?_ fun _ hm => hm.elim)
    rintro l ⟨t, ht, hl⟩
    rw [htargets] at ht
    exact ⟨t, by simp [buildPaths, outputPaths, ht], hl⟩

theorem emit_ok_placeholder :
    let c := Compiler.simulated (.failsAt 36 "bad property")
    ∃ result h' request before outcome after,
      emit (.fixed [⟨"R.dll", .empty⟩]) c (.ofPolicy (.named "a" "n" "k")) "A" "out"
        (hostWith ⟨[]⟩) = (.ok result, h') ∧
      Emission [⟨"R.dll", .empty⟩] c (.ofPolicy (.named "a" "n" "k")) "A" "out" (hostWith ⟨[]⟩) h'
        result request before outcome after := by
  intro c
  obtain ⟨text, hrendered⟩ := exists_rendered
  obtain ⟨result, h', he, -⟩ :=
    emit_total [⟨"R.dll", .empty⟩] "out" (h := hostWith ⟨[]⟩) (by decide)
    (List.cons_ne_nil _ _) hrendered rfl rfl (by decide) (.failsAt 36 "bad property")
  obtain ⟨request, before, outcome, after, hemission⟩ :=
    emit_ok (Compiler.simulated_writesOnlyTargets _) he
  exact ⟨result, h', request, before, outcome, after, he, hemission⟩

/-- A directory on the way of the output directory is made, too. -/
theorem emit_ok_makes_other_directory :
    (Compiler.simulated .pass).WritesOnlyTargets ∧ ∃ result h',
      emit (.fixed [⟨"R.dll", .empty⟩]) (.simulated .pass) (.ofPolicy (.named "a" "n" "k"))
        "A" "x/../out" (hostWith ⟨[]⟩) = (.ok result, h') ∧
      Location.ofPath [] "x/../out" = ["out"] ∧ ¬IsBuildFile [] "x/../out" "A" ["x"] ∧
      (hostWith ⟨[]⟩).disk.node? ["x"] = none ∧ h'.disk.node? ["x"] = some .directory := by
  obtain ⟨text, hrendered⟩ := exists_rendered
  obtain ⟨result, h', he, hdirectories⟩ := emit_total [⟨"R.dll", .empty⟩] "x/../out"
    (h := hostWith ⟨[]⟩) (by decide) (List.cons_ne_nil _ _) hrendered rfl rfl (by decide) .pass
  refine ⟨Compiler.simulated_writesOnlyTargets .pass, result, h', he, by decide, ?_, rfl,
    hdirectories ["x"] (by decide)⟩
  show ¬∃ path ∈ buildPaths "x/../out" "A", ["x"] = Location.ofPath [] path
  decide

end

end PolicyForge.Build
