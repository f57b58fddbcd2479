import PolicyForge.Proofs.Build.Readiness
import PolicyForge.Proofs.Package.Resolution
/-!
# What a build that fails has done

A build that fails before its source file is written leaves the files of an earlier one
(`emit_error`).  One that is not admitted leaves everything, and asks nobody for references.
-/
namespace PolicyForge

open Act

namespace BuildError

/-- The build was not worth trying. -/
def IsRefusal : BuildError → Prop
  | .blankAssemblyName | .model _ => True
  | _ => False

/-- There was nothing to compile, or nothing to compile it against. -/
def IsEarly : BuildError → Prop
  | .blankAssemblyName | .model _ | .references _ | .noReferences | .render _ => True
  | _ => False

/-- Something went wrong when the source was there, or the host was in the way. -/
def IsLate (e : BuildError) : Prop := Compiler.IsRunFailure e ∨ e = .cancelled

theorem IsRefusal.isEarly {e : BuildError} (h : e.IsRefusal) : e.IsEarly := by
  cases e <;> trivial

theorem IsEarly.not_isLate {e : BuildError} (h : e.IsEarly) : ¬e.IsLate := by
  rintro ((⟨i, rfl⟩ | ⟨name, reason, rfl⟩) | rfl) <;> exact h

end BuildError

namespace Build

/-- A source of references that leaves the files of a build alone. -/
def SparesOutputs (source : ReferenceSource) (cwd : Location) (dir assembly : String) : Prop :=
  ∀ path ∈ outputPaths dir assembly, Keeps (.file cwd (Location.ofPath cwd path)) source

section

variable {source : ReferenceSource} {c : Compiler} {m : Model} {assembly dir path : String}
  {h h' mid : Host} {e : BuildError}

theorem temporaryLocation_ne {cwd : Location} (hpath : path ∈ outputPaths dir assembly) :
    Location.ofPath cwd path ≠ Location.ofPath cwd (temporaryPath dir assembly) := by
  rcases List.mem_cons.1 hpath with rfl | ht
  · exact Location.ofPath_join_ne cwd dir assembly isSuffix_source isSuffix_temporary (by decide)
  · obtain ⟨s, rfl, hs, -, hne, -⟩ := exists_suffix ht
    exact Location.ofPath_join_ne cwd dir assembly hs isSuffix_temporary hne

theorem sparesOutputs_fixed (references : List Reference) (cwd : Location) (dir assembly : String) :
    SparesOutputs (.fixed references) cwd dir assembly := fun _ _ => keeps_fixed references

theorem sparesOutputs_resolve {r : ReferenceResolver} {cwd : Location}
    (hidentify : ∀ path ∈ outputPaths dir assembly,
      Keeps (.file cwd (Location.ofPath cwd path)) r.runtime.identify) :
    SparesOutputs r.resolve cwd dir assembly := by
  intro path hpath
  obtain ⟨s, rfl, hs, hends⟩ : ∃ s, path = Path.join dir (assembly ++ s) ∧ IsSuffix s ∧
      ∀ t ∈ ["_Package.zip", ".partial"], ¬s.toList <:+ t.toList ∧ ¬t.toList <:+ s.toList := by
    rcases List.mem_cons.1 hpath with rfl | ht
    · exact ⟨".cs", rfl, isSuffix_source, by decide⟩
    · simp only [EmitTargets.inDirectory, EmitTargets.toList, List.mem_cons, List.not_mem_nil,
        or_false] at ht
      rcases ht with rfl | rfl | rfl
      · exact ⟨".dll", rfl, ⟨by decide, by decide, by decide⟩, by decide⟩
      · exact ⟨".pdb", rfl, ⟨by decide, by decide, by decide⟩, by decide⟩
      · exact ⟨".xml", rfl, ⟨by decide, by decide, by decide⟩, by decide⟩
  exact keeps_resolve cwd (Frame.file_of_changes (r.cache.not_owns cwd dir assembly hs hends))
    (hidentify _ hpath)

theorem sparesOutputs_resolve_given (runtime : RuntimeIdentity) (cache : PackageCache)
    (feed : PackageFeed) (cwd : Location) (dir assembly : String) :
    SparesOutputs (ReferenceResolver.resolve ⟨.given runtime, cache, feed⟩) cwd dir assembly :=
  sparesOutputs_resolve fun _ _ => keeps_identify_given runtime

/-- Until the model is rendered, no output is touched. -/
theorem fileAt_of_gather {result : Except BuildError (List Reference)}
    (hspares : SparesOutputs source h.cwd dir assembly) (hpath : path ∈ outputPaths dir assembly)
    (hstart : start m assembly h = (.ok (), mid))
    (hgather : gather source m assembly dir mid = (result, h')) :
    h'.disk.fileAt (Location.ofPath h.cwd path) = h.disk.fileAt (Location.ofPath h.cwd path) := by
  have hkeeps : Keeps (.file h.cwd (Location.ofPath h.cwd path)) (gather source m assembly dir) :=
    keeps_gather h.cwd (Frame.file_of_changes (temporaryLocation_ne hpath)) (hspares path hpath)
  have hstarted := (keeps_start (F := .file h.cwd (Location.ofPath h.cwd path))).of_eq hstart rfl
  exact (hkeeps.of_eq hgather hstarted.1).2.trans hstarted.2

theorem emit_error_cases (hc : c.FailsOnlyToRun)
    (he : emit source c m assembly dir h = (.error e, h')) :
    start m assembly h = (.error e, h') ∨
      (∃ mid, start m assembly h = (.ok (), mid) ∧ gather source m assembly dir mid = (.error e, h')) ∨
      e.IsLate := by
  rw [emit_eq] at he
  rcases bind_error he with he | ⟨r, before, -, he⟩
  · rcases bind_error he with he | ⟨_, mid, hstart, he⟩
    · exact .inl he
    rcases bind_error he with he | ⟨references, gathered, hgather, he⟩
    · exact .inr (.inl ⟨mid, hstart, he⟩)
    obtain ⟨-, text, -, hholds⟩ := gather_ok hgather
    rcases makeRequest_error hholds he with hio | ⟨rfl, -⟩
    · exact .inr (.inr (.inl (.inl hio)))
    · exact .inr (.inr (.inr rfl))
  · rcases bind_error he with he | ⟨o, after, -, he⟩
    · exact .inr (.inr (.inl (hc _ _ _ _ he)))
    · exact .inr (.inr (.inr (conclude_error_cancelled he)))

theorem not_started (hc : c.FailsOnlyToRun)
    (he : emit source c m assembly dir h = (.error e, h'))
    (hcause : e.IsRefusal ∨ h.interrupt.isSet = true) : start m assembly h = (.error e, h') := by
  rcases hcause with hrefusal | hset
  · rcases emit_error_cases hc he with hstart | ⟨mid, -, hgather⟩ | hlate
    · exact hstart
    · obtain ⟨hblank, hmodel⟩ := gather_error hgather
      cases e with
      | blankAssemblyName => exact absurd rfl hblank
      | model me => exact absurd rfl (hmodel me)
      | _ => exact hrefusal.elim
    · exact absurd hlate hrefusal.isEarly.not_isLate
  · cases hstart : start m assembly h with
    | mk result mid =>
      cases result with
      | ok u => exact absurd hstart (not_start_of_isSet m assembly hset u mid)
      | error e' =>
        have hsame := (emit_of_prepare_error c (bind_of_error hstart)).symm.trans he
        cases hsame
        rfl

/-- **A build that fails early does not damage an earlier one**: it runs no compiler, and its
outputs are as they were.  If it is refused, or starts under a set interrupt, the whole host is as it
was, whatever the source of references. -/
theorem emit_error (hc : c.FailsOnlyToRun)
    (he : emit source c m assembly dir h = (.error e, h')) :
    (e.IsEarly → RunsNone (fun c => emit source c m assembly dir) h ∧
      (SparesOutputs source h.cwd dir assembly → ∀ path ∈ outputPaths dir assembly,
        h'.disk.fileAt (Location.ofPath h.cwd path) = h.disk.fileAt (Location.ofPath h.cwd path))) ∧
    (e.IsRefusal ∨ h.interrupt.isSet = true →
      h' = h ∧ ∀ source' c', emit source' c' m assembly dir h = (.error e, h)) := by
  refine ⟨fun hearly => ?_, fun hcause => ?_⟩
  · rcases emit_error_cases hc he with hstart | ⟨mid, hstart, hgather⟩ | hlate
    · obtain rfl := start_error hstart
      exact ⟨runsNone_of_prepare (bind_of_error hstart), fun _ _ _ => rfl⟩
    · have hprepare : prepare source m assembly dir h = (.error e, h') :=
        (bind_of_ok hstart).trans (bind_of_error hgather)
      exact ⟨runsNone_of_prepare hprepare, fun hspares path hpath =>
        fileAt_of_gather hspares hpath hstart hgather⟩
    · exact absurd hlate hearly.not_isLate
  · have hstart := not_started hc he hcause
    obtain rfl := start_error hstart
    exact ⟨rfl, fun source' c' => emit_of_prepare_error c' (bind_of_error hstart)⟩

/-- Without references an earlier source file stays, and without a name nothing happens. -/
theorem emit_error_over_earlier :
    let h := hostWith ⟨[(["out"], .directory), (["out", "A.cs"], .file "old".toUTF8 false)]⟩
    ∃ h', emit (.fixed []) (.simulated .pass) (.ofPolicy (.named "a" "n" "k")) "A" "out" h =
        (.error .noReferences, h') ∧
      h'.disk.fileAt ["out", "A.cs"] = some ("old".toUTF8, false) ∧
      emit (.fixed []) (.simulated .pass) (.ofPolicy (.named "a" "n" "k")) " " "out" h =
        (.error .blankAssemblyName, h) := by
  intro h
  have hfails := Compiler.simulated_failsOnlyToRun .pass
  obtain ⟨h', he⟩ : ∃ h', emit (.fixed []) (.simulated .pass) (.ofPolicy (.named "a" "n" "k")) "A"
      "out" h = (.error .noReferences, h') := ⟨_, rfl⟩
  obtain ⟨h'', hblank⟩ : ∃ h'', emit (.fixed []) (.simulated .pass) (.ofPolicy (.named "a" "n" "k"))
      " " "out" h = (.error .blankAssemblyName, h'') := ⟨_, rfl⟩
  obtain ⟨-, hkept⟩ := (emit_error hfails he).1 trivial
  have hsource := hkept (sparesOutputs_fixed [] _ _ _) (sourcePath "out" "A") List.mem_cons_self
  exact ⟨h', he, hsource, ((emit_error hfails hblank).2 (.inl trivial)).2 _ _⟩

end

end Build

end PolicyForge
