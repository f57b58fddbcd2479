import PolicyForge.Proofs.Build.Stages
/-!
# What is assumed of a compiler

A compiler writes its three targets and nothing else, and its errors say that it could not be run;
what it finds in the source is part of its outcome.  The placeholder does so by itself.  A command
may write what it likes, but its errors are of that kind too.
-/
namespace PolicyForge

open Act

namespace Compiler

/-- The compiler changes nothing but its targets. -/
def WritesOnlyTargets (c : Compiler) : Prop :=
  ∀ r cwd, Keeps (.changes cwd (fun l => ∃ t ∈ r.targets.toList, l = Location.ofPath cwd t)
    fun _ => False) (c.emit r)

def IsRunFailure (e : BuildError) : Prop := (∃ i, e = .io i) ∨ ∃ name reason, e = .compiler name reason

def FailsOnlyToRun (c : Compiler) : Prop :=
  ∀ r h e h', c.emit r h = (.error e, h') → IsRunFailure e

/-! ## The placeholder -/

theorem simulated_writesOnlyTargets (outcome : CompilerOutcome) :
    (simulated outcome).WritesOnlyTargets := by
  intro r cwd
  have hwrite : ∀ path text, path ∈ r.targets.toList →
      Keeps (.changes cwd (fun l => ∃ t ∈ r.targets.toList, l = Location.ofPath cwd t)
        fun _ => False) (Act.writeText BuildError.io path text) := fun path text hpath =>
    (keeps_writeText cwd _ _ path text).mono (fun _ hl => ⟨path, hpath, hl⟩) fun _ hm => hm
  have hplaceholders : Keeps (.changes cwd
      (fun l => ∃ t ∈ r.targets.toList, l = Location.ofPath cwd t) fun _ => False)
      (writePlaceholders r) :=
    (hwrite _ _ (by simp [EmitTargets.toList])).bind fun _ =>
      (hwrite _ _ (by simp [EmitTargets.toList])).bind fun _ =>
        hwrite _ _ (by simp [EmitTargets.toList])
  refine Keeps.bind (keeps_update (by simp) (by simp)) fun _ => ?_
  by_cases hs : outcome.success = true
  · simp only [hs, if_true]
    exact hplaceholders.bind fun _ => keeps_pure _
  · simp only [hs, Bool.false_eq_true, if_false]
    exact keeps_pure _

theorem simulated_failsOnlyToRun (outcome : CompilerOutcome) :
    (simulated outcome).FailsOnlyToRun := by
  intro r h e h' he
  rcases bind_error he with he | ⟨_, h₁, -, he⟩
  · cases he
  by_cases hs : outcome.success = true
  · simp only [hs, if_true] at he
    rcases bind_error he with he | ⟨_, h₂, -, he⟩
    · rcases bind_error he with he | ⟨_, h₂, -, he⟩
      · exact .inl (writeText_error he).1
      rcases bind_error he with he | ⟨_, h₃, -, he⟩
      · exact .inl (writeText_error he).1
      · exact .inl (writeText_error he).1
    · cases he
  · simp only [hs, Bool.false_eq_true, if_false] at he
    cases he

/-! ## A command -/

theorem writeReferences_error {dir : String} {e : BuildError} : ∀ {rs : List Reference} {h h' : Host},
    writeReferences dir rs h = (.error e, h') → ∃ i, e = .io i
  | [], h, h', he => by cases he
  | r :: rest, h, h', he => by
    rcases bind_error he with he | ⟨_, h₁, -, he⟩
    · exact (changing_error
        (f := fun d cwd => d.writeBytes cwd (referencePath dir r) r.content) he).1
    · exact writeReferences_error he

theorem makeScratch_error {h h' : Host} {e : BuildError} (he : makeScratch h = (.error e, h')) :
    ∃ i, e = .io i := by
  rcases bind_error he with he | ⟨place, h₁, -, he⟩
  · cases he
  rcases bind_error he with he | ⟨n, h₂, -, he⟩
  · cases he
  rcases bind_error he with he | ⟨_, h₃, -, he⟩
  · exact (changing_error (f := fun d cwd => d.makeDirectory cwd _) he).1
  · cases he

theorem external_failsOnlyToRun (command : Command) : (external command).FailsOnlyToRun := by
  intro r h e h' he
  rcases bind_error he with he | ⟨dir, h₁, -, he⟩
  · exact .inl (makeScratch_error he)
  obtain ⟨result, h₂, hresult, he⟩ : ∃ result h₂, compileIn command r dir h₁ = (result, h₂) ∧
      result = .error e := by
    rcases bind_error he with he | ⟨result, h₂, hattempt, he⟩
    · cases he
    rcases bind_error he with he | ⟨_, h₃, -, he⟩
    · cases he
    · cases hattempt
      exact ⟨_, _, rfl, (Prod.mk.inj he).1⟩
  subst he
  rcases bind_error hresult with hresult | ⟨_, h₃, -, hresult⟩
  · exact .inl (writeReferences_error hresult)
  rcases bind_error hresult with hresult | ⟨execution, h₄, -, hresult⟩
  · unfold Act.run at hresult
    split at hresult
    · cases hresult
      exact .inr ⟨_, _, rfl⟩
    · cases hresult
  · cases hresult

end Compiler

namespace Build

/-! ## Running a compiler -/

variable {α : Type}

/-- The job runs its compiler once, with a request on a host, and goes on with what comes out. -/
def RunsOnce (job : Compiler → Act BuildError α) (h : Host) (r : EmitRequest) (before : Host) : Prop :=
  ∃ rest : CompilerOutcome → Act BuildError α, ∀ c, job c h = (c.emit r >>= rest) before

/-- The job does not run its compiler: any other would do. -/
def RunsNone (job : Compiler → Act BuildError α) (h : Host) : Prop := ∀ c c', job c h = job c' h

section

variable {source : ReferenceSource} {c : Compiler} {m : Model} {assembly dir : String}
  {h h' before : Host} {r : EmitRequest} {e : BuildError}

theorem runsOnce_of_prepare (hp : prepare source m assembly dir h = (.ok r, before)) :
    RunsOnce (fun c => emit source c m assembly dir) h r before :=
  ⟨conclude assembly dir r, fun c => (congrFun (emit_eq source c m assembly dir) h).trans
    (bind_of_ok hp)⟩

theorem emit_of_prepare_error (c : Compiler)
    (hp : prepare source m assembly dir h = (.error e, h')) :
    emit source c m assembly dir h = (.error e, h') := by
  rw [emit_eq, bind_of_error hp]

theorem runsNone_of_prepare (hp : prepare source m assembly dir h = (.error e, h')) :
    RunsNone (fun c => emit source c m assembly dir) h := fun c c' =>
  (emit_of_prepare_error c hp).trans (emit_of_prepare_error c' hp).symm

/-- Preparing writes the temporary file and the source file and makes directories; beyond that it does
what the source does. -/
theorem keeps_prepare {F : Frame} (cwd : Location) (hF : ∀ h h', (Frame.changes cwd
      (fun l => l = Location.ofPath cwd (temporaryPath dir assembly) ∨
        l = Location.ofPath cwd (sourcePath dir assembly)) (Disk.Passes cwd dir)).rel h h' →
        F.rel h h') (hsource : Keeps F source) : Keeps F (prepare source m assembly dir) :=
  keeps_start.bind fun _ =>
    (keeps_gather cwd (fun h h' hrel => hF h h'
      (Frame.changes_mono (fun _ hl => .inl hl) (fun _ hm => hm) h h' hrel)) hsource).bind
      fun _ => keeps_of_rel hF (keeps_makeRequest cwd _)

/-- A request is for the rendering of the model, and its source is in the source file. -/
theorem prepare_ok (hp : prepare source m assembly dir h = (.ok r, before)) :
    ∃ references text,
      (references ≠ [] ∧ ∃ asked answered, source asked = (.ok references, answered)) ∧
      Rendered m assembly text ∧ r = requestFor dir assembly references text ∧
      HoldsText before r.sourcePath r.source ∧ Reaches before r.targets.toList := by
  obtain ⟨_, h₁, -, hp⟩ := bind_ok hp
  obtain ⟨references, h₂, hgather, hp⟩ := bind_ok hp
  obtain ⟨hreferences, text, hrendered, hholds⟩ := gather_ok hgather
  obtain ⟨hr, hsource⟩ := makeRequest_ok hholds hp
  refine ⟨references, text, hreferences, hrendered, hr, hsource, fun t ht d hd => ?_⟩
  obtain ⟨hcwd, hchanges⟩ := (keeps_makeRequest h₂.cwd fun _ => False).of_eq hp rfl
  rw [hr] at ht
  obtain ⟨s, rfl, hs, hsize, -, -⟩ := exists_suffix ht
  rw [hcwd]
  exact Disk.locate_join isSuffix_temporary hs hsize (fun l hl => hd l (hchanges.directory l hl))
    hholds.1

end

end Build

end PolicyForge
