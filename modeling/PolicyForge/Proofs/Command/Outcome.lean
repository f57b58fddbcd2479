import PolicyForge.Proofs.Build.Companion
import PolicyForge.Proofs.Build.Emission
import PolicyForge.Proofs.Build.Neighbours
import PolicyForge.Proofs.Build.Printed
import PolicyForge.Proofs.Command.Setup
import PolicyForge.Proofs.Package.Filling
/-!
# How the command ends

The status is zero exactly if everything has been set up, the build has succeeded and all companions
that were asked for have been written; what is on the disk at the end says which of these was the
last (`run_outcome`).  Companions come in the order log, project, script, so that those before one
that fails are never in its way.
-/
namespace PolicyForge

open Act

namespace Command

variable {o : BuildOrder} {h h' : Host} {s : Settings} {m : Model} {runtime : RuntimeChoice}
  {cache : PackageCache}
  {c : Compiler}

/-! ## What comes out of the build -/

theorem result_of_emission {r : BuildResult} (he : emission o s m runtime cache c h = (.ok r, h')) :
    ∃ request before outcome after, Build.RunsOnce (emission o s m runtime cache) h request before ∧
      c.emit request before = (.ok outcome, after) ∧
      r = Build.resultOf o.assembly o.output request.source request.targets outcome := by
  rw [emission, Build.emit_eq] at he
  obtain ⟨request, before, hprepare, he⟩ := bind_ok he
  obtain ⟨outcome, after, hcompile, hconclude⟩ := bind_ok he
  exact ⟨request, before, outcome, after, Build.runsOnce_of_prepare hprepare, hcompile,
    (Build.conclude_ok hconclude).1⟩

theorem succeeded_of_emission {r : BuildResult} (he : emission o s m runtime cache c h = (.ok r, h'))
    (hr : r.succeeded = true) : Build.Succeeded r o.assembly o.output := Build.succeeded_of_emit he hr

/-- No compiler of the command reports a message of more than one line. -/
theorem unbroken_of_chooseCompiler (hc : chooseCompiler o s = .ok c) {request : EmitRequest}
    {outcome : CompilerOutcome} (hcompile : c.emit request h = (.ok outcome, h')) :
    ∀ d ∈ outcome.diagnostics, '\n' ∉ d.message.toList := by
  unfold chooseCompiler at hc
  split at hc
  · cases hc
    obtain ⟨_, h₁, -, hcompile⟩ := bind_ok hcompile
    obtain ⟨_, h₂, -, hcompile⟩ := bind_ok hcompile
    cases hcompile
    exact fun d hd => absurd hd List.not_mem_nil
  · cases hcommand : Compiler.Command.ofWords s.command with
    | error e =>
      rw [hcommand] at hc
      cases hc
    | ok command =>
      rw [hcommand] at hc
      cases hc
      obtain ⟨scratch, h₁, -, hcompile⟩ := bind_ok hcompile
      obtain ⟨result, h₂, hattempt, hcompile⟩ := bind_ok hcompile
      obtain ⟨_, h₃, -, hcompile⟩ := bind_ok hcompile
      cases hcompile
      obtain ⟨_, h₄, -, hexecute⟩ := bind_ok (attempt_ok hattempt)
      obtain ⟨execution, h₅, -, hexecute⟩ := bind_ok hexecute
      cases hexecute
      intro d hd
      rcases List.mem_append.1 hd with hd | hd <;> exact Build.unbroken_of_parseDiagnostics hd

/-! ## Companions that were asked for -/

open Build (Request)

/-- The companions that were asked for, in the order in which they are written. -/
def requested (o : BuildOrder) : List Request :=
  (if o.log then [.log] else []) ++ ((given o.project).map Request.project).toList ++
    ((given o.script).map Request.script).toList

theorem writeCompanions_eq (o : BuildOrder) (r : BuildResult) :
    writeCompanions o r = Build.writeAll r (requested o) := by
  unfold writeCompanions requested
  cases o.log <;> cases given o.project <;> cases given o.script <;>
    simp [Build.writeAll, Request.write]

/-- One kind of companion comes before another: logs before projects, and projects before scripts. -/
def Precedes : Request → Request → Prop
  | .log, .project _ | .log, .script _ | .project _, .script _ => True
  | _, _ => False

theorem requested_pairwise (o : BuildOrder) : (requested o).Pairwise Precedes := by
  unfold requested
  cases o.log <;> cases given o.project <;> cases given o.script <;> simp [Precedes]

/-- Only a script may have its file where an earlier companion has one. -/
theorem Precedes.apart {x y : Request} (hxy : Precedes x y) (hy : ∀ fileName, y ≠ .script fileName)
    (cwd : Location) (assembly dir : String) (diagnostics : List String) :
    Request.Apart cwd assembly dir diagnostics x y := by
  cases x <;> cases y <;> first | exact absurd rfl (hy _) | exact hxy.elim | skip
  exact Build.apart_log_project cwd assembly dir diagnostics _

theorem Precedes.not_script {x y : Request} (hxy : Precedes x y) (fileName : String) :
    x ≠ .script fileName := by
  rintro rfl
  exact hxy.elim

/-- What the disk holds when all companions have been written: their files, unless the script was
put over one, and nothing else that is new. -/
structure AllWritten (o : BuildOrder) (r : BuildResult) (mid h' : Host) : Prop where
  holds : ∀ x ∈ requested o, (∀ fileName, .script fileName ∈ requested o → x = .script fileName ∨
    x.Apart mid.cwd o.assembly o.output r.diagnostics (.script fileName)) →
      x.Holds o.assembly o.output r.diagnostics h'
  others : mid.disk.Changes
    (fun l => ∃ y ∈ requested o, y.Owns mid.cwd o.assembly o.output r.diagnostics l)
    (fun _ => False) h'.disk

theorem allWritten_of_writeAll {r : BuildResult} {mid : Host} (hr : Build.Succeeded r o.assembly o.output)
    (hw : Build.writeAll r (requested o) mid = (.ok (), h')) : AllWritten o r mid h' := by
  refine ⟨fun x hx hscript => ?_, ((Build.keeps_writeAll hr mid.cwd _).of_eq hw rfl).2⟩
  obtain ⟨before, after, hsplit⟩ := List.append_of_mem hx
  have hpairwise := requested_pairwise o
  rw [hsplit, List.pairwise_append, List.pairwise_cons] at hpairwise
  rw [hsplit] at hw hscript
  refine Build.holds_of_writeAll hr hw fun y hy => ?_
  have hxy := hpairwise.2.1.1 y hy
  by_cases hlast : ∃ fileName, y = .script fileName
  · obtain ⟨fileName, rfl⟩ := hlast
    exact (hscript fileName (by simp [hy])).resolve_left (hxy.not_script fileName)
  · exact hxy.apart (fun fileName he => hlast ⟨fileName, he⟩) _ _ _ _

/-- What the disk holds when a companion could not be written: the files of those before it, and
nothing else that is new but what the disk let through of a project. -/
structure StopsAt (o : BuildOrder) (r : BuildResult) (mid h' : Host) (e : BuildError)
    (done : List Request)
    (x : Request) : Prop where
  written : ∃ last, Build.writeAll r done mid = (.ok (), last) ∧ x.write r last = (.error e, h') ∧
    (h' = last ∨ (∃ i, e = .io i) ∧ ∃ name, x = .project name)
  holds : ∀ y ∈ done, y.Holds o.assembly o.output r.diagnostics h'
  others : mid.disk.Changes
    (fun l => ∃ y ∈ done ++ [x], y.Owns mid.cwd o.assembly o.output r.diagnostics l)
    (fun _ => False) h'.disk

theorem stopsAt_of_writeAll {r : BuildResult} {mid : Host} {e : BuildError}
    (hr : Build.Succeeded r o.assembly o.output)
    (hw : Build.writeAll r (requested o) mid = (.error e, h')) :
    ∃ done x rest, requested o = done ++ x :: rest ∧ StopsAt o r mid h' e done x := by
  obtain ⟨done, x, rest, last, hsplit, hdone, hx⟩ := Build.writeAll_error hw
  have hpairwise := requested_pairwise o
  rw [hsplit, List.pairwise_append] at hpairwise
  obtain ⟨hbefore, -, hprecedes⟩ := hpairwise
  obtain ⟨hcwd, hchanges⟩ := (Build.keeps_writeAll hr mid.cwd done).of_eq hdone rfl
  obtain ⟨hcwd', hchanges'⟩ := (Build.keeps_write hr mid.cwd x).of_eq hx hcwd
  obtain ⟨hio, hproject⟩ := Build.write_error hr hx
  refine ⟨done, x, rest, hsplit, ⟨last, hdone, hx, ?_⟩, fun y hy => ?_, ?_⟩
  · rcases hio with hio | hsame
    · exact hproject.imp_right fun hproject => ⟨hio, hproject⟩
    · exact .inl hsame
  · -- of those before it none is a script, so they are in nobody's way
    have hlast : y.Holds o.assembly o.output r.diagnostics last := by
      obtain ⟨before, after, rfl⟩ := List.append_of_mem hy
      rw [List.pairwise_append, List.pairwise_cons] at hbefore
      refine Build.holds_of_writeAll hr hdone fun z hz => ?_
      have hzx := hprecedes z (by simp [hz]) x List.mem_cons_self
      exact (hbefore.2.1.1 z hz).apart hzx.not_script _ _ _ _
    rcases hproject with rfl | ⟨name, rfl⟩
    · exact hlast
    · have hyx := hprecedes y hy _ List.mem_cons_self
      refine hlast.of_changes (hcwd'.trans hcwd.symm) hchanges' ?_
      rw [hcwd]
      exact hyx.apart (fun _ => nofun) _ _ _ _
  · refine (hchanges.mono ?_ fun _ hm => hm).trans (hchanges'.mono ?_ fun _ hm => hm)
    · rintro l ⟨y, hy, hl⟩
      exact ⟨y, List.mem_append_left _ hy, hl⟩
    · exact fun l hl => ⟨x, by simp, hl⟩

/-! ## What is shown -/

/-- What is shown of a build that failed: a header, and on a line of its own each warning and error
that the compiler had for the build, in order. -/
structure ShowsFailure (job : Compiler → Act BuildError BuildResult) (c : Compiler) (h : Host)
    (r : BuildResult)
    (errors : List String) : Prop where
  shown : errors = "Build failed with one or more errors:" :: r.diagnostics.map ("* " ++ ·)
  reported : ∃ request before outcome after, Build.RunsOnce job h request before ∧
    c.emit request before = (.ok outcome, after) ∧ outcome.success = false ∧
    r.diagnostics = (outcome.diagnostics.filter fun d => d.severity = .warning ∨ d.severity = .error).map
      fun d => Build.formatDiagnostic d request.source
  unbroken : ∀ line ∈ errors, '\n' ∉ line.toList

theorem showsFailure_of_emission {r : BuildResult} (hc : chooseCompiler o s = .ok c)
    (he : emission o s m runtime cache c h = (.ok r, h')) (hr : r.succeeded = false) :
    ShowsFailure (emission o s m runtime cache) c h r (reportOf (.ok r)).errors := by
  obtain ⟨request, before, outcome, after, honce, hcompile, rfl⟩ := result_of_emission he
  have hshown : (reportOf
      (.ok (Build.resultOf o.assembly o.output request.source request.targets outcome))).errors =
      "Build failed with one or more errors:" ::
        (Build.reported request.source outcome.diagnostics).map ("* " ++ ·) := by
    rw [reportOf, hr, Build.resultOf_diagnostics]
    rfl
  refine ⟨?_, ⟨request, before, outcome, after, honce, hcompile, ?_, ?_⟩, ?_⟩
  · rw [hshown, Build.resultOf_diagnostics]
  · rw [← hr, Build.resultOf_succeeded]
  · rw [Build.resultOf_diagnostics, Build.reported_eq]
  · rw [hshown, List.forall_mem_cons, List.forall_mem_map]
    refine ⟨by decide, fun line hline => ?_⟩
    obtain ⟨d, hd, rfl⟩ := List.mem_map.1 hline
    have hmessage := unbroken_of_chooseCompiler hc hcompile d (List.mem_of_mem_filter hd)
    simp [Build.unbroken_formatDiagnostic hmessage]

/-- The variables of the environment of a host. -/
def environmentOf (h : Host) (name : String) : Option String :=
  (h.environment.find? (·.1 == name)).map (·.2)

theorem run_of_build {arguments : List String}
    (ha : Invocation.ofArguments (environmentOf h) arguments = .build o) :
    run arguments h = (reportOf (build o h).1, (build o h).2) := by
  unfold run
  dsimp only
  split <;> rename_i hother <;> cases hother.symm.trans ha
  rfl

theorem status_of_error (e : CommandError) : (reportOf (.error e)).status = 1 := by
  rw [reportOf]
  split <;> rfl

theorem status_of_ok (r : BuildResult) : (reportOf (.ok r)).status = if r.succeeded then 0 else 1 := by
  rw [reportOf]
  split <;> rfl

theorem status_cases (result : Except CommandError BuildResult) :
    (reportOf result).status = 0 ∨ (reportOf result).status = 1 := by
  cases result with
  | error e => exact .inr (status_of_error e)
  | ok r =>
    rw [status_of_ok]
    split
    · exact .inl rfl
    · exact .inr rfl

/-! ## How a build ends -/

section

variable {r : BuildResult} {mid : Host} {e : BuildError} (hs : Setup o h s m runtime cache c)
include hs

theorem build_of_emission_error (he : emission o s m runtime cache c h = (.error e, mid)) :
    build o h = (.error (.build e), mid) := by
  rw [build_of_setup hs, bind_of_error (mapError_of_error _ he)]

theorem build_of_emission_ok (he : emission o s m runtime cache c h = (.ok r, mid)) :
    build o h = finish o r mid := by
  rw [build_of_setup hs, bind_of_ok (mapError_of_ok _ he)]

end

section

variable {r : BuildResult} {mid : Host} {e : BuildError}

theorem finish_of_failed (hr : r.succeeded = false) : finish o r mid = (.ok r, mid) := by
  rw [finish, hr]
  rfl

theorem finish_of_ok (hr : r.succeeded = true) (hw : Build.writeAll r (requested o) mid = (.ok (), h')) :
    finish o r mid = (.ok r, h') := by
  rw [← writeCompanions_eq] at hw
  rw [finish, hr, if_pos rfl]
  exact bind_of_ok (mapError_of_ok _ hw)

theorem finish_of_error (hr : r.succeeded = true)
    (hw : Build.writeAll r (requested o) mid = (.error e, h')) :
    finish o r mid = (.error (.build e), h') := by
  rw [← writeCompanions_eq] at hw
  rw [finish, hr, if_pos rfl]
  exact bind_of_error (mapError_of_error _ hw)

end

/-- All is set up, the build succeeds, and then all companions that were asked for are written. -/
def Succeeds (o : BuildOrder) (h h' : Host) : Prop :=
  ∃ s m runtime cache c r mid, Setup o h s m runtime cache c ∧
    emission o s m runtime cache c h = (.ok r, mid) ∧
    r.succeeded = true ∧ Build.writeAll r (requested o) mid = (.ok (), h')

theorem status_eq_zero_iff (hq : h.interrupt = .quiet) (o : BuildOrder) :
    (reportOf (build o h).1).status = 0 ↔ Succeeds o h (build o h).2 := by
  constructor
  · intro hzero
    rcases exists_setup hq o with ⟨s, m, runtime, cache, c, hs⟩ | ⟨e, he⟩
    · rcases he : emission o s m runtime cache c h with ⟨e | r, mid⟩
      · rw [build_of_emission_error hs he, status_of_error] at hzero
        cases hzero
      rw [build_of_emission_ok hs he] at hzero ⊢
      cases hr : r.succeeded with
      | false =>
        rw [finish_of_failed hr, status_of_ok, hr] at hzero
        cases hzero
      | true =>
        rcases hw : Build.writeAll r (requested o) mid with ⟨e | _, last⟩
        · rw [finish_of_error hr hw, status_of_error] at hzero
          cases hzero
        · rw [finish_of_ok hr hw]
          exact ⟨s, m, runtime, cache, c, r, mid, hs, he, hr, hw⟩
    · rw [he, status_of_error] at hzero
      cases hzero
  · rintro ⟨s, m, runtime, cache, c, r, mid, hs, he, hr, hw⟩
    rw [build_of_emission_ok hs he, finish_of_ok hr hw, status_of_ok, hr]
    rfl

/-! ## A small library -/

def smallPackage : ByteArray :=
  ⟨#[80, 75, 3, 4, 20, 0, 0, 0, 0, 0, 0, 0, 0, 0, 0, 0, 0, 0, 0, 0, 0, 0, 0, 0, 0, 0,
    16, 0, 0, 0, 114, 101, 102, 47, 110, 101, 116, 56, 46, 48, 47, 82, 46, 100, 108, 108,
    80, 75, 1, 2, 20, 0, 20, 0, 0, 0, 0, 0, 0, 0, 0, 0, 0, 0, 0, 0, 0, 0, 0, 0, 0, 0, 0, 0,
    16, 0, 0, 0, 0, 0, 0, 0, 0, 0, 0, 0, 0, 0, 0, 0, 0, 0,
    114, 101, 102, 47, 110, 101, 116, 56, 46, 48, 47, 82, 46, 100, 108, 108,
    80, 75, 5, 6, 0, 0, 0, 0, 1, 0, 1, 0, 62, 0, 0, 0, 46, 0, 0, 0, 0, 0]⟩

/-- A host with a directory of no definitions, and with the package of a runtime in the cache. -/
def smallHost : Host :=
  { Host.withDisk ⟨[(["in"], .directory), (["out"], .directory), (["data"], .directory),
    (["data", "policygen"], .directory),
      (["data", "policygen", "AppRef_8.0.4_Package.zip"], .file smallPackage false)]⟩ .none with
    environment := [("XDG_CONFIG_HOME", "/settings"), ("XDG_DATA_HOME", "/data")] }

def smallOrder : BuildOrder :=
  ⟨"A", "in", "out", some "A", none, true, none, some ".NET 8.0.4", true, false⟩

def smallRuntime : RuntimeIdentity := ⟨.modern, ⟨8, 0, 4, "", ""⟩⟩

def smallModel : Model := .directory "in" (some [])

theorem setup_small :
    Setup smallOrder smallHost .empty smallModel (.given smallRuntime) ⟨"/data/policygen"⟩
      (.simulated .pass) := by
  have hmodel : loadModel "in" smallHost = (.ok smallModel, smallHost) :=
    Prod.ext rfl (observes_loadModel "in" smallHost rfl)
  exact ⟨rfl, hmodel, by decide +kernel, rfl, rfl⟩

theorem exists_references_small :
    let resolver : ReferenceResolver :=
  ⟨.given smallRuntime, ⟨"/data/policygen"⟩, .ofAddress Settings.empty.base⟩
    ∃ references, references ≠ [] ∧ resolver.resolve smallHost = (.ok references, smallHost) := by
  intro resolver
  have hsame : (resolver.resolve smallHost).2 = smallHost :=
    ReferenceResolver.resolve_of_usable (ReferenceResolver.identifies_given smallRuntime _ _ _)
      (by decide) (by decide) rfl
      (ask_ok_iff.2 (by decide +kernel))
  have hsome : ((resolver.resolve smallHost).1.toOption.any fun references => !references.isEmpty) =
      true := by
    decide +kernel
  cases hfound : (resolver.resolve smallHost).1 with
  | error e =>
    rw [hfound] at hsome
    cases hsome
  | ok references =>
    rw [hfound] at hsome
    exact ⟨references, by simpa [Except.toOption] using hsome, Prod.ext hfound hsame⟩

theorem exists_emission_small : ∃ r mid,
    emission smallOrder .empty smallModel (.given smallRuntime) ⟨"/data/policygen"⟩
      (.simulated .pass) smallHost = (.ok r, mid) ∧
      r.succeeded = true ∧ mid.disk.isDirectory mid.cwd "out" = true ∧
      Build.CanWrite mid.disk mid.cwd (Build.logPath "out" "A") := by
  obtain ⟨references, hne, hresolve⟩ := exists_references_small
  have hdirs : smallHost.disk.makeDirectories smallHost.cwd "out" = (smallHost.disk, .ok ()) := rfl
  obtain ⟨pen, hpen⟩ :=
    Source.exists_pen_of_isOk (by decide : (Source.render smallModel "A" .quiet).1.isOk = true)
  have hname : Text.allBlank "A".toList = false := by decide
  obtain ⟨r, mid, hemit, hready⟩ :=
    Build.emit_ready references "out" hname hne ⟨pen, hpen, rfl⟩ rfl hdirs (by decide) .pass
  refine ⟨r, mid, (Build.emit_eq_fixed rfl hdirs hresolve _ _ _).trans hemit,
    Build.succeeded_simulated hemit, ?_, ?_⟩
  · rw [hready.place]
    exact Disk.isDirectory_mono hready.directories (by decide)
  · rw [hready.place]
    exact Build.CanWrite.of_emit (Compiler.simulated_writesOnlyTargets _) hemit rfl (by decide)
      (by decide) (by decide)
      (by decide)

/-! ## The command -/

/-- **The status of the command and what it leaves on the disk agree.**  Undisturbed, a command
whose arguments ask for a build has the status zero exactly if all went well, and one otherwise.
Where it stops before the end, that shows on the disk: nothing is changed before everything is set
up, no companion is written after a build that fails, and only those before it are written when a
companion fails. -/
theorem run_outcome {arguments : List String}
    (ha : Invocation.ofArguments (environmentOf h) arguments = .build o)
    (hq : h.interrupt = .quiet) : ∃ report h', run arguments h = (report, h') ∧
      (report.status = 0 ∨ report.status = 1) ∧ (report.status = 0 ↔ Succeeds o h h') ∧
      ((¬∃ s m runtime cache c, Setup o h s m runtime cache c) → report.status = 1 ∧ h' = h) ∧
      ∀ s m runtime cache c, Setup o h s m runtime cache c →
        (∀ e mid, emission o s m runtime cache c h = (.error e, mid) → report.status = 1 ∧ h' = mid) ∧
        (∀ r mid, emission o s m runtime cache c h = (.ok r, mid) → r.succeeded = false →
          report.status = 1 ∧ h' = mid ∧
          ShowsFailure (emission o s m runtime cache) c h r report.errors) ∧
        ∀ r mid, emission o s m runtime cache c h = (.ok r, mid) → r.succeeded = true →
          (∀ last, Build.writeAll r (requested o) mid = (.ok (), last) →
            report.status = 0 ∧ report.errors = [] ∧ h' = last ∧ AllWritten o r mid h') ∧
          ∀ e last, Build.writeAll r (requested o) mid = (.error e, last) →
            report.status = 1 ∧ h' = last ∧
              ∃ done x rest, requested o = done ++ x :: rest ∧ StopsAt o r mid h' e done x := by
  refine ⟨_, _, run_of_build ha, status_cases _, status_eq_zero_iff hq o, fun hnone => ?_,
    fun s m runtime cache c hs => ⟨?_, ?_, ?_⟩⟩
  · rcases exists_setup hq o with hsetup | ⟨e, he⟩
    · exact absurd hsetup hnone
    · rw [he]
      exact ⟨status_of_error e, rfl⟩
  · intro e mid he
    rw [build_of_emission_error hs he]
    exact ⟨status_of_error _, rfl⟩
  · intro r mid he hr
    rw [build_of_emission_ok hs he, finish_of_failed hr]
    exact ⟨by rw [status_of_ok, hr]; rfl, rfl, showsFailure_of_emission hs.compiler he hr⟩
  · intro r mid he hr
    have hsucceeded := succeeded_of_emission he hr
    rw [build_of_emission_ok hs he]
    refine ⟨fun last hw => ?_, fun e last hw => ?_⟩
    · rw [finish_of_ok hr hw]
      exact ⟨by rw [status_of_ok, hr]; rfl, by rw [reportOf, hr]; rfl, rfl,
        allWritten_of_writeAll hsucceeded hw⟩
    · rw [finish_of_error hr hw]
      exact ⟨status_of_error _, rfl, stopsAt_of_writeAll hsucceeded hw⟩

/-- A project with the name of the assembly is rejected when the log has been written. -/
theorem run_outcome_rejected :
    let arguments := ["A", "in", "out", "--simulate-compiler", "--runtime", ".NET 8.0.4",
      "--generate-csproj", "A"]
    Invocation.ofArguments (environmentOf smallHost) arguments = .build smallOrder ∧
      smallHost.interrupt = .quiet ∧
      ∃ report h' r mid e, run arguments smallHost = (report, h') ∧ report.status = 1 ∧
        r.succeeded = true ∧
        StopsAt smallOrder r mid h' e [.log] (.project "A") := by
  intro arguments
  have ha : Invocation.ofArguments (environmentOf smallHost) arguments = .build smallOrder := by
    decide +kernel
  have hrequested : requested smallOrder = [.log, .project "A"] := rfl
  obtain ⟨r, mid, he, hr, hdir, hfile⟩ := exists_emission_small
  have hsucceeded := succeeded_of_emission he hr
  obtain ⟨logged, hlog⟩ := Build.write_log_ok hsucceeded (by decide) hdir hfile
  obtain ⟨e, hproject⟩ :=
    Build.write_project_error hsucceeded
      (beq_self_eq_true _ : Build.sameLetters "A" "A" = true) logged
  have hw : Build.writeAll r (requested smallOrder) mid = (.error e, logged) := by
    rw [hrequested]
    exact (bind_of_ok hlog).trans (bind_of_error hproject)
  obtain ⟨report, h', hrun, -, -, -, hcourse⟩ := run_outcome ha rfl
  obtain ⟨hstatus, -, done, x, rest, hsplit, hstops⟩ :=
    ((hcourse _ _ _ _ _ setup_small).2.2 r mid he hr).2 e logged hw
  refine ⟨ha, rfl, report, h', r, mid, e, hrun, hstatus, hr, ?_⟩
  obtain ⟨last, hdone, hx, -⟩ := hstops.written
  rw [hrequested] at hsplit
  -- the log has not failed, and nothing comes after the project
  rcases done with _ | ⟨y, _ | ⟨z, done⟩⟩
  · cases hsplit
    cases hdone
    cases hlog.symm.trans hx
  · cases hsplit
    exact hstops
  · simp at hsplit

end Command

end PolicyForge
