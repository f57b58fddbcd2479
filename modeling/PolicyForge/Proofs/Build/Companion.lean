import PolicyForge.Build.Companion
import PolicyForge.Proofs.Build.Emission
/-!
# What companions put on the disk

A companion is some files, each with its text (`Request.files`).  Writing one puts these texts there
and changes nothing else; a companion that is rejected changes nothing at all, and one that the disk
does not let through changes only files of its own (`keeps_write`, `write_ok`, `write_error`).
Companions are written in order up to the first that fails (`writeAll_error`), and what has been
written stays unless a later companion has a file at the same place (`holds_of_writeAll`).
-/
namespace PolicyForge

open Act

namespace Build

/-! ## Companions that are asked for -/

/-- A companion with the name that it is asked for under. -/
inductive Request where
  | log
  | project (name : String)
  | script (fileName : String)

namespace Request

def write (r : BuildResult) : Request → Act BuildError Unit
  | .log => do
    let _ ← writeLog r
  | .project name => do
    let _ ← writeProject r name
  | .script fileName => do
    let _ ← writeScript r fileName

/-- The files of a companion to an assembly in a directory, with what their texts may be. -/
def files (assembly dir : String) (diagnostics : List String) : Request → List (String × (String → Prop))
  | .log => [(logPath dir assembly, (· = logText diagnostics))]
  | .project name =>
    let files := ProjectFiles.inDirectory dir assembly name
    [(files.project, (· = projectText assembly)), (files.manifest, (· = manifestText name)),
      (files.program, (· = programText)),
      (files.solution, fun text => ∃ t p, text = solutionText name t p)]
  | .script fileName => [(Path.join dir fileName, (· = scriptText assembly))]

variable (cwd : Location) (assembly dir : String) (diagnostics : List String)

def Owns (x : Request) (l : Location) : Prop :=
  ∃ f ∈ x.files assembly dir diagnostics, l = .ofPath cwd f.1

def Holds (h : Host) (x : Request) : Prop :=
  ∀ f ∈ x.files assembly dir diagnostics, ∃ text, f.2 text ∧ HoldsText h f.1 text

/-- Two companions have no file at the same place. -/
def Apart (x y : Request) : Prop :=
  ∀ l, x.Owns cwd assembly dir diagnostics l → ¬y.Owns cwd assembly dir diagnostics l

end Request

open Request

def writeAll (r : BuildResult) : List Request → Act BuildError Unit
  | [] => return ()
  | x :: rest => do
    x.write r
    writeAll r rest

/-! ## One companion -/

/-- The result is that of a build that succeeded, of an assembly into a directory. -/
structure Succeeded (r : BuildResult) (assembly dir : String) : Prop where
  succeeded : r.succeeded = true
  named : r.assembly = some assembly
  placed : r.directory = some dir

/-- A result that says so is that of a build that succeeded, whatever compiler said it. -/
theorem succeeded_of_emit {source : ReferenceSource} {c : Compiler} {m : Model} {r : BuildResult}
    {assembly dir : String} {h h' : Host} (he : emit source c m assembly dir h = (.ok r, h'))
    (hs : r.succeeded = true) :
    Succeeded r assembly dir := by
  rw [emit_eq] at he
  obtain ⟨request, before, -, he⟩ := bind_ok he
  obtain ⟨outcome, after, -, hconclude⟩ := bind_ok he
  obtain ⟨rfl, -⟩ := conclude_ok hconclude
  rw [resultOf_succeeded] at hs
  refine ⟨?_, ?_, ?_⟩ <;> simp [resultOf, hs, BuildResult.success]

def Request.put (assembly dir : String) (diagnostics : List String) : Request → Act BuildError Unit
  | .log => Act.writeText .io (logPath dir assembly) (logText diagnostics)
  | .project name => do
    let files := ProjectFiles.inDirectory dir assembly name
    Act.writeText .io files.project (projectText assembly)
    Act.writeText .io files.manifest (manifestText name)
    Act.writeText .io files.program programText
    let t ← Act.freshNumber
    let p ← Act.freshNumber
    Act.writeText .io files.solution (solutionText name (identifierOf t) (identifierOf p))
  | .script fileName => Act.writeText .io (Path.join dir fileName) (scriptText assembly)

section

variable {r : BuildResult} {a : Companion} {h h' : Host} {e : BuildError}
  {assembly dir : String} {x : Request}

theorem requireSuccess_of_isDirectory (hr : Succeeded r assembly dir) (a : Companion)
    (hname : Text.allBlank assembly.toList = false) (hdir : h.disk.isDirectory h.cwd dir = true) :
    requireSuccess r a h = (.ok (assembly, dir), h) := by
  obtain ⟨hsucceeded, hnamed, hplaced⟩ := hr
  unfold requireSuccess
  rw [hsucceeded, hnamed, hplaced]
  simp only [Option.filter, hname]
  refine (bind_of_ok (ask_eq _ h)).trans ?_
  rw [hdir]
  rfl

theorem requireSuccess_cases (hr : Succeeded r assembly dir) (a : Companion) (h : Host) :
    (∃ e, requireSuccess r a h = (.error e, h) ∧ ∀ i, e ≠ .io i) ∨
    requireSuccess r a h = (.ok (assembly, dir), h) := by
  cases hblank : Text.allBlank assembly.toList with
  | true =>
    unfold requireSuccess
    rw [hr.succeeded, hr.named]
    simp only [Option.filter, hblank]
    exact .inl ⟨_, rfl, nofun⟩
  | false =>
    cases hdir : h.disk.isDirectory h.cwd dir with
    | true => exact .inr (requireSuccess_of_isDirectory hr a hblank hdir)
    | false =>
      unfold requireSuccess
      rw [hr.succeeded, hr.named, hr.placed]
      simp only [Option.filter, hblank]
      refine .inl ⟨.missingDirectory dir, (bind_of_ok (ask_eq _ h)).trans ?_, nofun⟩
      rw [hdir]
      rfl

/-- A companion is rejected before any of its files is written, or its files are put in their places. -/
theorem write_cases (hr : Succeeded r assembly dir) (x : Request) (h : Host) :
    (∃ e, x.write r h = (.error e, h) ∧ ∀ i, e ≠ .io i) ∨
    x.write r h = x.put assembly dir r.diagnostics h := by
  cases x with
  | log =>
    rw [write, writeLog, bind_assoc]
    rcases requireSuccess_cases hr .log h with ⟨e, hrequire, he⟩ | hrequire
    · exact .inl ⟨e, bind_of_error hrequire, he⟩
    · rw [bind_of_ok hrequire]
      simp only [bind_assoc, pure_bind, bind_pure_unit]
      exact .inr rfl
  | project name =>
    rw [write, writeProject, bind_assoc]
    rcases requireSuccess_cases hr .project h with ⟨e, hrequire, he⟩ | hrequire
    · exact .inl ⟨e, bind_of_error hrequire, he⟩
    · rw [bind_of_ok hrequire]
      by_cases hblank : Text.allBlank name.toList = true
      · exact .inl ⟨.invalidName .project .blank, by simp only [hblank]; rfl, nofun⟩
      · by_cases hsame : sameLetters name assembly = true
        · exact .inl ⟨.invalidName .project (.ofAssembly name), by simp only [hblank, hsame]; rfl, nofun⟩
        · simp only [hblank, hsame, Bool.false_eq_true, if_false, bind_assoc, pure_bind, bind_pure_unit]
          exact .inr rfl
  | script fileName =>
    rw [write, writeScript, bind_assoc]
    rcases requireSuccess_cases hr .script h with ⟨e, hrequire, he⟩ | hrequire
    · exact .inl ⟨e, bind_of_error hrequire, he⟩
    · rw [bind_of_ok hrequire]
      by_cases hblank : Text.allBlank fileName.toList = true
      · exact .inl ⟨.invalidName .script .blank, by simp only [hblank]; rfl, nofun⟩
      · simp only [hblank, Bool.false_eq_true, if_false, bind_assoc, pure_bind, bind_pure_unit]
        exact .inr rfl

/-! ## Where the files are -/

/-- What the names of the files of a log and of a project end with. -/
def companionSuffixes : List String := [".log", ".csproj", ".manifest", ".cs", ".sln"]

theorem companionLocation_ne {s t : String} (hs : s ∈ companionSuffixes)
    (ht : t ∈ companionSuffixes) (hst : s ≠ t) (cwd : Location) (dir name name' : String) :
    Location.ofPath cwd (Path.join dir (name ++ s)) ≠ .ofPath cwd (Path.join dir (name' ++ t)) := by
  have hsuffix : ∀ s ∈ companionSuffixes, '/' ∉ s.toList ∧ '\x00' ∉ s.toList ∧ 2 < s.length := by
    decide
  have hends : ∀ s ∈ companionSuffixes, ∀ t ∈ companionSuffixes,
      s ≠ t → ¬s.toList <:+ t.toList := by decide
  obtain ⟨hs₁, hs₂, hs₃⟩ := hsuffix s hs
  obtain ⟨ht₁, ht₂, ht₃⟩ := hsuffix t ht
  exact Location.ofPath_join_ne_of_suffix cwd dir name dir name' ⟨hs₁, hs₂, hs₃⟩ ⟨ht₁, ht₂, ht₃⟩
    (hends s hs t ht hst) (hends t ht s hs hst.symm)

theorem manifest_eq : "app.manifest" = "app" ++ ".manifest" := by decide

theorem program_eq : "Program.cs" = "Program" ++ ".cs" := by decide

theorem apart_log_project (cwd : Location) (assembly dir : String) (diagnostics : List String)
    (name : String) :
    Apart cwd assembly dir diagnostics .log (.project name) := by
  rintro l ⟨f, hf, rfl⟩ ⟨f', hf', hl⟩
  obtain rfl := List.mem_singleton.1 hf
  simp only [files, ProjectFiles.inDirectory, manifest_eq, program_eq, List.mem_cons,
    List.not_mem_nil, or_false] at hf'
  rcases hf' with rfl | rfl | rfl | rfl
  all_goals exact companionLocation_ne (by decide) (by decide) (by decide) cwd dir _ _ hl

/-! ## Putting the files in their places -/

theorem keeps_put (cwd : Location) (x : Request) (diagnostics : List String) :
    Keeps (.changes cwd (x.Owns cwd assembly dir diagnostics) fun _ => False)
      (x.put assembly dir diagnostics) := by
  have hwrite : ∀ path text, (∃ f ∈ x.files assembly dir diagnostics, path = f.1) →
      Keeps (.changes cwd (x.Owns cwd assembly dir diagnostics) fun _ => False)
        (Act.writeText BuildError.io path text) := by
    rintro path text ⟨f, hf, rfl⟩
    exact (keeps_writeText cwd _ _ _ text).mono (fun _ hl => ⟨f, hf, hl⟩) fun _ hm => hm
  cases x with
  | log => exact hwrite _ _ ⟨_, List.mem_singleton_self _, rfl⟩
  | project name =>
    refine (hwrite _ _ ⟨_, List.mem_cons_self, rfl⟩).bind fun _ => (hwrite _ _ ?_).bind fun _ =>
      (hwrite _ _ ?_).bind fun _ =>
      keeps_freshNumber.bind fun _ => keeps_freshNumber.bind fun _ => hwrite _ _ ?_
    all_goals simp [files, ProjectFiles.inDirectory]
  | script fileName => exact hwrite _ _ ⟨_, List.mem_singleton_self _, rfl⟩

theorem HoldsText.of_write {wrap : IoError → BuildError} {path path' text text' : String}
    (hp : HoldsText h path text) (hw : Act.writeText wrap path' text' h = (.ok (), h'))
    (hne : Location.ofPath h.cwd path ≠ .ofPath h.cwd path') :
    HoldsText h' path text := by
  obtain ⟨hcwd, -, hchanges, -⟩ := writeText_ok hw
  exact hp.of_changes hcwd hchanges hne

theorem put_ok {diagnostics : List String} (hput : x.put assembly dir diagnostics h = (.ok (), h')) :
    x.Holds assembly dir diagnostics h' := by
  cases x with
  | log =>
    intro f hf
    obtain rfl := List.mem_singleton.1 hf
    exact ⟨_, rfl, holdsText_of_writeText hput⟩
  | script fileName =>
    intro f hf
    obtain rfl := List.mem_singleton.1 hf
    exact ⟨_, rfl, holdsText_of_writeText hput⟩
  | project name =>
    simp only [put, ProjectFiles.inDirectory, manifest_eq, program_eq] at hput
    obtain ⟨_, h₁, h1, hput⟩ := bind_ok hput
    obtain ⟨_, h₂, h2, hput⟩ := bind_ok hput
    obtain ⟨_, h₃, h3, hput⟩ := bind_ok hput
    obtain ⟨t, h₄, h4, hput⟩ := bind_ok hput
    obtain ⟨p, h₅, h5, hput⟩ := bind_ok hput
    cases h4
    cases h5
    -- each file stays when those after it are written
    have hproject :=
      ((holdsText_of_writeText h1).of_write h2
        (companionLocation_ne (by decide) (by decide) (by decide) _ _ _ _)).of_write
      h3 (companionLocation_ne (by decide) (by decide) (by decide) _ _ _ _)
    have hmanifest := (holdsText_of_writeText h2).of_write h3
      (companionLocation_ne (by decide) (by decide) (by decide) _ _ _ _)
    have hprogram := holdsText_of_writeText h3
    have hlast : ∀ {s : String} {other text : String}, s ∈ companionSuffixes → s ≠ ".sln" →
        HoldsText h₃ (Path.join dir (other ++ s)) text → HoldsText h' (Path.join dir (other ++ s)) text :=
      fun hs hne hp => HoldsText.of_write (h := { h₃ with fresh := h₃.fresh + 1 + 1 }) hp hput
        (companionLocation_ne hs (by decide) hne _ _ _ _)
    simp only [Holds, files, ProjectFiles.inDirectory, manifest_eq, program_eq,
      List.forall_mem_cons, List.not_mem_nil, false_imp_iff, implies_true, and_true]
    exact ⟨⟨_, rfl, hlast (by decide) (by decide) hproject⟩,
      ⟨_, rfl, hlast (by decide) (by decide) hmanifest⟩,
      ⟨_, rfl, hlast (by decide) (by decide) hprogram⟩, _, ⟨_, _, rfl⟩, holdsText_of_writeText hput⟩

/-- What the disk does not let through is an error of the disk, and only a project may be half done
then. -/
theorem put_error {diagnostics : List String} (hput : x.put assembly dir diagnostics h = (.error e, h')) :
    (∃ i, e = .io i) ∧ (h' = h ∨ ∃ name, x = .project name) := by
  cases x with
  | log =>
    obtain ⟨hio, hsame⟩ := writeText_error hput
    exact ⟨hio, .inl hsame⟩
  | script fileName =>
    obtain ⟨hio, hsame⟩ := writeText_error hput
    exact ⟨hio, .inl hsame⟩
  | project name =>
    refine ⟨?_, .inr ⟨name, rfl⟩⟩
    rcases bind_error hput with hput | ⟨_, h₁, -, hput⟩
    · exact (writeText_error hput).1
    rcases bind_error hput with hput | ⟨_, h₂, -, hput⟩
    · exact (writeText_error hput).1
    rcases bind_error hput with hput | ⟨_, h₃, -, hput⟩
    · exact (writeText_error hput).1
    rcases bind_error hput with hput | ⟨_, h₄, -, hput⟩
    · cases hput
    rcases bind_error hput with hput | ⟨_, h₅, -, hput⟩
    · cases hput
    · exact (writeText_error hput).1

theorem keeps_write (hr : Succeeded r assembly dir) (cwd : Location) (x : Request) :
    Keeps (.changes cwd (x.Owns cwd assembly dir r.diagnostics) fun _ => False) (x.write r) := by
  intro h
  rcases write_cases hr x h with ⟨e, hw, -⟩ | hw
  · rw [hw]
    exact Frame.refl _ h
  · rw [hw]
    exact keeps_put cwd x r.diagnostics h

theorem write_ok (hr : Succeeded r assembly dir) (hw : x.write r h = (.ok (), h')) :
    x.Holds assembly dir r.diagnostics h' := by
  rcases write_cases hr x h with ⟨e, hrejected, -⟩ | hput
  · rw [hrejected] at hw
    cases hw
  · rw [hput] at hw
    exact put_ok hw

theorem write_error (hr : Succeeded r assembly dir) (hw : x.write r h = (.error e, h')) :
    ((∃ i, e = .io i) ∨ h' = h) ∧ (h' = h ∨ ∃ name, x = .project name) := by
  rcases write_cases hr x h with ⟨e, hrejected, -⟩ | hput
  · rw [hrejected] at hw
    cases hw
    exact ⟨.inr rfl, .inl rfl⟩
  · rw [hput] at hw
    exact ⟨.inl (put_error hw).1, (put_error hw).2⟩

/-- A project with the name of the assembly is rejected. -/
theorem write_project_error {name : String} (hr : Succeeded r assembly dir)
    (hn : sameLetters name assembly = true) (h : Host) :
    ∃ e, (Request.project name).write r h = (.error e, h) := by
  rw [write, writeProject, bind_assoc]
  rcases requireSuccess_cases hr .project h with ⟨e, hrequire, -⟩ | hrequire
  · exact ⟨e, bind_of_error hrequire⟩
  · rw [bind_of_ok hrequire]
    by_cases hblank : Text.allBlank name.toList = true
    · exact ⟨.invalidName .project .blank, by simp only [hblank]; rfl⟩
    · exact ⟨.invalidName .project (.ofAssembly name), by simp only [hblank, hn]; rfl⟩

theorem write_log_ok (hr : Succeeded r assembly dir) (hname : Text.allBlank assembly.toList = false)
    (hdir : h.disk.isDirectory h.cwd dir = true) (hfile : CanWrite h.disk h.cwd (logPath dir assembly)) :
    ∃ h', Request.log.write r h = (.ok (), h') := by
  obtain ⟨d, hd⟩ := hfile.writeBytes (logText r.diagnostics).toUTF8
  have hput : Act.writeText BuildError.io (logPath dir assembly) (logText r.diagnostics) h =
      (.ok (), { h with disk := d }) :=
    changing_of_ok (f := fun d cwd => d.writeBytes cwd _ _) hd
  have hlog : writeLog r h = (.ok (logPath dir assembly), { h with disk := d }) :=
    (bind_of_ok (requireSuccess_of_isDirectory hr .log hname hdir)).trans ((bind_of_ok hput).trans rfl)
  exact ⟨_, (bind_of_ok hlog).trans rfl⟩

/-- A project that is accepted is written next to a build if its files can be, and then all others
still can be. -/
theorem write_project_ok {name : String} (hr : Succeeded r assembly dir)
    (hname : Text.allBlank assembly.toList = false) (hproject : Text.allBlank name.toList = false)
    (hsame : sameLetters name assembly = false) (hdir : h.disk.isDirectory h.cwd dir = true)
    (hfiles : ∀ path ∈ (ProjectFiles.inDirectory dir assembly name).toList,
      CanWrite h.disk h.cwd path) :
    ∃ files h', writeProject r name h = (.ok files, h') ∧ ∀ path, CanWrite h.disk h.cwd path →
      CanWrite h'.disk h'.cwd path := by
  simp only [ProjectFiles.toList, List.forall_mem_cons, List.not_mem_nil, false_imp_iff,
    implies_true, and_true] at hfiles
  obtain ⟨hw₁, hw₂, hw₃, hw₄⟩ := hfiles
  obtain ⟨h₁, h1, hstill₁⟩ := hw₁.writeText (projectText assembly)
  obtain ⟨h₂, h2, hstill₂⟩ := (hstill₁ _ hw₂).writeText (manifestText name)
  obtain ⟨h₃, h3, hstill₃⟩ := (hstill₂ _ (hstill₁ _ hw₃)).writeText programText
  obtain ⟨h₄, h4, hstill₄⟩ :=
    CanWrite.writeText (h := { h₃ with fresh := h₃.fresh + 1 + 1 })
      (hstill₃ _ (hstill₂ _ (hstill₁ _ hw₄)))
    (solutionText name (identifierOf h₃.fresh) (identifierOf (h₃.fresh + 1)))
  refine ⟨.inDirectory dir assembly name, h₄,
    (bind_of_ok (requireSuccess_of_isDirectory hr .project hname hdir)).trans ?_,
    fun path hw => hstill₄ _ (hstill₃ _ (hstill₂ _ (hstill₁ _ hw)))⟩
  simp only [hproject, hsame, Bool.false_eq_true, if_false]
  exact (bind_of_ok h1).trans ((bind_of_ok h2).trans ((bind_of_ok h3).trans
    ((bind_of_ok rfl).trans ((bind_of_ok rfl).trans ((bind_of_ok h4).trans rfl)))))

theorem write_script_ok {fileName : String} (hr : Succeeded r assembly dir)
    (hname : Text.allBlank assembly.toList = false)
    (hscript : Text.allBlank fileName.toList = false) (hdir : h.disk.isDirectory h.cwd dir = true)
    (hfile : CanWrite h.disk h.cwd (Path.join dir fileName)) :
    ∃ script h', writeScript r fileName h = (.ok script, h') := by
  obtain ⟨h₁, h1, -⟩ := hfile.writeText (scriptText assembly)
  refine ⟨Path.join dir fileName, h₁,
    (bind_of_ok (requireSuccess_of_isDirectory hr .script hname hdir)).trans ?_⟩
  simp only [hscript, Bool.false_eq_true, if_false]
  exact (bind_of_ok h1).trans rfl

/-! ## What is told of the files -/

theorem writeLog_path {logged : String} (hr : Succeeded r assembly dir)
    (hlog : writeLog r h = (.ok logged, h')) :
    logged = logPath dir assembly := by
  obtain ⟨⟨n, d⟩, h₁, hrequire, hlog⟩ := bind_ok hlog
  obtain ⟨_, h₂, -, hlog⟩ := bind_ok hlog
  cases hlog
  rcases requireSuccess_cases hr .log h with ⟨e, herror, -⟩ | hok
  · cases herror.symm.trans hrequire
  · cases hok.symm.trans hrequire
    rfl

theorem writeProject_files {name : String} {files : ProjectFiles} (hr : Succeeded r assembly dir)
    (hproject : writeProject r name h = (.ok files, h')) : files = .inDirectory dir assembly name := by
  obtain ⟨⟨n, d⟩, h₁, hrequire, hproject⟩ := bind_ok hproject
  obtain ⟨rfl, rfl⟩ : n = assembly ∧ d = dir := by
    rcases requireSuccess_cases hr .project h with ⟨e, herror, -⟩ | hok
    · cases herror.symm.trans hrequire
    · cases hok.symm.trans hrequire
      exact ⟨rfl, rfl⟩
  by_cases hblank : Text.allBlank name.toList = true
  · simp only [hblank, if_true] at hproject
    cases hproject
  · by_cases hsame : sameLetters name n = true
    · simp only [hblank, hsame, if_true] at hproject
      cases hproject
    · simp only [hblank, hsame, Bool.false_eq_true, if_false] at hproject
      obtain ⟨_, h₂, -, hproject⟩ := bind_ok hproject
      obtain ⟨_, h₃, -, hproject⟩ := bind_ok hproject
      obtain ⟨_, h₄, -, hproject⟩ := bind_ok hproject
      obtain ⟨_, h₅, -, hproject⟩ := bind_ok hproject
      obtain ⟨_, h₆, -, hproject⟩ := bind_ok hproject
      obtain ⟨_, h₇, -, hproject⟩ := bind_ok hproject
      exact pure_ok hproject

theorem writeScript_path {fileName script : String} (hr : Succeeded r assembly dir)
    (hscript : writeScript r fileName h = (.ok script, h')) : script = Path.join dir fileName := by
  obtain ⟨⟨n, d⟩, h₁, hrequire, hscript⟩ := bind_ok hscript
  obtain ⟨rfl, rfl⟩ : n = assembly ∧ d = dir := by
    rcases requireSuccess_cases hr .script h with ⟨e, herror, -⟩ | hok
    · cases herror.symm.trans hrequire
    · cases hok.symm.trans hrequire
      exact ⟨rfl, rfl⟩
  by_cases hblank : Text.allBlank fileName.toList = true
  · simp only [hblank, if_true] at hscript
    cases hscript
  · simp only [hblank, Bool.false_eq_true, if_false] at hscript
    obtain ⟨_, h₂, -, hscript⟩ := bind_ok hscript
    exact pure_ok hscript

/-! ## Companions in order -/

theorem Request.Holds.of_changes {written made : Location → Prop} {diagnostics : List String}
    (hx : x.Holds assembly dir diagnostics h) (hcwd : h'.cwd = h.cwd)
    (hchanges : h.disk.Changes written made h'.disk)
    (hl : ∀ l, x.Owns h.cwd assembly dir diagnostics l → ¬written l) :
    x.Holds assembly dir diagnostics h' := by
  intro f hf
  obtain ⟨text, htext, hholds⟩ := hx f hf
  exact ⟨text, htext, hholds.of_changes hcwd hchanges (hl _ ⟨f, hf, rfl⟩)⟩

theorem keeps_writeAll (hr : Succeeded r assembly dir) (cwd : Location) : ∀ (xs : List Request),
    Keeps (.changes cwd (fun l => ∃ x ∈ xs, x.Owns cwd assembly dir r.diagnostics l) fun _ => False)
      (writeAll r xs)
  | [] => keeps_pure ()
  | x :: xs => by
    refine ((keeps_write hr cwd x).mono ?_ fun _ hm => hm).bind fun _ =>
      (keeps_writeAll hr cwd xs).mono ?_ fun _ hm => hm
    · exact fun l hl => ⟨x, List.mem_cons_self, hl⟩
    · rintro l ⟨y, hy, hl⟩
      exact ⟨y, List.mem_cons_of_mem _ hy, hl⟩

theorem writeAll_append (r : BuildResult) (xs ys : List Request) :
    writeAll r (xs ++ ys) = (do writeAll r xs; writeAll r ys) := by
  induction xs with
  | nil => simp [writeAll]
  | cons x xs ih => simp [writeAll, ih]

/-- What has been written stays unless a companion after it has a file at the same place. -/
theorem holds_of_writeAll (hr : Succeeded r assembly dir) {before after : List Request}
    {x : Request} (hw : writeAll r (before ++ x :: after) h = (.ok (), h'))
    (hapart : ∀ y ∈ after, Apart h.cwd assembly dir r.diagnostics x y) :
    x.Holds assembly dir r.diagnostics h' := by
  rw [writeAll_append] at hw
  obtain ⟨_, h₁, hbefore, hw⟩ := bind_ok hw
  obtain ⟨_, h₂, hx, hafter⟩ := bind_ok hw
  obtain ⟨hcwd₁, -⟩ := (keeps_writeAll hr h.cwd before).of_eq hbefore rfl
  obtain ⟨hcwd₂, -⟩ := (keeps_write hr h.cwd x).of_eq hx hcwd₁
  obtain ⟨hcwd₃, hchanges⟩ := (keeps_writeAll hr h.cwd after).of_eq hafter hcwd₂
  refine (write_ok hr hx).of_changes (hcwd₃.trans hcwd₂.symm) hchanges ?_
  rintro l hl ⟨y, hy, hl'⟩
  rw [hcwd₂] at hl
  exact hapart y hy l hl hl'

/-- Companions fail at the first that cannot be written, when all before it have been. -/
theorem writeAll_error : ∀ {xs : List Request} {h : Host}, writeAll r xs h = (.error e, h') →
    ∃ done x rest mid, xs = done ++ x :: rest ∧ writeAll r done h = (.ok (), mid) ∧
      x.write r mid = (.error e, h')
  | x :: xs, h, hw => by
    rcases bind_error hw with hx | ⟨_, h₁, hx, hxs⟩
    · exact ⟨[], x, xs, h, rfl, rfl, hx⟩
    · obtain ⟨done, y, rest, mid, rfl, hdone, hy⟩ := writeAll_error hxs
      exact ⟨x :: done, y, rest, mid, rfl, (bind_of_ok hx).trans hdone, hy⟩

end

end Build

end PolicyForge
