import Mathlib.Logic.Relation
import PolicyForge.Proofs.Build.Companion
import PolicyForge.Proofs.Build.Neighbours
/-!
# Companions next to the build that they describe

Logs and projects of a build can be written any number of times: none of their files is at the place
of another, and of the files of the build only one can be in their way.  That is the source file of
an assembly called `Program`, where every project puts its entry point (`emit_companions`).
-/
namespace PolicyForge.Build

open Act Request

variable {r : BuildResult} {a dir name path : String} {h h' : Host} {cwd : Location}

/-! ## Runs of logs and projects -/

/-- A log or a project has been asked for, whatever came of it. -/
inductive Adds (r : BuildResult) : Host → Host → Prop
  | log {h h' : Host} {logged : Except BuildError String} (hlog : writeLog r h = (logged, h')) :
    Adds r h h'
  | project {h h' : Host} {files : Except BuildError ProjectFiles} (name : String)
    (hname : '/' ∉ name.toList)
      (hproject : writeProject r name h = (files, h')) : Adds r h h'

/-- Logs and projects have been asked for, any number of times and in any order. -/
abbrev AddsMany (r : BuildResult) : Host → Host → Prop := Relation.ReflTransGen (Adds r)

/-- What is asked for here: not a script, whose file may be anywhere. -/
def Request.IsPlain : Request → Prop
  | .log => True
  | .project name => '/' ∉ name.toList
  | .script _ => False

theorem then_unit_snd {ε α : Type} (x : Act ε α) (h : Host) : ((do let _ ← x) h).2 = (x h).2 := by
  rcases hx : x h with ⟨e | y, h'⟩
  · rw [bind_of_error hx]
  · rw [bind_of_ok hx]
    rfl

theorem Adds.exists_request (hadds : Adds r h h') : ∃ x : Request, x.IsPlain ∧ (x.write r h).2 = h' := by
  cases hadds with
  | log hlog => exact ⟨.log, trivial, by rw [write, then_unit_snd, hlog]⟩
  | project name hname hproject => exact ⟨.project name, hname, by rw [write, then_unit_snd, hproject]⟩

/-- What every log and every project keeps is kept by any number of them. -/
theorem AddsMany.rel {F : Frame} (hF : ∀ x : Request, x.IsPlain → Keeps F (x.write r))
    (hmany : AddsMany r h h') :
    F.rel h h' := by
  induction hmany with
  | refl => exact F.refl h
  | tail _ hadds ih =>
    obtain ⟨x, hx, hwrite⟩ := hadds.exists_request
    exact F.trans ih (hwrite ▸ hF x hx _)

/-! ## The files of the build -/

theorem append_eq_of_location_eq {n m s t : String} (hn : '/' ∉ n.toList) (hm : '/' ∉ m.toList)
    (hs : IsSuffix s) (ht : IsSuffix t)
    (hl : Location.ofPath cwd (Path.join dir (n ++ s)) = .ofPath cwd (Path.join dir (m ++ t))) :
    n ++ s = m ++ t := by
  have hseparator : ∀ {n s : String}, '/' ∉ n.toList → IsSuffix s → '/' ∉ (n ++ s).toList := by
    intro n s hn hs
    rw [String.toList_append, List.mem_append, not_or]
    exact ⟨hn, hs.separator⟩
  rw [Location.ofPath_join (hs.isName n) (hseparator hn hs),
    Location.ofPath_join (ht.isName m) (hseparator hm ht)] at hl
  exact List.singleton_inj.1 (List.append_cancel_left hl)

theorem isSuffix_of_mem_companionSuffixes : ∀ s ∈ companionSuffixes, IsSuffix s := by
  have hall : ∀ s ∈ companionSuffixes, '/' ∉ s.toList ∧ '\x00' ∉ s.toList ∧ 2 < s.length := by
    decide
  exact fun s hs => ⟨(hall s hs).1, (hall s hs).2.1, (hall s hs).2.2⟩

/-- An output of a build is called like a file of a companion only if both are source files. -/
theorem eq_of_output_eq {n s t : String} (hs : s ∈ outputSuffixes) (ht : t ∈ companionSuffixes)
    (ha : '/' ∉ a.toList) (hn : '/' ∉ n.toList)
    (hl : Location.ofPath cwd (Path.join dir (a ++ s)) = .ofPath cwd (Path.join dir (n ++ t))) :
    s = ".cs" ∧ t = ".cs" ∧ a = n := by
  have happend := append_eq_of_location_eq ha hn (isSuffix_of_mem s (List.mem_cons_of_mem _ hs))
    (isSuffix_of_mem_companionSuffixes t ht) hl
  have hcases : ∀ s ∈ outputSuffixes, ∀ t ∈ companionSuffixes, (s = ".cs" ∧ t = ".cs") ∨
      ¬s.toList <:+ t.toList ∧ ¬t.toList <:+ s.toList := by decide
  rcases hcases s hs t ht with ⟨rfl, rfl⟩ | ⟨hst, hts⟩
  · exact ⟨rfl, rfl, String.append_left_inj ".cs" |>.1 happend⟩
  · have hs' : s.toList <:+ (a ++ s).toList := ⟨a.toList, String.toList_append.symm⟩
    have ht' : t.toList <:+ (a ++ s).toList := ⟨n.toList, by rw [happend, String.toList_append]⟩
    rcases List.suffix_or_suffix_of_suffix hs' ht' with hsuffix | hsuffix
    · exact absurd hsuffix hst
    · exact absurd hsuffix hts

/-- The only output of a build that a log or a project may write is the source file of `Program`. -/
theorem eq_of_owns {x : Request} {diagnostics : List String} (hx : x.IsPlain) (ha : '/' ∉ a.toList)
    (hpath : path ∈ outputPaths dir a) (howns : x.Owns cwd a dir diagnostics (.ofPath cwd path)) :
    a = "Program" ∧ path = sourcePath dir a := by
  obtain ⟨s, hs, rfl⟩ := mem_outputPaths_iff.1 hpath
  obtain ⟨f, hf, hl⟩ := howns
  cases x with
  | log =>
    obtain rfl := List.mem_singleton.1 hf
    exact absurd (eq_of_output_eq hs (by decide) ha ha hl).2.1 (by decide)
  | project name =>
    simp only [files, ProjectFiles.inDirectory, manifest_eq, program_eq, List.mem_cons,
      List.not_mem_nil, or_false] at hf
    rcases hf with rfl | rfl | rfl | rfl
    · exact absurd (eq_of_output_eq hs (by decide) ha hx hl).2.1 (by decide)
    · exact absurd (eq_of_output_eq hs (by decide) ha (by decide) hl).2.1 (by decide)
    · obtain ⟨rfl, -, rfl⟩ := eq_of_output_eq hs (by decide) ha (by decide) hl
      exact ⟨rfl, rfl⟩
    · exact absurd (eq_of_output_eq hs (by decide) ha ha hl).2.1 (by decide)
  | script fileName => exact hx.elim

theorem stays_write (hr : Succeeded r a dir) (x : Request) : Keeps (.stays cwd) (x.write r) :=
  keeps_of_rel Frame.stays_of_changes (keeps_write hr cwd x)

theorem keeps_write_output {x : Request} (hr : Succeeded r a dir) (ha : '/' ∉ a.toList) (hx : x.IsPlain)
    (hpath : path ∈ outputPaths dir a) (hother : a ≠ "Program" ∨ path ≠ sourcePath dir a) :
    Keeps (.file cwd (.ofPath cwd path)) (x.write r) := by
  refine keeps_of_rel (Frame.file_of_changes fun howns => ?_) (keeps_write hr cwd x)
  obtain ⟨hname, hsource⟩ := eq_of_owns hx ha hpath howns
  rcases hother with hother | hother
  · exact hother hname
  · exact hother hsource

/-! ## The entry point of a project -/

def holding (path text : String) : Frame where
  rel h h' := HoldsText h path text → HoldsText h' path text
  same hdisk hcwd hp := by rwa [HoldsText, hdisk, hcwd]
  trans hab hbc hp := hbc (hab hp)

theorem keeps_writeText_holding (path text : String) :
    Keeps (holding path text) (Act.writeText BuildError.io path text) := by
  intro h hp
  rcases hw : Act.writeText BuildError.io path text h with ⟨e | _, h'⟩
  · obtain ⟨-, rfl⟩ := writeText_error hw
    exact hp
  · exact holdsText_of_writeText hw

theorem keeps_writeText_holding_of_ne {path' text' : String} (text : String)
    (hne : ∀ cwd, Location.ofPath cwd path ≠ .ofPath cwd path') :
    Keeps (holding path text) (Act.writeText BuildError.io path' text') := by
  intro h hp
  rcases hw : Act.writeText BuildError.io path' text' h with ⟨e | _, h'⟩
  · obtain ⟨-, rfl⟩ := writeText_error hw
    exact hp
  · exact hp.of_write hw (hne h.cwd)

theorem fileAt_ne_of_holdsText {text text' : String} (hp : HoldsText h path text)
    (hp' : HoldsText h' path text') (hcwd : h'.cwd = h.cwd) (hne : text ≠ text') :
    h'.disk.fileAt (.ofPath h.cwd path) ≠ h.disk.fileAt (.ofPath h.cwd path) := by
  obtain ⟨-, x, hnode⟩ := hp
  obtain ⟨-, x', hnode'⟩ := hp'
  rw [hcwd] at hnode'
  rw [Disk.fileAt_eq_some_iff.2 hnode, Disk.fileAt_eq_some_iff.2 hnode']
  intro heq
  exact hne (String.toByteArray_inj.1 (Prod.mk.inj (Option.some.inj heq)).1).symm

/-- Once it is written, nothing but another entry point is written over the entry point of a project. -/
theorem keeps_write_program {x : Request} (hr : Succeeded r a dir) (hx : x.IsPlain) :
    Keeps (holding (Path.join dir "Program.cs") programText) (x.write r) := by
  have hother : ∀ (n : String) {t : String} (text : String), t ∈ companionSuffixes → ".cs" ≠ t →
      Keeps (holding (Path.join dir ("Program" ++ ".cs")) programText)
        (Act.writeText BuildError.io (Path.join dir (n ++ t)) text) :=
    fun _ _ _ ht hne => keeps_writeText_holding_of_ne _ fun _ =>
      companionLocation_ne (by decide) ht hne _ _ _ _
  have hput : Keeps (holding (Path.join dir ("Program" ++ ".cs")) programText)
      (x.put a dir r.diagnostics) := by
    cases x with
    | log => exact hother _ _ (by decide) (by decide)
    | project name =>
      simp only [put, ProjectFiles.inDirectory, manifest_eq, program_eq]
      exact (hother name _ (by decide) (by decide)).bind fun _ =>
        (hother "app" _ (by decide) (by decide)).bind fun _ =>
        (keeps_writeText_holding _ _).bind fun _ => keeps_freshNumber.bind fun _ =>
          keeps_freshNumber.bind fun _ =>
          hother a _ (by decide) (by decide)
    | script fileName => exact hx.elim
  intro h
  rw [program_eq]
  rcases write_cases hr x h with ⟨e, hw, -⟩ | hw
  · rw [hw]
    exact Frame.refl _ h
  · rw [hw]
    exact hput h

/-! ## What a build writes into its source file -/

theorem toList_banner : ∃ more, Source.banner.toList = '/' :: more := by
  have hline : "//------------------------------------------------------------------------------\n" =
      String.ofList ('/' :: '/' :: List.replicate 78 '-' ++ ['\n']) := rfl
  rw [Source.banner, String.join_cons, String.toList_append, hline, String.toList_ofList]
  exact ⟨_, rfl⟩

theorem toList_programText : ∃ more, programText.toList = 'u' :: more := by
  have hline : "using System;" =
      String.ofList ['u', 's', 'i', 'n', 'g', ' ', 'S', 'y', 's', 't', 'e', 'm', ';'] := rfl
  rw [programText, unlines, List.map_cons, String.join_cons, String.toList_append,
    String.toList_append, hline, String.toList_ofList]
  exact ⟨_, rfl⟩

/-- A rendering starts with a comment, and so does its normal layout; an entry point does not. -/
theorem normalize_rendered_ne {m : Model} {text : String} (hrendered : Rendered m a text) :
    Layout.normalize text ≠ programText := by
  obtain ⟨pen, hpen, rfl⟩ := hrendered
  obtain ⟨policies, -, -, hwritten⟩ := Source.render_ok hpen
  obtain ⟨more, hbanner⟩ := toList_banner
  obtain ⟨rest, hrest⟩ : ∃ rest, pen.written.toList = '/' :: rest := by
    rw [hwritten]
    simp only [String.toList_append, List.append_assoc, hbanner, List.cons_append]
    exact ⟨_, rfl⟩
  have hhead : (Layout.normalize pen.written).toList.head? = some '/' := by
    rw [Layout.toList_normalize, hrest]
    exact Layout.head?_normalizeChars (by decide) rest
  obtain ⟨other, hprogram⟩ := toList_programText
  intro heq
  rw [heq, hprogram] at hhead
  exact absurd (Option.some.inj hhead) (by decide)

/-! ## What is told of the files -/

theorem companions_nodup (cwd : Location) (dir a name : String) :
    ((logPath dir a :: (ProjectFiles.inDirectory dir a name).toList).map
      (Location.ofPath cwd)).Nodup := by
  have hne : ∀ {s t : String} (n m : String), s ∈ companionSuffixes →
      t ∈ companionSuffixes → s ≠ t →
      Location.ofPath cwd (Path.join dir (n ++ s)) ≠ .ofPath cwd (Path.join dir (m ++ t)) :=
    fun n m hs ht hst => companionLocation_ne hs ht hst cwd dir n m
  simp only [ProjectFiles.inDirectory, ProjectFiles.toList, logPath, manifest_eq, program_eq,
    List.map_cons, List.map_nil, List.nodup_cons, List.mem_cons, List.not_mem_nil, or_false, not_or,
    List.nodup_nil, not_false_eq_true, and_true]
  refine ⟨⟨?_, ?_, ?_, ?_⟩, ⟨?_, ?_, ?_⟩, ⟨?_, ?_⟩, ?_⟩
  all_goals exact hne _ _ (by decide) (by decide) (by decide)

/-- In the source file of an assembly called `Program`, the entry point of a project takes the place
of what was compiled. -/
theorem overwritten_of_writeProject {source : ReferenceSource} {c : Compiler} {m : Model}
    {h h₁ h₂ h₃ h₄ : Host} {result : BuildResult} {files : ProjectFiles} (hc : c.WritesOnlyTargets)
    (he : emit source c m "Program" dir h = (.ok result, h₁)) (hs : result.succeeded = true)
    (hbefore : AddsMany result h₁ h₂) (hproject : writeProject result name h₂ = (.ok files, h₃))
    (hafter : AddsMany result h₃ h₄) :
    HoldsText h₄ (sourcePath dir "Program") programText ∧
      h₄.disk.fileAt (.ofPath h₁.cwd (sourcePath dir "Program")) ≠
        h₁.disk.fileAt (.ofPath h₁.cwd (sourcePath dir "Program")) := by
  have hr := succeeded_of_emit he hs
  have hwritten : (Request.project name).write result h₂ = (.ok (), h₃) := (bind_of_ok hproject).trans rfl
  have hheld : HoldsText h₃ (Path.join dir "Program.cs") programText := by
    obtain ⟨text, rfl, hholds⟩ := write_ok hr hwritten (Path.join dir "Program.cs", (· = programText))
      (by simp [Request.files, ProjectFiles.inDirectory])
    exact hholds
  have hlast : HoldsText h₄ (sourcePath dir "Program") programText := by
    rw [sourcePath, ← program_eq]
    exact hafter.rel (F := holding _ _) (fun x hx => keeps_write_program hr hx) hheld
  have hcwd : h₄.cwd = h₁.cwd := by
    have hcwd₂ : h₂.cwd = h₁.cwd := hbefore.rel (F := .stays h₁.cwd) (fun x _ => stays_write hr x) rfl
    have hcwd₃ : h₃.cwd = h₁.cwd := (stays_write hr (.project name)).of_eq hwritten hcwd₂
    exact hafter.rel (F := .stays h₁.cwd) (fun x _ => stays_write hr x) hcwd₃
  obtain ⟨text, hrendered, hemitted⟩ := source_of_emit hc he
  exact ⟨hlast, fileAt_ne_of_holdsText hemitted hlast hcwd (normalize_rendered_ne hrendered)⟩

/-! ## A small build -/

theorem exists_companions (assembly : String) (hname : Text.allBlank assembly.toList = false)
    (hsame : sameLetters "App" assembly = false)
    (hrendered : (Source.render (.ofPolicy (.named "a" "n" "k")) assembly .quiet).1.isOk = true)
    (hfiles : ∀ path ∈ buildPaths "out" assembly, CanWrite ⟨[(["out"], .directory)]⟩ [] path)
    (hothers : ∀ path ∈ Path.join "out" "q.linq" ::
      (ProjectFiles.inDirectory "out" assembly "App").toList, path ∈ buildPaths "out" assembly ∨
      CanWrite ⟨[(["out"], .directory)]⟩ [] path ∧ Location.ofPath [] path ≠ [] ∧
      Location.ofPath [] path ≠ ["out"] ∧
      ¬∃ p ∈ buildPaths "out" assembly, Location.ofPath [] path = .ofPath [] p) :
    ∃ result h₁ files h₂ script h₃,
      emit (.fixed [⟨"R.dll", .empty⟩]) (.simulated .pass) (.ofPolicy (.named "a" "n" "k"))
        assembly "out" (hostWith ⟨[(["out"], .directory)]⟩) = (.ok result, h₁) ∧
        result.succeeded = true ∧
      writeProject result "App" h₁ = (.ok files, h₂) ∧
      writeScript result "q.linq" h₂ = (.ok script, h₃) := by
  obtain ⟨pen, hpen⟩ := Source.exists_pen_of_isOk hrendered
  obtain ⟨result, h₁, he, hready⟩ :=
    emit_ready [⟨"R.dll", .empty⟩] "out" (h := hostWith ⟨[(["out"], .directory)]⟩) hname
    (List.cons_ne_nil _ _) ⟨pen, hpen, rfl⟩ rfl rfl hfiles .pass
  have hs : result.succeeded = true := succeeded_simulated he
  have hr := succeeded_of_emit he hs
  have hplace : h₁.cwd = [] := hready.place
  have hdir : h₁.disk.isDirectory h₁.cwd "out" = true := by
    rw [hplace]
    exact Disk.isDirectory_mono hready.directories (by decide)
  have hcan : ∀ path ∈ Path.join "out" "q.linq" :: (ProjectFiles.inDirectory "out" assembly "App").toList,
      CanWrite h₁.disk h₁.cwd path := by
    intro path hpath
    rw [hplace]
    rcases hothers path hpath with hbuild | ⟨hbefore, hroot, hout, hother⟩
    · exact hready.files path hbuild
    · exact hbefore.of_emit (Compiler.simulated_writesOnlyTargets .pass) he rfl hroot hout hother
  obtain ⟨files, h₂, hproject, hstill⟩ :=
    write_project_ok hr hname (by decide) hsame hdir fun path hpath =>
    hcan path (List.mem_cons_of_mem _ hpath)
  obtain ⟨hcwd, hchanges⟩ :=
    (keeps_write hr h₁.cwd (.project "App")).of_eq ((bind_of_ok hproject).trans rfl) rfl
  obtain ⟨script, h₃, hscript⟩ := write_script_ok hr hname (by decide)
    (hcwd ▸ Disk.isDirectory_mono hchanges.directory hdir) (hstill _ (hcan _ List.mem_cons_self))
  exact ⟨result, h₁, files, h₂, script, h₃, he, hs, hproject, hscript⟩

/-! ## Companions next to a build -/

/-- **Logs and projects leave the files of a build, but for the source file of `Program`.**  They
may be asked for any number of times and in any order, and none of their files is at the place of
another.  An assembly called `Program` loses its source file to the entry point of the first project
that is written, and does not get it back. -/
theorem emit_companions {source : ReferenceSource} {c : Compiler} {m : Model} {h h₁ : Host}
    {result : BuildResult} (ha : '/' ∉ a.toList) (he : emit source c m a dir h = (.ok result, h₁))
    (hs : result.succeeded = true) :
    (∀ h₂, AddsMany result h₁ h₂ → ∀ path ∈ outputPaths dir a,
      a ≠ "Program" ∨ path ≠ sourcePath dir a →
      h₂.disk.fileAt (.ofPath h₁.cwd path) = h₁.disk.fileAt (.ofPath h₁.cwd path)) ∧
    (a = "Program" → c.WritesOnlyTargets → ∀ h₂ name files h₃ h₄, AddsMany result h₁ h₂ →
      writeProject result name h₂ = (.ok files, h₃) → AddsMany result h₃ h₄ →
        HoldsText h₄ (sourcePath dir a) programText ∧
          h₄.disk.fileAt (.ofPath h₁.cwd (sourcePath dir a)) ≠
            h₁.disk.fileAt (.ofPath h₁.cwd (sourcePath dir a))) ∧
    ∀ name files logged k k' l l', writeProject result name k = (.ok files, k') →
      writeLog result l = (.ok logged, l') →
      ∀ cwd, ((logged :: files.toList).map (Location.ofPath cwd)).Nodup := by
  have hr := succeeded_of_emit he hs
  refine ⟨fun h₂ hmany path hpath hother => ?_, ?_, ?_⟩
  · exact (hmany.rel (F := .file h₁.cwd (.ofPath h₁.cwd path))
      (fun x hx => keeps_write_output hr ha hx hpath hother) rfl).2
  · rintro rfl hc h₂ name files h₃ h₄ hbefore hproject hafter
    exact overwritten_of_writeProject hc he hs hbefore hproject hafter
  · intro name files logged k k' l l' hproject hlog cwd
    rw [writeProject_files hr hproject, writeLog_path hr hlog]
    exact companions_nodup cwd dir a name

/-- A log and a project leave the files of `A`. -/
theorem emit_companions_plain :
    let references := [⟨"R.dll", .empty⟩]
    let c := Compiler.simulated .pass
    let m := Model.ofPolicy (.named "a" "n" "k")
    '/' ∉ "A".toList ∧
      ∃ result h₁, emit (.fixed references) c m "A" "out" (hostWith ⟨[]⟩) = (.ok result, h₁) ∧
      result.succeeded = true ∧ ∀ path ∈ outputPaths "out" "A",
        (writeProject result "App" (writeLog result h₁).2).2.disk.fileAt (.ofPath h₁.cwd path) =
          h₁.disk.fileAt (.ofPath h₁.cwd path) := by
  intro references c m
  obtain ⟨text, hrendered⟩ := exists_rendered
  obtain ⟨result, h₁, he, -⟩ := emit_total references "out" (h := hostWith ⟨[]⟩) (by decide)
    (List.cons_ne_nil _ _) hrendered rfl rfl (by decide) .pass
  have hs : result.succeeded = true := succeeded_simulated he
  refine ⟨by decide, result, h₁, he, hs, fun path hpath => ?_⟩
  have hlog : Adds result h₁ (writeLog result h₁).2 := .log (Prod.eta _).symm
  have hproject : Adds result (writeLog result h₁).2
      (writeProject result "App" (writeLog result h₁).2).2 :=
    .project "App" (by decide) (Prod.eta _).symm
  exact (emit_companions (by decide) he hs).1 _ (.tail (.single hlog) hproject) path hpath
    (.inl (by decide))

/-- A project puts its entry point over the source file of `Program`. -/
theorem emit_companions_program :
    let references := [⟨"R.dll", .empty⟩]
    let c := Compiler.simulated .pass
    let m := Model.ofPolicy (.named "a" "n" "k")
    c.WritesOnlyTargets ∧ ∃ result h₁ files h₂,
      emit (.fixed references) c m "Program" "out" (hostWith ⟨[(["out"], .directory)]⟩) =
        (.ok result, h₁) ∧
      result.succeeded = true ∧ writeProject result "App" h₁ = (.ok files, h₂) ∧
      sourcePath "out" "Program" ∈ outputPaths "out" "Program" ∧
      h₂.disk.fileAt (.ofPath h₁.cwd (sourcePath "out" "Program")) ≠
        h₁.disk.fileAt (.ofPath h₁.cwd (sourcePath "out" "Program")) := by
  intro references c m
  have hc := Compiler.simulated_writesOnlyTargets .pass
  obtain ⟨result, h₁, files, h₂, -, -, he, hs, hproject, -⟩ := exists_companions "Program" (by decide)
    (by decide +kernel) (by decide +kernel) (by decide +kernel) (by decide +kernel)
  exact ⟨hc, result, h₁, files, h₂, he, hs, hproject, List.mem_cons_self,
    (overwritten_of_writeProject hc he hs .refl hproject .refl).2⟩

end PolicyForge.Build
