import PolicyForge.Proofs.Build.Emission
import PolicyForge.Proofs.Build.Failure
import PolicyForge.Proofs.Host.Entry
/-!
# Two builds in one directory

The files of a build are called like its assembly, up to what their names end with.  Two assemblies
of different names share none of them, but for one case: the temporary file of an assembly is the
source file of the assembly that has `_temp` after its name (`eq_of_append_eq_append`).  In that case
a build removes the source file of another; in every other case it leaves all files of the other
(`emit_beside`).
-/
namespace PolicyForge.Build

open Act

/-! ## What the files are called -/

/-- What the names of the files end with that a build leaves. -/
def outputSuffixes : List String := [".cs", ".dll", ".pdb", ".xml"]

def buildSuffixes : List String := "_temp.cs" :: outputSuffixes

variable {dir a b s t path path' : String}

theorem mem_outputPaths_iff :
    path ∈ outputPaths dir a ↔ ∃ s ∈ outputSuffixes, path = Path.join dir (a ++ s) := by
  simp [outputPaths, outputSuffixes, EmitTargets.inDirectory, EmitTargets.toList, sourcePath]

theorem mem_buildPaths_iff :
    path ∈ buildPaths dir a ↔ ∃ s ∈ buildSuffixes, path = Path.join dir (a ++ s) := by
  rw [buildPaths, buildSuffixes, List.mem_cons, mem_outputPaths_iff]
  simp [temporaryPath]

theorem isSuffix_of_mem : ∀ s ∈ buildSuffixes, IsSuffix s := by
  have hall : ∀ s ∈ buildSuffixes, '/' ∉ s.toList ∧ '\x00' ∉ s.toList ∧ 2 < s.length := by decide
  exact fun s hs => ⟨(hall s hs).1, (hall s hs).2.1, (hall s hs).2.2⟩

/-- What ends the name of one build is not more of the name of another, but for `_temp`. -/
theorem eq_of_append_eq_append (hs : s ∈ outputSuffixes) (ht : t ∈ buildSuffixes) (h : a ++ s = b ++ t) :
    a = b ∨ a = b ++ "_temp" ∧ s = ".cs" ∧ t = "_temp.cs" := by
  have hcases : ∀ s ∈ outputSuffixes, ∀ t ∈ buildSuffixes, s = t ∨ (s = ".cs" ∧ t = "_temp.cs") ∨
      ¬s.toList <:+ t.toList ∧ ¬t.toList <:+ s.toList := by decide
  rcases hcases s hs t ht with rfl | ⟨rfl, rfl⟩ | ⟨hst, hts⟩
  · exact .inl (String.append_left_inj s |>.1 h)
  · refine .inr ⟨String.append_left_inj ".cs" |>.1 ?_, rfl, rfl⟩
    rw [h, String.append_assoc]
    rfl
  · have hs' : s.toList <:+ (a ++ s).toList := ⟨a.toList, String.toList_append.symm⟩
    have ht' : t.toList <:+ (a ++ s).toList := ⟨b.toList, by rw [h, String.toList_append]⟩
    rcases List.suffix_or_suffix_of_suffix hs' ht' with hsuffix | hsuffix
    · exact absurd hsuffix hst
    · exact absurd hsuffix hts

theorem separator_not_mem_append (ha : '/' ∉ a.toList) (hs : s ∈ buildSuffixes) :
    '/' ∉ (a ++ s).toList := by
  rw [String.toList_append, List.mem_append, not_or]
  exact ⟨ha, (isSuffix_of_mem s hs).separator⟩

/-- Where an output of one build is no other build puts a file, but for `_temp`. -/
theorem eq_of_location_eq {cwd : Location} (hne : a ≠ b) (ha : '/' ∉ a.toList) (hb : '/' ∉ b.toList)
    (hpath : path ∈ outputPaths dir a) (h : IsBuildFile cwd dir b (.ofPath cwd path)) :
    a = b ++ "_temp" ∧ path = sourcePath dir a := by
  obtain ⟨s, hs, rfl⟩ := mem_outputPaths_iff.1 hpath
  obtain ⟨path', hpath', h⟩ := h
  obtain ⟨t, ht, rfl⟩ := mem_buildPaths_iff.1 hpath'
  have hs' : s ∈ buildSuffixes := List.mem_cons_of_mem _ hs
  rw [Location.ofPath_join ((isSuffix_of_mem s hs').isName a) (separator_not_mem_append ha hs'),
    Location.ofPath_join ((isSuffix_of_mem t ht).isName b) (separator_not_mem_append hb ht)] at h
  rcases eq_of_append_eq_append hs ht (List.singleton_inj.1 (List.append_cancel_left h))
    with rfl | ⟨htemp, rfl, -⟩
  · exact absurd rfl hne
  · exact ⟨htemp, rfl⟩

/-! ## What a build does to other files -/

section

variable {source : ReferenceSource} {c : Compiler} {m : Model} {assembly : String} {h h' : Host}
  {result : BuildResult}

theorem keeps_emit {F : Frame} (cwd : Location)
    (hF : ∀ h h', (Frame.changes cwd (IsBuildFile cwd dir assembly) (Disk.Passes cwd dir)).rel h
      h' → F.rel h h') (hsource : Keeps F source) (hc : c.WritesOnlyTargets) :
    Keeps F (emit source c m assembly dir) := by
  have htargets : ∀ t ∈ (EmitTargets.inDirectory dir assembly).toList,
      IsBuildFile cwd dir assembly (.ofPath cwd t) :=
    fun t ht => ⟨t, by simp [buildPaths, outputPaths, ht], rfl⟩
  rw [emit_eq]
  refine Keeps.bind_of_ok (keeps_prepare cwd (fun h h' hrel => hF h h' ?_) hsource)
    fun r h mid hprepare => ?_
  · refine Frame.changes_mono ?_ (fun _ hm => hm) h h' hrel
    rintro l (rfl | rfl)
    · exact ⟨_, List.mem_cons_self, rfl⟩
    · exact ⟨_, by simp [buildPaths, outputPaths], rfl⟩
  · obtain ⟨references, text, -, -, rfl, -⟩ := prepare_ok hprepare
    refine (keeps_of_rel hF ?_).bind fun o => keeps_of_rel hF ?_
    · refine (hc _ cwd).mono ?_ fun _ hm => hm.elim
      rintro l ⟨t, ht, rfl⟩
      exact htargets t ht
    · refine (keeps_conclude cwd _).mono ?_ fun _ hm => hm
      rintro l ⟨t, ht, rfl⟩
      exact htargets t ht

theorem CanWrite.of_emit {references : List Reference} (hc : c.WritesOnlyTargets)
    (he : emit (.fixed references) c m assembly "out" h = (.ok result, h')) (hcwd : h.cwd = [])
    (hw : CanWrite h.disk [] path) (hroot : Location.ofPath [] path ≠ [])
    (hout : Location.ofPath [] path ≠ ["out"])
    (hother : ¬∃ p ∈ buildPaths "out" assembly, Location.ofPath [] path = .ofPath [] p) :
    CanWrite h'.disk [] path := by
  have hchanges := ((keeps_emit [] (fun _ _ hrel => hrel) (keeps_fixed references) hc).of_eq he hcwd).2
  refine hw.of_changes hchanges hother fun hpasses => ?_
  rcases eq_of_passes_out hpasses with hl | hl
  · exact hroot hl
  · exact hout hl

/-- What a build has done when it is compiled stays, but for its targets. -/
theorem after_prepare (hc : c.WritesOnlyTargets)
    (he : emit source c m assembly dir h = (.ok result, h')) :
    ∃ r before, prepare source m assembly dir h = (.ok r, before) ∧ h'.cwd = before.cwd ∧
      before.disk.Changes (fun l => ∃ t ∈ (EmitTargets.inDirectory dir assembly).toList,
        l = .ofPath before.cwd t)
        (fun _ => False) h'.disk := by
  rw [emit_eq] at he
  obtain ⟨r, before, hprepare, he⟩ := bind_ok he
  obtain ⟨o, after, hcompile, hconclude⟩ := bind_ok he
  obtain ⟨references, text, -, -, rfl, -⟩ := prepare_ok hprepare
  obtain ⟨hcwd, hchanges⟩ := (hc _ before.cwd).of_eq hcompile rfl
  obtain ⟨hcwd', -⟩ := (keeps_conclude before.cwd fun _ => False).of_eq hconclude hcwd
  obtain ⟨-, -, hdisk⟩ := conclude_ok hconclude
  rw [← hdisk] at hchanges
  exact ⟨_, before, hprepare, hcwd', hchanges⟩

/-- A build that comes to a result has put the normal layout of its rendering into its source file. -/
theorem source_of_emit (hc : c.WritesOnlyTargets)
    (he : emit source c m assembly dir h = (.ok result, h')) :
    ∃ text, Rendered m assembly text ∧
      HoldsText h' (sourcePath dir assembly) (Layout.normalize text) := by
  obtain ⟨r, before, hprepare, hcwd, hchanges⟩ := after_prepare hc he
  obtain ⟨references, text, -, hrendered, rfl, hsource, -⟩ := prepare_ok hprepare
  refine ⟨text, hrendered, HoldsText.of_changes hsource hcwd hchanges ?_⟩
  rintro ⟨t, ht, hl⟩
  exact sourceLocation_ne ht hl

theorem normalizeInto_removes {temporary target text : String}
    (hn : normalizeInto temporary target h = (.ok text, h')) :
    h'.cwd = h.cwd ∧ h'.disk.fileAt (.ofPath h.cwd temporary) = none := by
  have hcwd := ((keeps_normalizeInto h.cwd (fun _ => False) temporary target).of_eq hn rfl).1
  refine ⟨hcwd, ?_⟩
  obtain ⟨_, h₁, -, hn⟩ := bind_ok hn
  obtain ⟨_, h₂, -, hn⟩ := bind_ok hn
  obtain ⟨_, h₃, -, hn⟩ := bind_ok hn
  obtain ⟨_, h₄, -, hn⟩ := bind_ok hn
  obtain ⟨_, h₅, h5, hn⟩ := bind_ok hn
  cases hn
  obtain ⟨d, hd, rfl⟩ := changing_ok (f := fun d cwd => d.removeFile cwd temporary) h5
  rw [← hcwd, Disk.fileAt, (Disk.removeFile_ok hd).2]

theorem temporary_of_emit (hc : c.WritesOnlyTargets)
    (he : emit source c m assembly dir h = (.ok result, h')) :
    h'.disk.fileAt (.ofPath h'.cwd (temporaryPath dir assembly)) = none := by
  obtain ⟨r, before, hprepare, hcwd, hchanges⟩ := after_prepare hc he
  obtain ⟨_, h₁, -, hprepare⟩ := bind_ok hprepare
  obtain ⟨_, h₂, -, hprepare⟩ := bind_ok hprepare
  obtain ⟨text, h₃, hnormalize, hprepare⟩ := bind_ok hprepare
  obtain ⟨_, h₄, hcheck, hprepare⟩ := bind_ok hprepare
  obtain rfl := checkpoint_ok hcheck
  cases hprepare
  obtain ⟨hcwd₃, hnone⟩ := normalizeInto_removes hnormalize
  rw [hcwd, hchanges.fileAt ?_]
  · rw [← hcwd₃] at hnone
    exact hnone
  · rintro ⟨t, ht, hl⟩
    exact temporaryLocation_ne (List.mem_cons_of_mem _ ht) hl.symm

end

/-- **A build leaves the files of a build of another name, but for `_temp`.**  All four stay as they
were, whatever the second build comes to, unless the first is called like the second with `_temp`
after it.  Then three of them stay, and the source file is gone once the second comes to a result. -/
theorem emit_beside {source source' : ReferenceSource} {c c' : Compiler} {m m' : Model} {h h₁ h₂ : Host}
    {result : BuildResult} {result' : Except BuildError BuildResult} (hne : a ≠ b) (ha : '/' ∉ a.toList)
    (hb : '/' ∉ b.toList) (hc : c.WritesOnlyTargets) (hc' : c'.WritesOnlyTargets)
    (hspares : SparesOutputs source' h₁.cwd dir a) (hfirst : emit source c m a dir h = (.ok result, h₁))
    (hsecond : emit source' c' m' b dir h₁ = (result', h₂)) :
    (∀ path ∈ outputPaths dir a, a ≠ b ++ "_temp" ∨ path ≠ sourcePath dir a →
      h₂.disk.fileAt (.ofPath h₁.cwd path) = h₁.disk.fileAt (.ofPath h₁.cwd path)) ∧
    (a = b ++ "_temp" → result'.isOk = true →
      h₁.disk.fileAt (.ofPath h₁.cwd (sourcePath dir a)) ≠ none ∧
        h₂.disk.fileAt (.ofPath h₁.cwd (sourcePath dir a)) = none) := by
  have hkeeps : ∀ path ∈ outputPaths dir a, a ≠ b ++ "_temp" ∨ path ≠ sourcePath dir a →
      Keeps (.file h₁.cwd (.ofPath h₁.cwd path)) (emit source' c' m' b dir) := by
    intro path hpath hother
    refine keeps_emit h₁.cwd (Frame.file_of_changes fun hfile => ?_) (hspares path hpath) hc'
    obtain ⟨htemp, hsource⟩ := eq_of_location_eq hne ha hb hpath hfile
    rcases hother with hother | hother
    · exact hother htemp
    · exact hother hsource
  refine ⟨fun path hpath hother => ((hkeeps path hpath hother).of_eq hsecond rfl).2, fun htemp hok => ?_⟩
  have hcwd : h₂.cwd = h₁.cwd := by
    have hbinary : (EmitTargets.inDirectory dir a).binary ∈ outputPaths dir a :=
      List.mem_cons_of_mem _ List.mem_cons_self
    have hother : (EmitTargets.inDirectory dir a).binary ≠ sourcePath dir a := fun heq =>
      sourceLocation_ne List.mem_cons_self (congrArg (Location.ofPath h₁.cwd) heq.symm)
    exact ((hkeeps _ hbinary (.inr hother)).of_eq hsecond rfl).1
  have hpath : sourcePath dir a = temporaryPath dir b := by
    rw [htemp, sourcePath, temporaryPath, String.append_assoc]
    rfl
  obtain ⟨text, -, -, executable, hnode⟩ := source_of_emit hc hfirst
  refine ⟨by rw [Disk.fileAt, hnode]; simp, ?_⟩
  cases result' with
  | error e => cases hok
  | ok value => rw [hpath, ← hcwd, temporary_of_emit hc' hsecond]

/-- The files of one assembly stay when another is built whose name has `_temp` after it. -/
theorem emit_beside_longer_name :
    let references := [⟨"R.dll", .empty⟩]
    let c := Compiler.simulated .pass
    let m := Model.ofPolicy (.named "a" "n" "k")
    ∃ result h₁, emit (.fixed references) c m "A" "out" (hostWith ⟨[]⟩) = (.ok result, h₁) ∧
      ∀ path ∈ outputPaths "out" "A",
        (emit (.fixed references) c m "A_temp" "out" h₁).2.disk.fileAt (.ofPath h₁.cwd path) =
        h₁.disk.fileAt (.ofPath h₁.cwd path) := by
  intro references c m
  obtain ⟨text, hrendered⟩ := exists_rendered
  obtain ⟨result, h₁, hfirst, -⟩ := emit_total references "out" (h := hostWith ⟨[]⟩) (by decide)
    (List.cons_ne_nil _ _) hrendered rfl rfl (by decide) .pass
  have hc := Compiler.simulated_writesOnlyTargets .pass
  have hspares := sparesOutputs_fixed references h₁.cwd "out" "A"
  have hsecond := (Prod.eta (emit (.fixed references) c m "A_temp" "out" h₁)).symm
  obtain ⟨hkept, -⟩ := emit_beside (by decide) (by decide) (by decide) hc hc hspares hfirst hsecond
  exact ⟨result, h₁, hfirst, fun path hpath => hkept path hpath (.inl (by decide))⟩

/-! ## One build in the way of another -/

/-- Where one file of a build can be written, and no directory is in the way of the others, all can be. -/
theorem canWrite_of_temporary {d : Disk} {cwd : Location}
    (hw : CanWrite d cwd (temporaryPath dir a)) (ha : '/' ∉ a.toList)
    (hfree : ∀ path ∈ outputPaths dir a, d.node? (.ofPath cwd path) ≠ some .directory) :
    ∀ path ∈ buildPaths dir a, CanWrite d cwd path := by
  have hsize : ∀ s ∈ buildSuffixes, s.utf8ByteSize ≤ "_temp.cs".utf8ByteSize := by decide
  intro path hpath
  rcases List.mem_cons.1 hpath with rfl | houtput
  · exact hw
  obtain ⟨s, hs, rfl⟩ := mem_buildPaths_iff.1 hpath
  have hlocate := Disk.locate_join isSuffix_temporary (isSuffix_of_mem s hs) (hsize s hs)
    (fun _ hl => hl) hw.reach
  refine ⟨hlocate, ?_, hfree _ houtput⟩
  have hparent := hw.parent
  rw [temporaryPath, Location.ofPath_join (isSuffix_temporary.isName a)
    (separator_not_mem_append ha List.mem_cons_self), List.dropLast_concat] at hparent
  rwa [Location.ofPath_join ((isSuffix_of_mem s hs).isName a) (separator_not_mem_append ha hs),
    List.dropLast_concat]

theorem ne_append {t : String} (ht : 0 < t.length) (x : String) : x ≠ x ++ t := by
  intro heq
  have hlength := congrArg String.length heq
  rw [String.length_append] at hlength
  omega

theorem canWrite_of_ready {d₀ d : Disk} {made : Location → Prop} {cwd : Location} {h' : Host}
    (ha : '/' ∉ a.toList) (hr : Ready d cwd dir (a ++ "_temp") h')
    (hchanges : d₀.Changes (IsBuildFile cwd dir (a ++ "_temp")) made h'.disk)
    (hfree : ∀ path ∈ outputPaths dir a, d₀.node? (.ofPath cwd path) ≠ some .directory ∧
      ¬made (.ofPath cwd path)) :
    ∀ path ∈ buildPaths dir a, CanWrite h'.disk cwd path := by
  have hpath : sourcePath dir (a ++ "_temp") = temporaryPath dir a := by
    rw [sourcePath, temporaryPath, String.append_assoc]
    rfl
  have hw := hr.files (sourcePath dir (a ++ "_temp")) (by simp [buildPaths, outputPaths])
  rw [hpath] at hw
  refine canWrite_of_temporary hw ha fun path hpath => ?_
  have hother : ¬IsBuildFile cwd dir (a ++ "_temp") (.ofPath cwd path) := by
    intro hfile
    have hb : '/' ∉ (a ++ "_temp").toList := by
      rw [String.toList_append, List.mem_append, not_or]
      exact ⟨ha, by decide⟩
    obtain ⟨htemp, -⟩ := eq_of_location_eq (ne_append (by decide) a) ha hb hpath hfile
    rw [String.append_assoc] at htemp
    exact ne_append (by decide) a htemp
  rcases hchanges.other _ hother with hsame | ⟨hmade, -⟩
  · rw [hsame]
    exact (hfree path hpath).1
  · exact absurd hmade (hfree path hpath).2

/-- A build of `A` removes the source file of `A_temp`. -/
theorem emit_beside_temp :
    let references := [⟨"R.dll", .empty⟩]
    let c := Compiler.simulated .pass
    let m := Model.ofPolicy (.named "a" "n" "k")
    c.WritesOnlyTargets ∧ ∃ result h₁ result' h₂,
      emit (.fixed references) c m "A_temp" "out" (hostWith ⟨[]⟩) = (.ok result, h₁) ∧
      emit (.fixed references) c m "A" "out" h₁ = (.ok result', h₂) ∧
      sourcePath "out" "A_temp" ∈ outputPaths "out" "A_temp" ∧
      h₁.disk.fileAt (.ofPath h₁.cwd (sourcePath "out" "A_temp")) ≠ none ∧
      h₂.disk.fileAt (.ofPath h₁.cwd (sourcePath "out" "A_temp")) = none := by
  intro references c m
  have hc := Compiler.simulated_writesOnlyTargets .pass
  obtain ⟨text, hrendered⟩ := exists_rendered
  obtain ⟨pen, hpen⟩ :=
    Source.exists_pen_of_isOk (by decide : (Source.render m "A_temp" .quiet).1.isOk = true)
  have hlonger : Rendered m "A_temp" pen.written := ⟨pen, hpen, rfl⟩
  obtain ⟨result, h₁, hfirst, hr⟩ :=
    emit_ready references "out" (h := hostWith ⟨[]⟩) (d := ⟨[(["out"], .directory)]⟩)
    (by decide) (List.cons_ne_nil _ _) hlonger rfl rfl (by decide) .pass
  obtain ⟨hcwd, hchanges⟩ :=
    (keeps_emit (m := m) [] (fun _ _ hrel => hrel) (keeps_fixed references) hc).of_eq hfirst rfl
  -- no file of `A` is on the way to the directory
  have hfree : ∀ path ∈ outputPaths "out" "A",
      (⟨[]⟩ : Disk).node? (.ofPath [] path) ≠ some .directory ∧
      ¬Disk.Passes [] "out" (.ofPath [] path) := by
    have haway : ∀ path ∈ outputPaths "out" "A",
        (⟨[]⟩ : Disk).node? (.ofPath [] path) ≠ some .directory ∧
        Location.ofPath [] path ≠ [] ∧ Location.ofPath [] path ≠ ["out"] := by decide
    intro path hpath
    obtain ⟨hnode, hroot, hout⟩ := haway path hpath
    refine ⟨hnode, ?_⟩
    rintro ⟨front, rest, hpieces, hl⟩
    rw [(by decide : Path.pieces "out" = ["out"])] at hpieces
    rcases List.append_eq_singleton_iff.1 hpieces.symm with ⟨rfl, -⟩ | ⟨rfl, -⟩
    · exact hroot hl
    · exact hout hl
  have hfiles := canWrite_of_ready (a := "A") (by decide) hr hchanges hfree
  have hreach := (hr.files (sourcePath "out" "A_temp") (by decide)).reach
  have hdir : h₁.disk.makeDirectories h₁.cwd "out" = (h₁.disk, .ok ()) := by
    rw [hcwd]
    exact Disk.makeDirectories_of_locate (by decide : IsEntry "A_temp.cs") hreach
  obtain ⟨result', h₂, hsecond, hr'⟩ :=
    emit_ready references "out" (h := h₁) (by decide) (List.cons_ne_nil _ _) hrendered
    hr.quiet hdir (hcwd ▸ hfiles) .pass
  obtain ⟨text', -, -, executable, hnode⟩ := source_of_emit hc hfirst
  have hgone := temporary_of_emit hc hsecond
  rw [hr'.place] at hgone
  exact ⟨hc, result, h₁, result', h₂, hfirst, hsecond, List.mem_cons_self,
    by rw [Disk.fileAt, hnode]; simp, hgone⟩

end PolicyForge.Build
