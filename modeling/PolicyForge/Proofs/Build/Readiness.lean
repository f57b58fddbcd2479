import PolicyForge.Proofs.Build.Compiler
/-!
# When a build comes to a result

A build of a model that can be rendered comes to a result if nobody disturbs it and its files can be
written (`emit_total`).  That they can be written is kept by every step.
-/
namespace PolicyForge

namespace Source

/-! ## Undisturbed renderings -/

theorem quiet_of_writePolicies {root : String} : ∀ {ps : List Policy} {pen pen' : Pen},
    writePolicies root ps pen = (.ok (), pen') → pen.interrupt = .quiet → pen'.interrupt = .quiet
  | [], pen, pen', h, hq => by
    cases h
    exact hq
  | p :: rest, pen, pen', h, hq => by
    obtain ⟨_, mid, hp, hrest⟩ := Writing.bind_ok h
    refine quiet_of_writePolicies hrest ?_
    obtain ⟨_, mid', hcheck, hp⟩ := Writing.bind_ok hp
    obtain rfl : mid' = { pen with interrupt := pen.interrupt.afterLook } := (Prod.mk.inj hcheck).2.symm
    cases hrefusal : refusal? p with
    | some reason =>
      simp only [hrefusal] at hp
      cases hp
    | none =>
      cases htext : block root p with
      | error e =>
        simp only [hrefusal, htext] at hp
        cases hp
      | ok text =>
        simp only [hrefusal, htext] at hp
        cases hp
        rw [hq]
        rfl

theorem quiet_of_render {model : Model} {assembly : String} {pen : Pen}
    (h : render model assembly .quiet = (.ok (), pen)) : pen.interrupt = .quiet := by
  obtain ⟨policies, mid, -, hps, rfl⟩ := render_stages h
  show mid.interrupt.afterLook = .quiet
  rw [quiet_of_writePolicies hps rfl]
  rfl

end Source

namespace Build

open Act

/-! ## Files that can be written -/

/-- The paths of what a build leaves: the source file and the targets. -/
def outputPaths (dir assembly : String) : List String :=
  sourcePath dir assembly :: (EmitTargets.inDirectory dir assembly).toList

def buildPaths (dir assembly : String) : List String :=
  temporaryPath dir assembly :: outputPaths dir assembly

/-- A file can be written at a path: the path leads into a directory, and to no directory. -/
structure CanWrite (d : Disk) (cwd : Location) (path : String) : Prop where
  reach : d.locate cwd path = .ok ⟨Location.ofPath cwd path, false⟩
  parent : d.node? (Location.ofPath cwd path).dropLast = some .directory
  free : d.node? (Location.ofPath cwd path) ≠ some .directory

instance (d : Disk) (cwd : Location) (path : String) : Decidable (CanWrite d cwd path) :=
  decidable_of_iff (d.locate cwd path = .ok ⟨Location.ofPath cwd path, false⟩ ∧
      d.node? (Location.ofPath cwd path).dropLast = some .directory ∧
      d.node? (Location.ofPath cwd path) ≠ some .directory)
    ⟨fun ⟨hreach, hparent, hfree⟩ => ⟨hreach, hparent, hfree⟩,
      fun hw => ⟨hw.reach, hw.parent, hw.free⟩⟩

theorem CanWrite.writeBytes {d : Disk} {cwd : Location} {path : String} (hw : CanWrite d cwd path)
    (content : ByteArray) : ∃ d', d.writeBytes cwd path content = .ok d' := by
  obtain ⟨hreach, hparent, hfree⟩ := hw
  refine ⟨d.store (Location.ofPath cwd path) content, ?_⟩
  unfold Disk.writeBytes Disk.writable
  simp only [hreach, bind, Except.bind, pure, Except.pure]
  cases hnode : d.node? (Location.ofPath cwd path) with
  | none => simp [hparent]
  | some n =>
    cases n with
    | directory => exact absurd hnode hfree
    | file c x => simp

theorem CanWrite.of_directories {d d' : Disk} {cwd : Location} {path : String} (hw : CanWrite d cwd path)
    (hd : ∀ l, d.node? l = some .directory → d'.node? l = some .directory)
    (hfree : d'.node? (Location.ofPath cwd path) ≠ some .directory) : CanWrite d' cwd path :=
  ⟨Disk.locate_mono hd hw.reach, hd _ hw.parent, hfree⟩

theorem CanWrite.of_changes {d d' : Disk} {cwd : Location} {path : String}
    {written made : Location → Prop} (hw : CanWrite d cwd path)
    (hchanges : d.Changes written made d') (hl : ¬written (Location.ofPath cwd path))
    (hm : ¬made (Location.ofPath cwd path)) : CanWrite d' cwd path := by
  refine hw.of_directories hchanges.directory ?_
  rcases hchanges.other _ hl with hsame | ⟨hmade, -⟩
  · rw [hsame]
    exact hw.free
  · exact absurd hmade hm

theorem CanWrite.writeText {h : Host} {path : String} (hw : CanWrite h.disk h.cwd path) (text : String) :
    ∃ h', Act.writeText BuildError.io path text h = (.ok (), h') ∧
      ∀ path', CanWrite h.disk h.cwd path' → CanWrite h'.disk h'.cwd path' := by
  obtain ⟨d, hd⟩ := hw.writeBytes text.toUTF8
  obtain ⟨-, hchanges, x, hnode⟩ := Disk.writeBytes_ok hd
  refine ⟨_, changing_of_ok (f := fun d cwd => d.writeBytes cwd path text.toUTF8) hd, fun path' hw' => ?_⟩
  by_cases hl : Location.ofPath h.cwd path' = Location.ofPath h.cwd path
  · refine hw'.of_directories hchanges.directory ?_
    rw [hl, hnode]
    simp
  · exact hw'.of_changes hchanges hl fun hmade => hmade

/-- Nobody disturbs the build, all its files can be written, and the directories of a disk are still
there. -/
structure Ready (d : Disk) (cwd : Location) (dir assembly : String) (h : Host) : Prop where
  place : h.cwd = cwd
  quiet : h.interrupt = .quiet
  files : ∀ path ∈ buildPaths dir assembly, CanWrite h.disk cwd path
  directories : ∀ l, d.node? l = some .directory → h.disk.node? l = some .directory

namespace Ready

variable {d : Disk} {cwd : Location} {dir assembly path text : String} {h : Host}

theorem of_disk (hr : Ready d cwd dir assembly h) {h' : Host} (hcwd : h'.cwd = h.cwd)
    (hquiet : h'.interrupt = h.interrupt) (hdisk : h'.disk = h.disk) : Ready d cwd dir assembly h' :=
  ⟨hcwd.trans hr.place, hquiet.trans hr.quiet, fun p hp => hdisk ▸ hr.files p hp,
    fun l hl => hdisk ▸ hr.directories l hl⟩

theorem isSet (hr : Ready d cwd dir assembly h) : h.interrupt.isSet = false := by
  rw [hr.quiet]
  rfl

theorem checkpoint {ε : Type} (hr : Ready d cwd dir assembly h) (e : ε) :
    ∃ h', Act.checkpoint e h = (.ok (), h') ∧ Ready d cwd dir assembly h' ∧ h'.disk = h.disk := by
  refine ⟨_, checkpoint_of_quiet e hr.isSet, hr.of_disk rfl ?_ rfl, rfl⟩
  rw [hr.quiet]
  rfl

theorem of_operation (hr : Ready d cwd dir assembly h) {d' : Disk}
    (hchanges : h.disk.Changes (· = Location.ofPath cwd path) (fun _ => False) d')
    (hfree : d'.node? (Location.ofPath cwd path) ≠ some .directory) :
    Ready d cwd dir assembly { h with disk := d' } := by
  refine ⟨hr.place, hr.quiet, fun p hp => (hr.files p hp).of_directories hchanges.directory ?_,
    fun l hl => hchanges.directory l (hr.directories l hl)⟩
  by_cases hl : Location.ofPath cwd p = Location.ofPath cwd path
  · rw [hl]
    exact hfree
  · rcases hchanges.other _ hl with hsame | ⟨hmade, -⟩
    · rw [hsame]
      exact (hr.files p hp).free
    · exact hmade.elim

theorem writeText (hr : Ready d cwd dir assembly h) (hpath : path ∈ buildPaths dir assembly)
    (text : String) : ∃ h', Act.writeText BuildError.io path text h = (.ok (), h') ∧
      Ready d cwd dir assembly h' := by
  obtain rfl := hr.place
  obtain ⟨d', hd⟩ := (hr.files path hpath).writeBytes text.toUTF8
  obtain ⟨-, hchanges, x, hnode⟩ := Disk.writeBytes_ok hd
  exact ⟨_, changing_of_ok (f := fun d cwd => d.writeBytes cwd path text.toUTF8) hd,
    hr.of_operation hchanges (by rw [hnode]; simp)⟩

theorem removeFile (hr : Ready d cwd dir assembly h) (hholds : HoldsText h path text) :
    ∃ h', Act.removeFile BuildError.io path h = (.ok (), h') ∧ Ready d cwd dir assembly h' := by
  obtain rfl := hr.place
  obtain ⟨hlocate, x, hnode⟩ := hholds
  have hremove := Disk.removeFile_of_node? hlocate rfl hnode
  obtain ⟨hchanges, hnone⟩ := Disk.removeFile_ok hremove
  exact ⟨_, changing_of_ok (f := fun d cwd => d.removeFile cwd path) hremove,
    hr.of_operation hchanges (by rw [hnone]; simp)⟩

theorem renderText (hr : Ready d cwd dir assembly h) {m : Model}
    (hrendered : Rendered m assembly text) :
    ∃ h', Build.renderText m assembly h = (.ok text, h') ∧ Ready d cwd dir assembly h' := by
  obtain ⟨pen, hpen, rfl⟩ := hrendered
  refine ⟨{ h with interrupt := pen.interrupt }, ?_, hr.of_disk rfl ?_ rfl⟩
  · rw [Build.renderText, hr.quiet, hpen]
  · rw [hr.quiet]
    exact Source.quiet_of_render hpen

theorem renderOrRemove (hr : Ready d cwd dir assembly h) {m : Model}
    (hrendered : Rendered m assembly text) :
    ∃ h', Build.renderOrRemove (temporaryPath dir assembly) m assembly h = (.ok (), h') ∧
      Ready d cwd dir assembly h' ∧ HoldsText h' (temporaryPath dir assembly) text := by
  obtain ⟨h₁, h1, hr₁⟩ := hr.writeText List.mem_cons_self ""
  obtain ⟨h₂, h2, hr₂⟩ := hr₁.renderText hrendered
  obtain ⟨h₃, h3, hr₃⟩ := hr₂.writeText List.mem_cons_self text
  have hinto : renderInto (temporaryPath dir assembly) m assembly h = (.ok (), h₃) :=
    (bind_of_ok h1).trans ((bind_of_ok h2).trans h3)
  refine ⟨h₃, ?_, hr₃, holdsText_of_writeText h3⟩
  exact (bind_of_ok (attempt_of_eq hinto)).trans rfl

theorem makeRequest (hr : Ready d cwd dir assembly h)
    (hholds : HoldsText h (temporaryPath dir assembly) text) (references : List Reference) :
    ∃ h', Build.makeRequest assembly dir references h =
        (.ok (requestFor dir assembly references text), h') ∧ Ready d cwd dir assembly h' := by
  have hne := Location.ofPath_join_ne cwd dir assembly isSuffix_temporary isSuffix_source (by decide)
  have hsource : sourcePath dir assembly ∈ buildPaths dir assembly := by
    simp [buildPaths, outputPaths]
  obtain ⟨h₁, h1, hr₁, hdisk₁⟩ := hr.checkpoint BuildError.cancelled
  have hholds₁ : HoldsText h₁ (temporaryPath dir assembly) text := by
    rw [HoldsText, hdisk₁, hr₁.place, ← hr.place]
    exact hholds
  have h2 : Act.readText BuildError.io (temporaryPath dir assembly) h₁ = (.ok text, h₁) :=
    reading_of_ok (f := fun d cwd => d.readText cwd _) hholds₁.readText
  obtain ⟨h₃, h3, hr₃, hdisk₃⟩ := hr₁.checkpoint BuildError.cancelled
  have hholds₃ : HoldsText h₃ (temporaryPath dir assembly) text := by
    rw [HoldsText, hdisk₃, hr₃.place, ← hr₁.place]
    exact hholds₁
  obtain ⟨h₄, h4, hr₄⟩ := hr₃.writeText hsource (Layout.normalize text)
  -- what is written into the source file leaves the temporary file, which is removed after it
  obtain ⟨hcwd₄, hchanges₄⟩ := (keeps_writeText h₃.cwd (fun _ => False) _ _ _).of_eq h4 rfl
  have hholds₄ := hholds₃.of_changes hcwd₄ hchanges₄ (hr₃.place ▸ hne)
  obtain ⟨h₅, h5, hr₅⟩ := hr₄.removeFile hholds₄
  obtain ⟨h₆, h6, hr₆, -⟩ := hr₅.checkpoint BuildError.cancelled
  have hnormalize : normalizeInto (temporaryPath dir assembly) (sourcePath dir assembly) h =
      (.ok (Layout.normalize text), h₅) :=
    (bind_of_ok h1).trans ((bind_of_ok h2).trans ((bind_of_ok h3).trans
      ((bind_of_ok h4).trans ((bind_of_ok h5).trans rfl))))
  exact ⟨h₆, (bind_of_ok hnormalize).trans ((bind_of_ok h6).trans rfl), hr₆⟩

theorem fixed (hr : Ready d cwd dir assembly h) (references : List Reference) :
    ∃ h', ReferenceSource.fixed references h = (.ok references, h') ∧ Ready d cwd dir assembly h' := by
  obtain ⟨h', hcheck, hr', -⟩ := hr.checkpoint ReferenceError.cancelled
  exact ⟨h', (bind_of_ok hcheck).trans rfl, hr'⟩

theorem simulated (hr : Ready d cwd dir assembly h) (outcome : CompilerOutcome) {r : EmitRequest}
    (htargets : r.targets = .inDirectory dir assembly) :
    ∃ h', (Compiler.simulated outcome).emit r h = (.ok outcome, h') ∧ Ready d cwd dir assembly h' := by
  have htarget : ∀ t ∈ r.targets.toList, t ∈ buildPaths dir assembly := fun t ht => by
    rw [htargets] at ht
    simp [buildPaths, outputPaths, ht]
  have hr₁ : Ready d cwd dir assembly { h with compilations := h.compilations + 1 } :=
    hr.of_disk rfl rfl rfl
  by_cases hs : outcome.success = true
  · obtain ⟨h₂, h2, hr₂⟩ := hr₁.writeText (htarget r.targets.binary (by simp [EmitTargets.toList]))
      (Compiler.placeholderBinary r.assembly)
    obtain ⟨h₃, h3, hr₃⟩ := hr₂.writeText (htarget r.targets.symbols (by simp [EmitTargets.toList]))
      (Compiler.placeholderSymbols r.assembly)
    obtain ⟨h₄, h4, hr₄⟩ := hr₃.writeText
      (htarget r.targets.documentation (by simp [EmitTargets.toList]))
      (Compiler.placeholderDocumentation r.assembly)
    have hwrite : Compiler.writePlaceholders r { h with compilations := h.compilations + 1 } =
        (.ok (), h₄) := (bind_of_ok h2).trans ((bind_of_ok h3).trans h4)
    refine ⟨h₄, (bind_of_ok rfl).trans ?_, hr₄⟩
    rw [if_pos hs]
    exact (bind_of_ok hwrite).trans rfl
  · refine ⟨_, (bind_of_ok rfl).trans ?_, hr₁⟩
    rw [if_neg hs]
    rfl

end Ready

section

variable {m : Model} {assembly text : String} {h : Host} {d : Disk}

/-- A build that nobody disturbs gets as far as its compiler. -/
theorem prepare_total (references : List Reference) (dir : String)
    (hname : Text.allBlank assembly.toList = false) (hreferences : references ≠ [])
    (hrendered : Rendered m assembly text) (hquiet : h.interrupt = .quiet)
    (hdir : h.disk.makeDirectories h.cwd dir = (d, .ok ()))
    (hfiles : ∀ path ∈ buildPaths dir assembly, CanWrite d h.cwd path) :
    ∃ h', prepare (.fixed references) m assembly dir h =
        (.ok (requestFor dir assembly references text), h') ∧ Ready d h.cwd dir assembly h' := by
  have hset : h.interrupt.isSet = false := by
    rw [hquiet]
    rfl
  have hlook : h.interrupt.afterLook = h.interrupt := by
    rw [hquiet]
    rfl
  obtain ⟨pen, hpen, -⟩ := id hrendered
  obtain ⟨policies, hpolicies, -⟩ := Source.render_ok hpen
  have hstart : start m assembly h = (.ok (), h) := by
    have hcheck := checkpoint_of_quiet BuildError.cancelled hset
    rw [hlook] at hcheck
    rw [start_of_not_blank m hname, requireLoaded, hpolicies]
    exact (bind_of_ok rfl).trans hcheck
  have hdirs : Act.makeDirectories BuildError.io dir h = (.ok (), { h with disk := d }) := by
    rw [Act.makeDirectories, hdir]
  have hr : Ready d h.cwd dir assembly { h with disk := d } := ⟨rfl, hquiet, hfiles, fun _ hl => hl⟩
  obtain ⟨h₁, h1, hr₁, -⟩ := hr.checkpoint BuildError.cancelled
  obtain ⟨h₂, h2, hr₂⟩ := hr₁.fixed references
  obtain ⟨h₃, h3, hr₃, -⟩ := hr₂.checkpoint BuildError.cancelled
  obtain ⟨h₄, h4, hr₄, hholds⟩ := hr₃.renderOrRemove hrendered
  obtain ⟨h₅, h5, hr₅⟩ := hr₄.makeRequest hholds references
  have hobtain : obtainReferences (.fixed references) { h with disk := d } = (.ok references, h₂) := by
    refine (bind_of_ok h1).trans ((bind_of_ok (mapError_of_ok _ h2)).trans ?_)
    rw [if_neg (by simpa using hreferences)]
    rfl
  have hgather : gather (.fixed references) m assembly dir h = (.ok references, h₄) :=
    (bind_of_ok hdirs).trans ((bind_of_ok hobtain).trans ((bind_of_ok h3).trans
      ((bind_of_ok h4).trans rfl)))
  exact ⟨h₅, (bind_of_ok hstart).trans ((bind_of_ok hgather).trans h5), hr₅⟩

theorem observes_start (m : Model) (assembly : String) : Observes (start m assembly) := by
  cases hb : Text.allBlank assembly.toList with
  | true =>
    rw [start_of_blank m hb]
    exact observes_throw _
  | false =>
    rw [start_of_not_blank m hb]
    refine Observes.bind ?_ fun _ => observes_checkpoint _
    unfold requireLoaded
    split
    · exact observes_pure ()
    · exact observes_throw _

/-- Undisturbed, a source that gives some references and leaves the host as it is could as well be
fixed. -/
theorem emit_eq_fixed {source : ReferenceSource} {references : List Reference} {dir : String}
    (hquiet : h.interrupt = .quiet) (hdir : h.disk.makeDirectories h.cwd dir = (d, .ok ()))
    (hsource : source { h with disk := d } = (.ok references, { h with disk := d })) (c : Compiler)
    (m : Model) (assembly : String) :
    emit source c m assembly dir h = emit (.fixed references) c m assembly dir h := by
  have hdirs : Act.makeDirectories BuildError.io dir h = (.ok (), { h with disk := d }) := by
    rw [Act.makeDirectories, hdir]
  have hlook : ∀ {ε : Type} (cancelled : ε),
      Act.checkpoint cancelled { h with disk := d } = (.ok (), { h with disk := d }) :=
    fun cancelled => checkpoint_of_undisturbed cancelled hquiet
  have hfixed : ReferenceSource.fixed references { h with disk := d } =
      (.ok references, { h with disk := d }) :=
    (bind_of_ok (hlook _)).trans rfl
  have hobtain : obtainReferences source { h with disk := d } =
      obtainReferences (.fixed references) { h with disk := d } := by
    rw [obtainReferences, obtainReferences, bind_of_ok (hlook _), bind_of_ok (hlook _)]
    refine bind_congr_left ?_ _
    rw [mapError_of_ok _ hsource, mapError_of_ok _ hfixed]
  have hgather : gather source m assembly dir h = gather (.fixed references) m assembly dir h := by
    rw [gather, gather, bind_of_ok hdirs, bind_of_ok hdirs]
    exact bind_congr_left hobtain _
  have hprepare : prepare source m assembly dir h = prepare (.fixed references) m assembly dir h := by
    rw [prepare, prepare]
    rcases hstart : start m assembly h with ⟨e | _, mid⟩ <;>
      obtain rfl := (observes_start m assembly).eq hquiet hstart
    · rw [bind_of_error hstart, bind_of_error hstart]
    · rw [bind_of_ok hstart, bind_of_ok hstart]
      exact bind_congr_left hgather _
  rw [emit_eq, emit_eq]
  exact bind_congr_left hprepare _

theorem emit_ready (references : List Reference) (dir : String)
    (hname : Text.allBlank assembly.toList = false) (hreferences : references ≠ [])
    (hrendered : Rendered m assembly text) (hquiet : h.interrupt = .quiet)
    (hdir : h.disk.makeDirectories h.cwd dir = (d, .ok ()))
    (hfiles : ∀ path ∈ buildPaths dir assembly, CanWrite d h.cwd path) (outcome : CompilerOutcome) :
    ∃ result h', emit (.fixed references) (.simulated outcome) m assembly dir h = (.ok result, h') ∧
      Ready d h.cwd dir assembly h' := by
  obtain ⟨h₁, hprepare, hr₁⟩ :=
    prepare_total references dir hname hreferences hrendered hquiet hdir hfiles
  obtain ⟨h₂, hcompile, hr₂⟩ :=
    hr₁.simulated outcome (r := requestFor dir assembly references text) rfl
  have hconclude :=
    conclude_of_quiet assembly dir (requestFor dir assembly references text) outcome hr₂.isSet
  refine ⟨_, _, (congrFun (emit_eq _ _ m assembly dir) h).trans
    ((bind_of_ok hprepare).trans ((bind_of_ok hcompile).trans hconclude)), hr₂.of_disk rfl ?_ rfl⟩
  rw [hr₂.quiet]
  rfl

/-- **A build that nobody disturbs comes to a result**, if the model can be rendered, there are
references and its files can be written; the directories that it makes are there in the end. -/
theorem emit_total (references : List Reference) (dir : String)
    (hname : Text.allBlank assembly.toList = false) (hreferences : references ≠ [])
    (hrendered : Rendered m assembly text) (hquiet : h.interrupt = .quiet)
    (hdir : h.disk.makeDirectories h.cwd dir = (d, .ok ()))
    (hfiles : ∀ path ∈ buildPaths dir assembly, CanWrite d h.cwd path) (outcome : CompilerOutcome) :
    ∃ result h',
      emit (.fixed references) (.simulated outcome) m assembly dir h = (.ok result, h') ∧
        ∀ l, d.node? l = some .directory → h'.disk.node? l = some .directory := by
  obtain ⟨result, h', he, hr⟩ :=
    emit_ready references dir hname hreferences hrendered hquiet hdir hfiles outcome
  exact ⟨result, h', he, hr.directories⟩

end

/-- A small model can be rendered. -/
theorem exists_rendered : ∃ text, Rendered (.ofPolicy (.named "a" "n" "k")) "A" text := by
  obtain ⟨pen, hpen⟩ := Source.exists_pen_of_isOk (by decide :
    (Source.render (.ofPolicy (.named "a" "n" "k")) "A" .quiet).1.isOk = true)
  exact ⟨pen.written, pen, hpen, rfl⟩

theorem eq_of_passes_out {l : Location} (h : Disk.Passes [] "out" l) : l = [] ∨ l = ["out"] := by
  obtain ⟨front, rest, hpieces, rfl⟩ := h
  rw [(by decide : Path.pieces "out" = ["out"])] at hpieces
  rcases List.append_eq_singleton_iff.1 hpieces.symm with ⟨rfl, -⟩ | ⟨rfl, -⟩
  · exact .inl rfl
  · exact .inr rfl

def hostWith (d : Disk) : Host where
  disk := d
  cwd := []
  interrupt := .quiet
  environment := []
  execute := fun _ _ d _ => (⟨0, .empty, .empty⟩, d)
  network := .none
  fresh := 0
  compilations := 0

end Build

end PolicyForge
