import PolicyForge.Proofs.Build.Neighbours
/-!
# What becomes of the temporary file

A build renders into a temporary file, writes the source file from it, and removes it.  A rendering
that fails removes it, too; but a build that gives up between the rendering and the removal, because
it is interrupted there or because the source file cannot be written, does not (`GivesUp`).  In
every other case nothing is left (`emit_leftover_iff`).
-/
namespace PolicyForge.Build

open Act

/-- Neither the source of references nor the compiler touches the place of the temporary file. -/
structure SparesTemporary (source : ReferenceSource) (c : Compiler) (cwd : Location)
    (dir assembly : String) : Prop where
  source : Keeps (.place cwd (.ofPath cwd (temporaryPath dir assembly))) source
  compiler : ∀ r : EmitRequest, r.targets = .inDirectory dir assembly →
    Keeps (.place cwd (.ofPath cwd (temporaryPath dir assembly))) (c.emit r)

/-- The build has rendered its model, and then gives up: it is interrupted at one of the next two
looks, or its source file cannot be written. -/
def GivesUp (source : ReferenceSource) (m : Model) (assembly dir : String) (h : Host) : Prop :=
  ∃ started references rendered, start m assembly h = (.ok (), started) ∧
    gather source m assembly dir started = (.ok references, rendered) ∧
    (¬rendered.interrupt.QuietAt 1 ∨
      ∃ i, rendered.disk.writable rendered.cwd (sourcePath dir assembly) = .error i)

section

variable {source : ReferenceSource} {c : Compiler} {m : Model} {assembly dir path text : String}
  {h h' mid : Host} {e : BuildError} {references : List Reference}

/-! ## Who leaves the place alone -/

theorem temporary_not_target {cwd : Location} :
    ¬∃ t ∈ (EmitTargets.inDirectory dir assembly).toList,
      Location.ofPath cwd (temporaryPath dir assembly) = Location.ofPath cwd t := by
  rintro ⟨t, ht, hl⟩
  exact temporaryLocation_ne (List.mem_cons_of_mem _ ht) hl.symm

theorem sparesTemporary_of_writesOnlyTargets {cwd : Location} (hc : c.WritesOnlyTargets)
    (hsource : Keeps (.place cwd (.ofPath cwd (temporaryPath dir assembly))) source) :
    SparesTemporary source c cwd dir assembly where
  source := hsource
  compiler r hr := by
    refine keeps_of_rel (Frame.place_of_changes ?_ id) (hc r cwd)
    rw [hr]
    exact temporary_not_target

theorem sparesTemporary_resolve {r : ReferenceResolver} {cwd : Location} (hc : c.WritesOnlyTargets)
    (hidentify : Keeps (.place cwd (.ofPath cwd (temporaryPath dir assembly))) r.runtime.identify)
    (hdir : ¬Disk.Passes cwd r.cache.dir (.ofPath cwd (temporaryPath dir assembly))) :
    SparesTemporary r.resolve c cwd dir assembly :=
  sparesTemporary_of_writesOnlyTargets hc (keeps_resolve cwd (Frame.place_of_changes
    (r.cache.not_owns cwd dir assembly isSuffix_temporary (by decide)) hdir) hidentify)

/-! ## A rendering that fails -/

/-- A file that is not there is not there after it is removed, and one that a path leads to is not
either. -/
theorem fileAt_removeQuietly {ε : Type}
    (hcause : h.disk.fileAt (.ofPath h.cwd path) = none ∨
      h.disk.locate h.cwd path = .ok ⟨.ofPath h.cwd path, false⟩)
    (hr : (removeQuietly path : Act ε Unit) h = (.ok (), h')) :
    h'.cwd = h.cwd ∧ h'.disk.fileAt (.ofPath h.cwd path) = none := by
  rcases hcause with hnone | hlocate
  · unfold removeQuietly at hr
    split at hr
    · rename_i d hd
      cases hr
      exact ⟨rfl, by rw [Disk.fileAt, (Disk.removeFile_ok hd).2]⟩
    · cases hr
      exact ⟨rfl, hnone⟩
  · obtain ⟨h₁, h1, hcwd, hnone⟩ := removeQuietly_spec (ε := ε) hlocate
    rw [h1] at hr
    cases hr
    exact ⟨hcwd, hnone⟩

/-- A rendering that fails has written nothing, or the path leads to what it has written. -/
theorem renderInto_error_reach (hr : renderInto path m assembly h = (.error e, h')) :
    h'.cwd = h.cwd ∧
      (h'.disk = h.disk ∨ h'.disk.locate h.cwd path = .ok ⟨.ofPath h.cwd path, false⟩) := by
  rcases bind_error hr with hr | ⟨_, h₁, hwrite, hr⟩
  · obtain ⟨-, rfl⟩ := writeText_error hr
    exact ⟨rfl, .inl rfl⟩
  obtain ⟨hcwd, hlocate, hchanges, -⟩ := writeText_ok hwrite
  have hafter := (keeps_renderText.bind fun text =>
    keeps_writeText h₁.cwd (fun _ => False) BuildError.io path text).of_eq hr rfl
  exact ⟨hafter.1.trans hcwd,
    .inr (Disk.locate_mono (hchanges.trans (hcwd ▸ hafter.2)).directory hlocate)⟩

theorem renderOrRemove_error_removes (hnone : h.disk.fileAt (.ofPath h.cwd path) = none)
    (hr : renderOrRemove path m assembly h = (.error e, h')) :
    h'.cwd = h.cwd ∧ h'.disk.fileAt (.ofPath h.cwd path) = none := by
  rcases bind_error hr with hr | ⟨result, mid, hattempt, hr⟩
  · cases hr
  cases result with
  | ok u => cases hr
  | error e' =>
    obtain ⟨hcwd, hreach⟩ := renderInto_error_reach (attempt_ok hattempt)
    obtain ⟨h₁, hremove⟩ := removeQuietly_total (ε := BuildError) path mid
    obtain rfl : h₁ = h' := (Prod.mk.inj ((bind_of_ok hremove).symm.trans hr)).2
    have hcause : mid.disk.fileAt (.ofPath mid.cwd path) = none ∨
        mid.disk.locate mid.cwd path = .ok ⟨.ofPath mid.cwd path, false⟩ := by
      rw [hcwd]
      refine hreach.imp_left fun hdisk => ?_
      rw [hdisk]
      exact hnone
    obtain ⟨hcwd', hgone⟩ := fileAt_removeQuietly hcause hremove
    exact ⟨hcwd'.trans hcwd, hcwd ▸ hgone⟩

/-- **A build that fails before or while it renders leaves no temporary file.** -/
theorem gather_error_leaves_none
    (hsource : Keeps (.place h.cwd (.ofPath h.cwd (temporaryPath dir assembly))) source)
    (hnone : h.disk.fileAt (.ofPath h.cwd (temporaryPath dir assembly)) = none)
    (hg : gather source m assembly dir h = (.error e, h')) :
    h'.disk.fileAt (.ofPath h.cwd (temporaryPath dir assembly)) = none := by
  -- up to the rendering, no file is written there
  have hfile : ∀ {h₁ h₂ : Host}, h₁.cwd = h.cwd ∧
      h₁.disk.fileAt (.ofPath h.cwd (temporaryPath dir assembly)) = none →
      (Frame.file h.cwd (.ofPath h.cwd (temporaryPath dir assembly))).rel h₁ h₂ → h₂.cwd = h.cwd ∧
        h₂.disk.fileAt (.ofPath h.cwd (temporaryPath dir assembly)) = none :=
    fun hfree hrel => ⟨(hrel hfree.1).1, (hrel hfree.1).2.trans hfree.2⟩
  have hdirs : Keeps (.file h.cwd (.ofPath h.cwd (temporaryPath dir assembly)))
      (Act.makeDirectories BuildError.io dir) :=
    keeps_of_rel (Frame.file_of_changes fun hl => hl.elim) (keeps_makeDirectories h.cwd _ dir)
  have hreferences : Keeps (.file h.cwd (.ofPath h.cwd (temporaryPath dir assembly)))
      (obtainReferences source) := keeps_obtainReferences (keeps_of_rel Frame.file_of_place hsource)
  rcases bind_error hg with hg | ⟨_, h₁, h1, hg⟩
  · exact (hfile ⟨rfl, hnone⟩ (hdirs.of_eq hg)).2
  have hfree₁ := hfile ⟨rfl, hnone⟩ (hdirs.of_eq h1)
  rcases bind_error hg with hg | ⟨_, h₂, h2, hg⟩
  · exact (hfile hfree₁ (hreferences.of_eq hg)).2
  obtain ⟨hcwd₂, hfree₂⟩ := hfile hfree₁ (hreferences.of_eq h2)
  rcases bind_error hg with hg | ⟨_, h₃, h3, hg⟩
  · obtain ⟨-, rfl⟩ := checkpoint_error hg
    exact hfree₂
  obtain rfl := checkpoint_ok h3
  rcases bind_error hg with hg | ⟨_, h₄, -, hg⟩
  · have hgone := (renderOrRemove_error_removes (by rw [hcwd₂]; exact hfree₂) hg).2
    rwa [hcwd₂] at hgone
  · cases hg

/-! ## From the rendering to the removal -/

section

variable {temporary target : String}

theorem normalizeInto_interrupted (hholds : HoldsText h temporary text)
    (hset : ¬h.interrupt.QuietAt 1) : ∃ h', normalizeInto temporary target h = (.error .cancelled, h') ∧
      h'.disk = h.disk ∧ h'.cwd = h.cwd := by
  by_cases hfirst : h.interrupt.QuietAt 0
  · have h1 := checkpoint_of_quietAt BuildError.cancelled hfirst
    have h2 : Act.readText BuildError.io temporary { h with interrupt := h.interrupt.afterLook } =
        (.ok text, _) := reading_of_ok (f := fun d cwd => d.readText cwd temporary) hholds.readText
    have hsecond : ¬h.interrupt.afterLook.QuietAt 0 := by
      rw [Interrupt.quietAt_afterLook]
      exact hset
    exact ⟨_, (bind_of_ok h1).trans ((bind_of_ok h2).trans
      (bind_of_error (checkpoint_of_not_quietAt _ hsecond))), rfl, rfl⟩
  · exact ⟨h, bind_of_error (checkpoint_of_not_quietAt _ hfirst), rfl, rfl⟩

theorem normalizeInto_quiet (target : String) (hholds : HoldsText h temporary text)
    (hquiet : h.interrupt.QuietAt 1) :
    ∃ mid, mid.disk = h.disk ∧ mid.cwd = h.cwd ∧ normalizeInto temporary target h = (do
      Act.writeText BuildError.io target (Layout.normalize text)
      Act.removeFile .io temporary
      return Layout.normalize text) mid := by
  have h1 := checkpoint_of_quietAt BuildError.cancelled (hquiet.mono (Nat.zero_le 1))
  have h2 : Act.readText BuildError.io temporary { h with interrupt := h.interrupt.afterLook } =
      (.ok text, _) := reading_of_ok (f := fun d cwd => d.readText cwd temporary) hholds.readText
  have hsecond : h.interrupt.afterLook.QuietAt 0 := by
    rw [Interrupt.quietAt_afterLook]
    exact hquiet
  have h3 := checkpoint_of_quietAt (h := { h with interrupt := h.interrupt.afterLook })
    BuildError.cancelled hsecond
  exact ⟨{ h with interrupt := h.interrupt.afterLook.afterLook }, rfl, rfl,
    (bind_of_ok h1).trans ((bind_of_ok h2).trans (bind_of_ok h3))⟩

theorem normalizeInto_unwritable {i : IoError} (hholds : HoldsText h temporary text)
    (hquiet : h.interrupt.QuietAt 1) (hw : h.disk.writable h.cwd target = .error i) :
    ∃ h', normalizeInto temporary target h = (.error (.io i), h') ∧ h'.disk = h.disk ∧
      h'.cwd = h.cwd := by
  obtain ⟨mid, hdisk, hcwd, hrest⟩ := normalizeInto_quiet target hholds hquiet
  have hwrite : Act.writeText BuildError.io target (Layout.normalize text) mid =
      (.error (.io i), mid) := by
    refine changing_of_error (f := fun d cwd => d.writeBytes cwd target _) ?_
    rw [hdisk, hcwd, Disk.writeBytes, hw]
    rfl
  exact ⟨mid, hrest.trans (bind_of_error hwrite), hdisk, hcwd⟩

theorem normalizeInto_of_writable {l : Location} (hholds : HoldsText h temporary text)
    (hne : Location.ofPath h.cwd temporary ≠ Location.ofPath h.cwd target)
    (hquiet : h.interrupt.QuietAt 1) (hw : h.disk.writable h.cwd target = .ok l) :
    ∃ h', normalizeInto temporary target h = (.ok (Layout.normalize text), h') := by
  obtain ⟨mid, hdisk, hcwd, hrest⟩ := normalizeInto_quiet target hholds hquiet
  have hwrite : Act.writeText BuildError.io target (Layout.normalize text) mid =
      (.ok (), { mid with disk := h.disk.store l (Layout.normalize text).toUTF8 }) := by
    refine changing_of_ok (f := fun d cwd => d.writeBytes cwd target _) ?_
    rw [hdisk, hcwd, Disk.writeBytes, hw]
    rfl
  -- the temporary file is still there to be removed
  have hholds' : HoldsText mid temporary text := by
    rw [HoldsText, hdisk, hcwd]
    exact hholds
  obtain ⟨hcwd', -, hchanges, -⟩ := writeText_ok hwrite
  obtain ⟨hlocate, executable, hnode⟩ := hholds'.of_changes hcwd' hchanges (hcwd ▸ hne)
  have hremove : Act.removeFile BuildError.io temporary _ = (.ok (), _) :=
    changing_of_ok (f := fun d cwd => d.removeFile cwd temporary)
      (Disk.removeFile_of_node? hlocate rfl hnode)
  exact ⟨_, hrest.trans ((bind_of_ok hwrite).trans ((bind_of_ok hremove).trans rfl))⟩

end

/-! ## Rendering undisturbed -/

theorem renderOrRemove_total (hw : CanWrite h.disk h.cwd path) (hquiet : h.interrupt = .quiet)
    (hrendered : Rendered m assembly text) :
    ∃ h', renderOrRemove path m assembly h = (.ok (), h') ∧ h'.interrupt = .quiet ∧ h'.cwd = h.cwd ∧
      h.disk.Changes (· = .ofPath h.cwd path) (fun _ => False) h'.disk ∧ HoldsText h' path text := by
  obtain ⟨d₁, hd₁⟩ := hw.writeBytes "".toUTF8
  obtain ⟨-, hchanges₁, x, hnode₁⟩ := Disk.writeBytes_ok hd₁
  have hw₁ := hw.of_directories hchanges₁.directory (by rw [hnode₁]; simp)
  obtain ⟨d₂, hd₂⟩ := hw₁.writeBytes text.toUTF8
  have hchanges₂ := (Disk.writeBytes_ok hd₂).2.1
  have h1 : Act.writeText BuildError.io path "" h = (.ok (), { h with disk := d₁ }) :=
    changing_of_ok (f := fun d cwd => d.writeBytes cwd path "".toUTF8) hd₁
  obtain ⟨pen, hpen, rfl⟩ := hrendered
  have h2 : renderText m assembly { h with disk := d₁ } = (.ok pen.written, { h with disk := d₁ }) := by
    rw [renderText, hquiet, hpen]
    exact congrArg (fun i => (_, { h with disk := d₁, interrupt := i })) (Source.quiet_of_render hpen)
  have h3 : Act.writeText BuildError.io path pen.written { h with disk := d₁ } =
      (.ok (), { h with disk := d₂ }) :=
    changing_of_ok (f := fun d cwd => d.writeBytes cwd path pen.written.toUTF8) hd₂
  have hinto : renderInto path m assembly h = (.ok (), { h with disk := d₂ }) :=
    (bind_of_ok h1).trans ((bind_of_ok h2).trans h3)
  exact ⟨_, (bind_of_ok (attempt_of_eq hinto)).trans rfl, hquiet, rfl, hchanges₁.trans hchanges₂,
    holdsText_of_writeText h3⟩

/-! ## The whole build -/

/-- The request of a build with its source. -/
def requestOf (dir assembly : String) (references : List Reference) (source : String) : EmitRequest :=
  ⟨sourcePath dir assembly, source, assembly, references, .inDirectory dir assembly⟩

/-- What a build has still to do once its source is in its file. -/
def finish (c : Compiler) (assembly dir : String) (r : EmitRequest) : Act BuildError BuildResult := do
  Act.checkpoint .cancelled
  let o ← c.emit r
  conclude assembly dir r o

theorem emit_stages (source : ReferenceSource) (c : Compiler) (m : Model) (assembly dir : String) :
    emit source c m assembly dir = (do
      start m assembly
      let references ← gather source m assembly dir
      let text ← normalizeInto (temporaryPath dir assembly) (sourcePath dir assembly)
      finish c assembly dir (requestOf dir assembly references text)) := by
  rw [emit_eq]
  simp only [prepare, makeRequest, finish, requestOf, bind_assoc, pure_bind]

theorem emit_of_gather {rendered : Host} (c : Compiler) (hstart : start m assembly h = (.ok (), mid))
    (hgather : gather source m assembly dir mid = (.ok references, rendered)) :
    emit source c m assembly dir h = (do
      let text ← normalizeInto (temporaryPath dir assembly) (sourcePath dir assembly)
      finish c assembly dir (requestOf dir assembly references text)) rendered := by
  rw [emit_stages]
  exact (bind_of_ok hstart).trans (bind_of_ok hgather)

/-- Once the temporary file is removed, nobody makes another. -/
theorem keeps_finish {cwd : Location} (hspares : SparesTemporary source c cwd dir assembly) :
    Keeps (.place cwd (.ofPath cwd (temporaryPath dir assembly)))
      (finish c assembly dir (requestOf dir assembly references text)) := by
  refine (keeps_checkpoint _).bind fun _ => (hspares.compiler _ rfl).bind fun o =>
    keeps_of_rel (Frame.place_of_changes ?_ id) (keeps_conclude cwd fun _ => False)
  exact temporary_not_target

theorem cwd_of_gather {rendered : Host} (hsource : Keeps (.stays h.cwd) source)
    (hstart : start m assembly h = (.ok (), mid))
    (hgather : gather source m assembly dir mid = (.ok references, rendered)) : rendered.cwd = h.cwd :=
  (keeps_gather h.cwd Frame.stays_of_changes hsource).of_eq hgather
    ((keeps_start (F := .stays h.cwd)).of_eq hstart rfl)

/-- **A build that gives up leaves its rendering in the temporary file.** -/
theorem emit_of_givesUp (c : Compiler) (hsource : Keeps (.stays h.cwd) source)
    (hg : GivesUp source m assembly dir h) :
    ∃ e h' text, emit source c m assembly dir h = (.error e, h') ∧ e.IsLate ∧
      Rendered m assembly text ∧ h'.cwd = h.cwd ∧ HoldsText h' (temporaryPath dir assembly) text := by
  obtain ⟨started, references, rendered, hstart, hgather, hcause⟩ := hg
  obtain ⟨-, text, hrendered, hholds⟩ := gather_ok hgather
  obtain ⟨e, h', hn, hlate, hdisk, hcwd⟩ : ∃ e h', normalizeInto (temporaryPath dir assembly)
      (sourcePath dir assembly) rendered = (.error e, h') ∧ e.IsLate ∧ h'.disk = rendered.disk ∧
        h'.cwd = rendered.cwd := by
    by_cases hquiet : rendered.interrupt.QuietAt 1
    · obtain ⟨i, hw⟩ := hcause.resolve_left (not_not_intro hquiet)
      obtain ⟨h', hn, hsame⟩ := normalizeInto_unwritable hholds hquiet hw
      exact ⟨_, h', hn, .inl (.inl ⟨i, rfl⟩), hsame⟩
    · obtain ⟨h', hn, hsame⟩ := normalizeInto_interrupted hholds hquiet
      exact ⟨_, h', hn, .inr rfl, hsame⟩
  refine ⟨e, h', text, (emit_of_gather c hstart hgather).trans (bind_of_error hn), hlate, hrendered,
    hcwd.trans (cwd_of_gather hsource hstart hgather), ?_⟩
  rw [HoldsText, hdisk, hcwd]
  exact hholds

theorem fileAt_of_not_givesUp {result : Except BuildError BuildResult}
    (hspares : SparesTemporary source c h.cwd dir assembly)
    (hnone : h.disk.fileAt (.ofPath h.cwd (temporaryPath dir assembly)) = none)
    (he : emit source c m assembly dir h = (result, h')) (hg : ¬GivesUp source m assembly dir h) :
    h'.disk.fileAt (.ofPath h.cwd (temporaryPath dir assembly)) = none := by
  rcases hstart : start m assembly h with ⟨e | _, started⟩
  · rw [emit_stages, bind_of_error hstart] at he
    obtain rfl := start_error hstart
    cases he
    exact hnone
  have hstarted := (keeps_start (F := .file h.cwd (.ofPath h.cwd (temporaryPath dir assembly)))).of_eq
    hstart rfl
  rcases hgather : gather source m assembly dir started with ⟨e | references, rendered⟩
  · rw [emit_stages, bind_of_ok hstart, bind_of_error hgather] at he
    cases he
    have hgone := gather_error_leaves_none (by rw [hstarted.1]; exact hspares.source)
      (by rw [hstarted.1]; exact hstarted.2.trans hnone) hgather
    rwa [hstarted.1] at hgone
  obtain ⟨-, text, -, hholds⟩ := gather_ok hgather
  -- as it does not give up, the next look is quiet and the source file can be written
  have hquiet : rendered.interrupt.QuietAt 1 := by
    by_contra hset
    exact hg ⟨started, references, rendered, hstart, hgather, .inl hset⟩
  obtain ⟨l, hw⟩ : ∃ l, rendered.disk.writable rendered.cwd (sourcePath dir assembly) = .ok l := by
    cases hw : rendered.disk.writable rendered.cwd (sourcePath dir assembly) with
    | ok l => exact ⟨l, rfl⟩
    | error i => exact absurd ⟨started, references, rendered, hstart, hgather, .inr ⟨i, hw⟩⟩ hg
  obtain ⟨removed, hn⟩ := normalizeInto_of_writable hholds
    (temporaryLocation_ne List.mem_cons_self).symm hquiet hw
  rw [emit_of_gather c hstart hgather, bind_of_ok hn] at he
  obtain ⟨hcwd, hgone⟩ := normalizeInto_removes hn
  have hcwd' := cwd_of_gather (keeps_of_rel Frame.stays_of_place hspares.source) hstart hgather
  have hkept := (keeps_of_rel Frame.file_of_place (keeps_finish hspares)).of_eq he (hcwd.trans hcwd')
  rw [hkept.2, ← hcwd']
  exact hgone

/-! ## No directory in its place -/

section

variable {cwd l : Location}

theorem keeps_renderOrRemove_noDirectory :
    Keeps (.noDirectory cwd l) (renderOrRemove path m assembly) := by
  have hwrite := keeps_writeText_noDirectory cwd BuildError.io path l
  refine ((hwrite "").bind fun _ => keeps_renderText.bind hwrite).attempt.bind fun result => ?_
  cases result with
  | ok u => exact keeps_pure ()
  | error e => exact (keeps_removeQuietly_noDirectory cwd path l).bind fun _ => keeps_throw e

theorem keeps_gather_noDirectory (hdir : ¬Disk.Passes cwd dir l) (hsource : Keeps (.place cwd l) source) :
    Keeps (.noDirectory cwd l) (gather source m assembly dir) := by
  have hdirs : Keeps (.place cwd l) (Act.makeDirectories BuildError.io dir) :=
    keeps_of_rel (Frame.place_of_changes id hdir) (keeps_makeDirectories cwd _ dir)
  exact (keeps_of_rel Frame.noDirectory_of_place hdirs).bind fun _ =>
    (keeps_of_rel Frame.noDirectory_of_place (keeps_obtainReferences hsource)).bind fun references =>
      (keeps_checkpoint _).bind fun _ =>
        keeps_renderOrRemove_noDirectory.bind fun _ => keeps_pure references

theorem keeps_normalizeInto_noDirectory (temporary target : String) :
    Keeps (.noDirectory cwd l) (normalizeInto temporary target) :=
  (keeps_checkpoint _).bind fun _ => Keeps.bind (keeps_reading _ _) fun _ =>
    (keeps_checkpoint _).bind fun _ => (keeps_writeText_noDirectory cwd _ target l _).bind fun _ =>
      (keeps_removeFile_noDirectory cwd _ temporary l).bind fun _ => keeps_pure _

end

/-- Only on the way to the output directory are directories made. -/
theorem keeps_emit_noDirectory {cwd : Location} (hspares : SparesTemporary source c cwd dir assembly)
    (hdir : ¬Disk.Passes cwd dir (.ofPath cwd (temporaryPath dir assembly))) :
    Keeps (.noDirectory cwd (.ofPath cwd (temporaryPath dir assembly)))
      (emit source c m assembly dir) := by
  rw [emit_stages]
  exact keeps_start.bind fun _ => (keeps_gather_noDirectory hdir hspares.source).bind fun references =>
    (keeps_normalizeInto_noDirectory _ _).bind fun text =>
      keeps_of_rel Frame.noDirectory_of_place (keeps_finish hspares)

end

/-- **A build leaves a temporary file exactly if it gives up** between rendering its model and
removing the file.  Nor is a directory left in its place, unless the output directory leads through
it. -/
theorem emit_leftover_iff {source : ReferenceSource} {c : Compiler} {m : Model} {assembly dir : String}
    {h h' : Host} {result : Except BuildError BuildResult}
    (hspares : SparesTemporary source c h.cwd dir assembly)
    (hnone : h.disk.node? (.ofPath h.cwd (temporaryPath dir assembly)) = none)
    (he : emit source c m assembly dir h = (result, h')) :
    (h'.disk.fileAt (.ofPath h.cwd (temporaryPath dir assembly)) = none ↔
      ¬GivesUp source m assembly dir h) ∧
    (h'.disk.node? (.ofPath h.cwd (temporaryPath dir assembly)) = some .directory →
      Disk.Passes h.cwd dir (.ofPath h.cwd (temporaryPath dir assembly))) := by
  refine ⟨⟨fun hgone hg => ?_, fileAt_of_not_givesUp hspares (by rw [Disk.fileAt, hnone]) he⟩,
    fun hdirectory => ?_⟩
  · obtain ⟨e, h'', text, he', -, -, hcwd, -, executable, hnode⟩ :=
      emit_of_givesUp c (keeps_of_rel Frame.stays_of_place hspares.source) hg
    rw [he'] at he
    cases he
    rw [hcwd] at hnode
    rw [Disk.fileAt, hnode] at hgone
    cases hgone
  · by_contra hdir
    have hmade := ((keeps_emit_noDirectory hspares hdir).of_eq he rfl).2 hdirectory
    rw [hnone] at hmade
    cases hmade

/-- A build that comes to a result has not given up. -/
theorem emit_leftover_none :
    let references := [⟨"R.dll", .empty⟩]
    let c := Compiler.simulated .pass
    let m := Model.ofPolicy (.named "a" "n" "k")
    let h := hostWith ⟨[]⟩
    SparesTemporary (.fixed references) c h.cwd "out" "A" ∧
      h.disk.node? (.ofPath h.cwd (temporaryPath "out" "A")) = none ∧
      ∃ result h', emit (.fixed references) c m "A" "out" h = (.ok result, h') ∧
        ¬GivesUp (.fixed references) m "A" "out" h := by
  intro references c m h
  have hc := Compiler.simulated_writesOnlyTargets .pass
  have hspares : SparesTemporary (.fixed references) c h.cwd "out" "A" :=
    sparesTemporary_of_writesOnlyTargets hc (keeps_fixed references)
  have hnone : h.disk.node? (.ofPath h.cwd (temporaryPath "out" "A")) = none := by
    rw [(by decide : Location.ofPath h.cwd (temporaryPath "out" "A") = ["out", "A_temp.cs"])]
    rfl
  obtain ⟨text, hrendered⟩ := exists_rendered
  obtain ⟨result, h', he, hr⟩ :=
    emit_ready references "out" (h := hostWith ⟨[]⟩) (d := ⟨[(["out"], .directory)]⟩)
    (by decide) (List.cons_ne_nil _ _) hrendered rfl rfl (by decide) .pass
  have hgone := temporary_of_emit hc he
  rw [hr.place] at hgone
  exact ⟨hspares, hnone, result, h', he, (emit_leftover_iff hspares hnone he).1.1 hgone⟩

/-- Where a directory is in the way of the source file, the rendering of the model is left. -/
theorem emit_leftover_under_directory :
    let references := [⟨"R.dll", .empty⟩]
    let c := Compiler.simulated .pass
    let m := Model.ofPolicy (.named "a" "n" "k")
    let h := hostWith ⟨[(["out"], .directory), (["out", "A.cs"], .directory)]⟩
    SparesTemporary (.fixed references) c h.cwd "out" "A" ∧
      h.disk.node? (.ofPath h.cwd (temporaryPath "out" "A")) = none ∧
      ∃ h', emit (.fixed references) c m "A" "out" h = (.error (.io .isADirectory), h') ∧
        h'.disk.fileAt (.ofPath h.cwd (temporaryPath "out" "A")) ≠ none := by
  intro references c m h
  have hspares : SparesTemporary (.fixed references) c h.cwd "out" "A" :=
    sparesTemporary_of_writesOnlyTargets (Compiler.simulated_writesOnlyTargets .pass)
      (keeps_fixed references)
  have hplace : Location.ofPath h.cwd (temporaryPath "out" "A") = ["out", "A_temp.cs"] := by decide
  obtain ⟨text, hrendered⟩ := exists_rendered
  have hw : CanWrite h.disk h.cwd (temporaryPath "out" "A") := by decide
  obtain ⟨rendered, hrender, hquiet, hcwd, hchanges, hholds⟩ := renderOrRemove_total hw rfl hrendered
  have hstart : start m "A" h = (.ok (), h) := rfl
  have hgather : gather (.fixed references) m "A" "out" h = (.ok references, rendered) := by
    have hmade : Act.makeDirectories BuildError.io "out" h = (.ok (), h) := rfl
    have hobtained : obtainReferences (.fixed references) h = (.ok references, h) := rfl
    have hlook : Act.checkpoint BuildError.cancelled h = (.ok (), h) := rfl
    exact (bind_of_ok hmade).trans ((bind_of_ok hobtained).trans ((bind_of_ok hlook).trans
      ((bind_of_ok hrender).trans rfl)))
  have hwritable : rendered.disk.writable rendered.cwd (sourcePath "out" "A") = .error .isADirectory := by
    have hlocate : h.disk.locate h.cwd (sourcePath "out" "A") = .ok ⟨["out", "A.cs"], false⟩ := by decide
    rw [hcwd]
    exact Disk.writable_of_directory (Disk.locate_mono hchanges.directory hlocate)
      (hchanges.directory ["out", "A.cs"] rfl)
  obtain ⟨h', hn, hdisk, -⟩ :=
    normalizeInto_unwritable hholds (hquiet ▸ Interrupt.quietAt_quiet 1) hwritable
  refine ⟨hspares, by rw [hplace]; rfl, h',
    (emit_of_gather c hstart hgather).trans (bind_of_error hn), ?_⟩
  obtain ⟨-, executable, hnode⟩ := hholds
  rw [hdisk, ← hcwd, Disk.fileAt_eq_some_iff.2 hnode]
  exact Option.some_ne_none _

end PolicyForge.Build
