import PolicyForge.Build.Emit
import PolicyForge.Proofs.Host.Act
import PolicyForge.Proofs.Source.Outcome
/-!
# The stages of a build

A build makes a request, has it compiled once, and concludes (`emit_eq`).  Everything that can be
told of a build is told of these three parts; of the compiler nothing is known but what it is
assumed to do.
-/
namespace PolicyForge.Build

open Act

/-! ## Three parts -/

def start (m : Model) (assembly : String) : Act BuildError Unit := do
  if Text.allBlank assembly.toList then throw .blankAssemblyName
  requireLoaded m
  Act.checkpoint .cancelled

/-- The references, with the model rendered into the temporary file. -/
def gather (source : ReferenceSource) (m : Model) (assembly dir : String) :
    Act BuildError (List Reference) := do
  Act.makeDirectories .io dir
  let references ← obtainReferences source
  Act.checkpoint .cancelled
  renderOrRemove (temporaryPath dir assembly) m assembly
  return references

/-- The request to the compiler, with the source in its file. -/
def makeRequest (assembly dir : String) (references : List Reference) :
    Act BuildError EmitRequest := do
  let text ← normalizeInto (temporaryPath dir assembly) (sourcePath dir assembly)
  Act.checkpoint .cancelled
  return ⟨sourcePath dir assembly, text, assembly, references, .inDirectory dir assembly⟩

/-- Everything that comes before the compiler. -/
def prepare (source : ReferenceSource) (m : Model) (assembly dir : String) :
    Act BuildError EmitRequest := do
  start m assembly
  let references ← gather source m assembly dir
  makeRequest assembly dir references

/-- What comes after the compiler. -/
def conclude (assembly dir : String) (r : EmitRequest) (o : CompilerOutcome) :
    Act BuildError BuildResult := do
  if ← Act.look then
    removeAllQuietly r.targets.toList
    throw .cancelled
  return resultOf assembly dir r.source r.targets o

theorem compile_conclude (c : Compiler) (assembly dir : String) (r : EmitRequest) :
    (do let o ← compile c r; return resultOf assembly dir r.source r.targets o) =
      (do let o ← c.emit r; conclude assembly dir r o) := by
  unfold compile conclude
  simp only [bind_assoc]
  refine bind_congr fun o => bind_congr fun b => ?_
  cases b <;> simp

/-- **A build prepares a request, has it compiled, and concludes.** -/
theorem emit_eq (source : ReferenceSource) (c : Compiler) (m : Model) (assembly dir : String) :
    emit source c m assembly dir = (do
      let r ← prepare source m assembly dir
      let o ← c.emit r
      conclude assembly dir r o) := by
  have hcompile := compile_conclude c assembly dir
  unfold emit prepare start gather makeRequest
  by_cases hb : Text.allBlank assembly.toList = true
  · simp [hb]
  · simp only [hb, Bool.false_eq_true, if_false, bind_assoc, pure_bind]
    simp only [← hcompile]

/-! ## Rendering -/

/-- The text is the complete rendering of a model. -/
def Rendered (m : Model) (assembly text : String) : Prop :=
  ∃ pen, Source.render m assembly .quiet = (.ok (), pen) ∧ pen.written = text

/-- A rendering that comes to its end is the one that nobody disturbs. -/
theorem rendered_of_ok {m : Model} {assembly : String} {interrupt : Interrupt} {pen : Source.Pen}
    (h : Source.render m assembly interrupt = (.ok (), pen)) : Rendered m assembly pen.written := by
  obtain ⟨policies, hpolicies, -, hwritten⟩ := Source.render_ok h
  -- an interrupt can only cut a rendering short, and this one is complete
  obtain ⟨result, disturbed, hrender, hends⟩ := Source.render_cases hpolicies assembly interrupt
  obtain ⟨hname, hfine⟩ := hends.of_ok (congrArg Prod.fst (hrender.symm.trans h))
  obtain ⟨result', pen', hpen', hends'⟩ := Source.render_cases hpolicies assembly .quiet
  obtain rfl := hends'.ok_of_acceptable hname hfine
  obtain ⟨policies', hpolicies', -, hwritten'⟩ := Source.render_ok hpen'
  obtain rfl : policies = policies' := Except.ok.inj (hpolicies.symm.trans hpolicies')
  exact ⟨pen', hpen', hwritten'.trans hwritten.symm⟩

section

variable {F : Frame} {m : Model} {assembly path : String} {h h' : Host} {e : BuildError}

theorem renderText_ok {text : String} (hr : renderText m assembly h = (.ok text, h')) :
    Rendered m assembly text ∧ h'.disk = h.disk ∧ h'.cwd = h.cwd := by
  unfold renderText at hr
  split at hr
  · rename_i pen hpen
    cases hr
    exact ⟨rendered_of_ok hpen, rfl, rfl⟩
  · cases hr

theorem renderText_error (hr : renderText m assembly h = (.error e, h')) : ∃ re, e = .render re := by
  unfold renderText at hr
  split at hr
  · cases hr
  · cases hr
    exact ⟨_, rfl⟩

theorem keeps_renderText : Keeps F (renderText m assembly) := by
  intro h
  unfold renderText
  split <;> exact F.same rfl rfl

theorem renderInto_error (hr : renderInto path m assembly h = (.error e, h')) :
    (∃ i, e = .io i) ∨ ∃ re, e = .render re := by
  rcases bind_error hr with hr | ⟨_, h₁, -, hr⟩
  · exact .inl (writeText_error hr).1
  rcases bind_error hr with hr | ⟨text, h₂, -, hr⟩
  · exact .inr (renderText_error hr)
  · exact .inl (writeText_error hr).1

theorem renderInto_ok (hr : renderInto path m assembly h = (.ok (), h')) :
    ∃ text mid, Rendered m assembly text ∧ Act.writeText BuildError.io path text mid = (.ok (), h') := by
  obtain ⟨_, h₁, -, hr⟩ := bind_ok hr
  obtain ⟨text, h₂, htext, hr⟩ := bind_ok hr
  exact ⟨text, h₂, (renderText_ok htext).1, hr⟩

theorem keeps_renderInto (cwd : Location) (made : Location → Prop) :
    Keeps (.changes cwd (· = Location.ofPath cwd path) made) (renderInto path m assembly) :=
  (keeps_writeText cwd made _ path "").bind fun _ => keeps_renderText.bind fun text =>
    keeps_writeText cwd made _ path text

theorem renderOrRemove_ok (hr : renderOrRemove path m assembly h = (.ok (), h')) :
    renderInto path m assembly h = (.ok (), h') := by
  obtain ⟨result, mid, hmid, hr⟩ := bind_ok hr
  cases result with
  | ok u =>
    cases hr
    exact attempt_ok hmid
  | error e =>
    obtain ⟨_, _, -, hr⟩ := bind_ok hr
    cases hr

theorem renderOrRemove_error (hr : renderOrRemove path m assembly h = (.error e, h')) :
    (∃ i, e = .io i) ∨ ∃ re, e = .render re := by
  rcases bind_error hr with hr | ⟨result, mid, hmid, hr⟩
  · cases hr
  · cases result with
    | ok u => cases hr
    | error e' =>
      have he : renderInto path m assembly h = (.error e', mid) := attempt_ok hmid
      obtain rfl : e = e' := by
        rcases bind_error hr with hr | ⟨_, _, -, hr⟩
        · unfold removeQuietly at hr
          split at hr <;> cases hr
        · cases hr
          rfl
      exact renderInto_error he

theorem keeps_renderOrRemove (cwd : Location) (made : Location → Prop) :
    Keeps (.changes cwd (· = Location.ofPath cwd path) made) (renderOrRemove path m assembly) := by
  refine (keeps_renderInto cwd made).attempt.bind fun result => ?_
  cases result with
  | ok u => exact keeps_pure ()
  | error e => exact (keeps_removeQuietly cwd made path).bind fun _ => keeps_throw e

end

/-! ## Before the references -/

section

variable {F : Frame} {m : Model} {assembly dir : String} {h h' : Host} {e : BuildError}

theorem start_of_blank (m : Model) (hb : Text.allBlank assembly.toList = true) :
    start m assembly = throw .blankAssemblyName := by
  simp [start, hb]

theorem start_of_not_blank (m : Model) (hb : Text.allBlank assembly.toList = false) :
    start m assembly = (do requireLoaded m; Act.checkpoint .cancelled) := by
  simp [start, hb]

theorem keeps_start : Keeps F (start m assembly) := by
  cases hb : Text.allBlank assembly.toList with
  | true =>
    rw [start_of_blank m hb]
    exact keeps_throw _
  | false =>
    rw [start_of_not_blank m hb]
    refine Keeps.bind ?_ fun _ => keeps_checkpoint _
    unfold requireLoaded
    split
    · exact keeps_pure ()
    · exact keeps_throw _

/-- A build that is not admitted has changed nothing. -/
theorem start_error (ha : start m assembly h = (.error e, h')) : h' = h := by
  cases hb : Text.allBlank assembly.toList with
  | true =>
    rw [start_of_blank m hb] at ha
    cases ha
    rfl
  | false =>
    rw [start_of_not_blank m hb] at ha
    unfold requireLoaded at ha
    split at ha
    · rcases bind_error ha with ha | ⟨_, h₁, hok, ha⟩
      · cases ha
      · cases hok
        exact (checkpoint_error ha).2
    · rcases bind_error ha with ha | ⟨_, h₁, hok, -⟩
      · cases ha
        rfl
      · cases hok

theorem not_start_of_isSet (m : Model) (assembly : String) (hs : h.interrupt.isSet = true) :
    ∀ u h', start m assembly h ≠ (.ok u, h') := by
  intro u h' ha
  cases hb : Text.allBlank assembly.toList with
  | true =>
    rw [start_of_blank m hb] at ha
    cases ha
  | false =>
    rw [start_of_not_blank m hb] at ha
    unfold requireLoaded at ha
    split at ha
    · obtain ⟨_, h₁, hok, ha⟩ := bind_ok ha
      cases hok
      rw [checkpoint_of_isSet _ hs] at ha
      cases ha
    · obtain ⟨_, h₁, hok, -⟩ := bind_ok ha
      cases hok

end

/-! ## The files of a build -/

theorem isSuffix_temporary : IsSuffix "_temp.cs" := ⟨by decide, by decide, by decide⟩

theorem isSuffix_source : IsSuffix ".cs" := ⟨by decide, by decide, by decide⟩

theorem exists_suffix {dir assembly path : String}
    (h : path ∈ (EmitTargets.inDirectory dir assembly).toList) :
    ∃ s, path = Path.join dir (assembly ++ s) ∧ IsSuffix s ∧
      s.utf8ByteSize ≤ "_temp.cs".utf8ByteSize ∧
      s ≠ "_temp.cs" ∧ s ≠ ".cs" := by
  simp only [EmitTargets.inDirectory, EmitTargets.toList, List.mem_cons, List.not_mem_nil,
    or_false] at h
  rcases h with rfl | rfl | rfl
  · exact ⟨".dll", rfl, ⟨by decide, by decide, by decide⟩, by decide, by decide, by decide⟩
  · exact ⟨".pdb", rfl, ⟨by decide, by decide, by decide⟩, by decide, by decide, by decide⟩
  · exact ⟨".xml", rfl, ⟨by decide, by decide, by decide⟩, by decide, by decide, by decide⟩

/-- The file at a path holds a text, and the path leads to it. -/
def HoldsText (h : Host) (path text : String) : Prop :=
  h.disk.locate h.cwd path = .ok ⟨Location.ofPath h.cwd path, false⟩ ∧
    ∃ executable, h.disk.node? (Location.ofPath h.cwd path) = some (.file text.toUTF8 executable)

theorem HoldsText.readText {h : Host} {path text : String} (hp : HoldsText h path text) :
    h.disk.readText h.cwd path = .ok text := by
  obtain ⟨hlocate, executable, hnode⟩ := hp
  exact Disk.readText_of_node? hlocate rfl hnode

theorem holdsText_of_writeText {wrap : IoError → BuildError} {h h' : Host} {path text : String}
    (hw : Act.writeText wrap path text h = (.ok (), h')) : HoldsText h' path text := by
  obtain ⟨hcwd, hlocate, hchanges, hnode⟩ := writeText_ok hw
  rw [HoldsText, hcwd]
  exact ⟨Disk.locate_mono hchanges.directory hlocate, hnode⟩

theorem HoldsText.of_changes {h h' : Host} {path text : String} {written made : Location → Prop}
    (hp : HoldsText h path text) (hcwd : h'.cwd = h.cwd) (hchanges : h.disk.Changes written made h'.disk)
    (hl : ¬written (Location.ofPath h.cwd path)) : HoldsText h' path text := by
  obtain ⟨hlocate, executable, hnode⟩ := hp
  have hkept := hchanges.node? hl (by rw [hnode]; simp)
  rw [HoldsText, hcwd]
  exact ⟨Disk.locate_mono hchanges.directory hlocate, executable, hkept.trans hnode⟩

/-! ## Gathering -/

theorem keeps_fixed {F : Frame} (references : List Reference) :
    Keeps F (ReferenceSource.fixed references) :=
  (keeps_checkpoint _).bind fun _ => keeps_pure references

theorem fixed_ok {references given : List Reference} {h h' : Host}
    (hf : ReferenceSource.fixed references h = (.ok given, h')) : given = references := by
  obtain ⟨_, _, -, hf⟩ := bind_ok hf
  cases hf
  rfl

section

variable {F : Frame} {source : ReferenceSource} {m : Model} {assembly dir : String} {h h' : Host}
  {e : BuildError} {references : List Reference}

theorem keeps_obtainReferences (hsource : Keeps F source) : Keeps F (obtainReferences source) := by
  refine (keeps_checkpoint _).bind fun _ => hsource.mapError.bind fun references => ?_
  split
  · exact keeps_throw _
  · exact keeps_pure _

/-- Gathering writes the temporary file and makes directories; beyond that it does what the source
does. -/
theorem keeps_gather (cwd : Location) (hF : ∀ h h', (Frame.changes cwd
      (· = Location.ofPath cwd (temporaryPath dir assembly)) (Disk.Passes cwd dir)).rel h h' →
        F.rel h h') (hsource : Keeps F source) : Keeps F (gather source m assembly dir) := by
  have hdir : Keeps F (Act.makeDirectories BuildError.io dir) :=
    keeps_of_rel hF ((keeps_makeDirectories cwd _ dir).mono (fun _ hl => hl.elim) fun _ hm => hm)
  exact hdir.bind fun _ => (keeps_obtainReferences hsource).bind fun references =>
    (keeps_checkpoint _).bind fun _ =>
      (keeps_of_rel hF (keeps_renderOrRemove cwd _)).bind fun _ => keeps_pure references

theorem obtainReferences_error (ho : obtainReferences source h = (.error e, h')) :
    e = .cancelled ∨ e = .noReferences ∨ ∃ re, e = .references re := by
  rcases bind_error ho with ho | ⟨_, h₁, -, ho⟩
  · exact .inl (checkpoint_error ho).1
  rcases bind_error ho with ho | ⟨references, h₂, -, ho⟩
  · obtain ⟨re, -, he⟩ := mapError_error ho
    exact .inr (.inr ⟨re, he⟩)
  · split at ho
    · cases ho
      exact .inr (.inl rfl)
    · cases ho

/-- Once a build has been admitted it fails neither for its name nor for its model. -/
theorem gather_error (hg : gather source m assembly dir h = (.error e, h')) :
    e ≠ .blankAssemblyName ∧ ∀ me, e ≠ .model me := by
  rcases bind_error hg with hg | ⟨_, h₁, -, hg⟩
  · obtain ⟨i, rfl⟩ := makeDirectories_error hg
    simp
  rcases bind_error hg with hg | ⟨_, h₂, -, hg⟩
  · rcases obtainReferences_error hg with rfl | rfl | ⟨re, rfl⟩ <;> simp
  rcases bind_error hg with hg | ⟨_, h₃, -, hg⟩
  · simp [(checkpoint_error hg).1]
  rcases bind_error hg with hg | ⟨_, h₄, -, hg⟩
  · rcases renderOrRemove_error hg with ⟨i, rfl⟩ | ⟨re, rfl⟩ <;> simp
  · cases hg

/-- The references of a build are what the source has given, and not none. -/
theorem obtainReferences_ok (ho : obtainReferences source h = (.ok references, h')) :
    references ≠ [] ∧ ∃ asked, source asked = (.ok references, h') := by
  obtain ⟨_, h₁, -, ho⟩ := bind_ok ho
  obtain ⟨given, h₂, h2, ho⟩ := bind_ok ho
  cases given with
  | nil => cases ho
  | cons r rest =>
    cases ho
    exact ⟨List.cons_ne_nil r rest, h₁, mapError_ok h2⟩

theorem gather_ok (hg : gather source m assembly dir h = (.ok references, h')) :
    (references ≠ [] ∧ ∃ asked answered, source asked = (.ok references, answered)) ∧
      ∃ text, Rendered m assembly text ∧ HoldsText h' (temporaryPath dir assembly) text := by
  obtain ⟨_, h₁, -, hg⟩ := bind_ok hg
  obtain ⟨given, h₂, h2, hg⟩ := bind_ok hg
  obtain ⟨_, h₃, -, hg⟩ := bind_ok hg
  obtain ⟨_, h₄, hrender, hg⟩ := bind_ok hg
  cases hg
  obtain ⟨hne, asked, hasked⟩ := obtainReferences_ok h2
  obtain ⟨text, mid, hrendered, hwrite⟩ := renderInto_ok (renderOrRemove_ok hrender)
  exact ⟨⟨hne, asked, h₂, hasked⟩, text, hrendered,
    holdsText_of_writeText hwrite⟩

end

/-! ## Making the request -/

section

variable {assembly dir text : String} {references : List Reference} {h h' : Host} {e : BuildError}

theorem keeps_normalizeInto (cwd : Location) (made : Location → Prop) (temporary target : String) :
    Keeps (.changes cwd (fun l => l = Location.ofPath cwd temporary ∨ l = Location.ofPath cwd target)
      made) (normalizeInto temporary target) := by
  refine (keeps_checkpoint _).bind fun _ => Keeps.bind (keeps_reading _ _) fun rendered =>
    (keeps_checkpoint _).bind fun _ => Keeps.bind ?_ fun _ => Keeps.bind ?_ fun _ => keeps_pure _
  · exact (keeps_writeText cwd made _ target _).mono (fun _ hl => .inr hl) fun _ hm => hm
  · exact (keeps_removeFile cwd made _ temporary).mono (fun _ hl => .inl hl) fun _ hm => hm

/-- What is moved into the source file is the text with its layout normalized. -/
theorem normalizeInto_ok {source : String} (hholds : HoldsText h (temporaryPath dir assembly) text)
    (hn : normalizeInto (temporaryPath dir assembly) (sourcePath dir assembly) h =
      (.ok source, h')) :
    source = Layout.normalize text ∧ HoldsText h' (sourcePath dir assembly) source := by
  have hne := Location.ofPath_join_ne h.cwd dir assembly isSuffix_source isSuffix_temporary
    (by decide)
  obtain ⟨_, h₁, h1, hn⟩ := bind_ok hn
  obtain rfl := checkpoint_ok h1
  obtain ⟨rendered, h₂, h2, hn⟩ := bind_ok hn
  obtain ⟨hread, rfl⟩ := readText_ok h2
  obtain rfl : text = rendered := Except.ok.inj (hholds.readText.symm.trans hread)
  obtain ⟨_, h₃, h3, hn⟩ := bind_ok hn
  obtain rfl := checkpoint_ok h3
  obtain ⟨_, h₄, h4, hn⟩ := bind_ok hn
  obtain ⟨_, h₅, h5, hn⟩ := bind_ok hn
  cases hn
  have hcwd : h₄.cwd = h.cwd := (writeText_ok h4).1
  obtain ⟨hcwd', hchanges⟩ := (keeps_removeFile h₄.cwd (fun _ => False) _ _).of_eq h5 rfl
  exact ⟨rfl, (holdsText_of_writeText h4).of_changes hcwd' hchanges
    (hcwd ▸ hne)⟩

/-- A failure to move it is one of the disk, or an interrupt before the source file is written. -/
theorem normalizeInto_error {temporary target : String}
    (hn : normalizeInto temporary target h = (.error e, h')) :
    (∃ i, e = .io i) ∨ (e = .cancelled ∧ h'.disk = h.disk) := by
  rcases bind_error hn with hn | ⟨_, h₁, h1, hn⟩
  · obtain ⟨rfl, rfl⟩ := checkpoint_error hn
    exact .inr ⟨rfl, rfl⟩
  obtain rfl := checkpoint_ok h1
  rcases bind_error hn with hn | ⟨rendered, h₂, h2, hn⟩
  · exact .inl (readText_error hn).1
  obtain ⟨-, rfl⟩ := readText_ok h2
  rcases bind_error hn with hn | ⟨_, h₃, -, hn⟩
  · obtain ⟨rfl, rfl⟩ := checkpoint_error hn
    exact .inr ⟨rfl, rfl⟩
  rcases bind_error hn with hn | ⟨_, h₄, -, hn⟩
  · exact .inl (writeText_error hn).1
  rcases bind_error hn with hn | ⟨_, h₅, -, hn⟩
  · exact .inl (removeFile_error hn).1
  · cases hn

theorem keeps_makeRequest (cwd : Location) (made : Location → Prop) :
    Keeps (.changes cwd (fun l => l = Location.ofPath cwd (temporaryPath dir assembly) ∨
      l = Location.ofPath cwd (sourcePath dir assembly)) made) (makeRequest assembly dir references) :=
  (keeps_normalizeInto cwd made _ _).bind fun _ => (keeps_checkpoint _).bind fun _ => keeps_pure _

def requestFor (dir assembly : String) (references : List Reference) (text : String) : EmitRequest :=
  ⟨sourcePath dir assembly, Layout.normalize text, assembly, references, .inDirectory dir assembly⟩

theorem makeRequest_ok {r : EmitRequest} (hholds : HoldsText h (temporaryPath dir assembly) text)
    (hm : makeRequest assembly dir references h = (.ok r, h')) :
    r = requestFor dir assembly references text ∧ HoldsText h' r.sourcePath r.source := by
  obtain ⟨source, h₁, hn, hm⟩ := bind_ok hm
  obtain ⟨_, h₂, h2, hm⟩ := bind_ok hm
  obtain rfl := checkpoint_ok h2
  cases hm
  obtain ⟨rfl, hsource⟩ := normalizeInto_ok hholds hn
  exact ⟨rfl, hsource⟩

/-- A request is not made because of the disk or of an interrupt, and an interrupt leaves the source
file as it was or complete. -/
theorem makeRequest_error (hholds : HoldsText h (temporaryPath dir assembly) text)
    (hm : makeRequest assembly dir references h = (.error e, h')) :
    (∃ i, e = .io i) ∨ (e = .cancelled ∧
      (h'.disk = h.disk ∨ HoldsText h' (sourcePath dir assembly) (Layout.normalize text))) := by
  rcases bind_error hm with hm | ⟨source, h₁, hn, hm⟩
  · rcases normalizeInto_error hm with hio | ⟨he, hdisk⟩
    · exact .inl hio
    · exact .inr ⟨he, .inl hdisk⟩
  rcases bind_error hm with hm | ⟨_, h₂, -, hm⟩
  · obtain ⟨rfl, rfl⟩ := checkpoint_error hm
    obtain ⟨rfl, hsource⟩ := normalizeInto_ok hholds hn
    exact .inr ⟨rfl, .inr hsource⟩
  · cases hm

end

/-! ## After the compiler -/

section

variable {h h' : Host}

theorem keeps_removeAllQuietly (cwd : Location) (made : Location → Prop) : ∀ (paths : List String),
    Keeps (.changes cwd (fun l => ∃ t ∈ paths, l = Location.ofPath cwd t) made) (removeAllQuietly paths)
  | [] => keeps_pure ()
  | path :: rest => by
    have hrest := keeps_removeAllQuietly cwd made rest
    refine Keeps.bind ((keeps_removeQuietly cwd made path).mono ?_ fun _ hm => hm) fun _ =>
      hrest.mono ?_ fun _ hm => hm
    · exact fun l hl => ⟨path, List.mem_cons_self, hl⟩
    · rintro l ⟨t, ht, hl⟩
      exact ⟨t, List.mem_cons_of_mem path ht, hl⟩

/-- The paths can be walked, and still can as long as no directory goes. -/
def Reaches (h : Host) (paths : List String) : Prop :=
  ∀ t ∈ paths, ∀ d : Disk, (∀ l, h.disk.node? l = some .directory → d.node? l = some .directory) →
    d.locate h.cwd t = .ok ⟨Location.ofPath h.cwd t, false⟩

theorem Reaches.of_directories {paths : List String} (hr : Reaches h paths) (hcwd : h'.cwd = h.cwd)
    (hd : ∀ l, h.disk.node? l = some .directory → h'.disk.node? l = some .directory) :
    Reaches h' paths := by
  intro t ht d hd'
  rw [hcwd]
  exact hr t ht d fun l hl => hd' l (hd l hl)

theorem removeAllQuietly_spec : ∀ {paths : List String} {h : Host}, Reaches h paths →
    ∃ h', removeAllQuietly paths h = (.ok (), h') ∧
      ∀ t ∈ paths, h'.disk.fileAt (Location.ofPath h.cwd t) = none
  | [], h, _ => ⟨h, rfl, by simp⟩
  | path :: rest, h, hr => by
    obtain ⟨h₁, h1, hcwd, hnone⟩ :=
      removeQuietly_spec (ε := BuildError) (hr path List.mem_cons_self h.disk fun _ hl => hl)
    obtain ⟨-, hchanges⟩ := (keeps_removeQuietly h.cwd (fun _ => False) path).of_eq h1 rfl
    have hrest : Reaches h₁ rest :=
      Reaches.of_directories (fun t ht => hr t (List.mem_cons_of_mem path ht)) hcwd hchanges.directory
    obtain ⟨h₂, h2, hnones⟩ := removeAllQuietly_spec hrest
    refine ⟨h₂, (bind_of_ok h1).trans h2, fun t ht => ?_⟩
    rw [hcwd] at hnones
    -- paths that lead to one place are removed at the last of them
    by_cases hagain : ∃ u ∈ rest, Location.ofPath h.cwd t = Location.ofPath h.cwd u
    · obtain ⟨u, hu, heq⟩ := hagain
      rw [heq]
      exact hnones u hu
    · rcases List.mem_cons.1 ht with rfl | ht
      · have hkept := (keeps_removeAllQuietly h.cwd (fun _ => False) rest).of_eq h2 hcwd
        rw [hkept.2.fileAt hagain]
        exact hnone
      · exact absurd ⟨t, ht, rfl⟩ hagain

variable {assembly dir : String} {r : EmitRequest} {o : CompilerOutcome} {e : BuildError}

theorem keeps_conclude (cwd : Location) (made : Location → Prop) :
    Keeps (.changes cwd (fun l => ∃ t ∈ r.targets.toList, l = Location.ofPath cwd t) made)
      (conclude assembly dir r o) := by
  refine keeps_look.bind fun b => ?_
  cases b with
  | true => exact (keeps_removeAllQuietly cwd made _).bind fun _ => keeps_throw _
  | false => exact keeps_pure _

theorem conclude_of_quiet (assembly dir : String) (r : EmitRequest) (o : CompilerOutcome)
    (hs : h.interrupt.isSet = false) : conclude assembly dir r o h =
      (.ok (resultOf assembly dir r.source r.targets o),
        { h with interrupt := h.interrupt.afterLook }) :=
  (bind_of_ok (look_of_quiet hs)).trans rfl

theorem conclude_of_isSet (assembly dir : String) (o : CompilerOutcome)
    (hs : h.interrupt.isSet = true) (hr : Reaches h r.targets.toList) :
    ∃ h', conclude assembly dir r o h = (.error .cancelled, h') ∧
      ∀ t ∈ r.targets.toList, h'.disk.fileAt (Location.ofPath h.cwd t) = none := by
  obtain ⟨h', hremove, hnone⟩ := removeAllQuietly_spec hr
  exact ⟨h', (bind_of_ok (look_of_isSet hs)).trans ((bind_of_ok hremove).trans rfl), hnone⟩

theorem conclude_ok {result : BuildResult} (hc : conclude assembly dir r o h = (.ok result, h')) :
    result = resultOf assembly dir r.source r.targets o ∧ h.interrupt.isSet = false ∧
      h'.disk = h.disk := by
  cases hs : h.interrupt.isSet with
  | false =>
    rw [conclude_of_quiet assembly dir r o hs] at hc
    cases hc
    exact ⟨rfl, rfl, rfl⟩
  | true =>
    obtain ⟨b, mid, hlook, hc⟩ := bind_ok hc
    cases hlook
    rw [hs] at hc
    obtain ⟨_, _, -, hc⟩ := bind_ok hc
    cases hc

theorem removeAllQuietly_total : ∀ (paths : List String) (h : Host),
    ∃ h', removeAllQuietly paths h = (.ok (), h')
  | [], h => ⟨h, rfl⟩
  | path :: rest, h => by
    obtain ⟨h₁, h1⟩ := removeQuietly_total (ε := BuildError) path h
    obtain ⟨h₂, h2⟩ := removeAllQuietly_total rest h₁
    exact ⟨h₂, (bind_of_ok h1).trans h2⟩

theorem conclude_error_cancelled (hc : conclude assembly dir r o h = (.error e, h')) :
    e = .cancelled := by
  rcases bind_error hc with hc | ⟨b, mid, -, hc⟩
  · cases hc
  cases b with
  | false => cases hc
  | true =>
    obtain ⟨h₁, h1⟩ := removeAllQuietly_total r.targets.toList mid
    have hthrow := (bind_of_ok h1).symm.trans hc
    cases hthrow
    rfl

/-- A build that does not conclude well has been interrupted, and leaves no target. -/
theorem conclude_error (hr : Reaches h r.targets.toList)
    (hc : conclude assembly dir r o h = (.error e, h')) :
    ∀ t ∈ r.targets.toList, h'.disk.fileAt (Location.ofPath h.cwd t) = none := by
  cases hs : h.interrupt.isSet with
  | false =>
    rw [conclude_of_quiet assembly dir r o hs] at hc
    cases hc
  | true =>
    obtain ⟨h₁, h1, hnone⟩ := conclude_of_isSet assembly dir o hs hr
    rw [h1] at hc
    cases hc
    exact hnone

end

end PolicyForge.Build
