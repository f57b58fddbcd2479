import PolicyForge.Proofs.Host.Location
/-!
# What an operation does to the disk

An operation on a path changes what is at the location of the path and nothing else.  `Changes` says
so for any number of operations: apart from some locations everything stays as it is, but for
directories that are made where nothing was.
-/
namespace PolicyForge.Disk

/-! ## Reading a disk -/

/-- The file at a location: its content, and whether it may be run. -/
def fileAt (d : Disk) (l : Location) : Option (ByteArray × Bool) :=
  match d.node? l with
  | some (.file content executable) => some (content, executable)
  | _ => none

theorem fileAt_eq_some_iff {d : Disk} {l : Location} {content : ByteArray} {executable : Bool} :
    d.fileAt l = some (content, executable) ↔ d.node? l = some (.file content executable) := by
  unfold fileAt
  split
  · rename_i hnode
    rw [hnode]
    simp
  · rename_i hnode
    exact iff_of_false (by simp) (hnode _ _)

instance (node : Option DiskNode) : Decidable (node = some .directory) :=
  match node with
  | none => isFalse nofun
  | some (.file _ _) => isFalse nofun
  | some .directory => isTrue rfl

theorem find_filter_self (l : Location) : ∀ (es : List (Location × DiskNode)),
    find l (es.filter fun e => e.1 ≠ l) = none
  | [] => rfl
  | (k, n) :: rest => by
    have ih := find_filter_self l rest
    by_cases hk : k = l
    · rw [List.filter_cons_of_neg (by simpa using hk), ih]
    · rw [List.filter_cons_of_pos (by simpa using hk), find, if_neg hk, ih]

theorem node?_erase_self (d : Disk) {l : Location} (h : l ≠ []) : (d.erase l).node? l = none := by
  rw [node?, if_neg (by simpa using h)]
  exact find_filter_self l d.entries

theorem ne_nil_of_node? {d : Disk} {l : Location} (h : d.node? l ≠ some .directory) : l ≠ [] := by
  rintro rfl
  exact h rfl

theorem fromUTF8?_toByteArray (s : String) : String.fromUTF8? s.toByteArray = some s := by
  rw [String.fromUTF8?, dif_pos s.isValidUTF8]
  rfl

theorem readText_of_node? {d : Disk} {cwd : Location} {path text : String} {p : Place}
    {executable : Bool} (h : d.locate cwd path = .ok p) (hp : p.asDirectory = false)
    (hnode : d.node? p.location = some (.file text.toUTF8 executable)) :
    d.readText cwd path = .ok text := by
  simp [readText, readBytes, stat, h, hp, hnode, bind, Except.bind, fromUTF8?_toByteArray]

/-! ## Changes -/

/-- From one disk to another, nothing changes but what is at the `written` locations, and that
directories are made at `made` locations where nothing was.  No directory goes. -/
structure Changes (written made : Location → Prop) (d d' : Disk) : Prop where
  directory : ∀ l, d.node? l = some .directory → d'.node? l = some .directory
  other : ∀ l, ¬written l → d'.node? l = d.node? l ∨
    (made l ∧ d.node? l = none ∧ d'.node? l = some .directory)

namespace Changes

variable {written made : Location → Prop} {d d' d'' : Disk}

theorem refl (written made : Location → Prop) (d : Disk) : Changes written made d d :=
  ⟨fun _ h => h, fun _ _ => .inl rfl⟩

theorem trans (h : Changes written made d d') (h' : Changes written made d' d'') :
    Changes written made d d'' := by
  refine ⟨fun l hl => h'.directory l (h.directory l hl), fun l hl => ?_⟩
  rcases h'.other l hl with hsame | ⟨hmade, hnone, hdir⟩
  · rw [hsame]
    exact h.other l hl
  · rcases h.other l hl with hsame | ⟨-, -, hdir'⟩
    · exact .inr ⟨hmade, hsame ▸ hnone, hdir⟩
    · rw [hdir'] at hnone
      cases hnone

theorem mono {written' made' : Location → Prop} (h : Changes written made d d')
    (hw : ∀ l, written l → written' l) (hm : ∀ l, made l → made' l) :
    Changes written' made' d d' := by
  refine ⟨h.directory, fun l hl => ?_⟩
  rcases h.other l (fun hwritten => hl (hw l hwritten)) with hsame | ⟨hmade, hrest⟩
  · exact .inl hsame
  · exact .inr ⟨hm l hmade, hrest⟩

theorem fileAt (h : Changes written made d d') {l : Location} (hl : ¬written l) :
    d'.fileAt l = d.fileAt l := by
  rcases h.other l hl with hsame | ⟨-, hnone, hdir⟩
  · rw [Disk.fileAt, Disk.fileAt, hsame]
  · rw [Disk.fileAt, Disk.fileAt, hnone, hdir]

theorem node? (h : Changes written made d d') {l : Location} (hl : ¬written l)
    (hnode : d.node? l ≠ none) : d'.node? l = d.node? l := by
  rcases h.other l hl with hsame | ⟨-, hnone, -⟩
  · exact hsame
  · exact absurd hnone hnode

end Changes

/-- An operation at one location where no directory is. -/
theorem changes_of_node? {d d' : Disk} {l : Location} (hl : d.node? l ≠ some .directory)
    (h : ∀ l', l ≠ l' → d'.node? l' = d.node? l') : Changes (· = l) (fun _ => False) d d' := by
  refine ⟨fun l' hl' => ?_, fun l' hne => .inl (h l' fun he => hne he.symm)⟩
  by_cases he : l = l'
  · subst he
    exact absurd hl' hl
  · rw [h l' he, hl']

theorem changes_insert {d : Disk} {l : Location} (hl : d.node? l = none) :
    Changes (fun _ => False) (· = l) d (d.insert l .directory) := by
  have hne : l ≠ [] := ne_nil_of_node? (by rw [hl]; simp)
  have hself := node?_insert_self d l .directory hne
  refine ⟨fun l' hl' => ?_, fun l' _ => ?_⟩
  · by_cases he : l = l'
    · rw [← he]
      exact hself
    · rw [node?_insert_of_ne d _ he, hl']
  · by_cases he : l = l'
    · subst he
      exact .inr ⟨rfl, hl, hself⟩
    · exact .inl (node?_insert_of_ne d _ he)

/-! ## Operations -/

section

variable {d d' : Disk} {cwd : Location} {path : String}

theorem bind_eq_ok {ε α β : Type} {x : Except ε α} {f : α → Except ε β} {b : β}
    (h : (x >>= f) = .ok b) : ∃ a, x = .ok a ∧ f a = .ok b := by
  cases x with
  | error e => cases h
  | ok a => exact ⟨a, rfl, h⟩

/-- A file can be written where there is one, or where there is nothing in a directory. -/
theorem writable_cases {l : Location} (h : d.writable cwd path = .ok l) :
    d.locate cwd path = .ok ⟨l, false⟩ ∧
      ((∃ content executable, d.node? l = some (.file content executable)) ∨
        d.node? l = none ∧ d.node? l.dropLast = some .directory) := by
  obtain ⟨⟨location, asDirectory⟩, hp, h⟩ := bind_eq_ok h
  cases asDirectory with
  | true =>
    dsimp only at h
    split at h <;> cases h
  | false =>
    dsimp only at h
    split at h
    · cases h
    · rename_i hnode
      cases h
      exact ⟨hp, .inl ⟨_, _, hnode⟩⟩
    · rename_i hnone
      rw [if_neg Bool.false_ne_true] at h
      split at h <;> cases h
      rename_i hparent
      exact ⟨hp, .inr ⟨hnone, hparent⟩⟩

theorem writeBytes_cases {content : ByteArray} (h : d.writeBytes cwd path content = .ok d') :
    ∃ l, d.writable cwd path = .ok l ∧ d' = d.store l content := by
  obtain ⟨l, hl, h⟩ := bind_eq_ok h
  cases h
  exact ⟨l, hl, rfl⟩

theorem removeFile_cases (h : d.removeFile cwd path = .ok d') : ∃ p content executable,
    d.locate cwd path = .ok p ∧ d.node? p.location = some (.file content executable) ∧
      d' = d.erase p.location := by
  obtain ⟨p, hp, h⟩ := bind_eq_ok h
  split at h
  · cases h
  · cases h
  · rename_i hnode
    split at h <;> cases h
    exact ⟨p, _, _, hp, hnode, rfl⟩

theorem makeDirectory_cases (h : d.makeDirectory cwd path = .ok d') : ∃ p,
    d.locate cwd path = .ok p ∧ d.node? p.location = none ∧ d' = d.insert p.location .directory := by
  obtain ⟨p, hp, h⟩ := bind_eq_ok h
  split at h
  · cases h
  · rename_i hnone
    split at h <;> cases h
    exact ⟨p, hp, hnone, rfl⟩

/-- A file is moved, unless it is moved to its own place. -/
theorem rename_cases {source target : String} (h : d.rename cwd source target = .ok d') :
    ∃ p n l, d.locate cwd source = .ok p ∧ d.node? p.location = some n ∧ n ≠ .directory ∧
      d.writable cwd target = .ok l ∧
      (p.location = l ∧ d' = d ∨ p.location ≠ l ∧ d' = (d.insert l n).erase p.location) := by
  obtain ⟨p, hp, h⟩ := bind_eq_ok h
  split at h
  · cases h
  · cases h
  · rename_i n hdirectory hnode
    obtain ⟨l, hl, h⟩ := bind_eq_ok h
    refine ⟨p, n, l, hp, hnode, hdirectory, hl, ?_⟩
    split at h <;> cases h
    · exact .inl ⟨‹_›, rfl⟩
    · exact .inr ⟨‹_›, rfl⟩

theorem writable_ok {l : Location} (h : d.writable cwd path = .ok l) :
    d.locate cwd path = .ok ⟨l, false⟩ ∧ d.node? l ≠ some .directory := by
  obtain ⟨hlocate, ⟨content, executable, hnode⟩ | ⟨hnone, -⟩⟩ := writable_cases h
  · exact ⟨hlocate, by simp [hnode]⟩
  · exact ⟨hlocate, by simp [hnone]⟩

/-- A file is made in a directory. -/
theorem parent_of_writable {l : Location} (h : d.writable cwd path = .ok l) (hnone : d.fileAt l = none) :
    d.node? l.dropLast = some .directory := by
  obtain ⟨-, ⟨content, executable, hnode⟩ | ⟨-, hparent⟩⟩ := writable_cases h
  · rw [fileAt_eq_some_iff.2 hnode] at hnone
    cases hnone
  · exact hparent

theorem writable_of_directory {l : Location} {asDirectory : Bool}
    (h : d.locate cwd path = .ok ⟨l, asDirectory⟩) (hnode : d.node? l = some .directory) :
    d.writable cwd path = .error .isADirectory := by
  simp [writable, h, hnode, bind, Except.bind]

theorem store_spec {l : Location} (hl : l ≠ []) (content : ByteArray) :
    (∃ executable, (d.store l content).node? l = some (.file content executable)) ∧
      ∀ l', l ≠ l' → (d.store l content).node? l' = d.node? l' := by
  unfold store
  split
  · exact ⟨⟨_, node?_insert_self d l _ hl⟩, fun l' hne => node?_insert_of_ne d _ hne⟩
  · exact ⟨⟨_, node?_insert_self d l _ hl⟩, fun l' hne => node?_insert_of_ne d _ hne⟩

/-- What is written is at the location of the path, and nothing else changes. -/
theorem writeBytes_ok {content : ByteArray} (h : d.writeBytes cwd path content = .ok d') :
    d.locate cwd path = .ok ⟨Location.ofPath cwd path, false⟩ ∧
      Changes (· = Location.ofPath cwd path) (fun _ => False) d d' ∧
      ∃ executable, d'.node? (Location.ofPath cwd path) = some (.file content executable) := by
  obtain ⟨l, hw, rfl⟩ := writeBytes_cases h
  obtain ⟨hlocate, hnode⟩ := writable_ok hw
  obtain rfl : l = Location.ofPath cwd path := locate_ok hlocate
  obtain ⟨hself, hother⟩ := store_spec (d := d) (ne_nil_of_node? hnode) content
  exact ⟨hlocate, changes_of_node? hnode hother, hself⟩

theorem removeFile_of_node? {p : Place} {content : ByteArray} {executable : Bool}
    (h : d.locate cwd path = .ok p) (hp : p.asDirectory = false)
    (hnode : d.node? p.location = some (.file content executable)) :
    d.removeFile cwd path = .ok (d.erase p.location) := by
  simp [removeFile, h, hp, hnode, bind, Except.bind]

theorem removeFile_ok (h : d.removeFile cwd path = .ok d') :
    Changes (· = Location.ofPath cwd path) (fun _ => False) d d' ∧
      d'.node? (Location.ofPath cwd path) = none := by
  obtain ⟨p, content, executable, hp, hnode, rfl⟩ := removeFile_cases h
  rw [locate_ok hp] at hnode ⊢
  have hne : d.node? (Location.ofPath cwd path) ≠ some .directory := by
    rw [hnode]
    simp
  exact ⟨changes_of_node? hne fun l' hl' => node?_erase_of_ne d hl',
    node?_erase_self d (ne_nil_of_node? hne)⟩

/-- A location that a path passes on its way, or leads to. -/
def Passes (cwd : Location) (path : String) (l : Location) : Prop :=
  ∃ front rest, Path.pieces path = front ++ rest ∧
    l = Location.follow (if Path.isAbsolute path then [] else cwd) front

theorem append_changes (d : Disk) (cwd : Location) (path : String) (more : ByteArray) :
    Changes (· = Location.ofPath cwd path) (fun _ => False) d (d.append cwd path more) := by
  unfold append
  cases hp : d.locate cwd path with
  | error e => exact Changes.refl _ _ d
  | ok p =>
    dsimp only
    rw [locate_ok hp]
    split
    · rename_i content executable hnode
      exact changes_of_node? (by rw [hnode]; simp) fun l' hl' => node?_insert_of_ne d _ hl'
    · exact Changes.refl _ _ d

/-- A file that is moved leaves its place and takes another. -/
theorem rename_ok {source target : String} (h : d.rename cwd source target = .ok d') :
    Changes (fun l => l = Location.ofPath cwd source ∨ l = Location.ofPath cwd target)
      (fun _ => False) d d' := by
  obtain ⟨p, n, l, hp, hnode, hfile, hw, hd'⟩ := rename_cases h
  obtain ⟨hlocate, hfree⟩ := writable_ok hw
  obtain rfl : l = Location.ofPath cwd target := locate_ok hlocate
  rw [locate_ok hp] at hnode hd'
  obtain ⟨-, rfl⟩ | ⟨hne, rfl⟩ := hd'
  · exact Changes.refl _ _ _
  · have hinsert : Changes (· = Location.ofPath cwd target) (fun _ => False) d
        (d.insert (Location.ofPath cwd target) n) :=
      changes_of_node? hfree fun l' hl' => node?_insert_of_ne d n hl'
    have hmoved : (d.insert (Location.ofPath cwd target) n).node? (Location.ofPath cwd source) ≠
        some .directory := by
      rw [node?_insert_of_ne d n (Ne.symm hne), hnode]
      exact fun he => hfile (Option.some.inj he)
    have herase := changes_of_node? hmoved fun l' hl' =>
      node?_erase_of_ne (d.insert (Location.ofPath cwd target) n) hl'
    exact (hinsert.mono (fun _ hl => .inr hl) fun _ hm => hm).trans
      (herase.mono (fun _ hl => .inl hl) fun _ hm => hm)

/-- A file that is moved is no longer where it was. -/
theorem node?_source_of_rename {source target : String} (h : d.rename cwd source target = .ok d')
    (hne : Location.ofPath cwd source ≠ Location.ofPath cwd target) :
    d'.node? (Location.ofPath cwd source) = none := by
  obtain ⟨p, n, l, hp, hnode, hfile, hw, hd'⟩ := rename_cases h
  obtain rfl : l = Location.ofPath cwd target := locate_ok (writable_ok hw).1
  rw [locate_ok hp] at hnode hd'
  obtain ⟨heq, -⟩ | ⟨-, rfl⟩ := hd'
  · exact absurd heq hne
  · refine node?_erase_self _ (ne_nil_of_node? (d := d) ?_)
    rw [hnode]
    exact fun he => hfile (Option.some.inj he)

theorem makeDirectory_ok (h : d.makeDirectory cwd path = .ok d') :
    Changes (fun _ => False) (· = Location.ofPath cwd path) d d' := by
  obtain ⟨p, hp, hnone, rfl⟩ := makeDirectory_cases h
  rw [← locate_ok hp]
  exact changes_insert hnone

theorem makeWalk_changes (ps : List String) (d : Disk) (dir : Location) :
    Changes (fun _ => False)
      (fun l => ∃ front rest, ps = front ++ rest ∧ l = Location.follow dir front) d
      (d.makeWalk dir ps).1 := by
  have hstep : ∀ {dir dir' : Location} {q : String} {ps : List String},
      (∀ front, Location.follow dir (q :: front) = Location.follow dir' front) →
      ∀ l, (∃ front rest, ps = front ++ rest ∧ l = Location.follow dir' front) →
        ∃ front rest, q :: ps = front ++ rest ∧ l = Location.follow dir front := by
    rintro dir dir' q ps hdir l ⟨front, rest, rfl, rfl⟩
    exact ⟨q :: front, rest, rfl, (hdir front).symm⟩
  fun_induction makeWalk d dir ps with
  | case2 d dir q ps hskip ih =>
    exact ih.mono (fun _ h => h) (hstep fun front => by rw [Location.follow, if_pos hskip])
  | case3 d dir q ps hskip hup ih =>
    exact ih.mono (fun _ h => h)
      (hstep fun front => by rw [Location.follow, if_neg hskip, if_pos hup])
  | case5 d dir q ps hskip hup _ next _ ih =>
    exact ih.mono (fun _ h => h)
      (hstep fun front => by rw [Location.follow, if_neg hskip, if_neg hup])
  | case8 d dir q ps hskip hup _ next hnone _ ih =>
    have hname : ∀ front, Location.follow dir (q :: front) = Location.follow next front :=
      fun front => by rw [Location.follow, if_neg hskip, if_neg hup]
    have hmade : ∀ l, l = next →
        ∃ front rest, q :: ps = front ++ rest ∧ l = Location.follow dir front :=
      fun l hl => ⟨[q], ps, rfl, by rw [hl, hname]; rfl⟩
    exact ((changes_insert hnone).mono (fun _ h => h) hmade).trans
      (ih.mono (fun _ h => h) (hstep hname))
  | _ => exact Changes.refl _ _ _

/-- Making directories only makes directories, and those on the way of the path. -/
theorem makeDirectories_changes (d : Disk) (cwd : Location) (path : String) :
    Changes (fun _ => False) (Passes cwd path) d (d.makeDirectories cwd path).1 := by
  unfold makeDirectories
  split
  · exact Changes.refl _ _ d
  · split
    · exact Changes.refl _ _ d
    · exact makeWalk_changes _ d _

end

end PolicyForge.Disk
