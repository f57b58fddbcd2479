import PolicyForge.Host.Basic
import PolicyForge.Proofs.Host.Disk
import PolicyForge.Proofs.Host.Interrupt
/-!
# Jobs in steps

What a job does is what its steps do one after the other, up to the first that fails.  A `Frame` is
something that a job leaves as it was, up to what any number of jobs may add; a job keeps a frame if
each of its steps does.
-/
namespace PolicyForge

namespace Act

variable {ε ε' α β : Type}

/-! ## One step after the other -/

theorem bind_of_ok {a : Act ε α} {f : α → Act ε β} {h mid : Host} {x : α}
    (ha : a h = (.ok x, mid)) : (a >>= f) h = f x mid := by
  show (StateT.bind a (ExceptT.bindCont f)) h = _
  rw [StateT.bind, ha]
  rfl

theorem bind_of_error {a : Act ε α} {f : α → Act ε β} {h mid : Host} {e : ε}
    (ha : a h = (.error e, mid)) : (a >>= f) h = (.error e, mid) := by
  show (StateT.bind a (ExceptT.bindCont f)) h = _
  rw [StateT.bind, ha]
  rfl

theorem bind_congr_left {a b : Act ε α} {h h' : Host} (hab : a h = b h') (f : α → Act ε β) :
    (a >>= f) h = (b >>= f) h' := by
  rcases hb : b h' with ⟨e | x, mid⟩
  · rw [bind_of_error hb, bind_of_error (hab.trans hb)]
  · rw [bind_of_ok hb, bind_of_ok (hab.trans hb)]

theorem pure_ok {x y : α} {h h' : Host} (hx : (pure x : Act ε α) h = (.ok y, h')) : y = x :=
  (Except.ok.inj (Prod.mk.inj hx).1).symm

theorem bind_ok {a : Act ε α} {f : α → Act ε β} {h h' : Host} {y : β}
    (hab : (a >>= f) h = (.ok y, h')) : ∃ x mid, a h = (.ok x, mid) ∧ f x mid = (.ok y, h') := by
  cases ha : a h with
  | mk result mid =>
    cases result with
    | ok x => exact ⟨x, mid, rfl, (bind_of_ok ha).symm.trans hab⟩
    | error e =>
      rw [bind_of_error ha] at hab
      cases hab

theorem bind_error {a : Act ε α} {f : α → Act ε β} {h h' : Host} {e : ε}
    (hab : (a >>= f) h = (.error e, h')) :
    a h = (.error e, h') ∨ ∃ x mid, a h = (.ok x, mid) ∧ f x mid = (.error e, h') := by
  cases ha : a h with
  | mk result mid =>
    cases result with
    | ok x => exact .inr ⟨x, mid, rfl, (bind_of_ok ha).symm.trans hab⟩
    | error e' =>
      rw [bind_of_error ha] at hab
      cases hab
      exact .inl rfl

theorem exists_ok_of_isOk {a : Act ε α} {h : Host} (ha : (a h).1.isOk = true) :
    ∃ x, a h = (.ok x, (a h).2) := by
  cases hr : (a h).1 with
  | ok x => exact ⟨x, Prod.ext hr rfl⟩
  | error e =>
    rw [hr] at ha
    cases ha

theorem mapError_error {f : ε → ε'} {a : Act ε α} {h h' : Host} {e' : ε'}
    (ha : a.mapError f h = (.error e', h')) : ∃ e, a h = (.error e, h') ∧ e' = f e := by
  unfold mapError at ha
  split at ha
  · cases ha
  · rename_i e mid hmid
    cases ha
    exact ⟨e, hmid, rfl⟩

theorem mapError_of_ok (f : ε → ε') {a : Act ε α} {h h' : Host} {x : α}
    (ha : a h = (.ok x, h')) : a.mapError f h = (.ok x, h') := by
  rw [mapError, ha]

theorem mapError_of_error (f : ε → ε') {a : Act ε α} {h h' : Host} {e : ε}
    (ha : a h = (.error e, h')) : a.mapError f h = (.error (f e), h') := by
  rw [mapError, ha]

theorem mapError_ok {f : ε → ε'} {a : Act ε α} {h h' : Host} {x : α}
    (ha : a.mapError f h = (.ok x, h')) : a h = (.ok x, h') := by
  unfold mapError at ha
  split at ha
  · rename_i mid hmid
    cases ha
    exact hmid
  · cases ha

theorem attempt_of_eq {a : Act ε α} {result : Except ε α} {h h' : Host} (ha : a h = (result, h')) :
    (attempt a : Act ε' (Except ε α)) h = (.ok result, h') := by
  rw [attempt, ha]

theorem attempt_ok {a : Act ε α} {result : Except ε α} {h h' : Host}
    (ha : (attempt a : Act ε' (Except ε α)) h = (.ok result, h')) : a h = (result, h') :=
  Prod.ext (Except.ok.inj (Prod.mk.inj ha).1) (Prod.mk.inj ha).2

/-! ## Single steps -/

section

variable {h h' : Host} {wrap : IoError → ε} {path : String}

theorem ask_eq (f : Host → α) (h : Host) : (ask f : Act ε α) h = (.ok (f h), h) := rfl

theorem ask_ok_iff {f : Host → α} {x : α} : (ask f : Act ε α) h = (.ok x, h) ↔ f h = x := by
  refine ⟨fun heq => Except.ok.inj (Prod.mk.inj heq).1, fun heq => ?_⟩
  rw [ask, heq]

theorem look_of_isSet (hs : h.interrupt.isSet = true) : (look : Act ε Bool) h = (.ok true, h) := by
  rw [look, hs, Interrupt.isSet_afterLook hs]

theorem look_of_quiet (hs : h.interrupt.isSet = false) :
    (look : Act ε Bool) h = (.ok false, { h with interrupt := h.interrupt.afterLook }) := by
  rw [look, hs]

theorem checkpoint_of_isSet (cancelled : ε) (hs : h.interrupt.isSet = true) :
    checkpoint cancelled h = (.error cancelled, h) :=
  (bind_of_ok (look_of_isSet hs)).trans rfl

theorem checkpoint_of_quiet (cancelled : ε) (hs : h.interrupt.isSet = false) :
    checkpoint cancelled h = (.ok (), { h with interrupt := h.interrupt.afterLook }) :=
  (bind_of_ok (look_of_quiet hs)).trans rfl

theorem checkpoint_of_quietAt (cancelled : ε) (hq : h.interrupt.QuietAt 0) :
    checkpoint cancelled h = (.ok (), { h with interrupt := h.interrupt.afterLook }) :=
  checkpoint_of_quiet cancelled (Interrupt.isSet_eq_false_iff.2 hq)

theorem checkpoint_of_not_quietAt (cancelled : ε) (hq : ¬h.interrupt.QuietAt 0) :
    checkpoint cancelled h = (.error cancelled, h) := by
  refine checkpoint_of_isSet cancelled ?_
  rw [← Bool.not_eq_false]
  exact fun hs => hq (Interrupt.isSet_eq_false_iff.1 hs)

theorem checkpoint_ok {cancelled : ε} (ha : checkpoint cancelled h = (.ok (), h')) :
    h' = { h with interrupt := h.interrupt.afterLook } := by
  cases hs : h.interrupt.isSet with
  | true =>
    rw [checkpoint_of_isSet cancelled hs] at ha
    cases ha
  | false =>
    rw [checkpoint_of_quiet cancelled hs] at ha
    exact (Prod.mk.inj ha).2.symm

theorem checkpoint_error {cancelled e : ε} (ha : checkpoint cancelled h = (.error e, h')) :
    e = cancelled ∧ h' = h := by
  cases hs : h.interrupt.isSet with
  | true =>
    rw [checkpoint_of_isSet cancelled hs] at ha
    cases ha
    exact ⟨rfl, rfl⟩
  | false =>
    rw [checkpoint_of_quiet cancelled hs] at ha
    cases ha

theorem changing_of_ok {f : Disk → Location → Except IoError Disk} {d : Disk}
    (hf : f h.disk h.cwd = .ok d) : changing wrap f h = (.ok (), { h with disk := d }) := by
  rw [changing, hf]

theorem changing_of_error {f : Disk → Location → Except IoError Disk} {i : IoError}
    (hf : f h.disk h.cwd = .error i) : changing wrap f h = (.error (wrap i), h) := by
  rw [changing, hf]

theorem reading_of_ok {f : Disk → Location → Except IoError α} {x : α}
    (hf : f h.disk h.cwd = .ok x) : reading wrap f h = (.ok x, h) := by
  rw [reading, hf]

theorem reading_of_error {f : Disk → Location → Except IoError α} {i : IoError}
    (hf : f h.disk h.cwd = .error i) : reading wrap f h = (.error (wrap i), h) := by
  rw [reading, hf]

theorem changing_ok {f : Disk → Location → Except IoError Disk}
    (ha : changing wrap f h = (.ok (), h')) :
    ∃ d, f h.disk h.cwd = .ok d ∧ h' = { h with disk := d } := by
  unfold changing at ha
  split at ha
  · rename_i d hd
    cases ha
    exact ⟨d, hd, rfl⟩
  · cases ha

theorem changing_error {f : Disk → Location → Except IoError Disk} {e : ε}
    (ha : changing wrap f h = (.error e, h')) : (∃ i, e = wrap i) ∧ h' = h := by
  unfold changing at ha
  split at ha
  · cases ha
  · rename_i i hi
    cases ha
    exact ⟨⟨i, rfl⟩, rfl⟩

theorem reading_ok {f : Disk → Location → Except IoError α} {x : α}
    (ha : reading wrap f h = (.ok x, h')) : f h.disk h.cwd = .ok x ∧ h' = h := by
  unfold reading at ha
  split at ha
  · rename_i y hy
    cases ha
    exact ⟨hy, rfl⟩
  · cases ha

theorem reading_error {f : Disk → Location → Except IoError α} {e : ε}
    (ha : reading wrap f h = (.error e, h')) : (∃ i, e = wrap i) ∧ h' = h := by
  unfold reading at ha
  split at ha
  · cases ha
  · cases ha
    exact ⟨⟨_, rfl⟩, rfl⟩

end

end Act

/-! ## Frames -/

/-- What a job may do to a host, if any number of jobs together may do no more.  It is told of the
disk, as seen from the working directory. -/
structure Frame where
  rel : Host → Host → Prop
  same : ∀ {h h'}, h'.disk = h.disk → h'.cwd = h.cwd → rel h h'
  trans : ∀ {h h' h''}, rel h h' → rel h' h'' → rel h h''

namespace Frame

theorem refl (F : Frame) (h : Host) : F.rel h h := F.same rfl rfl

/-- Nothing changes on the disk but what is at the `written` locations, and that directories are
made at `made` locations. -/
def changes (cwd : Location) (written made : Location → Prop) : Frame where
  rel h h' := h.cwd = cwd → h'.cwd = cwd ∧ h.disk.Changes written made h'.disk
  same hdisk hcwd' hcwd := ⟨hcwd'.trans hcwd, hdisk ▸ .refl _ _ _⟩
  trans hab hbc hcwd :=
    ⟨(hbc (hab hcwd).1).1, (hab hcwd).2.trans (hbc (hab hcwd).1).2⟩

/-- The file at a location stays as it is. -/
def file (cwd : Location) (l : Location) : Frame where
  rel h h' := h.cwd = cwd → h'.cwd = cwd ∧ h'.disk.fileAt l = h.disk.fileAt l
  same hdisk hcwd' hcwd := ⟨hcwd'.trans hcwd, by rw [hdisk]⟩
  trans hab hbc hcwd := ⟨(hbc (hab hcwd).1).1, (hbc (hab hcwd).1).2.trans (hab hcwd).2⟩

/-- The working directory stays. -/
def stays (cwd : Location) : Frame where
  rel h h' := h.cwd = cwd → h'.cwd = cwd
  same _ hcwd' hcwd := hcwd'.trans hcwd
  trans hab hbc hcwd := hbc (hab hcwd)

/-- What is at a location stays as it is. -/
def place (cwd : Location) (l : Location) : Frame where
  rel h h' := h.cwd = cwd → h'.cwd = cwd ∧ h'.disk.node? l = h.disk.node? l
  same hdisk hcwd' hcwd := ⟨hcwd'.trans hcwd, by rw [hdisk]⟩
  trans hab hbc hcwd := ⟨(hbc (hab hcwd).1).1, (hbc (hab hcwd).1).2.trans (hab hcwd).2⟩

/-- No directory is made at a location. -/
def noDirectory (cwd : Location) (l : Location) : Frame where
  rel h h' := h.cwd = cwd →
    h'.cwd = cwd ∧ (h'.disk.node? l = some .directory → h.disk.node? l = some .directory)
  same hdisk hcwd' hcwd := ⟨hcwd'.trans hcwd, by rw [hdisk]; exact id⟩
  trans hab hbc hcwd :=
    ⟨(hbc (hab hcwd).1).1, fun hdir => (hab hcwd).2 ((hbc (hab hcwd).1).2 hdir)⟩

section

variable {cwd l : Location} {written written' made made' : Location → Prop}

theorem changes_mono (hw : ∀ l, written l → written' l) (hm : ∀ l, made l → made' l) :
    ∀ h h', (changes cwd written made).rel h h' → (changes cwd written' made').rel h h' :=
  fun _ _ hrel hcwd => ⟨(hrel hcwd).1, (hrel hcwd).2.mono hw hm⟩

theorem file_of_changes (hl : ¬written l) :
    ∀ h h', (changes cwd written made).rel h h' → (file cwd l).rel h h' :=
  fun _ _ hrel hcwd => ⟨(hrel hcwd).1, (hrel hcwd).2.fileAt hl⟩

theorem place_of_changes (hl : ¬written l) (hm : ¬made l) :
    ∀ h h', (changes cwd written made).rel h h' → (place cwd l).rel h h' := by
  intro h h' hrel hcwd
  refine ⟨(hrel hcwd).1, ?_⟩
  rcases (hrel hcwd).2.other l hl with hsame | ⟨hmade, -⟩
  · exact hsame
  · exact absurd hmade hm

theorem stays_of_changes : ∀ h h', (changes cwd written made).rel h h' → (stays cwd).rel h h' :=
  fun _ _ hrel hcwd => (hrel hcwd).1

theorem stays_of_place : ∀ h h', (place cwd l).rel h h' → (stays cwd).rel h h' :=
  fun _ _ hrel hcwd => (hrel hcwd).1

theorem file_of_place : ∀ h h', (place cwd l).rel h h' → (file cwd l).rel h h' :=
  fun _ _ hrel hcwd => ⟨(hrel hcwd).1, by rw [Disk.fileAt, Disk.fileAt, (hrel hcwd).2]⟩

theorem noDirectory_of_place : ∀ h h', (place cwd l).rel h h' → (noDirectory cwd l).rel h h' :=
  fun _ _ hrel hcwd => ⟨(hrel hcwd).1, fun hdir => (hrel hcwd).2.symm.trans hdir⟩

end

end Frame

namespace Act

variable {ε ε' α β : Type} {F G : Frame}

/-- The job does no more than the frame allows, whether it goes well or fails. -/
def Keeps (F : Frame) (a : Act ε α) : Prop := ∀ h, F.rel h (a h).2

theorem Keeps.of_eq {a : Act ε α} (ha : Keeps F a) {h h' : Host} {r : Except ε α}
    (hr : a h = (r, h')) : F.rel h h' := by
  have h := ha h
  rw [hr] at h
  exact h

theorem keeps_of_rel {a : Act ε α} (hFG : ∀ h h', F.rel h h' → G.rel h h') (ha : Keeps F a) :
    Keeps G a := fun h => hFG _ _ (ha h)

theorem keeps_pure (x : α) : Keeps F (pure x : Act ε α) := fun h => F.refl h

theorem keeps_throw (e : ε) : Keeps F (throw e : Act ε α) := fun h => F.refl h

theorem keeps_ask (f : Host → α) : Keeps F (ask f : Act ε α) := fun h => F.refl h

/-- A job keeps a frame if its first part does, and its second with whatever the first comes to. -/
theorem Keeps.bind_of_ok {a : Act ε α} {f : α → Act ε β} (ha : Keeps F a)
    (hf : ∀ x h mid, a h = (.ok x, mid) → Keeps F (f x)) : Keeps F (a >>= f) := by
  intro h
  cases hr : a h with
  | mk result mid =>
    have hmid := ha.of_eq hr
    cases result with
    | ok x =>
      rw [Act.bind_of_ok hr]
      exact F.trans hmid (hf x h mid hr mid)
    | error e =>
      rw [bind_of_error hr]
      exact hmid

theorem Keeps.bind {a : Act ε α} {f : α → Act ε β} (ha : Keeps F a) (hf : ∀ x, Keeps F (f x)) :
    Keeps F (a >>= f) := ha.bind_of_ok fun x _ _ _ => hf x

theorem Keeps.mapError {f : ε → ε'} {a : Act ε α} (ha : Keeps F a) : Keeps F (a.mapError f) := by
  intro h
  have hrel := ha h
  unfold Act.mapError
  split <;> rename_i hr <;> rw [hr] at hrel <;> exact hrel

theorem Keeps.attempt {a : Act ε α} (ha : Keeps F a) :
    Keeps F (Act.attempt a : Act ε' (Except ε α)) := ha

theorem keeps_ofExcept (r : Except ε α) : Keeps F (ofExcept r) := fun h => F.refl h

theorem keeps_look : Keeps F (look : Act ε Bool) := fun _ => F.same rfl rfl

theorem keeps_update {f : Host → Host} (hdisk : ∀ h, (f h).disk = h.disk)
    (hcwd : ∀ h, (f h).cwd = h.cwd) : Keeps F (update f : Act ε Unit) := fun h =>
  F.same (hdisk h) (hcwd h)

theorem keeps_freshNumber : Keeps F (freshNumber : Act ε Nat) := fun _ => F.same rfl rfl

theorem keeps_request (address : String) : Keeps F (request address : Act ε Exchange) :=
  fun _ => F.same rfl rfl

theorem keeps_checkpoint (cancelled : ε) : Keeps F (checkpoint cancelled) := by
  refine keeps_look.bind fun b => ?_
  cases b with
  | true => exact keeps_throw cancelled
  | false => exact keeps_pure ()

theorem keeps_reading (wrap : IoError → ε) (f : Disk → Location → Except IoError α) :
    Keeps F (reading wrap f) := by
  intro h
  unfold reading
  split <;> exact F.refl h

section

variable (cwd : Location) (made : Location → Prop) (wrap : IoError → ε) (path : String)

theorem keeps_changing {written : Location → Prop} {f : Disk → Location → Except IoError Disk}
    (hf : ∀ d d', f d cwd = .ok d' → d.Changes written (fun _ => False) d') :
    Keeps (.changes cwd written made) (changing wrap f) := by
  intro h hcwd
  cases hr : changing wrap f h with
  | mk result h' =>
    cases result with
    | ok u =>
      obtain ⟨d, hd, rfl⟩ := changing_ok hr
      exact ⟨hcwd, (hf _ _ (hcwd ▸ hd)).mono (fun _ hl => hl) fun _ hl => hl.elim⟩
    | error e =>
      obtain ⟨-, rfl⟩ := changing_error hr
      exact ⟨hcwd, .refl _ _ _⟩

theorem keeps_writeBytes (content : ByteArray) :
    Keeps (.changes cwd (· = Location.ofPath cwd path) made) (writeBytes wrap path content) :=
  keeps_changing cwd made wrap fun _ _ hd => (Disk.writeBytes_ok hd).2.1

theorem keeps_writeText (text : String) :
    Keeps (.changes cwd (· = Location.ofPath cwd path) made) (writeText wrap path text) :=
  keeps_writeBytes cwd made wrap path text.toUTF8

theorem keeps_append (more : ByteArray) :
    Keeps (.changes cwd (· = Location.ofPath cwd path) made) (append path more : Act ε Unit) := by
  rintro h rfl
  exact ⟨rfl, (h.disk.append_changes h.cwd path more).mono (fun _ hl => hl) fun _ hl => hl.elim⟩

theorem keeps_rename (target : String) :
    Keeps (.changes cwd (fun l => l = Location.ofPath cwd path ∨ l = Location.ofPath cwd target) made)
      (rename wrap path target) :=
  keeps_changing cwd made wrap fun _ _ hd => Disk.rename_ok hd

theorem keeps_removeFile :
    Keeps (.changes cwd (· = Location.ofPath cwd path) made) (removeFile wrap path) :=
  keeps_changing cwd made wrap fun _ _ hd => (Disk.removeFile_ok hd).1

theorem keeps_removeQuietly :
    Keeps (.changes cwd (· = Location.ofPath cwd path) made) (removeQuietly path : Act ε Unit) := by
  intro h hcwd
  unfold removeQuietly
  split
  · rename_i d hd
    exact ⟨hcwd, (Disk.removeFile_ok (hcwd ▸ hd)).1.mono (fun _ hl => hl) fun _ hl => hl.elim⟩
  · exact ⟨hcwd, .refl _ _ _⟩

theorem keeps_makeDirectories :
    Keeps (.changes cwd (fun _ => False) (Disk.Passes cwd path)) (makeDirectories wrap path) := by
  rintro h rfl
  have hchanges := h.disk.makeDirectories_changes h.cwd path
  unfold makeDirectories
  split <;> rename_i hd <;> rw [hd] at hchanges <;> exact ⟨rfl, hchanges⟩

/-! ### Where no directory is made -/

theorem keeps_changing_noDirectory (l : Location) {f : Disk → Location → Except IoError Disk}
    (hf : ∀ d d', f d cwd = .ok d' → d.Changes (· = Location.ofPath cwd path) (fun _ => False) d' ∧
      d'.node? (Location.ofPath cwd path) ≠ some .directory) :
    Keeps (.noDirectory cwd l) (changing wrap f) := by
  intro h hcwd
  cases hr : changing wrap f h with
  | mk result h' =>
    cases result with
    | error e =>
      obtain ⟨-, rfl⟩ := changing_error hr
      exact ⟨hcwd, id⟩
    | ok u =>
      obtain ⟨d, hd, rfl⟩ := changing_ok hr
      obtain ⟨hchanges, hfree⟩ := hf _ _ (hcwd ▸ hd)
      refine ⟨hcwd, fun hdir => ?_⟩
      by_cases hl : l = Location.ofPath cwd path
      · rw [hl] at hdir
        exact absurd hdir hfree
      · rcases hchanges.other l hl with hsame | ⟨hmade, -⟩
        · exact hsame.symm.trans hdir
        · exact hmade.elim

theorem keeps_writeText_noDirectory (l : Location) (text : String) :
    Keeps (.noDirectory cwd l) (writeText wrap path text) :=
  keeps_changing_noDirectory cwd wrap path l fun _ _ hd => by
    obtain ⟨-, hchanges, executable, hnode⟩ := Disk.writeBytes_ok hd
    exact ⟨hchanges, by rw [hnode]; simp⟩

theorem keeps_removeFile_noDirectory (l : Location) :
    Keeps (.noDirectory cwd l) (removeFile wrap path) :=
  keeps_changing_noDirectory cwd wrap path l fun _ _ hd => by
    obtain ⟨hchanges, hnone⟩ := Disk.removeFile_ok hd
    exact ⟨hchanges, by rw [hnone]; simp⟩

theorem removeQuietly_snd (h : Host) :
    ((removeQuietly path : Act ε Unit) h).2 = ((removeFile id path : Act IoError Unit) h).2 := by
  rw [removeQuietly, removeFile, changing]
  cases h.disk.removeFile h.cwd path <;> rfl

theorem keeps_removeQuietly_noDirectory (l : Location) :
    Keeps (.noDirectory cwd l) (removeQuietly path : Act ε Unit) := by
  intro h
  rw [removeQuietly_snd path h]
  exact keeps_removeFile_noDirectory cwd id path l h

end

theorem Keeps.mono {cwd : Location} {written written' made made' : Location → Prop} {a : Act ε α}
    (ha : Keeps (.changes cwd written made) a) (hw : ∀ l, written l → written' l)
    (hm : ∀ l, made l → made' l) : Keeps (.changes cwd written' made') a :=
  keeps_of_rel (Frame.changes_mono hw hm) ha

/-! ## Looking at a host -/

def Observes (a : Act ε α) : Prop := ∀ h : Host, h.interrupt = .quiet → (a h).2 = h

theorem Observes.eq {a : Act ε α} (ha : Observes a) {h h' : Host} {x : Except ε α}
    (hq : h.interrupt = .quiet) (hx : a h = (x, h')) : h' = h := by
  have hsame := ha h hq
  rw [hx] at hsame
  exact hsame

theorem observes_pure (x : α) : Observes (pure x : Act ε α) := fun _ _ => rfl

theorem observes_throw (e : ε) : Observes (throw e : Act ε α) := fun _ _ => rfl

theorem observes_ask (f : Host → α) : Observes (ask f : Act ε α) := fun _ _ => rfl

theorem observes_ofExcept (r : Except ε α) : Observes (ofExcept r) := fun _ _ => rfl

theorem observes_reading (wrap : IoError → ε) (f : Disk → Location → Except IoError α) :
    Observes (reading wrap f) := by
  intro h _
  unfold reading
  split <;> rfl

theorem checkpoint_of_undisturbed (cancelled : ε) {h : Host} (hq : h.interrupt = .quiet) :
    checkpoint cancelled h = (.ok (), h) := by
  have hs : h.interrupt.isSet = false := by
    rw [hq]
    rfl
  rw [checkpoint_of_quiet cancelled hs]
  cases h
  cases hq
  rfl

theorem observes_checkpoint (cancelled : ε) : Observes (checkpoint cancelled) := by
  intro h hq
  rw [checkpoint_of_undisturbed cancelled hq]

theorem Observes.bind {a : Act ε α} {f : α → Act ε β} (ha : Observes a) (hf : ∀ x, Observes (f x)) :
    Observes (a >>= f) := by
  intro h hq
  cases hr : a h with
  | mk result mid =>
    obtain rfl := ha.eq hq hr
    cases result with
    | ok x =>
      rw [bind_of_ok hr]
      exact hf x mid hq
    | error e => rw [bind_of_error hr]

theorem Observes.mapError {f : ε → ε'} {a : Act ε α} (ha : Observes a) : Observes (a.mapError f) := by
  intro h hq
  have hsame := ha h hq
  unfold Act.mapError
  split <;> rename_i hr <;> rw [hr] at hsame <;> exact hsame

/-! ## Writing and removing a file -/

theorem writeText_ok {wrap : IoError → ε} {path text : String} {h h' : Host}
    (ha : writeText wrap path text h = (.ok (), h')) :
    h'.cwd = h.cwd ∧ h.disk.locate h.cwd path = .ok ⟨Location.ofPath h.cwd path, false⟩ ∧
      h.disk.Changes (· = Location.ofPath h.cwd path) (fun _ => False) h'.disk ∧
      ∃ executable, h'.disk.node? (Location.ofPath h.cwd path) =
        some (.file text.toUTF8 executable) := by
  obtain ⟨d, hd, rfl⟩ := changing_ok (f := fun d cwd => d.writeBytes cwd path text.toUTF8) ha
  obtain ⟨hlocate, hchanges, hnode⟩ := Disk.writeBytes_ok hd
  exact ⟨rfl, hlocate, hchanges, hnode⟩

theorem writeText_error {wrap : IoError → ε} {path text : String} {h h' : Host} {e : ε}
    (ha : writeText wrap path text h = (.error e, h')) : (∃ i, e = wrap i) ∧ h' = h :=
  changing_error (f := fun d cwd => d.writeBytes cwd path text.toUTF8) ha

theorem readText_ok {wrap : IoError → ε} {path text : String} {h h' : Host}
    (ha : readText wrap path h = (.ok text, h')) : h.disk.readText h.cwd path = .ok text ∧ h' = h :=
  reading_ok (f := fun d cwd => d.readText cwd path) ha

theorem readText_error {wrap : IoError → ε} {path : String} {h h' : Host} {e : ε}
    (ha : readText wrap path h = (.error e, h')) : (∃ i, e = wrap i) ∧ h' = h :=
  reading_error (f := fun d cwd => d.readText cwd path) ha

theorem removeFile_error {wrap : IoError → ε} {path : String} {h h' : Host} {e : ε}
    (ha : removeFile wrap path h = (.error e, h')) : (∃ i, e = wrap i) ∧ h' = h :=
  changing_error (f := fun d cwd => d.removeFile cwd path) ha

theorem makeDirectories_error {wrap : IoError → ε} {path : String} {h h' : Host} {e : ε}
    (ha : makeDirectories wrap path h = (.error e, h')) : ∃ i, e = wrap i := by
  unfold makeDirectories at ha
  split at ha <;> cases ha
  exact ⟨_, rfl⟩

theorem removeQuietly_total (path : String) (h : Host) :
    ∃ h', (removeQuietly path : Act ε Unit) h = (.ok (), h') := by
  unfold removeQuietly
  split
  · exact ⟨_, rfl⟩
  · exact ⟨_, rfl⟩

/-- No file is left where one is removed, if the path can be walked. -/
theorem removeQuietly_spec {path : String} {h : Host}
    (hlocate : h.disk.locate h.cwd path = .ok ⟨Location.ofPath h.cwd path, false⟩) :
    ∃ h', (removeQuietly path : Act ε Unit) h = (.ok (), h') ∧ h'.cwd = h.cwd ∧
      h'.disk.fileAt (Location.ofPath h.cwd path) = none := by
  cases hr : h.disk.removeFile h.cwd path with
  | ok d =>
    refine ⟨{ h with disk := d }, by rw [removeQuietly, hr], rfl, ?_⟩
    rw [Disk.fileAt, (Disk.removeFile_ok hr).2]
  | error e =>
    refine ⟨h, by rw [removeQuietly, hr], rfl, ?_⟩
    rw [Disk.fileAt]
    split
    · rename_i content executable hnode
      rw [Disk.removeFile_of_node? hlocate rfl hnode] at hr
      cases hr
    · rfl

end Act

end PolicyForge
