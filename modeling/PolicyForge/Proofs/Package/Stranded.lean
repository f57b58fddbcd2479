import PolicyForge.Proofs.Framework.Installed
import PolicyForge.Proofs.Package.Filling
import Mathlib.Tactic.ByContra
/-!
# What a resolving that fails leaves in the cache

Resolving looks for the package of the runtime in the cache, and downloads it if it is not there
(`package_eq`).  A download that fails is given up, and its file goes.  A download that is received
is committed; but where a directory has the place of the slot it cannot be, and then its file stays
(`Strands`).  In no other case is a new file of a package on its way left (`resolve_newPartial_iff`).
-/
namespace PolicyForge

open Act

/-! ## Files of packages on their way -/

/-- A file of a package on its way is in the directory of the cache, and was not there before. -/
structure PackageCache.NewPartial (c : PackageCache) (cwd : Location) (d d' : Disk)
    (name : String) : Prop where
  partialName : ".partial".toList <:+ name.toList
  before : d.fileAt (.ofPath cwd c.dir ++ [name]) = none
  after : d'.fileAt (.ofPath cwd c.dir ++ [name]) ≠ none

theorem PackageCache.fileAt_of_noNewPartial {c : PackageCache} {cwd : Location} {d d' : Disk}
    {name : String} (hnone : ∀ name, ¬c.NewPartial cwd d d' name)
    (hpartial : ".partial".toList <:+ name.toList)
    (hbefore : d.fileAt (.ofPath cwd c.dir ++ [name]) = none) :
    d'.fileAt (.ofPath cwd c.dir ++ [name]) = none := by
  by_contra hafter
  exact hnone name ⟨hpartial, hbefore, hafter⟩

/-- No new file of a package on its way comes into the directory of the cache. -/
def Frame.noNewPartial (c : PackageCache) (cwd : Location) : Frame where
  rel h h' := h.cwd = cwd → h'.cwd = cwd ∧ ∀ name, ¬c.NewPartial cwd h.disk h'.disk name
  same hdisk hcwd' hcwd := ⟨hcwd'.trans hcwd, fun _ hnew => hnew.after (by rw [hdisk]; exact hnew.before)⟩
  trans {h h' h''} hab hbc hcwd := by
    obtain ⟨hcwd', hfirst⟩ := hab hcwd
    obtain ⟨hcwd'', hsecond⟩ := hbc hcwd'
    refine ⟨hcwd'', fun name hnew => ?_⟩
    have hmid := PackageCache.fileAt_of_noNewPartial hfirst hnew.partialName hnew.before
    exact hsecond name ⟨hnew.partialName, hmid, hnew.after⟩

theorem Frame.noNewPartial_of_changes {c : PackageCache} {cwd : Location} {made : Location → Prop} :
    ∀ h h', (Frame.changes cwd (fun _ => False) made).rel h h' → (noNewPartial c cwd).rel h h' :=
  fun _ _ hrel hcwd =>
    ⟨(hrel hcwd).1, fun _ hnew => hnew.after (((hrel hcwd).2.fileAt id).trans hnew.before)⟩

namespace PackageCache

variable {c : PackageCache} {v : Version} {p : IncomingPackage} {h h' : Host}

theorem not_partial_slotName (v : Version) : ¬".partial".toList <:+ (slotName v).toList := by
  intro hpartial
  have hzip : "_Package.zip".toList <:+ (slotName v).toList := by
    rw [slotName, String.toList_append]
    exact List.suffix_append _ _
  rcases List.suffix_or_suffix_of_suffix hpartial hzip with h | h <;> exact absurd h (by decide)

theorem partial_incomingName (v : Version) (id : String) :
    ".partial".toList <:+ (incomingName v id).toList := by
  rw [incomingName, String.toList_append]
  exact List.suffix_append _ _

/-- A package is started in a directory, if its file is a new one. -/
theorem hasDirectory_of_start (hv : v.IsSpelled) (hstart : c.start v h = (.ok p, h'))
    (hnone : h.disk.fileAt (.ofPath h.cwd p.path) = none) : h.disk.HasDirectory h.cwd c.dir := by
  obtain ⟨⟨hpath, -⟩, -⟩ := start_ok hstart
  obtain ⟨n, h₁, hn, hstart⟩ := bind_ok hstart
  cases hn
  obtain ⟨_, h₂, hwrite, -⟩ := bind_ok hstart
  obtain ⟨d, hd, -⟩ := changing_ok
    (f := fun d cwd => d.writeBytes cwd (Path.join c.dir (incomingName v (identifierOf h.fresh)))
      .empty) hwrite
  rw [hpath] at hnone
  obtain ⟨l, hw, -⟩ := Disk.writeBytes_cases hd
  have hl : l = .ofPath h.cwd (Path.join c.dir (incomingName v (identifierOf h.fresh))) :=
    Disk.locate_ok (Disk.writable_ok hw).1
  rw [← hl] at hnone
  exact Disk.hasDirectory_of_writable (isEntry_incomingName hv _) hw hnone

end PackageCache

/-! ## Looking for the package -/

namespace ReferenceResolver

/-- What comes of looking for the package of the runtime in the cache. -/
inductive Finding where
  | package (path : String)
  | missing (v : Version)

/-- Looks for the package of the runtime in the cache. -/
def lookUp (r : ReferenceResolver) : Act ReferenceError Finding := do
  Act.checkpoint .cancelled
  let runtime ← r.runtime.identify
  if !runtime.isSupported then throw (.unsupportedRuntime runtime)
  Act.checkpoint .cancelled
  r.cache.ensure.mapError .io
  if ← r.cache.isUsable runtime.version then return .package (r.cache.slot runtime.version)
  Act.checkpoint .cancelled
  return .missing runtime.version

/-- The package that has been found, or is downloaded. -/
def provide (r : ReferenceResolver) : Finding → Act ReferenceError String
  | .package path => return path
  | .missing v => r.fill v

theorem package_eq (r : ReferenceResolver) : r.package = (do
    let finding ← r.lookUp
    r.provide finding) := by
  unfold package lookUp
  simp only [bind_assoc]
  refine bind_congr fun _ => bind_congr fun runtime => ?_
  cases runtime.isSupported with
  | false => rfl
  | true =>
    simp only [Bool.not_true, Bool.false_eq_true, if_false, bind_assoc]
    refine bind_congr fun _ => bind_congr fun _ => bind_congr fun usable => ?_
    cases usable <;> simp [provide]

variable {r : ReferenceResolver} {v : Version} {h h' k : Host}

/-- The disk after resolving is that after looking for the package, or after downloading it. -/
theorem disk_of_resolve {result : Except ReferenceError (List Reference)}
    (hr : r.resolve h = (result, h')) :
    (∃ finding k, r.lookUp h = (finding, k) ∧ (∀ v, finding ≠ .ok (.missing v)) ∧
      h'.disk = k.disk) ∨
      ∃ v k found mid, r.lookUp h = (.ok (.missing v), k) ∧ r.fill v k = (found, mid) ∧
        h'.disk = mid.disk := by
  obtain ⟨found, mid, hp, hdisk, -⟩ := resolve_cases hr
  obtain ⟨finding, k, hlook⟩ : ∃ finding k, r.lookUp h = (finding, k) := ⟨_, _, (Prod.eta _).symm⟩
  rw [package_eq] at hp
  cases finding with
  | error e =>
    rw [bind_of_error hlook] at hp
    exact .inl ⟨_, k, hlook, nofun, by rw [hdisk, (Prod.mk.inj hp).2]⟩
  | ok finding =>
    rw [bind_of_ok hlook] at hp
    cases finding with
    | package path => exact .inl ⟨_, k, hlook, nofun, by rw [hdisk, (Prod.mk.inj hp).2]⟩
    | missing v => exact .inr ⟨v, k, found, mid, hlook, hp, hdisk⟩

theorem keeps_lookUp {F : Frame} {cwd : Location}
    (hF : ∀ h h', (Frame.changes cwd (fun _ => False) (Disk.Passes cwd r.cache.dir)).rel h h' →
      F.rel h h') (hid : Keeps F r.runtime.identify) : Keeps F r.lookUp := by
  have hensure : Keeps F (r.cache.ensure.mapError ReferenceError.io) :=
    (keeps_of_rel hF (keeps_makeDirectories cwd id r.cache.dir)).mapError
  refine (keeps_checkpoint _).bind fun _ => hid.bind fun runtime => ?_
  cases runtime.isSupported with
  | false => exact keeps_throw _
  | true =>
    refine (keeps_checkpoint _).bind fun _ => hensure.bind fun _ => (keeps_ask _).bind fun usable => ?_
    cases usable with
    | true => exact keeps_pure _
    | false => exact (keeps_checkpoint _).bind fun _ => keeps_pure _

/-- What is found is the slot of the runtime, and what is missing cannot be used. -/
theorem lookUp_ok {finding : Finding} (hlook : r.lookUp h = (.ok finding, k)) :
    ∃ runtime mid, r.runtime.identify { h with interrupt := h.interrupt.afterLook } = (.ok runtime, mid) ∧
      runtime.isSupported = true ∧ (finding = .package (r.cache.slot runtime.version) ∨
        finding = .missing runtime.version ∧
          (r.cache.isUsable runtime.version : Act ReferenceError Bool) k = (.ok false, k)) := by
  obtain ⟨_, h₁, hquiet, hlook⟩ := bind_ok hlook
  obtain rfl := checkpoint_ok hquiet
  obtain ⟨runtime, h₂, hid, hlook⟩ := bind_ok hlook
  refine ⟨runtime, h₂, hid, ?_⟩
  cases hs : runtime.isSupported with
  | false =>
    rw [hs] at hlook
    cases hlook
  | true =>
    rw [hs] at hlook
    obtain ⟨_, h₃, -, hlook⟩ := bind_ok hlook
    obtain ⟨_, h₄, -, hlook⟩ := bind_ok hlook
    obtain ⟨usable, h₅, husable, hlook⟩ := bind_ok hlook
    refine ⟨rfl, ?_⟩
    cases usable with
    | true =>
      cases hlook
      exact .inl rfl
    | false =>
      obtain ⟨_, h₆, hquiet', hlook⟩ := bind_ok hlook
      obtain rfl := checkpoint_ok hquiet'
      cases hlook
      obtain rfl := (Prod.mk.inj husable).2
      exact .inr ⟨rfl, PackageCache.isUsable_of_interrupt husable h₄.interrupt.afterLook⟩

/-! ## What becomes of the file of a download -/

variable {p : IncomingPackage} {chunks : List ByteArray}

theorem locate_slot (hv : v.IsSpelled) (hstart : r.cache.start v h = (.ok p, k))
    (hd : h.disk.HasDirectory h.cwd r.cache.dir) :
    (PackageCache.slotName v).utf8ByteSize ≤ Disk.maxName ∧
      h.disk.locate h.cwd (r.cache.slot v) = .ok ⟨.ofPath h.cwd (r.cache.slot v), false⟩ := by
  obtain ⟨⟨hpath, -⟩, -, hlocate, -⟩ := PackageCache.start_ok hstart
  rw [hpath] at hlocate
  have hshort := Nat.le_trans (PackageCache.slotName_size v _)
    (hd.short (PackageCache.isEntry_incomingName hv _) hlocate)
  refine ⟨hshort, ?_⟩
  rw [PackageCache.slot, hd.locate (PackageCache.isEntry_slotName hv), if_neg (by omega)]

/-- A package that is received goes into a slot that is no directory, and its file is gone. -/
theorem fill_commits (hv : v.IsSpelled) (hstart : r.cache.start v h = (.ok p, k))
    (hdelivers : r.feed.Delivers v h chunks) (hd : h.disk.HasDirectory h.cwd r.cache.dir)
    (hfree : h.disk.node? (.ofPath h.cwd (r.cache.slot v)) ≠ some .directory) :
    ∃ d i, r.fill v h = (.ok (r.cache.slot v), r.asked v h d i) ∧
      d.fileAt (.ofPath h.cwd p.path) = none := by
  have hne := slot_ne_of_start hv hstart
  obtain ⟨p', d, i, hpath', hslot', hcommits, hchanges, hlocate, executable, hfile⟩ :=
    fill_eq_commit hv hstart hdelivers
  have hfree' : d.node? (.ofPath h.cwd (r.cache.slot v)) ≠ some .directory := by
    rcases hchanges.other _ hne with hsame | ⟨hmade, -⟩
    · exact ne_of_eq_of_ne hsame hfree
    · exact hmade.elim
  have hwritable : d.writable h.cwd (r.cache.slot v) = .ok (.ofPath h.cwd (r.cache.slot v)) :=
    (hd.of_directories hchanges.directory).writable (PackageCache.isEntry_slotName hv)
      (locate_slot hv hstart hd).1 hfree'
  rw [← hpath'] at hlocate hfile hne
  rw [← hslot'] at hwritable hne
  obtain ⟨d', hrename, -⟩ := Disk.rename_of_file hlocate hfile hwritable hne.symm
  have hcommit : p'.commit (r.asked v h d i) = (.ok p'.slot, r.asked v h d' i) :=
    bind_of_ok (changing_of_ok (f := fun d cwd => d.rename cwd p'.path p'.slot) hrename)
  rw [← hpath', ← hslot']
  refine ⟨d', i, ?_, ?_⟩
  · rw [hcommits]
    exact mapError_of_ok ReferenceError.io hcommit
  · rw [Disk.fileAt, Disk.node?_source_of_rename hrename hne.symm]

/-- A package that is received does not go where a directory is, and its file stays. -/
theorem fill_strands (hv : v.IsSpelled) (hstart : r.cache.start v h = (.ok p, k))
    (hdelivers : r.feed.Delivers v h chunks) (hd : h.disk.HasDirectory h.cwd r.cache.dir)
    (hdir : h.disk.node? (.ofPath h.cwd (r.cache.slot v)) = some .directory) :
    ∃ d i, r.fill v h = (.error (.io .isADirectory), r.asked v h d i) ∧
      ∃ executable, d.node? (.ofPath h.cwd p.path) = some (.file (joined chunks) executable) := by
  obtain ⟨p', d, i, hpath', hslot', hcommits, hchanges, hlocate, executable, hfile⟩ :=
    fill_eq_commit hv hstart hdelivers
  have hslot : d.locate h.cwd (r.cache.slot v) = .ok ⟨.ofPath h.cwd (r.cache.slot v), false⟩ :=
    Disk.locate_of_directories (PackageCache.isEntry_slotName hv) hchanges.directory
      (locate_slot hv hstart hd).2
  have hwritable : d.writable h.cwd (r.cache.slot v) = .error .isADirectory :=
    Disk.writable_of_directory hslot (hchanges.directory _ hdir)
  rw [← hslot'] at hwritable
  rw [← hpath'] at hlocate hfile
  have hcommit := IncomingPackage.commit_of_error (p := p') (h := r.asked v h d i)
    hlocate hfile hwritable
  refine ⟨d, i, ?_, executable, hpath' ▸ hfile⟩
  rw [hcommits]
  exact mapError_of_error ReferenceError.io hcommit

theorem fill_changes {result : Except ReferenceError String} (hv : v.IsSpelled)
    (hstart : r.cache.start v h = (.ok p, k)) (hfill : r.fill v h = (result, h')) :
    h.disk.Changes (fun l => l = .ofPath h.cwd p.path ∨ l = .ofPath h.cwd (r.cache.slot v))
      (fun _ => False) h'.disk := by
  by_cases hdelivered : ∃ chunks, r.feed.Delivers v h chunks
  · obtain ⟨chunks, hdelivers⟩ := hdelivered
    obtain ⟨p', d, i, hpath', hslot', hcommits, hchanges, -⟩ := fill_eq_commit hv hstart hdelivers
    have hcommit : Keeps
        (.changes h.cwd (fun l => l = .ofPath h.cwd p'.path ∨ l = .ofPath h.cwd p'.slot)
          (fun _ => False))
        (p'.commit.mapError ReferenceError.io) :=
      ((keeps_rename h.cwd _ id p'.path p'.slot).bind fun _ => keeps_pure _).mapError
    rw [hcommits] at hfill
    have hkept := (hcommit (r.asked v h d i) rfl).2
    rw [hpath', hslot', hfill] at hkept
    exact (hchanges.mono (fun _ hl => .inl hl) fun _ hm => hm).trans hkept
  · obtain ⟨e, d, i, hdiscards, hchanges, -⟩ :=
      fill_discards hv hstart fun chunks hc => hdelivered ⟨chunks, hc⟩
    obtain ⟨-, rfl⟩ := Prod.mk.inj (hdiscards.symm.trans hfill)
    exact hchanges.mono (fun _ hl => .inl hl) fun _ hm => hm

/-- A download leaves the slots of other versions. -/
theorem fill_changes_beside {found : Except ReferenceError String} (hv : v.IsSpelled)
    (hw : w.IsSpelled) (hne : v ≠ w) (hfill : r.fill w h = (found, h')) :
    ∃ written : Location → Prop,
      h.disk.Changes written (fun _ => False) h'.disk ∧ ¬written (.ofPath h.cwd (r.cache.slot v)) := by
  rcases fill_start hfill with ⟨-, rfl⟩ | ⟨p, k, hstart⟩
  · exact ⟨fun _ => False, .refl _ _ _, id⟩
  · refine ⟨_, fill_changes hw hstart hfill, ?_⟩
    obtain ⟨⟨hpath, -⟩, -⟩ := PackageCache.start_ok hstart
    rw [hpath]
    rintro (hl | hl)
    · exact PackageCache.location_slot_ne_incoming r.cache h.cwd hv hw h.fresh hl
    · exact PackageCache.location_slot_ne r.cache h.cwd hv hw hne hl

/-- The new file of a package on its way is that of the download, if there is one. -/
theorem place_of_newPartial {name : String} {result : Except ReferenceError String} (hv : v.IsSpelled)
    (hstart : r.cache.start v h = (.ok p, k)) (hfill : r.fill v h = (result, h'))
    (hnew : r.cache.NewPartial h.cwd h.disk h'.disk name) :
    Location.ofPath h.cwd r.cache.dir ++ [name] = .ofPath h.cwd p.path := by
  by_contra hne
  refine hnew.after (((fill_changes hv hstart hfill).fileAt fun hl => ?_).trans hnew.before)
  rw [PackageCache.slot, Location.ofPath_join_name (PackageCache.isEntry_slotName hv)] at hl
  have hname := List.singleton_inj.1 (List.append_cancel_left (hl.resolve_left hne))
  exact PackageCache.not_partial_slotName v (hname ▸ hnew.partialName)

theorem newPartial_of_fill {name : String} {result : Except ReferenceError String} (hv : v.IsSpelled)
    (hfill : r.fill v h = (result, h')) (hnew : r.cache.NewPartial h.cwd h.disk h'.disk name) :
    ∃ p k chunks, r.cache.start v h = (.ok p, k) ∧ r.feed.Delivers v h chunks ∧
      h.disk.node? (.ofPath h.cwd (r.cache.slot v)) = some .directory ∧
      Location.ofPath h.cwd r.cache.dir ++ [name] = .ofPath h.cwd p.path := by
  rcases fill_start hfill with ⟨-, rfl⟩ | ⟨p, k, hstart⟩
  · exact absurd hnew.before hnew.after
  · have hplace := place_of_newPartial hv hstart hfill hnew
    obtain ⟨-, hbefore, hafter⟩ := hnew
    rw [hplace] at hbefore hafter
    by_cases hdelivered : ∃ chunks, r.feed.Delivers v h chunks
    · obtain ⟨chunks, hdelivers⟩ := hdelivered
      refine ⟨p, k, chunks, hstart, hdelivers, ?_, hplace⟩
      by_contra hfree
      have hd := PackageCache.hasDirectory_of_start hv hstart hbefore
      obtain ⟨d, i, hcommits, hgone⟩ := fill_commits hv hstart hdelivers hd hfree
      obtain ⟨-, rfl⟩ := Prod.mk.inj (hcommits.symm.trans hfill)
      exact hafter hgone
    · obtain ⟨e, d, i, hdiscards, -, hgone⟩ :=
        fill_discards hv hstart fun chunks hc => hdelivered ⟨chunks, hc⟩
      obtain ⟨-, rfl⟩ := Prod.mk.inj (hdiscards.symm.trans hfill)
      exact absurd hgone hafter

theorem place_of_start (hv : v.IsSpelled) (hstart : r.cache.start v h = (.ok p, k)) :
    Location.ofPath h.cwd r.cache.dir ++ [PackageCache.incomingName v (identifierOf h.fresh)] =
      .ofPath h.cwd p.path := by
  obtain ⟨⟨hpath, -⟩, -⟩ := PackageCache.start_ok hstart
  rw [hpath, Location.ofPath_join_name (PackageCache.isEntry_incomingName hv _)]

/-- **A download leaves a new file of its package** exactly if it is received and a directory has
the place of the slot. -/
theorem newPartial_fill_iff {name : String} {result : Except ReferenceError String} (hv : v.IsSpelled)
    (hfill : r.fill v h = (result, h')) : r.cache.NewPartial h.cwd h.disk h'.disk name ↔
      h.disk.fileAt (.ofPath h.cwd r.cache.dir ++ [name]) = none ∧
        ∃ p k chunks, r.cache.start v h = (.ok p, k) ∧ r.feed.Delivers v h chunks ∧
          h.disk.node? (.ofPath h.cwd (r.cache.slot v)) = some .directory ∧
          Location.ofPath h.cwd r.cache.dir ++ [name] = .ofPath h.cwd p.path := by
  refine ⟨fun hnew => ⟨hnew.before, newPartial_of_fill hv hfill hnew⟩, ?_⟩
  rintro ⟨hbefore, p, k, chunks, hstart, hdelivers, hdir, hplace⟩
  have hname :=
    List.singleton_inj.1 (List.append_cancel_left (hplace.trans (place_of_start hv hstart).symm))
  have hd := PackageCache.hasDirectory_of_start hv hstart (hplace ▸ hbefore)
  obtain ⟨d, i, hstrands, executable, hfile⟩ := fill_strands hv hstart hdelivers hd hdir
  obtain ⟨-, rfl⟩ := Prod.mk.inj (hstrands.symm.trans hfill)
  refine ⟨hname ▸ PackageCache.partial_incomingName _ _, hbefore, ?_⟩
  rw [hplace, asked_disk, Disk.fileAt_eq_some_iff.2 hfile]
  exact Option.some_ne_none _

/-! ## What resolving leaves -/

theorem isSpelled_of_identify {choice : RuntimeChoice} {runtime : RuntimeIdentity}
    (hv : ∀ given, choice = .given given → given.version.IsSpelled)
    (hid : choice.identify h = (.ok runtime, k)) :
    runtime.version.IsSpelled := by
  cases choice with
  | given given =>
    rw [pure_ok hid]
    exact hv _ rfl
  | installed command =>
    obtain ⟨e, mid, -, hlisting⟩ := bind_ok hid
    replace hlisting : RuntimeChoice.ofListing command e = .ok runtime := (Prod.mk.inj hlisting).1
    unfold RuntimeChoice.ofListing at hlisting
    split at hlisting
    · split at hlisting
      · rename_i found hfound
        cases hlisting
        obtain ⟨line, -, hline⟩ := (RuntimeIdentity.highestListed_eq_some_iff.1 hfound).listed
        exact hline.isSemantic.isSpelled
      · cases hlisting
    · cases hlisting

theorem isSpelled_of_lookUp (hv : ∀ given, r.runtime = .given given → given.version.IsSpelled)
    (hlook : r.lookUp h = (.ok (.missing v), k)) : v.IsSpelled := by
  obtain ⟨runtime, mid, hid, -, hfound | ⟨hmissing, -⟩⟩ := lookUp_ok hlook
  · cases hfound
  · cases hmissing
    exact isSpelled_of_identify hv hid

/-- The package of the runtime is missing, and what is received of it cannot go into its slot, which
is a directory. -/
def Strands (r : ReferenceResolver) (h : Host) : Prop :=
  ∃ v k p started chunks, r.lookUp h = (.ok (.missing v), k) ∧ r.cache.start v k = (.ok p, started) ∧
    r.feed.Delivers v k chunks ∧ k.disk.node? (.ofPath k.cwd (r.cache.slot v)) = some .directory ∧
    h.disk.fileAt (.ofPath k.cwd p.path) = none

/-- **Resolving leaves a new file of a package on its way** exactly if the package strands. -/
theorem resolve_newPartial_iff {result : Except ReferenceError (List Reference)}
    (hid : Keeps (.noNewPartial r.cache h.cwd) r.runtime.identify)
    (hv : ∀ given, r.runtime = .given given → given.version.IsSpelled) (hr : r.resolve h = (result, h')) :
    (∃ name, r.cache.NewPartial h.cwd h.disk h'.disk name) ↔ r.Strands h := by
  have hlooked := keeps_lookUp Frame.noNewPartial_of_changes hid h rfl
  rcases disk_of_resolve hr with ⟨finding, k, hlook, hfinding, hdisk⟩ |
    ⟨v, k, found, mid, hlook, hfill, hdisk⟩
  · rw [hlook] at hlooked
    rw [hdisk]
    refine iff_of_false (fun ⟨name, hnew⟩ => hlooked.2 name hnew) ?_
    rintro ⟨v, k', p, started, chunks, hlook', -⟩
    exact hfinding v (Prod.mk.inj (hlook.symm.trans hlook')).1
  · rw [hlook] at hlooked
    obtain ⟨hcwd, hnone⟩ := hlooked
    have hspelled := isSpelled_of_lookUp hv hlook
    rw [hdisk, ← hcwd]
    rw [← hcwd] at hnone
    constructor
    · rintro ⟨name, hpartial, hbefore, hafter⟩
      have hmid := PackageCache.fileAt_of_noNewPartial hnone hpartial hbefore
      obtain ⟨-, p, started, chunks, hstart, hdelivers, hdir, hplace⟩ :=
        (newPartial_fill_iff hspelled hfill).1 ⟨hpartial, hmid, hafter⟩
      exact ⟨v, k, p, started, chunks, hlook, hstart, hdelivers, hdir, hplace ▸ hbefore⟩
    · rintro ⟨v', k', p, started, chunks, hlook', hstart, hdelivers, hdir, hbefore⟩
      cases hlook'.symm.trans hlook
      have hplace := place_of_start hspelled hstart
      rw [← hplace] at hbefore
      have hpartial := PackageCache.partial_incomingName v (identifierOf k.fresh)
      have hmid := PackageCache.fileAt_of_noNewPartial hnone hpartial hbefore
      have hnew := (newPartial_fill_iff hspelled hfill).2
        ⟨hmid, p, started, chunks, hstart, hdelivers, hdir, hplace⟩
      exact ⟨_, hpartial, hbefore, hnew.after⟩

/-- A package that the feed does not have is given up. -/
theorem resolve_newPartial_iff_refused :
    let runtime : RuntimeIdentity := ⟨.modern, ⟨8, 0, 4, "", ""⟩⟩
    let r : ReferenceResolver := ⟨.given runtime, ⟨"c"⟩, ⟨"http://feed"⟩⟩
    let h := Host.withDisk ⟨[(["c"], .directory), (["c", "AppRef_8.0.4_Package.zip"], .directory)]⟩
      ⟨fun _ => .answered 404 ["PK".toUTF8] .complete false, []⟩
    Keeps (.noNewPartial r.cache h.cwd) r.runtime.identify ∧
      (∀ given, r.runtime = .given given → given.version.IsSpelled) ∧
      (r.resolve h).2.disk.entries.all (fun e => !e.2.isFile) = true ∧ ¬r.Strands h := by
  intro runtime r h
  have hid : Keeps (.noNewPartial r.cache h.cwd) r.runtime.identify := keeps_identify_given runtime
  have hv : ∀ given, r.runtime = .given given → given.version.IsSpelled := by
    rintro _ ⟨⟩
    decide
  have hno : (r.resolve h).2.disk.entries.all (fun e => !e.2.isFile) = true := by decide +kernel
  refine ⟨hid, hv, hno, fun hstrands => ?_⟩
  obtain ⟨name, hnew⟩ := (resolve_newPartial_iff hid hv (Prod.eta _).symm).2 hstrands
  obtain ⟨⟨content, executable⟩, hfile⟩ := Option.ne_none_iff_exists'.1 hnew.after
  have hentry := Disk.mem_of_node? (List.append_ne_nil_of_right_ne_nil _ (List.cons_ne_nil _ _))
    (Disk.fileAt_eq_some_iff.1 hfile)
  exact absurd (List.all_eq_true.1 hno _ hentry) (by simp [DiskNode.isFile])

/-- A package that is received stays on its way if a directory has the place of its slot. -/
theorem resolve_newPartial_received :
    let r : ReferenceResolver := ⟨.given ⟨.modern, ⟨8, 0, 4, "", ""⟩⟩, ⟨"c"⟩, ⟨"http://feed"⟩⟩
    let h := Host.withDisk ⟨[(["c"], .directory), (["c", "AppRef_8.0.4_Package.zip"], .directory)]⟩
      ⟨fun _ => .answered 200 ["PK".toUTF8] .complete false, []⟩
    (r.resolve h).1.isOk = false ∧ r.cache.NewPartial h.cwd h.disk (r.resolve h).2.disk
      (PackageCache.incomingName ⟨8, 0, 4, "", ""⟩ (identifierOf 0)) := by
  intro r h
  exact ⟨by decide +kernel, PackageCache.partial_incomingName _ _, by decide +kernel, by decide +kernel⟩

end ReferenceResolver

end PolicyForge
