import PolicyForge.Proofs.Package.Stranded
import Mathlib.Logic.Relation
/-!
# Resolving again

References that have been resolved are read from the slot of their runtime (`resolve_ok`).  Nothing
that resolving does from then on, for whatever runtime, touches that slot (`slot_of_resolve`), so
resolving again reads the same references, and does nothing else (`resolve_stable`).
-/
namespace PolicyForge

open Act

/-! ## Slots that stay -/

def Frame.slot (c : PackageCache) (v : Version) (cwd : Location) : Frame where
  rel h h' := h.cwd = cwd → h'.cwd = cwd ∧ ∀ bytes, bytes.size ≠ 0 →
    h.disk.content? cwd (c.slot v) = some bytes → h'.disk.content? cwd (c.slot v) = some bytes
  same hdisk hcwd' hcwd := ⟨hcwd'.trans hcwd, fun _ _ hbytes => by rw [hdisk, hbytes]⟩
  trans hab hbc hcwd := by
    obtain ⟨hcwd', hfirst⟩ := hab hcwd
    obtain ⟨hcwd'', hsecond⟩ := hbc hcwd'
    exact ⟨hcwd'', fun bytes hsize hbytes => hsecond bytes hsize (hfirst bytes hsize hbytes)⟩

variable {c : PackageCache} {r : ReferenceResolver} {v w : Version} {runtime : RuntimeIdentity}
  {h h' k mid : Host}
  {path : String} {bytes : ByteArray} {images : List Reference}

theorem PackageCache.content?_slot_stays {d d' : Disk} {cwd : Location}
    {written made : Location → Prop} (hv : v.IsSpelled) (hchanges : d.Changes written made d')
    (hwritten : ¬written (.ofPath cwd (c.slot v)))
    (hbytes : d.content? cwd (c.slot v) = some bytes) : d'.content? cwd (c.slot v) = some bytes :=
  Disk.content?_stays (PackageCache.isEntry_slotName hv) hchanges hwritten hbytes

theorem Frame.slot_of_changes {cwd : Location} {made : Location → Prop} (hv : v.IsSpelled) :
    ∀ h h', (Frame.changes cwd (fun _ => False) made).rel h h' → (Frame.slot c v cwd).rel h h' :=
  fun _ _ hrel hcwd => ⟨(hrel hcwd).1, fun _ _ => PackageCache.content?_slot_stays hv (hrel hcwd).2 id⟩

theorem Frame.stays_of_slot {cwd : Location} :
    ∀ h h', (Frame.slot c v cwd).rel h h' → (Frame.stays cwd).rel h h' :=
  fun _ _ hrel hcwd => (hrel hcwd).1

namespace ReferenceResolver

/-- A download into another slot. -/
theorem content?_of_fill {found : Except ReferenceError String} (hv : v.IsSpelled)
    (hw : w.IsSpelled) (hne : v ≠ w) (hfill : r.fill w h = (found, h'))
    (hbytes : h.disk.content? h.cwd (r.cache.slot v) = some bytes) :
    h'.disk.content? h.cwd (r.cache.slot v) = some bytes := by
  obtain ⟨written, hchanges, hslot⟩ := fill_changes_beside hv hw hne hfill
  exact PackageCache.content?_slot_stays hv hchanges hslot hbytes

/-- **Resolving leaves a slot that can be used**, whichever runtime it is about. -/
theorem slot_of_resolve (hv : v.IsSpelled)
    (hgiven : ∀ given, r.runtime = .given given → given.version.IsSpelled)
    (hid : Keeps (.slot r.cache v h.cwd) r.runtime.identify) :
    (Frame.slot r.cache v h.cwd).rel h (r.resolve h).2 := by
  intro _
  have hcwd : (r.resolve h).2.cwd = h.cwd :=
    keeps_resolve h.cwd (fun _ _ hrel hcwd => (hrel hcwd).1) (keeps_of_rel Frame.stays_of_slot hid) h rfl
  refine ⟨hcwd, fun bytes hsize hbytes => ?_⟩
  have hlooked := keeps_lookUp (Frame.slot_of_changes hv) hid h rfl
  rcases disk_of_resolve (Prod.eta (r.resolve h)).symm with
    ⟨finding, k, hlook, -, hdisk⟩ | ⟨w, k, found, mid, hlook, hfill, hdisk⟩
  · rw [hlook] at hlooked
    rw [hdisk]
    exact hlooked.2 bytes hsize hbytes
  · rw [hlook] at hlooked
    obtain ⟨hcwd', hkept⟩ := hlooked
    replace hbytes := hkept bytes hsize hbytes
    rw [hdisk, ← hcwd']
    rw [← hcwd'] at hbytes
    refine content?_of_fill hv (isSpelled_of_lookUp hgiven hlook) ?_ hfill hbytes
    -- what is missing cannot be used
    rintro rfl
    obtain ⟨runtime, _, -, -, hfound | ⟨hmissing, hunusable⟩⟩ := lookUp_ok hlook
    · cases hfound
    · cases hmissing
      cases (PackageCache.isUsable_iff.2 ⟨bytes, hbytes, hsize⟩).symm.trans hunusable

/-! ## Where the references come from -/

theorem fill_ok (hv : v.IsSpelled) (hfill : r.fill v h = (.ok path, h')) : path = r.cache.slot v := by
  obtain ⟨p, k, hstart, -⟩ := bind_ok hfill
  replace hstart := mapError_ok hstart
  by_cases hdelivered : ∃ chunks, r.feed.Delivers v h chunks
  · obtain ⟨chunks, hdelivers⟩ := hdelivered
    obtain ⟨p', d, i, -, hslot', hcommits, -⟩ := fill_eq_commit hv hstart hdelivers
    rw [hcommits] at hfill
    obtain ⟨_, k', -, hcommit⟩ := bind_ok (mapError_ok hfill)
    exact (pure_ok hcommit).trans hslot'
  · obtain ⟨e, d, i, hdiscards, -⟩ :=
      fill_discards hv hstart fun chunks hc => hdelivered ⟨chunks, hc⟩
    cases hdiscards.symm.trans hfill

theorem package_ok (hv : runtime.version.IsSpelled)
    (hid : (r.runtime.identify { h with interrupt := h.interrupt.afterLook }).1 = .ok runtime)
    (hp : r.package h = (.ok path, mid)) :
    runtime.isSupported = true ∧ path = r.cache.slot runtime.version := by
  rw [package_eq] at hp
  obtain ⟨finding, k, hlook, hp⟩ := bind_ok hp
  obtain ⟨found, k', hid', hs, hfinding⟩ := lookUp_ok hlook
  rw [hid'] at hid
  cases hid
  refine ⟨hs, ?_⟩
  rcases hfinding with rfl | ⟨rfl, -⟩
  · exact (Except.ok.inj (Prod.mk.inj hp).1).symm
  · exact fill_ok hv hp

/-- References that are resolved are those in the slot, at least one. -/
theorem resolve_ok (hv : runtime.version.IsSpelled)
    (hid : (r.runtime.identify { h with interrupt := h.interrupt.afterLook }).1 = .ok runtime)
    (hr : r.resolve h = (.ok images, h')) : runtime.isSupported = true ∧ images ≠ [] ∧
      ∃ bytes, h'.disk.content? h'.cwd (r.cache.slot runtime.version) = some bytes ∧
        Package.references bytes = .ok images := by
  obtain ⟨path, mid, hp, hr⟩ := bind_ok hr
  obtain ⟨hs, rfl⟩ := package_ok hv hid hp
  obtain ⟨_, h₁, -, hr⟩ := bind_ok hr
  obtain ⟨references, h₂, hread, hr⟩ := bind_ok hr
  obtain ⟨bytes, h₃, hbytes, hopened⟩ := bind_ok hread
  obtain ⟨hbytes, rfl⟩ := reading_ok hbytes
  obtain ⟨hreferences, rfl⟩ := Prod.mk.inj hopened
  cases references with
  | nil => cases hr
  | cons first rest =>
    cases hr
    exact ⟨hs, nofun, bytes, by rw [Disk.content?, hbytes]; rfl, hreferences⟩

theorem size_of_references (hreferences : Package.references bytes = .ok images) : bytes.size ≠ 0 := by
  intro hsize
  have hnone : Package.directory bytes = .error .unreadable := by
    simp [Package.directory, Package.endRecord?, hsize]
  rw [Package.references, hnone] at hreferences
  cases hreferences

theorem readReferences_of_content (hbytes : h.disk.content? h.cwd path = some bytes) :
    Package.readReferences path h = (Package.references bytes, h) := by
  rw [Disk.content?] at hbytes
  cases hread : h.disk.readBytes h.cwd path with
  | error e =>
    rw [hread] at hbytes
    cases hbytes
  | ok found =>
    rw [hread] at hbytes
    cases hbytes
    exact bind_of_ok (reading_of_ok (f := fun d cwd => d.readBytes cwd path) hread)

/-! ## Reading them again -/

/-- The references in a slot are resolved without another change than three looks at the interrupt. -/
theorem resolve_of_slot (hv : runtime.version.IsSpelled) (hs : runtime.isSupported = true)
    (hid : r.Identifies runtime h)
    (hbytes : h.disk.content? h.cwd (r.cache.slot runtime.version) = some bytes)
    (hreferences : Package.references bytes = .ok images) (hne : images ≠ [])
    (hq : h.interrupt.QuietAt 2) :
    r.resolve h = (.ok images, { h with interrupt := h.interrupt.afterLooks 3 }) := by
  have hu : (r.cache.isUsable runtime.version : Act ReferenceError Bool) h = (.ok true, h) :=
    PackageCache.isUsable_iff.2 ⟨bytes, hbytes, size_of_references hreferences⟩
  have hu' := PackageCache.isUsable_of_interrupt hu h.interrupt.afterLook.afterLook
  have hpackage : r.package h = (.ok (r.cache.slot runtime.version),
      { h with interrupt := h.interrupt.afterLook.afterLook }) := by
    refine (bind_of_ok (checkpoint_of_quietAt _ (hq.mono (by omega)))).trans
      ((bind_of_ok (hid h.interrupt.afterLook)).trans ?_)
    rw [hs]
    refine (bind_of_ok
      (checkpoint_of_quietAt _ (Interrupt.quietAt_afterLook.2 (hq.mono (by omega))))).trans ?_
    exact (bind_of_ok (mapError_of_ok ReferenceError.io (ensure_of_isUsable hv hu'))).trans
      ((bind_of_ok hu').trans rfl)
  rw [resolve, bind_of_ok hpackage, ← Interrupt.afterLook_thrice]
  refine (bind_of_ok (checkpoint_of_quietAt _
    (Interrupt.quietAt_afterLook.2 (Interrupt.quietAt_afterLook.2 hq)))).trans ?_
  have hread :=
    readReferences_of_content
      (h := { h with interrupt := h.interrupt.afterLook.afterLook.afterLook }) hbytes
  rw [hreferences] at hread
  rw [bind_of_ok hread]
  cases images with
  | nil => exact absurd rfl hne
  | cons first rest => rfl

end ReferenceResolver

/-! ## What may happen in between -/

/-- What may happen once the slot of a version has been used. -/
inductive PackageCache.Later (c : PackageCache) (v : Version) (h : Host) : Host → Prop
  /-- References are resolved, of this runtime or of another, from any feed. -/
  | resolving (r : ReferenceResolver) : r.cache = c →
    (∀ given, r.runtime = .given given → given.version.IsSpelled) →
      Keeps (.slot c v h.cwd) r.runtime.identify → Later c v h (r.resolve h).2
  /-- Anything else that leaves the slot as it is. -/
  | other (h' : Host) : h'.cwd = h.cwd →
      h'.disk.content? h.cwd (c.slot v) = h.disk.content? h.cwd (c.slot v) → Later c v h h'

theorem PackageCache.Later.slot (hv : v.IsSpelled) (hl : c.Later v h h') :
    (Frame.slot c v h.cwd).rel h h' := by
  cases hl with
  | resolving r hc hgiven hid =>
    obtain rfl := hc
    exact ReferenceResolver.slot_of_resolve hv hgiven hid
  | other _ hcwd hsame => exact fun _ => ⟨hcwd, fun _ _ hbytes => hsame.trans hbytes⟩

/-- However much happens, the slot holds the same. -/
theorem PackageCache.slot_of_later (hv : v.IsSpelled) (hl : Relation.ReflTransGen (c.Later v) h h') :
    (Frame.slot c v h.cwd).rel h h' := by
  induction hl with
  | refl => exact Frame.refl _ h
  | tail _ hstep ih =>
    refine Frame.trans _ ih ?_
    have hcwd := (ih rfl).1
    have hrel := hstep.slot hv
    rwa [hcwd] at hrel

namespace ReferenceResolver

/-- **References that have been resolved are resolved again** as long as nothing else changes the
slot, whatever the feed has, with no request and no change to the disk. -/
theorem resolve_stable (hv : runtime.version.IsSpelled)
    (hid : (r.runtime.identify { h with interrupt := h.interrupt.afterLook }).1 = .ok runtime)
    (hr : r.resolve h = (.ok images, h')) : images ≠ [] ∧
      ∀ k, Relation.ReflTransGen (r.cache.Later runtime.version) h' k →
        ∀ again : ReferenceResolver, again.cache = r.cache → again.Identifies runtime k →
          k.interrupt.QuietAt 2 →
          again.resolve k = (.ok images, { k with interrupt := k.interrupt.afterLooks 3 }) := by
  obtain ⟨hs, hne, bytes, hbytes, hreferences⟩ := resolve_ok hv hid hr
  refine ⟨hne, fun k hlater again hcache hagain hq => ?_⟩
  obtain ⟨hcwd, hkept⟩ := PackageCache.slot_of_later hv hlater rfl
  replace hbytes := hkept bytes (size_of_references hreferences) hbytes
  rw [← hcache, ← hcwd] at hbytes
  exact resolve_of_slot hv hs hagain hbytes hreferences hne hq

/-- A package that was downloaded is used when the feed cannot be reached any more. -/
theorem resolve_stable_downloaded :
    let zeros (n : Nat) := String.ofList (List.replicate n '\x00')
    let stored (name content : String) :=
      "PK\x03\x04" ++ zeros 22 ++ "\x09" ++ zeros 3 ++ name ++ content
    let described (name checksum place : String) :=
      "PK\x01\x02" ++ zeros 12 ++ checksum ++ "\x03" ++ zeros 3 ++ "\x03" ++ zeros 3 ++
        "\x09" ++ zeros 13 ++ place ++ zeros 3 ++ name
    let archive := (stored "ref/A.dll" "MZO" ++ stored "ref/B.dll" "MZS" ++
      described "ref/A.dll" "^.4!" "\x00" ++ described "ref/B.dll" "\x11r55" "\x2a" ++
      "PK\x05\x06" ++ zeros 4 ++ "\x02\x00\x02\x00\x6e" ++ zeros 3 ++ "\x54" ++ zeros 5).toUTF8
    let runtime : RuntimeIdentity := ⟨.modern, ⟨8, 0, 4, "", ""⟩⟩
    let r : ReferenceResolver := ⟨.given runtime, ⟨"c"⟩, ⟨"http://feed"⟩⟩
    let h := Host.withDisk ⟨[]⟩ ⟨fun _ => .answered 200 [archive] .complete false, []⟩
    let k := { (r.resolve h).2 with network := ⟨fun _ => .refused, []⟩, interrupt := .quiet }
    runtime.version.IsSpelled ∧
      (r.runtime.identify { h with interrupt := h.interrupt.afterLook }).1 = .ok runtime ∧
      ∃ images, images.map (fun i => (i.name, i.content)) =
          [("A.dll", "MZO".toUTF8), ("B.dll", "MZS".toUTF8)] ∧
        (r.resolve h).1 = .ok images ∧
        r.resolve k = (.ok images, { k with interrupt := k.interrupt.afterLooks 3 }) := by
  intro zeros stored described archive runtime r h k
  have hv : runtime.version.IsSpelled := by decide
  have hid : (r.runtime.identify { h with interrupt := h.interrupt.afterLook }).1 = .ok runtime := rfl
  have himages : (r.resolve h).1.toOption.map (·.map fun i => (i.name, i.content)) =
      some [("A.dll", "MZO".toUTF8), ("B.dll", "MZS".toUTF8)] := by
    decide +kernel
  have hlater : Relation.ReflTransGen (r.cache.Later runtime.version) (r.resolve h).2 k :=
    .single (.other k rfl rfl)
  refine ⟨hv, hid, ?_⟩
  cases hresult : (r.resolve h).1 with
  | error e =>
    rw [hresult] at himages
    cases himages
  | ok images =>
    rw [hresult] at himages
    obtain ⟨-, hagain⟩ := resolve_stable hv hid (Prod.ext hresult rfl)
    exact ⟨images, Option.some.inj himages, rfl,
      hagain k hlater r rfl (identifies_given _ _ _ k) (Interrupt.quietAt_quiet 2)⟩

end ReferenceResolver

end PolicyForge
