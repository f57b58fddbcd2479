import PolicyForge.Proofs.Package.Download
/-!
# What resolving does to a slot

Resolving asks the feed at most once, and only if the slot cannot be used.  The slot then holds
exactly the chunks that were received, if their end was seen and they could be moved there; in every
other case it holds what it held before (`resolve_allOrNothing`).
-/
namespace PolicyForge

open Act

namespace Act

variable {ε α β : Type}

/-- A job that changes neither the disk nor what has been asked of the network. -/
def Reads (a : Act ε α) : Prop := ∀ h, (a h).2.disk = h.disk ∧ (a h).2.network = h.network

theorem Reads.bind {a : Act ε α} {f : α → Act ε β} (ha : Reads a) (hf : ∀ x, Reads (f x)) :
    Reads (a >>= f) := by
  intro h
  have hread := ha h
  cases hr : a h with
  | mk result mid =>
    rw [hr] at hread
    cases result with
    | ok x =>
      rw [bind_of_ok hr]
      exact ⟨(hf x mid).1.trans hread.1, (hf x mid).2.trans hread.2⟩
    | error e =>
      rw [bind_of_error hr]
      exact hread

theorem reads_pure (x : α) : Reads (pure x : Act ε α) := fun _ => ⟨rfl, rfl⟩

theorem reads_throw (e : ε) : Reads (throw e : Act ε α) := fun _ => ⟨rfl, rfl⟩

theorem reads_ofExcept (r : Except ε α) : Reads (ofExcept r) := fun _ => ⟨rfl, rfl⟩

theorem reads_reading (wrap : IoError → ε) (f : Disk → Location → Except IoError α) :
    Reads (reading wrap f) := by
  intro h
  unfold reading
  split <;> exact ⟨rfl, rfl⟩

theorem reads_checkpoint (cancelled : ε) : Reads (checkpoint cancelled) := by
  intro h
  cases hs : h.interrupt.isSet with
  | true =>
    rw [checkpoint_of_isSet cancelled hs]
    exact ⟨rfl, rfl⟩
  | false =>
    rw [checkpoint_of_quiet cancelled hs]
    exact ⟨rfl, rfl⟩

end Act

namespace PackageFeed

variable {d : Disk} {cwd : Location} {path : String} {l : Location}

/-- Chunks that are written come after what a file holds. -/
theorem appendAll_of_file {executable : Bool} (chunks : List ByteArray) :
    ∀ {d : Disk} {content : ByteArray},
    (∀ d' : Disk, (∀ k, d.node? k = some .directory → d'.node? k = some .directory) →
      d'.locate cwd path = .ok ⟨l, false⟩) →
    d.node? l = some (.file content executable) →
    (appendAll d cwd path chunks).node? l = some (.file (chunks.foldl (· ++ ·) content) executable) := by
  induction chunks with
  | nil => exact fun _ hnode => hnode
  | cons chunk rest ih =>
    intro d content hlocate hnode
    have hd := (d.append_changes cwd path chunk).directory
    exact ih (fun d' hd' => hlocate d' fun k hk => hd' k (hd k hk))
      (Disk.append_of_file (hlocate d fun _ hk => hk) hnode chunk)

end PackageFeed

namespace ReferenceResolver

variable {r : ReferenceResolver} {v : Version} {h h' : Host} {result : Except ReferenceError String}

/-! ## One download into the slot -/

/-- What becomes of the slot of a version once the feed has been asked. -/
def Settles {α : Type} (r : ReferenceResolver) (v : Version) (h h' : Host)
    (result : Except ReferenceError α) (delivered : List ByteArray → Prop) : Prop :=
  (∀ chunks, ¬delivered chunks) ∧ (∃ e, result = .error e) ∧
      h'.disk.fileAt (.ofPath h.cwd (r.cache.slot v)) = h.disk.fileAt (.ofPath h.cwd (r.cache.slot v)) ∨
    ∃ chunks, delivered chunks ∧ (h'.disk.content? h.cwd (r.cache.slot v) = some (joined chunks) ∨
      ∃ e, h'.disk.writable h.cwd (r.cache.slot v) = .error e ∧ result = .error (.io e) ∧
        h'.disk.fileAt (.ofPath h.cwd (r.cache.slot v)) = h.disk.fileAt (.ofPath h.cwd (r.cache.slot v)))

/-- The host when the feed has been asked for the package of a version, with what the disk and the
interrupt are by then. -/
def asked (r : ReferenceResolver) (v : Version) (h : Host) (d : Disk) (i : Interrupt) : Host :=
  { h with
    fresh := h.fresh + 1, network := PackageFeed.asked h.network (r.feed.address v), disk := d,
    interrupt := i }

@[simp] theorem asked_disk (r : ReferenceResolver) (v : Version) (h : Host) (d : Disk)
    (i : Interrupt) : (r.asked v h d i).disk = d := rfl

/-- The slot is nowhere that a download writes. -/
theorem slot_ne_of_start {p : IncomingPackage} {k : Host} (hv : v.IsSpelled)
    (hstart : r.cache.start v h = (.ok p, k)) :
    Location.ofPath h.cwd (r.cache.slot v) ≠ .ofPath h.cwd p.path := by
  obtain ⟨⟨hpath, -⟩, -⟩ := PackageCache.start_ok hstart
  rw [hpath]
  exact PackageCache.location_slot_ne_incoming r.cache h.cwd hv hv h.fresh

/-- A body that is received is in the file of the package, and this is then committed. -/
theorem fill_eq_commit {p : IncomingPackage} {k : Host} {chunks : List ByteArray} (hv : v.IsSpelled)
    (hstart : r.cache.start v h = (.ok p, k)) (hdelivers : r.feed.Delivers v h chunks) :
    ∃ (p' : IncomingPackage) (d : Disk) (i : Interrupt), p'.path = p.path ∧ p'.slot = r.cache.slot v ∧
      r.fill v h = (p'.commit.mapError ReferenceError.io) (r.asked v h d i) ∧
      h.disk.Changes (· = .ofPath h.cwd p.path) (fun _ => False) d ∧
      d.locate h.cwd p.path = .ok ⟨.ofPath h.cwd p.path, false⟩ ∧
      ∃ executable, d.node? (.ofPath h.cwd p.path) = some (.file (joined chunks) executable) := by
  obtain ⟨⟨hpath, hslot, -⟩, hhost, hlocate, hchanges, executable, hnode⟩ :=
    PackageCache.start_ok hstart
  obtain ⟨d₁, rfl⟩ : ∃ d, k = { h with fresh := h.fresh + 1, disk := d } := ⟨_, hhost⟩
  obtain ⟨p', i, hpath', hslot', hdownload⟩ := PackageFeed.download_received
    (h := { h with fresh := h.fresh + 1, disk := d₁ }) hdelivers p
  have hd₂ := PackageFeed.appendAll_changes h.cwd p.path chunks d₁
  have hlocated : ∀ d : Disk, (∀ l, d₁.node? l = some .directory → d.node? l = some .directory) →
      d.locate h.cwd p.path = .ok ⟨.ofPath h.cwd p.path, false⟩ := by
    intro d hd
    rw [hpath] at hlocate ⊢
    exact Disk.locate_of_directories (PackageCache.isEntry_incomingName hv _)
      (fun l hl => hd l (hchanges.directory l hl)) hlocate
  refine ⟨p', _, i, hpath', hslot'.trans hslot, ?_, hchanges.trans hd₂,
    hlocated _ hd₂.directory, executable, PackageFeed.appendAll_of_file chunks hlocated hnode⟩
  rw [fill, bind_of_ok (mapError_of_ok ReferenceError.io hstart), bind_of_ok (attempt_of_eq hdownload)]
  rfl

/-- A body that is received goes into the slot, if the slot can be written. -/
theorem fill_of_delivers {p : IncomingPackage} {k : Host} {chunks : List ByteArray} (hv : v.IsSpelled)
    (hstart : r.cache.start v h = (.ok p, k)) (hdelivers : r.feed.Delivers v h chunks)
    (hfill : r.fill v h = (result, h')) : h'.network = PackageFeed.asked h.network (r.feed.address v) ∧
      (h'.disk.content? h.cwd (r.cache.slot v) = some (joined chunks) ∨
        ∃ e, h'.disk.writable h.cwd (r.cache.slot v) = .error e ∧ result = .error (.io e) ∧
          h'.disk.fileAt (.ofPath h.cwd (r.cache.slot v)) =
            h.disk.fileAt (.ofPath h.cwd (r.cache.slot v))) := by
  have hne := slot_ne_of_start hv hstart
  obtain ⟨p', d, i, hpath', hslot', hcommits, hchanges, hlocate, executable, hfile⟩ :=
    fill_eq_commit hv hstart hdelivers
  rw [hcommits] at hfill
  have hkept := hchanges.fileAt hne
  rw [← hpath'] at hlocate hfile hne
  obtain ⟨d₃, hcommit, hcontent⟩ | ⟨e, hw, hcommit⟩ :=
    IncomingPackage.commit_cases (h := r.asked v h d i) hv hlocate hfile hslot' hne.symm
  · rw [mapError_of_ok ReferenceError.io hcommit] at hfill
    obtain ⟨rfl, rfl⟩ := Prod.mk.inj hfill
    exact ⟨rfl, .inl hcontent⟩
  · rw [mapError_of_error ReferenceError.io hcommit] at hfill
    obtain ⟨rfl, rfl⟩ := Prod.mk.inj hfill
    exact ⟨rfl, .inr ⟨e, hw, rfl, hkept⟩⟩

/-- A package that is not received is given up, and its file is gone. -/
theorem fill_discards {p : IncomingPackage} {k : Host} (hv : v.IsSpelled)
    (hstart : r.cache.start v h = (.ok p, k)) (hnone : ∀ chunks, ¬r.feed.Delivers v h chunks) :
    ∃ e d i, r.fill v h = (.error e, r.asked v h d i) ∧
      h.disk.Changes (· = .ofPath h.cwd p.path) (fun _ => False) d ∧
        d.fileAt (.ofPath h.cwd p.path) = none := by
  obtain ⟨⟨hpath, -⟩, hhost, hlocate, hstarted, -⟩ := PackageCache.start_ok hstart
  obtain ⟨d₁, rfl⟩ : ∃ d, k = { h with fresh := h.fresh + 1, disk := d } := ⟨_, hhost⟩
  obtain ⟨e, d₂, i, hdownload, hchanges⟩ := PackageFeed.download_fails
    (h := { h with fresh := h.fresh + 1, disk := d₁ }) hnone p
  have hwritten := hstarted.trans hchanges
  have hlocate₂ : d₂.locate h.cwd p.path = .ok ⟨.ofPath h.cwd p.path, false⟩ := by
    rw [hpath] at hlocate ⊢
    exact Disk.locate_of_directories (PackageCache.isEntry_incomingName hv _) hwritten.directory hlocate
  obtain ⟨k', hdiscard, -, hgone⟩ :=
    removeQuietly_spec (ε := ReferenceError) (h := r.asked v h d₂ i) hlocate₂
  obtain ⟨d₃, hdiscard', hdiscarded⟩ := p.discard_ok (ε := ReferenceError) (r.asked v h d₂ i)
  obtain rfl := (Prod.mk.inj (hdiscard'.symm.trans hdiscard)).2
  refine ⟨e, d₃, i, ?_, hwritten.trans hdiscarded, hgone⟩
  rw [fill, bind_of_ok (mapError_of_ok ReferenceError.io hstart), bind_of_ok (attempt_of_eq hdownload)]
  exact (bind_of_ok hdiscard').trans rfl

/-- Of a body that is not received nothing is seen. -/
theorem fill_of_not_delivers {p : IncomingPackage} {k : Host} (hv : v.IsSpelled)
    (hstart : r.cache.start v h = (.ok p, k)) (hnone : ∀ chunks, ¬r.feed.Delivers v h chunks)
    (hfill : r.fill v h = (result, h')) : h'.network = PackageFeed.asked h.network (r.feed.address v) ∧
      (∃ e, result = .error e) ∧
      h'.disk.fileAt (.ofPath h.cwd (r.cache.slot v)) =
        h.disk.fileAt (.ofPath h.cwd (r.cache.slot v)) := by
  obtain ⟨e, d, i, hdiscards, hchanges, -⟩ := fill_discards hv hstart hnone
  obtain ⟨rfl, rfl⟩ := Prod.mk.inj (hdiscards.symm.trans hfill)
  exact ⟨rfl, ⟨e, rfl⟩, hchanges.fileAt (slot_ne_of_start hv hstart)⟩

theorem fill_start (hfill : r.fill v h = (result, h')) :
    ((∃ e, result = .error e) ∧ h' = { h with fresh := h.fresh + 1 }) ∨
    ∃ p k, r.cache.start v h = (.ok p, k) := by
  obtain ⟨started, k, hstart⟩ : ∃ started k, r.cache.start v h = (started, k) :=
    ⟨_, _, (Prod.eta _).symm⟩
  cases started with
  | error e =>
    rw [fill, bind_of_error (mapError_of_error ReferenceError.io hstart)] at hfill
    obtain ⟨rfl, rfl⟩ := Prod.mk.inj hfill
    exact .inl ⟨⟨_, rfl⟩, PackageCache.start_error hstart⟩
  | ok p => exact .inr ⟨p, k, hstart⟩

theorem fill_cases (hv : v.IsSpelled) (hfill : r.fill v h = (result, h')) :
    ((∃ e, result = .error e) ∧ h' = { h with fresh := h.fresh + 1 }) ∨
      h'.network = PackageFeed.asked h.network (r.feed.address v) ∧
        Settles r v h h' result (r.feed.Delivers v h) := by
  rcases fill_start hfill with hnothing | ⟨p, k, hstart⟩
  · exact .inl hnothing
  · by_cases hdelivered : ∃ chunks, r.feed.Delivers v h chunks
    · obtain ⟨chunks, hdelivers⟩ := hdelivered
      obtain ⟨hasked, hends⟩ := fill_of_delivers hv hstart hdelivers hfill
      exact .inr ⟨hasked, .inr ⟨chunks, hdelivers, hends⟩⟩
    · have hnone : ∀ chunks, ¬r.feed.Delivers v h chunks := fun chunks hc => hdelivered ⟨chunks, hc⟩
      obtain ⟨hasked, hends⟩ := fill_of_not_delivers hv hstart hnone hfill
      exact .inr ⟨hasked, .inl ⟨hnone, hends⟩⟩

/-! ## Finding the package -/

variable {runtime : RuntimeIdentity}

/-- The runtime is found, and nothing is done for that. -/
def Identifies (r : ReferenceResolver) (runtime : RuntimeIdentity) (h : Host) : Prop :=
  ∀ i, r.runtime.identify { h with interrupt := i } = (.ok runtime, { h with interrupt := i })

theorem identifies_given (runtime : RuntimeIdentity) (cache : PackageCache) (feed : PackageFeed)
    (h : Host) :
    Identifies ⟨.given runtime, cache, feed⟩ runtime h := fun _ => rfl

def packageOf (r : ReferenceResolver) (runtime : RuntimeIdentity) : Act ReferenceError String := do
  if !runtime.isSupported then throw (.unsupportedRuntime runtime)
  Act.checkpoint .cancelled
  r.cache.ensure.mapError .io
  if ← r.cache.isUsable runtime.version then return r.cache.slot runtime.version
  Act.checkpoint .cancelled
  r.fill runtime.version

theorem package_of_isSet (r : ReferenceResolver) (hs : h.interrupt.isSet = true) :
    r.package h = (.error .cancelled, h) :=
  bind_of_error (checkpoint_of_isSet _ hs)

theorem package_of_quiet (hid : r.Identifies runtime h) (hs : h.interrupt.isSet = false) :
    r.package h = r.packageOf runtime { h with interrupt := h.interrupt.afterLook } :=
  (bind_of_ok (checkpoint_of_quiet _ hs)).trans (bind_of_ok (hid h.interrupt.afterLook))

theorem packageOf_of_unsupported (hs : runtime.isSupported = false) (h : Host) :
    r.packageOf runtime h = (.error (.unsupportedRuntime runtime), h) := by
  rw [packageOf, hs]
  rfl

theorem ensure_cases (c : PackageCache) (h : Host) : ∃ made d, c.ensure h = (made, { h with disk := d }) ∧
    h.disk.Changes (fun _ => False) (Disk.Passes h.cwd c.dir) d := by
  have hchanges := h.disk.makeDirectories_changes h.cwd c.dir
  rw [PackageCache.ensure, makeDirectories]
  split <;> rename_i d hd <;> rw [hd] at hchanges <;> exact ⟨_, _, rfl, hchanges⟩

theorem exists_isUsable (c : PackageCache) (v : Version) (h : Host) :
    ∃ usable, (c.isUsable v : Act ReferenceError Bool) h = (.ok usable, h) := ⟨_, ask_eq _ h⟩

/-- A slot that can be used is in a directory that is there. -/
theorem ensure_of_isUsable {c : PackageCache} (hv : v.IsSpelled)
    (hu : (c.isUsable v : Act ReferenceError Bool) h = (.ok true, h)) : c.ensure h = (.ok (), h) := by
  obtain ⟨bytes, hbytes, -⟩ := PackageCache.isUsable_iff.1 hu
  cases hlocate : h.disk.locate h.cwd (c.slot v) with
  | error e =>
    rw [Disk.content?_of_error hlocate] at hbytes
    cases hbytes
  | ok p =>
    have hmade := Disk.makeDirectories_of_locate (PackageCache.isEntry_slotName hv) hlocate
    rw [PackageCache.ensure, makeDirectories, hmade]

theorem packageOf_of_usable (hv : runtime.version.IsSpelled)
    (hu : (r.cache.isUsable runtime.version : Act ReferenceError Bool) h = (.ok true, h)) :
    ∃ found i, r.packageOf runtime h = (found, { h with interrupt := i }) := by
  cases hs : runtime.isSupported with
  | false => exact ⟨_, h.interrupt, packageOf_of_unsupported hs h⟩
  | true =>
    rw [packageOf, hs]
    cases hset : h.interrupt.isSet with
    | true => exact ⟨_, h.interrupt, bind_of_error (checkpoint_of_isSet _ hset)⟩
    | false =>
      have hu' := PackageCache.isUsable_of_interrupt hu h.interrupt.afterLook
      have hensure := mapError_of_ok ReferenceError.io (ensure_of_isUsable hv hu')
      refine ⟨.ok (r.cache.slot runtime.version), h.interrupt.afterLook, ?_⟩
      refine (bind_of_ok (checkpoint_of_quiet _ hset)).trans ?_
      rw [bind_of_ok hensure, bind_of_ok hu']
      rfl

theorem packageOf_cases (hp : r.packageOf runtime h = (result, h')) :
    (h'.network = h.network ∧ h.disk.Changes (fun _ => False) (Disk.Passes h.cwd r.cache.dir) h'.disk) ∨
      ∃ d, h.disk.Changes (fun _ => False) (Disk.Passes h.cwd r.cache.dir) d ∧
        r.fill runtime.version { h with disk := d, interrupt := h.interrupt.afterLook.afterLook } =
          (result, h') := by
  cases hs : runtime.isSupported with
  | false =>
    rw [packageOf_of_unsupported hs] at hp
    obtain ⟨-, rfl⟩ := Prod.mk.inj hp
    exact .inl ⟨rfl, .refl _ _ _⟩
  | true =>
    -- what follows may end at each of two looks, without the directory, or at a slot to be used
    rw [packageOf, hs] at hp
    cases hset : h.interrupt.isSet with
    | true =>
      obtain ⟨-, rfl⟩ := Prod.mk.inj ((bind_of_error (checkpoint_of_isSet _ hset)).symm.trans hp)
      exact .inl ⟨rfl, .refl _ _ _⟩
    | false =>
      replace hp := (bind_of_ok (checkpoint_of_quiet _ hset)).symm.trans hp
      obtain ⟨made, d, hensure, hchanges⟩ :=
        ensure_cases r.cache { h with interrupt := h.interrupt.afterLook }
      cases made with
      | error e =>
        rw [bind_of_error (mapError_of_error ReferenceError.io hensure)] at hp
        obtain ⟨-, rfl⟩ := Prod.mk.inj hp
        exact .inl ⟨rfl, hchanges⟩
      | ok u =>
        rw [bind_of_ok (mapError_of_ok ReferenceError.io hensure)] at hp
        obtain ⟨usable, husable⟩ := exists_isUsable r.cache runtime.version
          { h with disk := d, interrupt := h.interrupt.afterLook }
        rw [bind_of_ok husable] at hp
        cases usable with
        | true =>
          obtain ⟨-, rfl⟩ := Prod.mk.inj hp
          exact .inl ⟨rfl, hchanges⟩
        | false =>
          cases hset' : h.interrupt.afterLook.isSet with
          | true =>
            obtain ⟨-, rfl⟩ := Prod.mk.inj ((bind_of_error (checkpoint_of_isSet _ hset')).symm.trans hp)
            exact .inl ⟨rfl, hchanges⟩
          | false =>
            have hlook :=
              checkpoint_of_quiet (h := { h with disk := d, interrupt := h.interrupt.afterLook })
              ReferenceError.cancelled hset'
            rw [if_neg Bool.false_ne_true, bind_of_ok hlook] at hp
            exact .inr ⟨d, hchanges, hp⟩

/-! ## What resolving comes to -/

theorem reads_readReferences (path : String) : Reads (Package.readReferences path) :=
  Reads.bind (reads_reading _ _) fun _ => reads_ofExcept _

theorem resolve_cases {result : Except ReferenceError (List Reference)}
    (hr : r.resolve h = (result, h')) :
    ∃ found mid, r.package h = (found, mid) ∧ h'.disk = mid.disk ∧ h'.network = mid.network ∧
      ∀ e, found = .error e → result = .error e := by
  obtain ⟨found, mid, hp⟩ : ∃ found mid, r.package h = (found, mid) := ⟨_, _, (Prod.eta _).symm⟩
  rw [resolve] at hr
  cases found with
  | error e =>
    rw [bind_of_error hp] at hr
    obtain ⟨rfl, rfl⟩ := Prod.mk.inj hr
    exact ⟨_, _, hp, rfl, rfl, fun e he => by rw [Except.error.inj he]⟩
  | ok path =>
    have hread : Reads (do
        Act.checkpoint ReferenceError.cancelled
        let references ← Package.readReferences path
        if references.isEmpty then throw (.noReferences path)
        return references) := by
      refine (reads_checkpoint _).bind fun _ => (reads_readReferences path).bind fun references => ?_
      split
      · exact reads_throw _
      · exact reads_pure _
    rw [bind_of_ok hp] at hr
    have hmid := hread mid
    rw [hr] at hmid
    exact ⟨_, _, hp, hmid.1, hmid.2, nofun⟩

/-- Undisturbed, resolving a runtime whose package is in the cache leaves the host as it is. -/
theorem resolve_of_usable (hid : r.Identifies runtime h) (hv : runtime.version.IsSpelled)
    (hs : runtime.isSupported = true) (hq : h.interrupt = .quiet)
    (hu : (r.cache.isUsable runtime.version : Act ReferenceError Bool) h = (.ok true, h)) :
    (r.resolve h).2 = h := by
  have hcheck := checkpoint_of_undisturbed ReferenceError.cancelled hq
  have hensure := mapError_of_ok ReferenceError.io (ensure_of_isUsable hv hu)
  have hpackage : r.package h = (.ok (r.cache.slot runtime.version), h) := by
    refine (bind_of_ok hcheck).trans ((bind_of_ok (hid h.interrupt)).trans ?_)
    rw [hs]
    exact (bind_of_ok hcheck).trans ((bind_of_ok hensure).trans ((bind_of_ok hu).trans rfl))
  rw [resolve, bind_of_ok hpackage]
  refine ((observes_checkpoint _).bind fun _ => Observes.bind ?_ fun references => ?_) h hq
  · exact (observes_reading _ _).bind fun _ => observes_ofExcept _
  · split
    · exact observes_throw _
    · exact observes_pure _

theorem address_eq (f : PackageFeed) (v : Version) :
    f.address v = f.base ++ "/Microsoft.NETCore.App.Ref/" ++ v.text := by
  have hname : "/" ++ (PackageFeed.packageName ++ "/") = "/Microsoft.NETCore.App.Ref/" := by decide
  rw [PackageFeed.address, ← hname]
  simp only [String.append_assoc]

/-- What has become of a slot stays so when the references are read. -/
theorem Settles.of_eq {α : Type} {k mid : Host} {found : Except ReferenceError String}
    {result : Except ReferenceError α} {delivered : List ByteArray → Prop}
    (hs : Settles r v k mid found delivered) (hcwd : k.cwd = h.cwd) (hdisk : h'.disk = mid.disk)
    (hkept : k.disk.fileAt (.ofPath h.cwd (r.cache.slot v)) =
      h.disk.fileAt (.ofPath h.cwd (r.cache.slot v)))
    (hfailed : ∀ e, found = .error e → result = .error e) : Settles r v h h' result delivered := by
  rw [Settles, hcwd, hkept, ← hdisk] at hs
  rcases hs with ⟨hnot, ⟨e, he⟩, hsame⟩ | ⟨chunks, hchunks, hcontent | ⟨e, hw, he, hsame⟩⟩
  · exact .inl ⟨hnot, ⟨e, hfailed e he⟩, hsame⟩
  · exact .inr ⟨chunks, hchunks, .inl hcontent⟩
  · exact .inr ⟨chunks, hchunks, .inr ⟨e, hw, hfailed _ he, hsame⟩⟩

/-- What resolving the references of a runtime does to its slot. -/
structure AllOrNothing (r : ReferenceResolver) (runtime : RuntimeIdentity) (h h' : Host)
    (result : Except ReferenceError (List Reference)) : Prop where
  /-- For a runtime without packages nothing is done. -/
  unsupported : runtime.isSupported = false → h'.disk = h.disk ∧ h'.network = h.network ∧
    result = .error (if h.interrupt.isSet then .cancelled else .unsupportedRuntime runtime)
  /-- A slot that can be used is all that is needed. -/
  usable : (r.cache.isUsable runtime.version : Act ReferenceError Bool) h = (.ok true, h) →
    h'.disk = h.disk ∧ h'.network = h.network
  /-- The feed is asked once at most, after three looks at the interrupt. -/
  asked : h'.network = h.network ∧
      h'.disk.fileAt (.ofPath h.cwd (r.cache.slot runtime.version)) =
        h.disk.fileAt (.ofPath h.cwd (r.cache.slot runtime.version)) ∨
    h'.network = { h.network with requests := h.network.requests ++
      [r.feed.base ++ "/Microsoft.NETCore.App.Ref/" ++ runtime.version.text] } ∧
      Settles r runtime.version h h' result
        (r.feed.Delivers runtime.version { h with interrupt := h.interrupt.afterLooks 3 })

/-- **Resolving fills the slot of a runtime whole or leaves it as it is.** -/
theorem resolve_allOrNothing {result : Except ReferenceError (List Reference)}
    (hv : runtime.version.IsSpelled) (hid : r.Identifies runtime h)
    (hr : r.resolve h = (result, h')) : r.AllOrNothing runtime h h' result := by
  obtain ⟨found, mid, hp, hdisk, hnetwork, hfailed⟩ := resolve_cases hr
  cases hset : h.interrupt.isSet with
  | true =>
    rw [package_of_isSet r hset] at hp
    obtain ⟨rfl, rfl⟩ := Prod.mk.inj hp
    exact ⟨fun _ => ⟨hdisk, hnetwork, by rw [if_pos hset, hfailed _ rfl]⟩,
      fun _ => ⟨hdisk, hnetwork⟩,
      .inl ⟨hnetwork, by rw [hdisk]⟩⟩
  | false =>
    rw [package_of_quiet hid hset] at hp
    refine ⟨fun hs => ?_, fun hu => ?_, ?_⟩
    · rw [packageOf_of_unsupported hs] at hp
      obtain ⟨rfl, rfl⟩ := Prod.mk.inj hp
      exact ⟨hdisk, hnetwork, by rw [hset, hfailed _ rfl]; rfl⟩
    · obtain ⟨found', i, hp'⟩ := packageOf_of_usable (r := r) hv
        (PackageCache.isUsable_of_interrupt hu h.interrupt.afterLook)
      rw [hp'] at hp
      obtain ⟨-, rfl⟩ := Prod.mk.inj hp
      exact ⟨hdisk, hnetwork⟩
    · rcases packageOf_cases hp with ⟨hsame, hchanges⟩ | ⟨d, hchanges, hfill⟩
      · exact .inl ⟨hnetwork.trans hsame, by rw [hdisk]; exact hchanges.fileAt id⟩
      · have hkept : d.fileAt (.ofPath h.cwd (r.cache.slot runtime.version)) =
            h.disk.fileAt (.ofPath h.cwd (r.cache.slot runtime.version)) := hchanges.fileAt id
        rcases fill_cases hv hfill with ⟨-, rfl⟩ | ⟨hasked, hsettles⟩
        · exact .inl ⟨hnetwork, by rw [hdisk]; exact hkept⟩
        · right
          refine ⟨?_, ?_⟩
          · rw [hnetwork, hasked, address_eq]
            rfl
          · rw [← Interrupt.afterLook_thrice]
            exact Settles.of_eq
              (k := { h with disk := d, interrupt := h.interrupt.afterLook.afterLook.afterLook })
              hsettles rfl hdisk hkept hfailed

/-- A package that holds nothing to be read is in its slot all the same. -/
theorem resolve_allOrNothing_unreadable :
    let runtime : RuntimeIdentity := ⟨.modern, ⟨8, 0, 4, "", ""⟩⟩
    let r : ReferenceResolver := ⟨.given runtime, ⟨"c"⟩, ⟨"http://feed"⟩⟩
    let h :=
      Host.withDisk ⟨[(["c"], .directory), (["c", "AppRef_8.0.4_Package.zip"], .file .empty false)]⟩
      ⟨fun _ => .answered 200 ["PK".toUTF8, "z".toUTF8] .complete false, []⟩
    runtime.version.IsSpelled ∧ r.Identifies runtime h ∧
      r.AllOrNothing runtime h (r.resolve h).2 (r.resolve h).1 ∧
      (r.resolve h).2.network.requests = ["http://feed/Microsoft.NETCore.App.Ref/8.0.4"] ∧
      (r.resolve h).2.disk.content? [] "c/AppRef_8.0.4_Package.zip" = some "PKz".toUTF8 ∧
        (r.resolve h).1.isOk = false := by
  intro runtime r h
  have hv : runtime.version.IsSpelled := by decide
  have hid : r.Identifies runtime h := identifies_given _ _ _ h
  exact ⟨hv, hid, resolve_allOrNothing hv hid (Prod.eta _).symm, by decide +kernel⟩

end ReferenceResolver

end PolicyForge
