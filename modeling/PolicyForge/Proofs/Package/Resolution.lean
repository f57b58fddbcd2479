import PolicyForge.Package.Resolve
import PolicyForge.Proofs.Host.Act
/-!
# What resolving changes

Resolving references changes nothing but the slots of the cache and the packages on their way into
it, and makes the directory of the cache (`keeps_resolve`).  Only the command that lists the
runtimes may do more.
-/
namespace PolicyForge

open Act

/-- The locations that a cache has for itself: the slots, and the packages on their way. -/
def PackageCache.Owns (c : PackageCache) (cwd l : Location) : Prop :=
  (∃ v, l = Location.ofPath cwd (c.slot v)) ∨
    ∃ v id, l = Location.ofPath cwd (Path.join c.dir (PackageCache.incomingName v id))

theorem isSuffix_slot : IsSuffix "_Package.zip" := ⟨by decide, by decide, by decide⟩

theorem isSuffix_incoming : IsSuffix ".partial" := ⟨by decide, by decide, by decide⟩

/-- A cache owns nothing whose name ends otherwise. -/
theorem PackageCache.not_owns (c : PackageCache) (cwd : Location) (dir name : String) {s : String}
    (hs : IsSuffix s) (hends : ∀ t ∈ ["_Package.zip", ".partial"],
      ¬s.toList <:+ t.toList ∧ ¬t.toList <:+ s.toList) :
    ¬c.Owns cwd (Location.ofPath cwd (Path.join dir (name ++ s))) := by
  obtain ⟨hslot, hslot'⟩ := hends "_Package.zip" (by simp)
  obtain ⟨hincoming, hincoming'⟩ := hends ".partial" (by simp)
  rintro (⟨v, hl⟩ | ⟨v, id, hl⟩)
  · exact Location.ofPath_join_ne_of_suffix cwd dir name c.dir ("AppRef_" ++ v.text) hs isSuffix_slot
      hslot hslot' hl
  · exact Location.ofPath_join_ne_of_suffix cwd dir name c.dir (".AppRef_" ++ v.text ++ "_" ++ id) hs
      isSuffix_incoming hincoming hincoming' hl

section

variable {cwd : Location} {made : Location → Prop} {c : PackageCache} {f : PackageFeed} {v : Version}
  {p p' : IncomingPackage} {h h' : Host}

/-! ## Packages on their way -/

/-- A package on its way into a cache. -/
structure IncomingPackage.IsFor (p : IncomingPackage) (c : PackageCache) : Prop where
  path : ∃ v id, p.path = Path.join c.dir (PackageCache.incomingName v id)
  slot : ∃ v, p.slot = c.slot v

theorem IncomingPackage.IsFor.owns_path (hp : p.IsFor c) (cwd : Location) :
    c.Owns cwd (Location.ofPath cwd p.path) := by
  obtain ⟨v, id, hpath⟩ := hp.path
  exact .inr ⟨v, id, by rw [hpath]⟩

theorem IncomingPackage.IsFor.owns_slot (hp : p.IsFor c) (cwd : Location) :
    c.Owns cwd (Location.ofPath cwd p.slot) := by
  obtain ⟨v, hslot⟩ := hp.slot
  exact .inl ⟨v, by rw [hslot]⟩

theorem isFor_of_start (hs : c.start v h = (.ok p, h')) : p.IsFor c := by
  obtain ⟨n, h₁, -, hs⟩ := bind_ok hs
  obtain ⟨_, h₂, -, hs⟩ := bind_ok hs
  have hp := pure_ok hs
  exact ⟨⟨v, identifierOf n, by rw [hp]⟩, ⟨v, by rw [hp]⟩⟩

theorem keeps_start : Keeps (.changes cwd (c.Owns cwd) made) (c.start v) :=
  keeps_freshNumber.bind fun _ =>
    ((keeps_writeBytes cwd made id _ .empty).mono (fun _ hl => .inr ⟨v, _, hl⟩) fun _ hm => hm).bind
      fun _ => keeps_pure _

theorem keeps_write {ε : Type} (hp : p.IsFor c) (bytes : ByteArray) :
    Keeps (.changes cwd (c.Owns cwd) made) (p.write bytes : Act ε IncomingPackage) := by
  refine Keeps.bind ((keeps_append cwd made p.path bytes).mono ?_ fun _ hm => hm)
    fun _ => keeps_pure _
  rintro l rfl
  exact hp.owns_path cwd

theorem isFor_of_write {ε : Type} {bytes : ByteArray} (hp : p.IsFor c)
    (hw : (p.write bytes : Act ε IncomingPackage) h = (.ok p', h')) : p'.IsFor c := by
  obtain ⟨_, h₁, -, hw⟩ := bind_ok hw
  obtain rfl := pure_ok hw
  exact ⟨hp.path, hp.slot⟩

theorem keeps_commit (hp : p.IsFor c) : Keeps (.changes cwd (c.Owns cwd) made) p.commit := by
  refine Keeps.bind ((keeps_rename cwd made id p.path p.slot).mono ?_ fun _ hm => hm)
    fun _ => keeps_pure _
  rintro l (rfl | rfl)
  · exact hp.owns_path cwd
  · exact hp.owns_slot cwd

theorem keeps_discard {ε : Type} (hp : p.IsFor c) :
    Keeps (.changes cwd (c.Owns cwd) made) (p.discard : Act ε Unit) := by
  refine (keeps_removeQuietly cwd made p.path).mono ?_ fun _ hm => hm
  rintro l rfl
  exact hp.owns_path cwd

/-! ## Downloads -/

theorem keeps_waitInVain {F : Frame} (e : ReferenceError) : Keeps F (PackageFeed.waitInVain e) :=
  Keeps.bind (keeps_update (by simp) (by simp)) fun _ => (keeps_checkpoint _).bind fun _ => keeps_throw e

theorem keeps_interruptedBy {F : Frame} (interrupts : Bool) :
    Keeps F (PackageFeed.interruptedBy interrupts) := by
  cases interrupts <;> exact keeps_update (fun _ => rfl) fun _ => rfl

theorem keeps_receive (address : String) (bodyEnd : BodyEnd) (interrupts : Bool) :
    ∀ (chunks : List ByteArray) {p : IncomingPackage}, p.IsFor c →
      Keeps (.changes cwd (c.Owns cwd) made)
        (PackageFeed.receive address bodyEnd interrupts chunks p) := by
  intro chunks
  induction chunks with
  | nil =>
    intro p hp
    refine (keeps_interruptedBy interrupts).bind fun _ => (keeps_checkpoint _).bind fun _ => ?_
    cases bodyEnd with
    | complete => exact (keeps_checkpoint _).bind fun _ => keeps_pure p
    | broken => exact (keeps_checkpoint _).bind fun _ => keeps_throw _
    | stalled => exact (keeps_waitInVain _).bind fun _ => keeps_pure p
  | cons chunk rest ih =>
    intro p hp
    refine (keeps_checkpoint _).bind fun _ => (keeps_checkpoint _).bind fun _ =>
      (keeps_write hp chunk).bind_of_ok fun p' h mid hw => ih (isFor_of_write hp hw)

theorem keeps_download (hp : p.IsFor c) :
    Keeps (.changes cwd (c.Owns cwd) made) (f.download v p) := by
  refine (keeps_request _).bind fun exchange => ?_
  cases exchange with
  | refused => exact (keeps_checkpoint _).bind fun _ => keeps_throw _
  | silent interrupts =>
    exact (keeps_interruptedBy interrupts).bind fun _ =>
      (keeps_waitInVain _).bind fun _ => keeps_pure p
  | answered status chunks bodyEnd interrupts =>
    refine (keeps_checkpoint _).bind fun _ => ?_
    split
    · exact keeps_throw _
    · exact keeps_receive _ bodyEnd interrupts chunks hp

theorem isFor_of_receive {address : String} {bodyEnd : BodyEnd} {interrupts : Bool} :
    ∀ (chunks : List ByteArray) {p : IncomingPackage} {h : Host}, p.IsFor c →
      PackageFeed.receive address bodyEnd interrupts chunks p h = (.ok p', h') → p'.IsFor c := by
  intro chunks
  induction chunks with
  | nil =>
    intro p h hp hr
    obtain ⟨_, h₁, -, hr⟩ := bind_ok hr
    obtain ⟨_, h₂, -, hr⟩ := bind_ok hr
    cases bodyEnd with
    | complete =>
      obtain ⟨_, h₃, -, hr⟩ := bind_ok hr
      rwa [pure_ok hr]
    | broken =>
      obtain ⟨_, h₃, -, hr⟩ := bind_ok hr
      cases hr
    | stalled =>
      obtain ⟨_, h₃, -, hr⟩ := bind_ok hr
      rwa [pure_ok hr]
  | cons chunk rest ih =>
    intro p h hp hr
    obtain ⟨_, h₁, -, hr⟩ := bind_ok hr
    obtain ⟨_, h₂, -, hr⟩ := bind_ok hr
    obtain ⟨p₁, h₃, hw, hr⟩ := bind_ok hr
    exact ih (isFor_of_write hp hw) hr

/-- What is downloaded is the package that was on its way. -/
theorem isFor_of_download (hp : p.IsFor c) (hd : f.download v p h = (.ok p', h')) : p'.IsFor c := by
  obtain ⟨exchange, h₁, -, hd⟩ := bind_ok hd
  cases exchange with
  | refused =>
    obtain ⟨_, h₂, -, hd⟩ := bind_ok hd
    cases hd
  | silent interrupts =>
    obtain ⟨_, h₂, -, hd⟩ := bind_ok hd
    obtain ⟨_, h₃, -, hd⟩ := bind_ok hd
    rwa [pure_ok hd]
  | answered status chunks bodyEnd interrupts =>
    obtain ⟨_, h₂, -, hd⟩ := bind_ok hd
    split at hd
    · cases hd
    · exact isFor_of_receive chunks hp hd

end

/-! ## Resolving -/

section

variable {cwd : Location} {made : Location → Prop} {r : ReferenceResolver} {v : Version} {F : Frame}

theorem keeps_fill : Keeps (.changes cwd (r.cache.Owns cwd) made) (r.fill v) := by
  refine Keeps.bind_of_ok (keeps_start.mapError) fun incoming h mid hs => ?_
  have hp : incoming.IsFor r.cache := isFor_of_start (mapError_ok hs)
  refine Keeps.bind_of_ok (keeps_download hp).attempt fun result h₁ h₂ hd => ?_
  cases result with
  | ok complete =>
    have hcomplete : complete.IsFor r.cache := isFor_of_download hp (attempt_ok hd)
    exact (keeps_commit hcomplete).mapError
  | error e => exact (keeps_discard hp).bind fun _ => keeps_throw e

theorem keeps_readReferences (path : String) : Keeps F (Package.readReferences path) :=
  Keeps.bind (keeps_reading _ _) fun _ => keeps_ofExcept _

/-- **Resolving changes what the cache owns and makes its directory**; beyond that it does what the
command does that lists the runtimes, if there is one. -/
theorem keeps_resolve (cwd : Location) (hF : ∀ h h', (Frame.changes cwd (r.cache.Owns cwd)
      (Disk.Passes cwd r.cache.dir)).rel h h' → F.rel h h') (hidentify : Keeps F r.runtime.identify) :
    Keeps F r.resolve := by
  have hensure : Keeps F (r.cache.ensure.mapError ReferenceError.io) :=
    (keeps_of_rel hF ((keeps_makeDirectories cwd id r.cache.dir).mono (fun _ hl => hl.elim)
      fun _ hm => hm)).mapError
  have hpackage : Keeps F r.package := by
    refine (keeps_checkpoint _).bind fun _ => hidentify.bind fun runtime => ?_
    have husable : Keeps F (do
        if ← r.cache.isUsable runtime.version then return r.cache.slot runtime.version
        Act.checkpoint ReferenceError.cancelled
        r.fill runtime.version) := by
      refine (keeps_ask _).bind fun usable => ?_
      cases usable with
      | true => exact keeps_pure _
      | false =>
        exact (keeps_checkpoint _).bind fun _ => keeps_of_rel hF keeps_fill
    cases hsupported : runtime.isSupported with
    | true => exact (keeps_checkpoint _).bind fun _ => hensure.bind fun _ => husable
    | false => exact keeps_throw _
  exact hpackage.bind fun path => (keeps_checkpoint _).bind fun _ =>
    (keeps_readReferences path).bind fun references => by
      split
      · exact keeps_throw _
      · exact keeps_pure _

theorem keeps_identify_given (runtime : RuntimeIdentity) :
    Keeps F (RuntimeChoice.given runtime).identify := keeps_pure runtime

end

end PolicyForge
