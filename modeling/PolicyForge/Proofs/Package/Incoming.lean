import PolicyForge.Proofs.Framework.Version
import PolicyForge.Proofs.Host.Entry
import PolicyForge.Proofs.Host.Unique
import PolicyForge.Proofs.Package.Resolution
/-!
# Packages on their way

Every version has a slot of its own, and no package on its way is at a slot.  A package that has been
started has a file that can be written to, and is committed if its slot can be written to
(`commit_of_writable`).
-/
namespace PolicyForge

open Act

/-! ## Names in a cache -/

namespace PackageCache

variable {v w : Version}

theorem not_mem_text (hv : v.IsSpelled) :
    '/' ∉ v.text.toList ∧ '\x00' ∉ v.text.toList ∧ '_' ∉ v.text.toList := by
  refine ⟨fun h => ?_, fun h => ?_, fun h => ?_⟩ <;>
    rcases Version.mem_text hv h with h | h <;> exact absurd h (by decide)

theorem not_mem_identifierOf (n : Nat) :
    '/' ∉ (identifierOf n).toList ∧ '\x00' ∉ (identifierOf n).toList := by
  constructor <;> exact fun h => absurd (mem_identifierOf h) (by decide)

theorem isEntry_slotName (hv : v.IsSpelled) : IsEntry (slotName v) := by
  obtain ⟨hseparator, hnul, -⟩ := not_mem_text hv
  refine ⟨isSuffix_slot.isName ("AppRef_" ++ v.text), ?_, ?_⟩
  · simp [slotName, hseparator]
  · simp [slotName, hnul]

theorem isEntry_incomingName (hv : v.IsSpelled) (n : Nat) :
    IsEntry (incomingName v (identifierOf n)) := by
  obtain ⟨hseparator, hnul, -⟩ := not_mem_text hv
  obtain ⟨hseparator', hnul'⟩ := not_mem_identifierOf n
  refine ⟨isSuffix_incoming.isName (".AppRef_" ++ v.text ++ "_" ++ identifierOf n), ?_, ?_⟩
  · simp [incomingName, hseparator, hseparator']
  · simp [incomingName, hnul, hnul']

theorem slotName_inj (hv : v.IsSpelled) (hw : w.IsSpelled) (h : slotName v = slotName w) : v = w := by
  have htext := (String.append_right_inj _).1 ((String.append_left_inj _).1 h)
  exact Version.text_inj hv hw htext

theorem incomingName_inj (hv : v.IsSpelled) (hw : w.IsSpelled) {m n : Nat}
    (h : incomingName v (identifierOf m) = incomingName w (identifierOf n)) : m = n := by
  have hchars := congrArg String.toList ((String.append_left_inj _).1 h)
  simp only [String.toList_append, List.append_assoc] at hchars
  have hrun : ∀ {u : Version}, u.IsSpelled → ∀ c ∈ u.text.toList, (c != '_') = true := by
    intro u hu c hc
    rw [bne_iff_ne]
    rintro rfl
    exact (not_mem_text hu).2.2 hc
  have hhead : ∀ r : List Char, ∀ c ∈ ("_".toList ++ r).head?, (c != '_') = false := by
    rintro r c ⟨⟩
    rfl
  have hrest := (Text.run_inj (hrun hv) (hrun hw) (hhead _) (hhead _) (List.append_cancel_left hchars)).2
  exact identifierOf_inj (String.toList_inj.1 (List.append_cancel_left hrest))

/-- **No two versions share a slot.** -/
theorem location_slot_ne (c : PackageCache) (cwd : Location) (hv : v.IsSpelled) (hw : w.IsSpelled)
    (hne : v ≠ w) :
    Location.ofPath cwd (c.slot v) ≠ .ofPath cwd (c.slot w) := by
  intro heq
  rw [slot, slot, Location.ofPath_join_name (isEntry_slotName hv),
    Location.ofPath_join_name (isEntry_slotName hw)] at heq
  exact hne (slotName_inj hv hw (List.singleton_inj.1 (List.append_cancel_left heq)))

/-- **No package on its way has the name of a slot.** -/
theorem slotName_ne_incomingName (v w : Version) (id : String) : slotName v ≠ incomingName w id := by
  intro h
  have hchars := congrArg (List.head? ∘ String.toList) h
  simp [slotName, incomingName] at hchars

/-- No package on its way is at a slot. -/
theorem location_slot_ne_incoming (c : PackageCache) (cwd : Location) (hv : v.IsSpelled)
    (hw : w.IsSpelled) (n : Nat) :
    Location.ofPath cwd (c.slot v) ≠ .ofPath cwd (Path.join c.dir (incomingName w (identifierOf n))) := by
  intro heq
  rw [slot, Location.ofPath_join_name (isEntry_slotName hv),
    Location.ofPath_join_name (isEntry_incomingName hw n)] at heq
  exact slotName_ne_incomingName v w _ (List.singleton_inj.1 (List.append_cancel_left heq))

theorem sizes_le_grouped (sizes : List Nat) : ∀ (digits : List Char),
    sizes.length ≤ (String.ofList (grouped sizes digits)).utf8ByteSize := by
  induction sizes with
  | nil => exact fun _ => Nat.zero_le _
  | cons size sizes ih =>
    intro digits
    have hrest := ih (digits.drop size)
    have hhyphen : ("-" : String).utf8ByteSize = 1 := rfl
    have hcut : String.ofList (grouped (size :: sizes) digits) =
        String.ofList (digits.take size) ++
          ("-" ++ String.ofList (grouped sizes (digits.drop size))) := by
      rw [grouped, String.ofList_append, ← List.singleton_append, String.ofList_append]
    rw [hcut, String.utf8ByteSize_append, String.utf8ByteSize_append, hhyphen, List.length_cons]
    omega

/-- Where a package can be on its way, its slot can be. -/
theorem slotName_size (v : Version) (n : Nat) :
    (slotName v).utf8ByteSize ≤ (incomingName v (identifierOf n)).utf8ByteSize := by
  have hid : 4 ≤ (identifierOf n).utf8ByteSize := sizes_le_grouped [8, 4, 4, 4] _
  have hslot : ("AppRef_" : String).utf8ByteSize = 7 ∧
      ("_Package.zip" : String).utf8ByteSize = 12 := ⟨rfl, rfl⟩
  have hincoming : (".AppRef_" : String).utf8ByteSize = 8 ∧ ("_" : String).utf8ByteSize = 1 ∧
      (".partial" : String).utf8ByteSize = 8 := ⟨rfl, rfl, rfl⟩
  simp only [slotName, incomingName, String.utf8ByteSize_append, hslot, hincoming]
  omega

end PackageCache

/-- Where the directory of a cache holds no directories, no slot is one. -/
theorem PackageCache.isDirectory_slot {c : PackageCache} {d : Disk} {cwd : Location} {v : Version}
    (hv : v.IsSpelled)
    (h : ∀ name, d.node? (Location.ofPath cwd c.dir ++ [name]) ≠ some .directory) :
    d.isDirectory cwd (c.slot v) = false := by
  rw [Bool.eq_false_iff]
  intro hslot
  have hnode := (Disk.hasDirectory_of_isDirectory hslot).node
  rw [slot, Location.ofPath_join_name (isEntry_slotName hv)] at hnode
  exact h _ hnode

/-! ## Single operations -/

def joined (chunks : List ByteArray) : ByteArray := chunks.foldl (· ++ ·) .empty

theorem joined_concat (chunks : List ByteArray) (bytes : ByteArray) :
    joined (chunks ++ [bytes]) = joined chunks ++ bytes := by
  rw [joined, List.foldl_append]
  rfl

section

variable {c : PackageCache} {v : Version} {p : IncomingPackage} {h h' : Host}

namespace PackageCache

theorem start_ok (hs : c.start v h = (.ok p, h')) :
    (p.path = Path.join c.dir (incomingName v (identifierOf h.fresh)) ∧ p.slot = c.slot v ∧
      p.written = 0) ∧
      h' = { h with fresh := h.fresh + 1, disk := h'.disk } ∧
      h.disk.locate h.cwd p.path = .ok ⟨.ofPath h.cwd p.path, false⟩ ∧
      h.disk.Changes (· = .ofPath h.cwd p.path) (fun _ => False) h'.disk ∧
      ∃ executable, h'.disk.node? (.ofPath h.cwd p.path) = some (.file .empty executable) := by
  obtain ⟨n, h₁, hn, hs⟩ := bind_ok hs
  cases hn
  obtain ⟨_, h₂, hw, hs⟩ := bind_ok hs
  obtain ⟨d, hd, rfl⟩ := changing_ok
    (f := fun d cwd => d.writeBytes cwd
      (Path.join c.dir (incomingName v (identifierOf h.fresh))) .empty) hw
  obtain ⟨hlocate, hchanges, hnode⟩ := Disk.writeBytes_ok hd
  obtain rfl := pure_ok hs
  obtain rfl := (Prod.mk.inj hs).2
  dsimp only at hlocate hchanges hnode ⊢
  exact ⟨⟨rfl, rfl, rfl⟩, rfl, hlocate, hchanges, hnode⟩

theorem start_error {e : IoError} (hs : c.start v h = (.error e, h')) :
    h' = { h with fresh := h.fresh + 1 } := by
  rcases bind_error hs with hs | ⟨n, h₁, hn, hs⟩
  · cases hs
  · cases hn
    rcases bind_error hs with hs | ⟨_, h₂, -, hs⟩
    · exact (changing_error (f := fun d cwd => d.writeBytes cwd _ .empty) hs).2
    · cases hs

theorem isUsable_iff {ε : Type} : (c.isUsable v : Act ε Bool) h = (.ok true, h) ↔
    ∃ bytes, h.disk.content? h.cwd (c.slot v) = some bytes ∧ bytes.size ≠ 0 := by
  rw [isUsable, ask_ok_iff, Disk.content?, Disk.readBytes]
  cases hstat : h.disk.stat h.cwd (c.slot v) with
  | error e => simp [bind, Except.bind, Except.toOption]
  | ok n => cases n <;> simp [bind, Except.bind, Except.toOption, usableNode]

theorem isUsable_of_interrupt {ε : Type} {usable : Bool}
    (hu : (c.isUsable v : Act ε Bool) h = (.ok usable, h)) (i : Interrupt) :
    (c.isUsable v : Act ε Bool) { h with interrupt := i } =
      (.ok usable, { h with interrupt := i }) := by
  simp only [isUsable, ask_ok_iff] at hu ⊢
  exact hu

end PackageCache

namespace IncomingPackage

theorem write_eq {ε : Type} (p : IncomingPackage) (bytes : ByteArray) (h : Host) :
    (p.write bytes : Act ε IncomingPackage) h = (.ok { p with written := p.written + bytes.size },
      { h with disk := h.disk.append h.cwd p.path bytes }) := rfl

/-- A package is committed if its slot can be written to. -/
theorem commit_of_writable {q : Disk.Place} {l : Location} {content : ByteArray} {executable : Bool}
    (hlocate : h.disk.locate h.cwd p.path = .ok q)
    (hnode : h.disk.node? q.location = some (.file content executable))
    (hw : h.disk.writable h.cwd p.slot = .ok l) (hne : q.location ≠ l) :
    ∃ d, p.commit h = (.ok p.slot, { h with disk := d }) ∧ d.node? l = some (.file content executable) ∧
      h.disk.Changes (fun l => l = .ofPath h.cwd p.path ∨ l = .ofPath h.cwd p.slot)
        (fun _ => False) d := by
  obtain ⟨d, hd, htarget⟩ := Disk.rename_of_file hlocate hnode hw hne
  exact ⟨d, bind_of_ok (changing_of_ok (f := fun d cwd => d.rename cwd p.path p.slot) hd), htarget,
    Disk.rename_ok hd⟩

theorem commit_of_error {q : Disk.Place} {content : ByteArray} {executable : Bool} {e : IoError}
    (hlocate : h.disk.locate h.cwd p.path = .ok q)
    (hnode : h.disk.node? q.location = some (.file content executable))
    (hw : h.disk.writable h.cwd p.slot = .error e) : p.commit h = (.error e, h) := by
  have hrename := Disk.rename_of_error hlocate hnode hw
  refine bind_of_error ?_
  rw [rename, changing, hrename]
  rfl

/-- What a slot holds after a package has been committed to it, if it can be written to. -/
theorem commit_cases {c : PackageCache} {v : Version} {content : ByteArray} {executable : Bool}
    (hv : v.IsSpelled) (hlocate : h.disk.locate h.cwd p.path = .ok ⟨.ofPath h.cwd p.path, false⟩)
    (hnode : h.disk.node? (.ofPath h.cwd p.path) = some (.file content executable))
    (hslot : p.slot = c.slot v) (hne : Location.ofPath h.cwd p.path ≠ .ofPath h.cwd (c.slot v)) :
    (∃ d, p.commit h = (.ok p.slot, { h with disk := d }) ∧
      d.content? h.cwd (c.slot v) = some content) ∨
      ∃ e, h.disk.writable h.cwd (c.slot v) = .error e ∧ p.commit h = (.error e, h) := by
  cases hw : h.disk.writable h.cwd (c.slot v) with
  | error e => exact .inr ⟨e, rfl, commit_of_error hlocate hnode (hslot ▸ hw)⟩
  | ok l =>
    obtain ⟨hlocate', -⟩ := Disk.writable_ok hw
    have hl : l = .ofPath h.cwd (c.slot v) := Disk.locate_ok hlocate'
    rw [← hl] at hne
    obtain ⟨d, hcommit, htarget, hchanges⟩ :=
      commit_of_writable (q := ⟨_, false⟩) hlocate hnode (hslot ▸ hw) hne
    have hlocate'' : d.locate h.cwd (c.slot v) = .ok ⟨l, false⟩ :=
      Disk.locate_of_directories (PackageCache.isEntry_slotName hv) hchanges.directory hlocate'
    refine .inl ⟨d, hcommit, ?_⟩
    rw [Disk.content?_of_locate hlocate'', Disk.fileAt, htarget]
    rfl

theorem discard_ok {ε : Type} (p : IncomingPackage) (h : Host) :
    ∃ d, (p.discard : Act ε Unit) h = (.ok (), { h with disk := d }) ∧
      h.disk.Changes (· = .ofPath h.cwd p.path) (fun _ => False) d := by
  unfold discard removeQuietly
  split
  · rename_i d hd
    exact ⟨d, rfl, (Disk.removeFile_ok hd).1⟩
  · exact ⟨h.disk, rfl, .refl _ _ _⟩

end IncomingPackage

end

end PolicyForge
