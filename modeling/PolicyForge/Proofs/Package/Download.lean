import PolicyForge.Proofs.Host.Interrupt
import PolicyForge.Proofs.Package.Incoming
/-!
# Downloads

A download has received a package once the body of the answer has come to its end before the
interrupt is seen.  Then the file of the package holds the chunks of the body, one after the other
(`download_received`).  Any other download fails and touches nothing but this file
(`download_fails`).
-/
namespace PolicyForge

open Act

namespace Act

variable {ε α : Type} {h : Host}

/-- A job fails, and only the file at a path and the interrupt are not as they were. -/
def FailsBeside (path : String) (a : Act ε α) (h : Host) : Prop :=
  ∃ e d i, a h = (.error e, { h with disk := d, interrupt := i }) ∧
    h.disk.Changes (· = .ofPath h.cwd path) (fun _ => False) d

namespace FailsBeside

variable {β : Type} {path : String} {a : Act ε α} {f : α → Act ε β}

theorem throw (path : String) (e : ε) (h : Host) : FailsBeside path (throw e : Act ε α) h :=
  ⟨e, h.disk, h.interrupt, rfl, .refl _ _ _⟩

theorem bind_of_ok {x : α} {d : Disk} {i : Interrupt}
    (ha : a h = (.ok x, { h with disk := d, interrupt := i }))
    (hchanges : h.disk.Changes (· = .ofPath h.cwd path) (fun _ => False) d)
    (hf : FailsBeside path (f x) { h with disk := d, interrupt := i }) :
    FailsBeside path (a >>= f) h := by
  obtain ⟨e, d', i', he, hchanges'⟩ := hf
  refine ⟨e, d', i', ?_, hchanges.trans hchanges'⟩
  rw [Act.bind_of_ok ha, he]

theorem bind_of_fails (ha : FailsBeside path a h) : FailsBeside path (a >>= f) h := by
  obtain ⟨e, d, i, he, hchanges⟩ := ha
  exact ⟨e, d, i, bind_of_error he, hchanges⟩

theorem checkpoint_bind {cancelled : ε} {f : Unit → Act ε β}
    (hf : h.interrupt.QuietAt 0 → FailsBeside path (f ()) { h with interrupt := h.interrupt.afterLook }) :
    FailsBeside path (checkpoint cancelled >>= f) h := by
  by_cases hq : h.interrupt.QuietAt 0
  · exact bind_of_ok (d := h.disk) (checkpoint_of_quietAt cancelled hq) (.refl _ _ _) (hf hq)
  · exact bind_of_fails ⟨cancelled, h.disk, h.interrupt, checkpoint_of_not_quietAt cancelled hq,
      .refl _ _ _⟩

end FailsBeside

end Act

namespace PackageFeed

variable {address : String} {bodyEnd : BodyEnd} {interrupts : Bool} {f : PackageFeed} {v : Version}
  {p : IncomingPackage} {h : Host}

theorem waitInVain_fails (path : String) (e : ReferenceError) (h : Host) :
    FailsBeside path (waitInVain e) h :=
  FailsBeside.bind_of_ok (d := h.disk) (i := h.interrupt.afterWait) rfl (.refl _ _ _)
    (.checkpoint_bind fun _ => .throw path e _)

theorem interruptedBy_eq (interrupts : Bool) (h : Host) : interruptedBy interrupts h =
    (.ok (), { h with interrupt := if interrupts then .set else h.interrupt }) := by
  cases interrupts <;> rfl

/-! ## The body of an answer -/

/-- A disk on which some chunks have been written after the bytes of a file. -/
def appendAll (d : Disk) (cwd : Location) (path : String) (chunks : List ByteArray) : Disk :=
  chunks.foldl (fun d chunk => d.append cwd path chunk) d

theorem appendAll_changes (cwd : Location) (path : String) (chunks : List ByteArray) : ∀ (d : Disk),
    d.Changes (· = .ofPath cwd path) (fun _ => False) (appendAll d cwd path chunks) := by
  induction chunks with
  | nil => exact fun d => .refl _ _ d
  | cons chunk rest ih => exact fun d => (d.append_changes cwd path chunk).trans (ih _)

/-- A body that comes to its end before the interrupt is seen. -/
theorem receive_received (address : String) (chunks : List ByteArray) :
    ∀ {p : IncomingPackage} {h : Host},
    h.interrupt.QuietAt (2 * chunks.length + 1) → ∃ p' i, p'.path = p.path ∧ p'.slot = p.slot ∧
      receive address .complete false chunks p h =
        (.ok p', { h with disk := appendAll h.disk h.cwd p.path chunks, interrupt := i }) := by
  induction chunks with
  | nil =>
    intro p h hq
    have hq' : h.interrupt.afterLook.QuietAt 0 := Interrupt.quietAt_afterLook.2 hq
    refine ⟨p, h.interrupt.afterLook.afterLook, rfl, rfl, ?_⟩
    rw [receive, bind_of_ok (interruptedBy_eq false h)]
    exact (bind_of_ok (checkpoint_of_quietAt _ (hq.mono (Nat.zero_le _)))).trans
      (bind_of_ok (checkpoint_of_quietAt _ hq'))
  | cons chunk rest ih =>
    intro p h hq
    rw [List.length_cons] at hq
    have hq' : h.interrupt.afterLook.QuietAt 0 := Interrupt.quietAt_afterLook.2 (hq.mono (by omega))
    have hrest : h.interrupt.afterLook.afterLook.QuietAt (2 * rest.length + 1) :=
      Interrupt.quietAt_afterLook.2 (Interrupt.quietAt_afterLook.2 (hq.mono (by omega)))
    obtain ⟨p', i, hpath, hslot, hreceive⟩ := ih (p := { p with written := p.written + chunk.size })
      (h := { h with
        disk := h.disk.append h.cwd p.path chunk
        interrupt := h.interrupt.afterLook.afterLook }) hrest
    refine ⟨p', i, hpath, hslot, ?_⟩
    rw [receive, bind_of_ok (checkpoint_of_quietAt _ (hq.mono (Nat.zero_le _))),
      bind_of_ok (checkpoint_of_quietAt _ hq'), bind_of_ok (IncomingPackage.write_eq p chunk _)]
    exact hreceive

theorem receive_fails (chunks : List ByteArray) : ∀ {p : IncomingPackage} {h : Host},
    ¬(bodyEnd = .complete ∧ interrupts = false ∧ h.interrupt.QuietAt (2 * chunks.length + 1)) →
      FailsBeside p.path (receive address bodyEnd interrupts chunks p) h := by
  induction chunks with
  | nil =>
    intro p h hnot
    refine FailsBeside.bind_of_ok (d := h.disk) (interruptedBy_eq interrupts h) (.refl _ _ _)
      (.checkpoint_bind fun hq => ?_)
    cases bodyEnd with
    | broken => exact .checkpoint_bind fun _ => .throw _ _ _
    | stalled => exact .bind_of_fails (waitInVain_fails _ _ _)
    | complete =>
      refine .checkpoint_bind fun hq' => ?_
      cases interrupts with
      | true => exact absurd (hq 0 rfl) (Nat.lt_irrefl 0)
      | false => exact absurd ⟨rfl, rfl, Interrupt.quietAt_afterLook.1 hq'⟩ hnot
  | cons chunk rest ih =>
    intro p h hnot
    refine FailsBeside.checkpoint_bind fun hq => .checkpoint_bind fun hq' => ?_
    refine .bind_of_ok (IncomingPackage.write_eq p chunk _) (Disk.append_changes _ _ _ _)
      (ih fun hrest => hnot ?_)
    obtain ⟨hend, hinterrupts, hquiet⟩ := hrest
    exact ⟨hend, hinterrupts, Interrupt.quietAt_afterLook.1 (Interrupt.quietAt_afterLook.1 hquiet)⟩

/-! ## A download -/

/-- The feed answers with a package in `chunks`, and the body of the answer comes to its end before
the interrupt is seen. -/
def Delivers (f : PackageFeed) (v : Version) (h : Host) (chunks : List ByteArray) : Prop :=
  ∃ status, h.network.exchange (f.address v) = .answered status chunks .complete false ∧
    isErrorStatus status = false ∧ h.interrupt.QuietAt (2 * chunks.length + 2)

def asked (n : Network) (address : String) : Network := { n with requests := n.requests ++ [address] }

theorem request_eq (address : String) (h : Host) : (Act.request address : Act ReferenceError Exchange) h =
    (.ok (h.network.exchange address), { h with network := asked h.network address }) := rfl

theorem download_received {chunks : List ByteArray} (hf : f.Delivers v h chunks) (p : IncomingPackage) :
    ∃ p' i, p'.path = p.path ∧ p'.slot = p.slot ∧ f.download v p h =
      (.ok p', { h with
        network := asked h.network (f.address v), disk := appendAll h.disk h.cwd p.path chunks,
        interrupt := i }) := by
  obtain ⟨status, hexchange, hstatus, hq⟩ := hf
  obtain ⟨p', i, hpath, hslot, hreceive⟩ := receive_received (f.address v) chunks (p := p)
    (h := { h with network := asked h.network (f.address v), interrupt := h.interrupt.afterLook })
    (Interrupt.quietAt_afterLook.2 hq)
  refine ⟨p', i, hpath, hslot, ?_⟩
  rw [download, bind_of_ok (request_eq _ h), hexchange]
  refine (bind_of_ok (checkpoint_of_quietAt (h := { h with network := asked h.network (f.address v) }) _
    (hq.mono (Nat.zero_le _)))).trans ?_
  rw [hstatus]
  exact hreceive

theorem fails_of_request {address path : String} {α : Type} {g : Exchange → Act ReferenceError α}
    (hg : FailsBeside path (g (h.network.exchange address))
      { h with network := asked h.network address }) :
    ∃ e d i, (Act.request address >>= g) h =
      (.error e, { h with network := asked h.network address, disk := d, interrupt := i }) ∧
        h.disk.Changes (· = .ofPath h.cwd path) (fun _ => False) d := by
  obtain ⟨e, d, i, he, hchanges⟩ := hg
  exact ⟨e, d, i, (bind_of_ok (request_eq address h)).trans he, hchanges⟩

theorem download_fails (hf : ∀ chunks, ¬f.Delivers v h chunks) (p : IncomingPackage) :
    ∃ e d i, f.download v p h =
      (.error e, { h with network := asked h.network (f.address v), disk := d, interrupt := i }) ∧
        h.disk.Changes (· = .ofPath h.cwd p.path) (fun _ => False) d := by
  refine fails_of_request ?_
  cases hexchange : h.network.exchange (f.address v) with
  | refused => exact .checkpoint_bind fun _ => .throw _ _ _
  | silent interrupts =>
    exact .bind_of_ok (interruptedBy_eq interrupts _) (.refl _ _ _)
      (.bind_of_fails (waitInVain_fails _ _ _))
  | answered status chunks bodyEnd interrupts =>
    refine .checkpoint_bind fun hq => ?_
    cases hstatus : isErrorStatus status with
    | true => exact .throw _ _ _
    | false =>
      refine receive_fails chunks fun hreceived => ?_
      obtain ⟨rfl, rfl, hquiet⟩ := hreceived
      exact hf chunks ⟨status, hexchange, hstatus, Interrupt.quietAt_afterLook.1 hquiet⟩

end PackageFeed

end PolicyForge
