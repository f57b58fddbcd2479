import PolicyForge.Proofs.Package.Stranded
/-!
# Where the bytes in a slot come from

Resolving changes a slot only by a download into it, so what is then in the slot is the complete
body of the answer of the feed (`answer_of_changed`).  A download gives up on the status of an error
of the client or of the server and on no other.  So the body is that of an answer that reports
success exactly if the feed does not answer with one of the statuses in between
(`resolve_success_iff`).
-/
namespace PolicyForge

open Act

/-- Whether an answer reports success. -/
def isSuccessStatus (status : Nat) : Bool := 200 ≤ status && status < 300

/-- Some bytes are the complete body of the answer of an address, which reports success. -/
def Network.Succeeds (n : Network) (address : String) (bytes : ByteArray) : Prop :=
  ∃ status chunks interrupts, n.exchange address = .answered status chunks .complete interrupts ∧
    isSuccessStatus status = true ∧ joined chunks = bytes

/-! ## Jobs that ask nothing -/

namespace Act

variable {ε ε' α β : Type}

def Offline (a : Act ε α) : Prop := ∀ h, (a h).2.network = h.network

theorem Offline.bind {a : Act ε α} {f : α → Act ε β} (ha : Offline a) (hf : ∀ x, Offline (f x)) :
    Offline (a >>= f) := by
  intro h
  have hmid := ha h
  cases hr : a h with
  | mk result mid =>
    rw [hr] at hmid
    cases result with
    | ok x =>
      rw [bind_of_ok hr]
      exact (hf x mid).trans hmid
    | error e =>
      rw [bind_of_error hr]
      exact hmid

theorem offline_pure (x : α) : Offline (pure x : Act ε α) := fun _ => rfl

theorem offline_throw (e : ε) : Offline (throw e : Act ε α) := fun _ => rfl

theorem offline_run (wrap : IoError → ε) (name : String) (arguments : List String) :
    Offline (run wrap name arguments) := by
  intro h
  unfold run
  split <;> rfl

theorem offline_makeDirectories (wrap : IoError → ε) (path : String) :
    Offline (makeDirectories wrap path) := by
  intro h
  unfold makeDirectories
  split <;> rfl

theorem Offline.mapError {f : ε → ε'} {a : Act ε α} (ha : Offline a) : Offline (a.mapError f) := by
  intro h
  have hmid := ha h
  unfold Act.mapError
  split <;> rename_i hr <;> rw [hr] at hmid <;> exact hmid

end Act

namespace ReferenceResolver

variable {r : ReferenceResolver} {v w : Version} {h h' k : Host}

theorem offline_identify (choice : RuntimeChoice) : Offline choice.identify := by
  cases choice with
  | given runtime => exact offline_pure runtime
  | installed command => exact (offline_run _ _ _).bind fun _ _ => rfl

theorem offline_lookUp (r : ReferenceResolver) : Offline r.lookUp := by
  have hcheck : Offline (checkpoint ReferenceError.cancelled) := fun h => (reads_checkpoint _ h).2
  refine hcheck.bind fun _ => (offline_identify r.runtime).bind fun runtime => ?_
  cases runtime.isSupported with
  | false => exact offline_throw _
  | true =>
    refine hcheck.bind fun _ => (offline_makeDirectories _ _).mapError.bind fun _ => ?_
    refine Offline.bind (fun _ => rfl) fun usable => ?_
    cases usable with
    | true => exact offline_pure _
    | false => exact hcheck.bind fun _ => offline_pure _

/-! ## The answer that is in a slot -/

theorem fileAt_of_fill {found : Except ReferenceError String} (hv : v.IsSpelled) (hw : w.IsSpelled)
    (hne : v ≠ w) (hfill : r.fill w h = (found, h')) :
    h'.disk.fileAt (.ofPath h.cwd (r.cache.slot v)) = h.disk.fileAt (.ofPath h.cwd (r.cache.slot v)) := by
  obtain ⟨written, hchanges, hslot⟩ := fill_changes_beside hv hw hne hfill
  exact hchanges.fileAt hslot

/-- A slot that a download changes holds what the feed delivers. -/
theorem delivers_of_fill {found : Except ReferenceError String} (hv : v.IsSpelled) (hw : w.IsSpelled)
    (hfill : r.fill w h = (found, h')) (hchanged : h'.disk.fileAt (.ofPath h.cwd (r.cache.slot v)) ≠
      h.disk.fileAt (.ofPath h.cwd (r.cache.slot v))) :
    ∃ chunks, r.feed.Delivers v h chunks ∧
      h'.disk.content? h.cwd (r.cache.slot v) = some (joined chunks) := by
  by_cases hne : v = w
  · subst hne
    rcases fill_cases hv hfill
      with ⟨-, rfl⟩ | ⟨-, ⟨-, -, hsame⟩ | ⟨chunks, hdelivers, hcontent | ⟨e, -, -, hsame⟩⟩⟩
    · exact absurd rfl hchanged
    · exact absurd hsame hchanged
    · exact ⟨chunks, hdelivers, hcontent⟩
    · exact absurd hsame hchanged
  · exact absurd (fileAt_of_fill hv hw hne hfill) hchanged

/-- A slot that resolving changes holds the complete body of an answer that is no error. -/
theorem answer_of_changed {result : Except ReferenceError (List Reference)} (hv : v.IsSpelled)
    (hgiven : ∀ given, r.runtime = .given given → given.version.IsSpelled)
    (hid : Keeps (.file h.cwd (.ofPath h.cwd (r.cache.slot v))) r.runtime.identify)
    (hr : r.resolve h = (result, h')) (hchanged : h'.disk.fileAt (.ofPath h.cwd (r.cache.slot v)) ≠
      h.disk.fileAt (.ofPath h.cwd (r.cache.slot v))) :
    ∃ status chunks, h.network.exchange (r.feed.address v) = .answered status chunks .complete false ∧
      isErrorStatus status = false ∧ h'.disk.content? h.cwd (r.cache.slot v) = some (joined chunks) := by
  have hlooked := keeps_lookUp (Frame.file_of_changes id) hid h rfl
  rcases disk_of_resolve hr with ⟨finding, k, hlook, -, hdisk⟩ |
    ⟨w, k, found, mid, hlook, hfill, hdisk⟩
  · rw [hlook] at hlooked
    rw [hdisk] at hchanged
    exact absurd hlooked.2 hchanged
  · have hasked := offline_lookUp r h
    rw [hlook] at hlooked hasked
    obtain ⟨hcwd, hsame⟩ := hlooked
    rw [hdisk, ← hsame, ← hcwd] at hchanged
    obtain ⟨chunks, ⟨status, hexchange, hstatus, -⟩, hcontent⟩ :=
      delivers_of_fill hv (isSpelled_of_lookUp hgiven hlook) hfill hchanged
    refine ⟨status, chunks, ?_, hstatus, ?_⟩
    · rw [← hexchange, ← hasked]
    · rw [hdisk, ← hcwd, hcontent]

/-- **What resolving puts into a slot is the complete body of an answer**, and of one that reports
success exactly if the feed does not answer with a status that reports neither success nor an
error. -/
theorem resolve_success_iff {result : Except ReferenceError (List Reference)} (hv : v.IsSpelled)
    (hgiven : ∀ given, r.runtime = .given given → given.version.IsSpelled)
    (hid : Keeps (.file h.cwd (.ofPath h.cwd (r.cache.slot v))) r.runtime.identify)
    (hr : r.resolve h = (result, h')) (hchanged : h'.disk.fileAt (.ofPath h.cwd (r.cache.slot v)) ≠
      h.disk.fileAt (.ofPath h.cwd (r.cache.slot v))) :
    ∃ status chunks, h.network.exchange (r.feed.address v) = .answered status chunks .complete false ∧
      h'.disk.content? h.cwd (r.cache.slot v) = some (joined chunks) ∧
      ((∃ bytes, h'.disk.content? h.cwd (r.cache.slot v) = some bytes ∧
          h.network.Succeeds (r.feed.address v) bytes) ↔
        ¬(status < 200 ∨ 300 ≤ status ∧ status < 400 ∨ 600 ≤ status)) := by
  obtain ⟨status, chunks, hexchange, hstatus, hcontent⟩ := answer_of_changed hv hgiven hid hr hchanged
  refine ⟨status, chunks, hexchange, hcontent, ?_⟩
  have hclass : isSuccessStatus status = true ↔
      ¬(status < 200 ∨ 300 ≤ status ∧ status < 400 ∨ 600 ≤ status) := by
    simp only [isErrorStatus, Bool.and_eq_false_iff, decide_eq_false_iff_not] at hstatus
    simp only [isSuccessStatus, Bool.and_eq_true, decide_eq_true_eq]
    omega
  rw [← hclass]
  constructor
  · rintro ⟨bytes, -, status', chunks', interrupts, hexchange', hsuccess, -⟩
    cases hexchange.symm.trans hexchange'
    exact hsuccess
  · exact fun hsuccess => ⟨_, hcontent, status, chunks, false, hexchange, hsuccess, rfl⟩

/-- A package that comes in two pieces goes into a slot that could not be used. -/
theorem resolve_success_iff_pieces :
    let v : Version := ⟨8, 0, 4, "", ""⟩
    let r : ReferenceResolver := ⟨.given ⟨.modern, v⟩, ⟨"c"⟩, ⟨"http://feed"⟩⟩
    let h :=
      Host.withDisk ⟨[(["c"], .directory), (["c", "AppRef_8.0.4_Package.zip"], .file .empty false)]⟩
      ⟨fun _ => .answered 203 ["PK".toUTF8, "z".toUTF8] .complete false, []⟩
    v.IsSpelled ∧ (∀ given, r.runtime = .given given → given.version.IsSpelled) ∧
      Keeps (.file h.cwd (.ofPath h.cwd (r.cache.slot v))) r.runtime.identify ∧
      (r.resolve h).2.disk.fileAt (.ofPath h.cwd (r.cache.slot v)) ≠
        h.disk.fileAt (.ofPath h.cwd (r.cache.slot v)) ∧
      (r.resolve h).2.disk.content? h.cwd (r.cache.slot v) = some "PKz".toUTF8 ∧
      ∃ bytes, (r.resolve h).2.disk.content? h.cwd (r.cache.slot v) = some bytes ∧
        h.network.Succeeds (r.feed.address v) bytes := by
  intro v r h
  have hv : v.IsSpelled := by decide
  have hgiven : ∀ given, r.runtime = .given given → given.version.IsSpelled := by
    rintro _ ⟨⟩
    exact hv
  have hid : Keeps (.file h.cwd (.ofPath h.cwd (r.cache.slot v))) r.runtime.identify :=
    keeps_identify_given _
  have hchanged : (r.resolve h).2.disk.fileAt (.ofPath h.cwd (r.cache.slot v)) ≠
      h.disk.fileAt (.ofPath h.cwd (r.cache.slot v)) := by decide +kernel
  refine ⟨hv, hgiven, hid, hchanged, by decide +kernel, ?_⟩
  obtain ⟨status, chunks, hexchange, -, hiff⟩ :=
    resolve_success_iff hv hgiven hid (Prod.eta _).symm hchanged
  cases hexchange
  exact hiff.2 (by decide)

/-- The body of a redirection that leads nowhere becomes a package. -/
theorem resolve_keeps_redirection :
    let v : Version := ⟨8, 0, 4, "", ""⟩
    let r : ReferenceResolver := ⟨.given ⟨.modern, v⟩, ⟨"c"⟩, ⟨"http://feed"⟩⟩
    let h := Host.withDisk ⟨[]⟩ ⟨fun _ => .answered 302 ["moved".toUTF8] .complete false, []⟩
    (r.resolve h).2.disk.fileAt (.ofPath h.cwd (r.cache.slot v)) ≠
      h.disk.fileAt (.ofPath h.cwd (r.cache.slot v)) ∧
      (r.resolve h).2.disk.content? h.cwd (r.cache.slot v) = some "moved".toUTF8 ∧
      ¬∃ bytes, (r.resolve h).2.disk.content? h.cwd (r.cache.slot v) = some bytes ∧
        h.network.Succeeds (r.feed.address v) bytes := by
  intro v r h
  refine ⟨by decide +kernel, by decide +kernel, ?_⟩
  rintro ⟨bytes, -, status, chunks, interrupts, hexchange, hsuccess, -⟩
  cases hexchange
  exact absurd hsuccess (by decide)

end ReferenceResolver

end PolicyForge
