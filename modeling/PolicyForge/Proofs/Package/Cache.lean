import PolicyForge.Proofs.Package.Incoming
/-!
# What a cache shows

Any number of packages may be on their way into a cache at once, and what is done to them may be
interleaved in any way.  A slot shows the whole of the package that was committed to it last, or
what it held in the beginning (`run_shows`): what is done to packages on their way is not seen.
-/
namespace PolicyForge

open Act

/-! ## Caches in use -/

/-- What is done to a cache.  A package is called by the number of packages started before it. -/
inductive CacheOperation where
  | start (v : Version)
  | write (i : Nat) (bytes : ByteArray)
  | commit (i : Nat)
  | discard (i : Nat)

/-- A package is only started for a version that is spelled as versions are. -/
def CacheOperation.IsSpelled : CacheOperation → Prop
  | .start v => v.IsSpelled
  | _ => True

instance (op : CacheOperation) : Decidable op.IsSpelled :=
  match op with
  | .start v => inferInstanceAs (Decidable v.IsSpelled)
  | .write _ _ | .commit _ | .discard _ => isTrue trivial

/-- An operation, and whether it was done. -/
abbrev CacheEvent := CacheOperation × Bool

/-- What has been done to a cache, the last first. -/
abbrev CacheHistory := List CacheEvent

namespace CacheHistory

/-- The versions of the packages that have been started, in order. -/
def starts : CacheHistory → List Version
  | [] => []
  | (.start v, _) :: past => starts past ++ [v]
  | _ :: past => starts past

/-- The chunks that have been written to package `i`, in order. -/
def chunks (i : Nat) : CacheHistory → List ByteArray
  | [] => []
  | (.write j bytes, true) :: past => if j = i then chunks i past ++ [bytes] else chunks i past
  | _ :: past => chunks i past

theorem getElem?_starts_start {past : CacheHistory} {i : Nat} {w : Version}
    (h : (starts past)[i]? = some w) (v : Version) (done : Bool) :
    (starts ((.start v, done) :: past))[i]? = some w := by
  rw [starts, List.getElem?_append_left (List.getElem?_eq_some_iff.1 h).1, h]

/-- What the slot of a version is to hold: the chunks of the package for it that was committed
last, or what it held in the beginning. -/
def slotContent (v : Version) (initial : Option ByteArray) : CacheHistory → Option ByteArray
  | [] => initial
  | (.commit i, true) :: past =>
    if (starts past)[i]? = some v then some (joined (chunks i past)) else slotContent v initial past
  | _ :: past => slotContent v initial past

end CacheHistory

/-- A cache in use: the packages that have been started, each until it is committed or given up. -/
structure CacheSession where
  host : Host
  packages : List (Option IncomingPackage)
  history : CacheHistory

namespace CacheSession

/-- A cache that nobody has used yet. -/
def fresh (h : Host) : CacheSession := ⟨h, [], []⟩

def package? (s : CacheSession) (i : Nat) : Option IncomingPackage := (s.packages[i]?).join

/-- Nothing is done with a package that is not on its way. -/
def refuse (s : CacheSession) (op : CacheOperation) : CacheSession :=
  { s with history := (op, false) :: s.history }

/-- The cache after what has come of an operation, with the packages that are then on their way. -/
def settle {α : Type} (s : CacheSession) (op : CacheOperation) (done : α → List (Option IncomingPackage))
    (failed : List (Option IncomingPackage)) : Except IoError α × Host → CacheSession
  | (.ok a, h) => ⟨h, done a, (op, true) :: s.history⟩
  | (.error _, h) => ⟨h, failed, (op, false) :: s.history⟩

def apply (c : PackageCache) (s : CacheSession) (op : CacheOperation) : CacheSession :=
  match op with
  | .start v => s.settle op (fun p => s.packages ++ [some p]) (s.packages ++ [none]) (c.start v s.host)
  | .write i bytes =>
    match s.package? i with
    | none => s.refuse op
    | some p => s.settle op (fun p => s.packages.set i (some p)) s.packages (p.write bytes s.host)
  | .commit i =>
    match s.package? i with
    | none => s.refuse op
    | some p => s.settle op (fun _ => s.packages.set i none) (s.packages.set i none) (p.commit s.host)
  | .discard i =>
    match s.package? i with
    | none => s.refuse op
    | some p => s.settle op (fun _ => s.packages.set i none) (s.packages.set i none) (p.discard s.host)

def run (c : PackageCache) (s : CacheSession) (ops : List CacheOperation) : CacheSession :=
  ops.foldl (apply c) s

end CacheSession

/-! ## What holds after every operation -/

open CacheHistory

/-- A package on its way, as it should be after what has been done: a file for itself, which holds
the chunks written to it. -/
structure OnTheWay (c : PackageCache) (cwd : Location) (h : Host) (history : CacheHistory) (i : Nat)
    (p : IncomingPackage) (v : Version) (n : Nat) : Prop where
  spelled : v.IsSpelled
  started : (starts history)[i]? = some v
  number : n < h.fresh
  path : p.path = Path.join c.dir (PackageCache.incomingName v (identifierOf n))
  slot : p.slot = c.slot v
  short : (PackageCache.incomingName v (identifierOf n)).utf8ByteSize ≤ Disk.maxName
  file : ∃ executable,
    h.disk.node? (.ofPath cwd p.path) = some (.file (joined (chunks i history)) executable)
  written : p.written = (joined (chunks i history)).size

/-- The state of a cache in use, as it should be after what has been done. -/
structure CacheSession.Sound (c : PackageCache) (h₀ : Host) (s : CacheSession) : Prop where
  cwd : s.host.cwd = h₀.cwd
  directory : s.host.disk.HasDirectory h₀.cwd c.dir
  length : s.packages.length = (starts s.history).length
  package : ∀ i p, s.package? i = some p → ∃ v n, OnTheWay c h₀.cwd s.host s.history i p v n
  apart : ∀ i j p q, s.package? i = some p → s.package? j = some q → p.path = q.path → i = j
  unstarted : ∀ i, s.packages.length ≤ i → chunks i s.history = []
  slot : ∀ v, v.IsSpelled → s.host.disk.content? h₀.cwd (c.slot v) =
    slotContent v (h₀.disk.content? h₀.cwd (c.slot v)) s.history
  free : ∀ v, v.IsSpelled → (PackageCache.slotName v).utf8ByteSize ≤ Disk.maxName →
    s.host.disk.node? (.ofPath h₀.cwd (c.slot v)) ≠ some .directory

namespace OnTheWay

variable {c : PackageCache} {cwd : Location} {h h' : Host} {history history' : CacheHistory} {i : Nat}
  {p : IncomingPackage} {v : Version} {n : Nat}

theorem isEntry (hp : OnTheWay c cwd h history i p v n) :
    IsEntry (PackageCache.incomingName v (identifierOf n)) :=
  PackageCache.isEntry_incomingName hp.spelled n

/-- A package on its way is at no slot. -/
theorem slot_ne (hp : OnTheWay c cwd h history i p v n) {w : Version} (hw : w.IsSpelled) :
    Location.ofPath cwd (c.slot w) ≠ .ofPath cwd p.path := by
  rw [hp.path]
  exact PackageCache.location_slot_ne_incoming c cwd hw hp.spelled n

theorem name_eq {j : Nat} {q : IncomingPackage} {w : Version} {m : Nat}
    (hp : OnTheWay c cwd h history i p v n) (hq : OnTheWay c cwd h' history' j q w m)
    (heq : Location.ofPath cwd p.path = .ofPath cwd q.path) :
    PackageCache.incomingName v (identifierOf n) = PackageCache.incomingName w (identifierOf m) := by
  rw [hp.path, hq.path, Location.ofPath_join_name hp.isEntry, Location.ofPath_join_name hq.isEntry] at heq
  exact List.singleton_inj.1 (List.append_cancel_left heq)

theorem location_ne {j : Nat} {q : IncomingPackage} {w : Version} {m : Nat}
    (hp : OnTheWay c cwd h history i p v n) (hq : OnTheWay c cwd h' history' j q w m)
    (hne : p.path ≠ q.path) :
    Location.ofPath cwd p.path ≠ .ofPath cwd q.path := by
  intro heq
  exact hne (by rw [hp.path, hq.path, hp.name_eq hq heq])

theorem path_ne {j : Nat} {q : IncomingPackage} {w : Version} {m : Nat}
    (hp : OnTheWay c cwd h history i p v n) (hq : OnTheWay c cwd h' history' j q w m)
    (hne : n ≠ m) : p.path ≠ q.path := by
  intro heq
  exact hne (PackageCache.incomingName_inj hp.spelled hq.spelled (hp.name_eq hq (by rw [heq])))

theorem locate (hp : OnTheWay c cwd h history i p v n) (hd : h.disk.HasDirectory cwd c.dir) :
    h.disk.locate cwd p.path = .ok ⟨.ofPath cwd p.path, false⟩ := by
  rw [hp.path, hd.locate hp.isEntry, if_neg (by have := hp.short; omega)]

/-- What is done elsewhere leaves a package as it should be. -/
theorem of_changes {written : Location → Prop} (hp : OnTheWay c cwd h history i p v n)
    (hchanges : h.disk.Changes written (fun _ => False) h'.disk)
    (hwritten : ¬written (.ofPath cwd p.path)) (hfresh : h.fresh ≤ h'.fresh)
    (hstarts : ∀ w, (starts history)[i]? = some w → (starts history')[i]? = some w)
    (hchunks : chunks i history' = chunks i history) : OnTheWay c cwd h' history' i p v n := by
  obtain ⟨executable, hfile⟩ := hp.file
  refine ⟨hp.spelled, hstarts v hp.started, Nat.lt_of_lt_of_le hp.number hfresh, hp.path,
    hp.slot, hp.short,
    ⟨executable, ?_⟩, by rw [hchunks]; exact hp.written⟩
  rw [hchunks, ← hfile]
  exact hchanges.node? hwritten (by rw [hfile]; simp)

end OnTheWay

namespace CacheSession

variable {c : PackageCache} {h₀ h' : Host} {s : CacheSession} {i : Nat} {p : IncomingPackage}

theorem package?_append (s : CacheSession) (h : Host) (history : CacheHistory)
    (q : Option IncomingPackage) (i : Nat) :
    (⟨h, s.packages ++ [q], history⟩ : CacheSession).package? i =
      if i = s.packages.length then q else s.package? i := by
  unfold package?
  rcases Nat.lt_trichotomy i s.packages.length with hi | hi | hi
  · rw [List.getElem?_append_left hi, if_neg (by omega)]
  · subst hi
    simp
  · rw [List.getElem?_eq_none (by simp; omega), List.getElem?_eq_none (by omega), if_neg (by omega)]

theorem lt_of_package? (hp : s.package? i = some p) : i < s.packages.length := by
  refine Nat.lt_of_not_le fun hi => ?_
  rw [package?, List.getElem?_eq_none hi] at hp
  cases hp

theorem package?_set (hp : s.package? i = some p) (h : Host) (history : CacheHistory)
    (q : Option IncomingPackage) (j : Nat) :
    (⟨h, s.packages.set i q, history⟩ : CacheSession).package? j =
      if j = i then q else s.package? j := by
  unfold package?
  rw [List.getElem?_set]
  by_cases hj : j = i
  · rw [if_pos hj.symm, if_pos (lt_of_package? hp), if_pos hj]
    rfl
  · rw [if_neg (Ne.symm hj), if_neg hj]

namespace Sound

theorem content?_slot (hs : s.Sound c h₀) {written : Location → Prop} {d : Disk}
    (hchanges : s.host.disk.Changes written (fun _ => False) d) {v : Version} (hv : v.IsSpelled)
    (hwritten : ¬written (.ofPath h₀.cwd (c.slot v))) :
    d.content? h₀.cwd (c.slot v) = slotContent v (h₀.disk.content? h₀.cwd (c.slot v)) s.history := by
  rw [← hs.slot v hv]
  exact hs.directory.content?_of_changes (PackageCache.isEntry_slotName hv) hchanges hwritten

theorem node?_slot (hs : s.Sound c h₀) {written : Location → Prop} {d : Disk}
    (hchanges : s.host.disk.Changes written (fun _ => False) d) {v : Version} (hv : v.IsSpelled)
    (hshort : (PackageCache.slotName v).utf8ByteSize ≤ Disk.maxName)
    (hwritten : ¬written (.ofPath h₀.cwd (c.slot v))) :
    d.node? (.ofPath h₀.cwd (c.slot v)) ≠ some .directory := by
  rcases hchanges.other _ hwritten with hsame | ⟨hmade, -⟩
  · rw [hsame]
    exact hs.free v hv hshort
  · exact hmade.elim

/-- What changes nothing and starts nothing leaves all as it should be. -/
theorem refuse (hs : s.Sound c h₀) {op : CacheOperation}
    (hstarts : starts ((op, false) :: s.history) = starts s.history) : (s.refuse op).Sound c h₀ := by
  have hchunks : ∀ i, chunks i ((op, false) :: s.history) = chunks i s.history := by
    intro i
    cases op <;> rfl
  have hslot : ∀ v initial,
      slotContent v initial ((op, false) :: s.history) = slotContent v initial s.history := by
    intro v initial
    cases op <;> rfl
  refine ⟨hs.cwd, hs.directory, hs.length.trans (by rw [← hstarts]; rfl), fun i p hp => ?_, hs.apart,
    fun i hi => (hchunks i).trans (hs.unstarted i hi),
    fun v hv => (hs.slot v hv).trans (hslot _ _).symm, hs.free⟩
  obtain ⟨v, n, hp⟩ := hs.package i p hp
  exact ⟨v, n, hp.of_changes (.refl (fun _ => False) _ _) id (Nat.le_refl _)
    (fun w hw => by rw [← hw, ← hstarts]; rfl) (hchunks i)⟩

/-- A package that cannot be started leaves nothing behind. -/
theorem start_refused (hs : s.Sound c h₀) (v : Version) :
    (⟨{ s.host with fresh := s.host.fresh + 1 }, s.packages ++ [none], (.start v, false) :: s.history⟩ :
      CacheSession).Sound c h₀ := by
  have hpackage : ∀ i p,
      (⟨s.host, s.packages ++ [none], s.history⟩ : CacheSession).package? i = some p →
      s.package? i = some p := by
    intro i p hp
    rw [package?_append] at hp
    split at hp
    · cases hp
    · exact hp
  refine ⟨hs.cwd, hs.directory, by simp [starts, hs.length], fun i p hp => ?_,
    fun i j p q hp hq => hs.apart i j p q (hpackage i p hp) (hpackage j q hq), fun i hi => ?_,
    hs.slot, hs.free⟩
  · obtain ⟨w, n, hp⟩ := hs.package i p (hpackage i p hp)
    exact ⟨w, n, hp.of_changes (.refl (fun _ => False) _ _) id (Nat.le_succ _)
      (fun _ hw => getElem?_starts_start hw v false) rfl⟩
  · rw [List.length_append] at hi
    exact hs.unstarted i (by omega)

/-- The new package has the number that nobody else has. -/
theorem onTheWay_start (hs : s.Sound c h₀) {v : Version} (hv : v.IsSpelled)
    (hstart : c.start v s.host = (.ok p, h')) :
    OnTheWay c h₀.cwd h' ((.start v, true) :: s.history) s.packages.length p v s.host.fresh := by
  obtain ⟨⟨hpath, hslot, hwritten⟩, hhost, hlocate, -, hfile⟩ := PackageCache.start_ok hstart
  have hfresh : h'.fresh = s.host.fresh + 1 := by rw [hhost]
  rw [hs.cwd] at hlocate hfile
  have hshort : (PackageCache.incomingName v (identifierOf s.host.fresh)).utf8ByteSize ≤
      Disk.maxName := by
    rw [hpath] at hlocate
    exact hs.directory.short (PackageCache.isEntry_incomingName hv _) hlocate
  have hchunks : chunks s.packages.length ((.start v, true) :: s.history) = [] :=
    hs.unstarted _ (Nat.le_refl _)
  refine ⟨hv, ?_, by omega, hpath, hslot, hshort, ?_, ?_⟩
  · rw [starts, hs.length, List.getElem?_concat_length]
  · rw [hchunks]
    exact hfile
  · rw [hchunks, hwritten]
    rfl

/-- A package that is started stands beside all the others. -/
theorem started (hs : s.Sound c h₀) {v : Version} (hv : v.IsSpelled)
    (hstart : c.start v s.host = (.ok p, h')) :
    (⟨h', s.packages ++ [some p], (.start v, true) :: s.history⟩ : CacheSession).Sound c h₀ := by
  obtain ⟨-, hhost, -, hchanges, -⟩ := PackageCache.start_ok hstart
  have hcwd : h'.cwd = s.host.cwd := by rw [hhost]
  have hfresh : h'.fresh = s.host.fresh + 1 := by rw [hhost]
  have hnew := hs.onTheWay_start hv hstart
  rw [hs.cwd] at hchanges
  have hold : ∀ i q, s.package? i = some q → q.path ≠ p.path ∧
      ∃ w n, OnTheWay c h₀.cwd h' ((.start v, true) :: s.history) i q w n := by
    intro i q hq
    obtain ⟨w, n, hq⟩ := hs.package i q hq
    have hne : q.path ≠ p.path := hq.path_ne hnew (Nat.ne_of_lt hq.number)
    exact ⟨hne, w, n, hq.of_changes hchanges (hq.location_ne hnew hne) (by omega)
      (fun _ hw => getElem?_starts_start hw v true) rfl⟩
  refine ⟨hcwd.trans hs.cwd, hs.directory.of_directories hchanges.directory, ?_, fun i q hq => ?_,
    fun i j q r hq hr heq => ?_, fun i hi => ?_, fun w hw => ?_, fun w hw hshort => ?_⟩
  · simp [starts, hs.length]
  · rw [package?_append] at hq
    split at hq
    · rename_i hi
      cases hq
      rw [hi]
      exact ⟨v, _, hnew⟩
    · exact (hold i q hq).2
  · rw [package?_append] at hq hr
    split at hq <;> split at hr
    · omega
    · cases hq
      exact absurd heq.symm (hold j r hr).1
    · cases hr
      exact absurd heq (hold i q hq).1
    · exact hs.apart i j q r hq hr heq
  · rw [List.length_append] at hi
    exact hs.unstarted i (by omega)
  · exact hs.content?_slot hchanges hw (hnew.slot_ne hw)
  · exact hs.node?_slot hchanges hw hshort (hnew.slot_ne hw)

theorem start (hs : s.Sound c h₀) {v : Version} (hv : v.IsSpelled) :
    (s.apply c (.start v)).Sound c h₀ := by
  obtain ⟨result, h', hstart⟩ : ∃ result h', c.start v s.host = (result, h') :=
    ⟨_, _, (Prod.eta _).symm⟩
  rw [apply, hstart]
  cases result with
  | error e =>
    obtain rfl := PackageCache.start_error hstart
    exact hs.start_refused v
  | ok p => exact hs.started hv hstart

/-- What is done with one package on its way leaves all the others as they should be. -/
theorem settled (hs : s.Sound c h₀) (hp : s.package? i = some p) {q : Option IncomingPackage}
    {history : CacheHistory} {written : Location → Prop} (hcwd : h'.cwd = s.host.cwd)
    (hfresh : h'.fresh = s.host.fresh)
    (hchanges : s.host.disk.Changes written (fun _ => False) h'.disk)
    (hwritten : ∀ l, written l → l = .ofPath h₀.cwd p.path ∨ ∃ v : Version,
      v.IsSpelled ∧ l = .ofPath h₀.cwd (c.slot v)) (hstarts : starts history = starts s.history)
    (hchunks : ∀ j, j ≠ i → chunks j history = chunks j s.history)
    (hq : ∀ r ∈ q, r.path = p.path ∧ ∃ v n, OnTheWay c h₀.cwd h' history i r v n)
    (hslot : ∀ v, v.IsSpelled →
      h'.disk.content? h₀.cwd (c.slot v) =
        slotContent v (h₀.disk.content? h₀.cwd (c.slot v)) history)
    (hfree : ∀ v, v.IsSpelled → (PackageCache.slotName v).utf8ByteSize ≤ Disk.maxName →
      h'.disk.node? (.ofPath h₀.cwd (c.slot v)) ≠ some .directory) :
    (⟨h', s.packages.set i q, history⟩ : CacheSession).Sound c h₀ := by
  -- Every package is where it was.
  have hpath : ∀ j r, (⟨h', s.packages.set i q, history⟩ : CacheSession).package? j = some r →
      ∃ r', s.package? j = some r' ∧ r.path = r'.path := by
    intro j r hr
    rw [package?_set hp] at hr
    split at hr
    · rename_i hj
      exact ⟨p, hj ▸ hp, (hq r hr).1⟩
    · exact ⟨r, hr, rfl⟩
  refine ⟨hcwd.trans hs.cwd, hs.directory.of_directories hchanges.directory, ?_, fun j r hr => ?_,
    fun j k r t hr ht heq => ?_, fun j hj => ?_, hslot, hfree⟩
  · rw [List.length_set, hstarts]
    exact hs.length
  · rw [package?_set hp] at hr
    split at hr
    · rename_i hj
      rw [hj]
      exact (hq r hr).2
    · rename_i hj
      obtain ⟨v, n, hp'⟩ := hs.package i p hp
      obtain ⟨w, m, hr'⟩ := hs.package j r hr
      refine ⟨w, m, hr'.of_changes hchanges (fun hl => ?_) (Nat.le_of_eq hfresh.symm)
        (fun w hw => by rw [hstarts, hw]) (hchunks j hj)⟩
      rcases hwritten _ hl with hl | ⟨u, hu, hl⟩
      · exact hr'.location_ne hp' (fun heq => hj (hs.apart j i r p hr hp heq)) hl
      · exact hr'.slot_ne hu hl.symm
  · obtain ⟨r', hr', hpath'⟩ := hpath j r hr
    obtain ⟨t', ht', hpath''⟩ := hpath k t ht
    exact hs.apart j k r' t' hr' ht' (by rw [← hpath', ← hpath'', heq])
  · rw [List.length_set] at hj
    have hi := lt_of_package? hp
    rw [hchunks j (by omega)]
    exact hs.unstarted j hj

theorem write (hs : s.Sound c h₀) (i : Nat) (bytes : ByteArray) :
    (s.apply c (.write i bytes)).Sound c h₀ := by
  rw [apply]
  cases hp : s.package? i with
  | none =>
    dsimp only
    exact hs.refuse rfl
  | some p =>
    obtain ⟨v, n, hway⟩ := hs.package i p hp
    obtain ⟨executable, hfile⟩ := hway.file
    have hchanges := s.host.disk.append_changes h₀.cwd p.path bytes
    have hchunks : chunks i ((.write i bytes, true) :: s.history) = chunks i s.history ++ [bytes] := by
      rw [chunks, if_pos rfl]
    have hother : ∀ j, j ≠ i → chunks j ((.write i bytes, true) :: s.history) = chunks j s.history := by
      intro j hj
      rw [chunks, if_neg hj.symm]
    dsimp only
    rw [IncomingPackage.write_eq, hs.cwd, settle]
    refine hs.settled hp hs.cwd.symm rfl hchanges (fun l hl => .inl hl) rfl hother (fun r hr => ?_)
      (fun w hw => hs.content?_slot hchanges hw (hway.slot_ne hw))
      fun w hw hshort => hs.node?_slot hchanges hw hshort (hway.slot_ne hw)
    cases hr
    refine ⟨rfl, v, n, hway.spelled, hway.started, hway.number, hway.path, hway.slot, hway.short,
      ⟨executable, ?_⟩, ?_⟩
    · rw [hchunks, joined_concat]
      exact Disk.append_of_file (hway.locate hs.directory) hfile bytes
    · rw [hchunks, hway.written, joined_concat, ByteArray.size_append]

/-- A package on its way can always be committed. -/
theorem commit_ok (hs : s.Sound c h₀) {v : Version} {n : Nat}
    (hp : OnTheWay c h₀.cwd s.host s.history i p v n) :
    ∃ d executable, p.commit s.host = (.ok p.slot, { s.host with disk := d }) ∧
      d.node? (.ofPath h₀.cwd (c.slot v)) = some (.file (joined (chunks i s.history)) executable) ∧
      s.host.disk.Changes (fun l => l = .ofPath h₀.cwd p.path ∨ l = .ofPath h₀.cwd (c.slot v))
        (fun _ => False) d := by
  obtain ⟨executable, hfile⟩ := hp.file
  have hshort : (PackageCache.slotName v).utf8ByteSize ≤ Disk.maxName :=
    Nat.le_trans (PackageCache.slotName_size v n) hp.short
  have hwritable := hs.directory.writable (PackageCache.isEntry_slotName hp.spelled) hshort
    (hs.free v hp.spelled hshort)
  have hlocate := hp.locate hs.directory
  rw [← hs.cwd] at hlocate hfile hwritable
  obtain ⟨d, hd, htarget, hchanges⟩ :=
    IncomingPackage.commit_of_writable (q := ⟨_, false⟩) hlocate hfile
    (by rw [hp.slot]; exact hwritable) (by rw [hs.cwd]; exact (hp.slot_ne hp.spelled).symm)
  rw [hs.cwd, hp.slot] at hchanges
  rw [hs.cwd] at htarget
  exact ⟨d, executable, hd, htarget, hchanges⟩

/-- The package goes into its slot whole, and nothing else is seen of it. -/
theorem commit (hs : s.Sound c h₀) (i : Nat) : (s.apply c (.commit i)).Sound c h₀ := by
  rw [apply]
  cases hp : s.package? i with
  | none =>
    dsimp only
    exact hs.refuse rfl
  | some p =>
    obtain ⟨v, n, hway⟩ := hs.package i p hp
    obtain ⟨d, executable, hd, htarget, hchanges⟩ := hs.commit_ok hway
    have hslot := PackageCache.isEntry_slotName hway.spelled
    have hshort := Nat.le_trans (PackageCache.slotName_size v n) hway.short
    -- No other slot is touched.
    have hother : ∀ w, w.IsSpelled → w ≠ v →
        ¬(Location.ofPath h₀.cwd (c.slot w) = .ofPath h₀.cwd p.path ∨
        Location.ofPath h₀.cwd (c.slot w) = .ofPath h₀.cwd (c.slot v)) := by
      rintro w hw hne (hl | hl)
      · exact hway.slot_ne hw hl
      · exact PackageCache.location_slot_ne c h₀.cwd hw hway.spelled hne hl
    dsimp only
    rw [hd, settle]
    refine hs.settled hp rfl rfl hchanges ?_ rfl (fun _ _ => rfl) (by rintro r ⟨⟩) (fun w hw => ?_)
      fun w hw hshort => ?_
    · rintro l (hl | hl)
      · exact .inl hl
      · exact .inr ⟨v, hway.spelled, hl⟩
    · rw [slotContent]
      by_cases hwv : w = v
      · subst hwv
        have hdir := hs.directory.of_directories hchanges.directory
        rw [if_pos hway.started, PackageCache.slot, hdir.content? hslot, if_neg (by omega), Disk.fileAt,
          ← PackageCache.slot, htarget]
        rfl
      · have hne : (starts s.history)[i]? ≠ some w := by
          rw [hway.started]
          exact fun h => hwv (Option.some.inj h).symm
        rw [if_neg hne]
        exact hs.content?_slot hchanges hw (hother w hw hwv)
    · by_cases hwv : w = v
      · rw [hwv, htarget]
        simp
      · exact hs.node?_slot hchanges hw hshort (hother w hw hwv)

theorem discard (hs : s.Sound c h₀) (i : Nat) : (s.apply c (.discard i)).Sound c h₀ := by
  rw [apply]
  cases hp : s.package? i with
  | none =>
    dsimp only
    exact hs.refuse rfl
  | some p =>
    obtain ⟨v, n, hway⟩ := hs.package i p hp
    obtain ⟨d, hd, hchanges⟩ := p.discard_ok s.host
    rw [hs.cwd] at hchanges
    dsimp only
    rw [hd, settle]
    exact hs.settled hp rfl rfl hchanges (fun l hl => .inl hl) rfl (fun _ _ => rfl) (by rintro r ⟨⟩)
      (fun w hw => hs.content?_slot hchanges hw (hway.slot_ne hw))
      fun w hw hshort => hs.node?_slot hchanges hw hshort (hway.slot_ne hw)

theorem apply (hs : s.Sound c h₀) {op : CacheOperation} (hop : op.IsSpelled) :
    (s.apply c op).Sound c h₀ := by
  cases op with
  | start v => exact hs.start hop
  | write i bytes => exact hs.write i bytes
  | commit i => exact hs.commit i
  | discard i => exact hs.discard i

theorem run {ops : List CacheOperation} (hops : ∀ op ∈ ops, op.IsSpelled) :
    ∀ {s : CacheSession}, s.Sound c h₀ → (s.run c ops).Sound c h₀ := by
  induction ops with
  | nil => exact fun hs => hs
  | cons op ops ih =>
    intro s hs
    exact ih (fun op' hop => hops op' (List.mem_cons_of_mem _ hop))
      (hs.apply (hops op List.mem_cons_self))

theorem fresh (hd : h₀.disk.HasDirectory h₀.cwd c.dir)
    (hfree : ∀ v, v.IsSpelled → h₀.disk.isDirectory h₀.cwd (c.slot v) = false) :
    (CacheSession.fresh h₀).Sound c h₀ := by
  refine ⟨rfl, hd, rfl, by rintro i p ⟨⟩, by rintro i j p q ⟨⟩, fun _ _ => rfl, fun _ _ => rfl,
    fun v hv hshort hnode => ?_⟩
  have hdirectory := hd.isDirectory_join (PackageCache.isEntry_slotName hv) hshort hnode
  rw [← PackageCache.slot, hfree v hv] at hdirectory
  cases hdirectory

end Sound

end CacheSession

/-! ## What is seen -/

/-- A cache in use as it looks from outside: what its slots show and what its packages on their way
hold. -/
structure CacheSession.ShowsWhole (c : PackageCache) (h₀ : Host) (s : CacheSession) : Prop where
  slot : ∀ v, v.IsSpelled → s.host.disk.content? h₀.cwd (c.slot v) =
    slotContent v (h₀.disk.content? h₀.cwd (c.slot v)) s.history
  usable : ∀ v, v.IsSpelled → ((c.isUsable v : Act ReferenceError Bool) s.host = (.ok true, s.host) ↔
    ∃ bytes, s.host.disk.content? h₀.cwd (c.slot v) = some bytes ∧ bytes.size ≠ 0)
  package : ∀ i p, s.package? i = some p →
    ∃ v, (starts s.history)[i]? = some v ∧ p.slot = c.slot v ∧
    s.host.disk.content? h₀.cwd p.path = some (joined (chunks i s.history)) ∧
    p.written = (joined (chunks i s.history)).size
  commit : ∀ i p, s.package? i = some p → (p.commit s.host).1 = .ok p.slot
  unseen : ∀ i op, (op = .discard i ∨ ∃ bytes, op = .write i bytes) →
    (∀ v, v.IsSpelled →
      (s.apply c op).host.disk.content? h₀.cwd (c.slot v) = s.host.disk.content? h₀.cwd (c.slot v)) ∧
    ∀ j, j ≠ i → (s.apply c op).package? j = s.package? j ∧ ∀ p, s.package? j = some p →
      (s.apply c op).host.disk.content? h₀.cwd p.path = s.host.disk.content? h₀.cwd p.path
  slots : ∀ v w, v.IsSpelled → w.IsSpelled → v ≠ w →
    Location.ofPath h₀.cwd (c.slot v) ≠ .ofPath h₀.cwd (c.slot w)
  hidden : ∀ v w id, PackageCache.slotName v ≠ PackageCache.incomingName w id

namespace CacheSession

variable {c : PackageCache} {h₀ : Host} {s : CacheSession} {i : Nat} {p : IncomingPackage}

theorem history_settle {α : Type} (s : CacheSession) (op : CacheOperation)
    (done : α → List (Option IncomingPackage)) (failed : List (Option IncomingPackage))
    (r : Except IoError α × Host) :
    ∃ flag, (s.settle op done failed r).history = (op, flag) :: s.history := by
  obtain ⟨result, h⟩ := r
  cases result with
  | ok a => exact ⟨true, rfl⟩
  | error e => exact ⟨false, rfl⟩

theorem history_apply (c : PackageCache) (s : CacheSession) (op : CacheOperation) :
    ∃ flag, (s.apply c op).history = (op, flag) :: s.history := by
  unfold apply
  cases op with
  | start v => exact s.history_settle _ _ _ _
  | write i bytes | commit i | discard i =>
    dsimp only
    split
    · exact ⟨false, rfl⟩
    · exact s.history_settle _ _ _ _

theorem history_run (c : PackageCache) (ops : List CacheOperation) : ∀ s : CacheSession,
    (s.run c ops).history.map Prod.fst = ops.reverse ++ s.history.map Prod.fst := by
  induction ops with
  | nil => exact fun _ => rfl
  | cons op ops ih =>
    intro s
    obtain ⟨flag, hflag⟩ := s.history_apply c op
    rw [run, List.foldl_cons, ← run, ih, hflag, List.reverse_cons, List.append_assoc]
    rfl

theorem package?_apply (c : PackageCache) (s : CacheSession) {op : CacheOperation}
    (hop : op = .discard i ∨ ∃ bytes, op = .write i bytes) {j : Nat} (hj : j ≠ i) :
    (s.apply c op).package? j = s.package? j := by
  rcases hop with rfl | ⟨bytes, rfl⟩
  · rw [apply]
    cases hp : s.package? i with
    | none => rfl
    | some p =>
      obtain ⟨d, hd, -⟩ := p.discard_ok s.host
      dsimp only
      rw [hd, settle, package?_set hp, if_neg hj]
  · rw [apply]
    cases hp : s.package? i with
    | none => rfl
    | some p =>
      dsimp only
      rw [IncomingPackage.write_eq, settle, package?_set hp, if_neg hj]

namespace Sound

theorem content?_package (hs : s.Sound c h₀) (hp : s.package? i = some p) :
    s.host.disk.content? h₀.cwd p.path = some (joined (chunks i s.history)) := by
  obtain ⟨v, n, hway⟩ := hs.package i p hp
  obtain ⟨executable, hfile⟩ := hway.file
  rw [Disk.content?_of_locate (hway.locate hs.directory), Disk.fileAt, hfile]
  rfl

theorem showsWhole (hs : s.Sound c h₀) : s.ShowsWhole c h₀ where
  slot := hs.slot
  usable v _ := by
    rw [← hs.cwd]
    exact PackageCache.isUsable_iff
  package i p hp := by
    obtain ⟨v, n, hway⟩ := hs.package i p hp
    exact ⟨v, hway.started, hway.slot, hs.content?_package hp, hway.written⟩
  commit i p hp := by
    obtain ⟨v, n, hway⟩ := hs.package i p hp
    obtain ⟨d, executable, hd, -⟩ := hs.commit_ok hway
    rw [hd]
  unseen i op hop := by
    obtain ⟨flag, hflag⟩ := s.history_apply c op
    have hs' : (s.apply c op).Sound c h₀ := hs.apply (by rcases hop with rfl | ⟨bytes, rfl⟩ <;> trivial)
    have hcontent : ∀ v initial,
      slotContent v initial ((op, flag) :: s.history) = slotContent v initial s.history := by
      rcases hop with rfl | ⟨bytes, rfl⟩ <;> exact fun _ _ => rfl
    have hchunks : ∀ j, j ≠ i → chunks j ((op, flag) :: s.history) = chunks j s.history := by
      intro j hj
      rcases hop with rfl | ⟨bytes, rfl⟩
      · rfl
      · cases flag
        · rfl
        · rw [chunks, if_neg hj.symm]
    refine ⟨fun v hv => ?_, fun j hj => ⟨package?_apply c s hop hj, fun p hp => ?_⟩⟩
    · rw [hs'.slot v hv, hs.slot v hv, hflag, hcontent]
    · have hp' := package?_apply c s hop hj
      rw [hp] at hp'
      rw [hs'.content?_package hp', hs.content?_package hp, hflag, hchunks j hj]
  slots v w hv hw hne := PackageCache.location_slot_ne c h₀.cwd hv hw hne
  hidden := PackageCache.slotName_ne_incomingName

end Sound

/-- **A cache never shows a part of a package or a mixture.**  Whatever is done to packages on their
way, in whatever order: every slot holds the whole of the package that was committed to it last, or
what it held in the beginning. -/
theorem run_shows {ops : List CacheOperation} (hd : h₀.disk.HasDirectory h₀.cwd c.dir)
    (hfree : ∀ v, v.IsSpelled → h₀.disk.isDirectory h₀.cwd (c.slot v) = false)
    (hops : ∀ op ∈ ops, op.IsSpelled) :
    ((fresh h₀).run c ops).history.map Prod.fst = ops.reverse ∧
    ((fresh h₀).run c ops).ShowsWhole c h₀ := by
  refine ⟨?_, (Sound.run hops (.fresh hd hfree)).showsWhole⟩
  rw [history_run]
  exact List.append_nil _

/-- Two packages for one slot at the same time, the one that was started first committed last. -/
theorem run_shows_last :
    let c : PackageCache := ⟨"c"⟩
    let v : Version := ⟨8, 0, 4, "", ""⟩
    let h :=
      Host.withDisk
        ⟨[(["c"], .directory), (["c", "AppRef_8.0.4_Package.zip"], .file "old".toUTF8 false)]⟩ .none
    let ops : List CacheOperation :=
      [.start v, .start v, .write 0 "PK".toUTF8, .write 1 "new".toUTF8, .commit 1,
      .write 0 "z".toUTF8, .commit 0]
    h.disk.HasDirectory h.cwd c.dir ∧
      (∀ v, v.IsSpelled → h.disk.isDirectory h.cwd (c.slot v) = false) ∧
      (∀ op ∈ ops, op.IsSpelled) ∧ ((fresh h).run c ops).ShowsWhole c h ∧
      ((fresh h).run c ops).host.disk.content? h.cwd (c.slot v) = some "PKz".toUTF8 := by
  intro c v h
  have hd : h.disk.HasDirectory h.cwd c.dir := Disk.hasDirectory_of_isDirectory (by decide)
  have hfree : ∀ v, v.IsSpelled → h.disk.isDirectory h.cwd (c.slot v) = false := by
    intro v hv
    refine PackageCache.isDirectory_slot hv fun name hnode => ?_
    have hc : Location.ofPath h.cwd c.dir = ["c"] := by decide
    rw [hc] at hnode
    have hmem := Disk.mem_of_node? (List.cons_ne_nil _ _) hnode
    simp [h, Host.withDisk] at hmem
  intro ops
  have hops : ∀ op ∈ ops, op.IsSpelled := by decide
  exact ⟨hd, hfree, hops, (run_shows hd hfree hops).2, by decide +kernel⟩

end CacheSession

end PolicyForge
