import PolicyForge.Host.Disk
import PolicyForge.Proofs.Text.Lines
/-!
# Where paths lead

There are no links on the disk, so where a path leads is settled by its pieces; the disk only says
whether it leads anywhere.  Paths that differ in what their last name ends with lead to different
locations in one directory (`exists_output`).
-/
namespace PolicyForge

open Text

/-! ## Following the pieces -/

/-- Where pieces lead from a directory. -/
def Location.follow (dir : Location) : List String → Location
  | [] => dir
  | p :: rest =>
    if p == "" || p == "." then follow dir rest
    else if p == ".." then follow dir.dropLast rest
    else follow (dir ++ [p]) rest

/-- Where a path leads, seen from a working directory. -/
def Location.ofPath (cwd : Location) (path : String) : Location :=
  Location.follow (if Path.isAbsolute path then [] else cwd) (Path.pieces path)

/-- A piece that names something: no empty piece and no dots. -/
def IsName (p : String) : Prop := p ≠ "" ∧ p ≠ "." ∧ p ≠ ".."

namespace Location

theorem follow_append (dir : Location) (ps qs : List String) :
    follow dir (ps ++ qs) = follow (follow dir ps) qs := by
  induction ps generalizing dir with
  | nil => rfl
  | cons p ps ih =>
    rw [List.cons_append, follow, follow]
    split
    · exact ih dir
    · split
      · exact ih dir.dropLast
      · exact ih (dir ++ [p])

theorem follow_name (dir : Location) {p : String} (hp : IsName p) : follow dir [p] = dir ++ [p] := by
  obtain ⟨h1, h2, h3⟩ := hp
  simp [follow, h1, h2, h3]

theorem follow_of_isTail {ps : List String} (h : Disk.isTail ps = true) (dir : Location) :
    follow dir ps = dir := by
  induction ps with
  | nil => rfl
  | cons p ps ih =>
    rw [Disk.isTail, List.all_cons, Bool.and_eq_true] at h
    rw [follow, if_pos h.1]
    exact ih h.2

end Location

namespace Disk

open Location

/-! ## Walking on a disk -/

/-- Goes through the pieces of a path, each of which leads to a directory. -/
def enter (d : Disk) (dir : Location) : List String → Except IoError Location
  | [] => .ok dir
  | p :: rest =>
    if p == "" || p == "." then enter d dir rest
    else if p == ".." then enter d dir.dropLast rest
    else if maxName < p.utf8ByteSize then .error .invalidFilename
    else
      match d.node? (dir ++ [p]) with
      | none => .error .notFound
      | some (.file _ _) => .error .notADirectory
      | some .directory => enter d (dir ++ [p]) rest

theorem walk_ok {d : Disk} {ps : List String} {dir : Location} {p : Place}
    (h : d.walk dir ps = .ok p) : p.location = follow dir ps := by
  fun_induction walk d dir ps with
  | case1 dir =>
    cases h
    rfl
  | case2 dir q ps hskip ih =>
    rw [follow, if_pos hskip]
    exact ih h
  | case3 dir q ps hskip hup ih =>
    rw [follow, if_neg hskip, if_pos hup]
    exact ih h
  | case5 dir q ps hskip hup _ next htail =>
    cases h
    rw [follow, if_neg hskip, if_neg hup]
    exact (follow_of_isTail htail _).symm
  | case8 dir q ps hskip hup _ next _ _ ih =>
    rw [follow, if_neg hskip, if_neg hup]
    exact ih h
  | _ => cases h

theorem walk_of_directories {d d' : Disk}
    (hd : ∀ l, d.node? l = some .directory → d'.node? l = some .directory) {ps : List String}
    {dir : Location} {p : Place} (h : d.walk dir ps = .ok p) : d'.walk dir ps = .ok p := by
  fun_induction walk d dir ps with
  | case1 dir => exact h
  | case2 dir q ps hskip ih =>
    rw [walk, if_pos hskip]
    exact ih h
  | case3 dir q ps hskip hup ih =>
    rw [walk, if_neg hskip, if_pos hup]
    exact ih h
  | case5 dir q ps hskip hup hlong next htail =>
    rw [walk, if_neg hskip, if_neg hup, if_neg hlong, if_pos htail]
    exact h
  | case8 dir q ps hskip hup hlong next htail hnode ih =>
    rw [walk, if_neg hskip, if_neg hup, if_neg hlong, if_neg htail, hd _ hnode]
    exact ih h
  | _ => cases h

/-- Where a path leads stays as long as no directory goes. -/
theorem locate_mono {d d' : Disk}
    (hd : ∀ l, d.node? l = some .directory → d'.node? l = some .directory) {cwd : Location}
    {path : String} {p : Place} (h : d.locate cwd path = .ok p) : d'.locate cwd path = .ok p := by
  unfold locate at h ⊢
  split at h
  · cases h
  · split at h
    · cases h
    · rw [if_neg ‹_›, if_neg ‹_›]
      exact walk_of_directories hd h

/-- A path that leads anywhere leads where its pieces say. -/
theorem locate_ok {d : Disk} {cwd : Location} {path : String} {p : Place}
    (h : d.locate cwd path = .ok p) : p.location = ofPath cwd path := by
  rw [locate] at h
  split at h
  · cases h
  · split at h
    · cases h
    · exact walk_ok h

theorem enter_ok {d : Disk} {ps : List String} {dir l : Location} (h : d.enter dir ps = .ok l) :
    l = follow dir ps := by
  fun_induction enter d dir ps with
  | case1 dir =>
    cases h
    rfl
  | case2 dir q ps hskip ih =>
    rw [follow, if_pos hskip]
    exact ih h
  | case3 dir q ps hskip hup ih =>
    rw [follow, if_neg hskip, if_pos hup]
    exact ih h
  | case7 dir q ps hskip hup _ _ ih =>
    rw [follow, if_neg hskip, if_neg hup]
    exact ih h
  | _ => cases h

theorem enter_of_directories {d d' : Disk}
    (hd : ∀ l, d.node? l = some .directory → d'.node? l = some .directory) {ps : List String}
    {dir l : Location} (h : d.enter dir ps = .ok l) : d'.enter dir ps = .ok l := by
  fun_induction enter d dir ps with
  | case1 dir => exact h
  | case2 dir q ps hskip ih =>
    rw [enter, if_pos hskip]
    exact ih h
  | case3 dir q ps hskip hup ih =>
    rw [enter, if_neg hskip, if_pos hup]
    exact ih h
  | case7 dir q ps hskip hup hlong hnode ih =>
    rw [enter, if_neg hskip, if_neg hup, if_neg hlong, hd _ hnode]
    exact ih h
  | _ => cases h

theorem not_isTail_concat {q : String} (hq : IsName q) (ps : List String) :
    isTail (ps ++ [q]) = false := by
  obtain ⟨h1, h2, -⟩ := hq
  simp [isTail, h1, h2]

/-- A walk that ends at a name goes through everything before it. -/
theorem walk_concat (d : Disk) {q : String} (hq : IsName q) (ps : List String) :
    ∀ (dir : Location), d.walk dir (ps ++ [q]) = (d.enter dir ps).bind fun l =>
      if maxName < q.utf8ByteSize then .error .invalidFilename else .ok ⟨l ++ [q], false⟩ := by
  induction ps with
  | nil =>
    intro dir
    obtain ⟨h1, h2, h3⟩ := hq
    simp [walk, enter, h1, h2, h3, isTail, Except.bind]
  | cons p ps ih =>
    intro dir
    rw [List.cons_append, walk, enter]
    split
    · exact ih dir
    · split
      · exact ih dir.dropLast
      · split
        · rfl
        · simp only [not_isTail_concat hq, Bool.false_eq_true, if_false]
          cases d.node? (dir ++ [p]) with
          | none => rfl
          | some n =>
            cases n with
            | file c x => rfl
            | directory => exact ih (dir ++ [p])

end Disk

/-! ## Paths side by side -/

/-- What several files of one name may end with: it makes a name of whatever it stands after. -/
structure IsSuffix (s : String) : Prop where
  separator : '/' ∉ s.toList
  nul : '\x00' ∉ s.toList
  long : 2 < s.length

theorem IsSuffix.isName {s : String} (h : IsSuffix s) (name : String) : IsName (name ++ s) := by
  have hlong : ∀ t : String, t.length ≤ 2 → name ++ s ≠ t := by
    rintro t ht rfl
    have := h.long
    rw [String.length_append] at ht
    omega
  exact ⟨hlong "" (by decide), hlong "." (by decide), hlong ".." (by decide)⟩

namespace Path

theorem splitOn_append_of_not_mem {p : Char → Bool} {t : List Char} (ht : ∀ c ∈ t, p c = false) :
    ∀ (s : List Char), ∃ front last, splitOn p s = front ++ [last] ∧
      splitOn p (s ++ t) = front ++ [last ++ t]
  | [] => ⟨[], [], rfl, splitOn_of_none t ht⟩
  | c :: s => by
    obtain ⟨front, last, hs, hst⟩ := splitOn_append_of_not_mem ht s
    rw [List.cons_append, splitOn, splitOn, hs, hst]
    by_cases hc : p c = true
    · exact ⟨[] :: front, last, by simp [hc], by simp [hc]⟩
    · cases front with
      | nil => exact ⟨[], c :: last, by simp [hc], by simp [hc]⟩
      | cons w ws => exact ⟨(c :: w) :: ws, last, by simp [hc], by simp [hc]⟩

theorem exists_pieces (path : String) : ∃ front last, ∀ suffix : String, '/' ∉ suffix.toList →
    pieces (path ++ suffix) = front ++ [last ++ suffix] := by
  obtain ⟨front, last, hs, -⟩ := splitOn_append_of_not_mem (p := (· == '/')) (t := [])
    (by simp) path.toList
  refine ⟨front.map String.ofList, String.ofList last, fun suffix hsuffix => ?_⟩
  obtain ⟨front', last', hs', hst⟩ := splitOn_append_of_not_mem (p := (· == '/'))
    (t := suffix.toList) (fun c hc => beq_eq_false_iff_ne.2 fun he => hsuffix (he ▸ hc)) path.toList
  rw [hs] at hs'
  obtain ⟨rfl, hlast⟩ := List.append_inj' hs' rfl
  obtain rfl := List.singleton_inj.1 hlast
  rw [pieces, String.toList_append, hst, List.map_append, List.map_singleton, String.ofList_append,
    String.ofList_toList]

theorem isAbsolute_append {s : String} (hs : '/' ∉ s.toList) (path : String) :
    isAbsolute (path ++ s) = isAbsolute path := by
  unfold isAbsolute
  rw [String.toList_append]
  cases hp : path.toList with
  | nil =>
    cases ht : s.toList with
    | nil => rfl
    | cons c t =>
      have hc : c ≠ '/' := fun hc => hs (by rw [ht, hc]; exact List.mem_cons_self)
      simp [hc]
  | cons c t => by_cases hc : c = '/' <;> simp [hc]

theorem exists_join (dir name : String) : ∃ path, ∀ s : String, '/' ∉ s.toList →
    join dir (name ++ s) = path ++ s := by
  by_cases hname : (isAbsolute name || dir.isEmpty) = true
  · refine ⟨name, fun s hs => ?_⟩
    rw [join, isAbsolute_append hs, if_pos hname]
  · by_cases hdir : endsInSeparator dir = true
    · refine ⟨dir ++ name, fun s hs => ?_⟩
      rw [join, isAbsolute_append hs, if_neg hname, if_pos hdir, String.append_assoc]
    · refine ⟨dir ++ "/" ++ name, fun s hs => ?_⟩
      rw [join, isAbsolute_append hs, if_neg hname, if_neg hdir, ← String.append_assoc]

end Path

/-- Where the files of one name in a directory are, and when they can be reached: they share the
way, and only what they end with tells them apart. -/
theorem exists_output (cwd : Location) (dir name : String) :
    ∃ (start : Location) (front : List String) (last : String) (nul : Bool),
      ∀ s, IsSuffix s →
        Location.ofPath cwd (Path.join dir (name ++ s)) = Location.follow start front ++ [last ++ s] ∧
        ∀ d : Disk, d.locate cwd (Path.join dir (name ++ s)) =
          if nul then .error .nulInPath
          else (d.enter start front).bind fun l =>
            if Disk.maxName < (last ++ s).utf8ByteSize then .error .invalidFilename
            else .ok ⟨l ++ [last ++ s], false⟩ := by
  obtain ⟨path, hpath⟩ := Path.exists_join dir name
  obtain ⟨front, last, hpieces⟩ := Path.exists_pieces path
  refine ⟨if Path.isAbsolute path then [] else cwd, front, last, path.toList.contains '\x00',
    fun s hs => ⟨?_, fun d => ?_⟩⟩
  · rw [hpath s hs.separator, Location.ofPath, Path.isAbsolute_append hs.separator,
      hpieces s hs.separator, Location.follow_append, Location.follow_name _ (hs.isName last)]
  · have hnul : (path ++ s).toList.contains '\x00' = path.toList.contains '\x00' := by
      rw [String.toList_append, List.contains_append]
      simp [hs.nul]
    have hempty : (path ++ s).isEmpty = false := by
      rw [Bool.eq_false_iff, ne_eq, String.isEmpty_iff]
      exact (hs.isName path).1
    rw [hpath s hs.separator, Disk.locate, hnul, hempty, Path.isAbsolute_append hs.separator,
      hpieces s hs.separator, Disk.walk_concat d (hs.isName last)]
    rfl

theorem Location.ofPath_join_ne (cwd : Location) (dir name : String) {s t : String}
    (hs : IsSuffix s) (ht : IsSuffix t) (hne : s ≠ t) :
    Location.ofPath cwd (Path.join dir (name ++ s)) ≠
      Location.ofPath cwd (Path.join dir (name ++ t)) := by
  obtain ⟨start, front, last, nul, h⟩ := exists_output cwd dir name
  rw [(h s hs).1, (h t ht).1]
  intro heq
  have hlast := List.singleton_inj.1 (List.append_cancel_left heq)
  exact hne (String.append_right_inj last |>.1 hlast)

/-- Suffixes of which none ends with the other lead apart, whatever they stand after. -/
theorem Location.ofPath_join_ne_of_suffix (cwd : Location) (dir name dir' name' : String)
    {s t : String} (hs : IsSuffix s) (ht : IsSuffix t) (hst : ¬s.toList <:+ t.toList)
    (hts : ¬t.toList <:+ s.toList) :
    Location.ofPath cwd (Path.join dir (name ++ s)) ≠
      Location.ofPath cwd (Path.join dir' (name' ++ t)) := by
  obtain ⟨start, front, last, nul, h⟩ := exists_output cwd dir name
  obtain ⟨start', front', last', nul', h'⟩ := exists_output cwd dir' name'
  rw [(h s hs).1, (h' t ht).1]
  intro heq
  have hlast := List.singleton_inj.1 (List.append_inj' heq rfl).2
  have hs' : s.toList <:+ (last ++ s).toList := ⟨last.toList, String.toList_append.symm⟩
  have ht' : t.toList <:+ (last ++ s).toList := ⟨last'.toList, by rw [hlast, String.toList_append]⟩
  rcases List.suffix_or_suffix_of_suffix hs' ht' with hsuffix | hsuffix
  · exact hst hsuffix
  · exact hts hsuffix

/-- Where one file of a name can be reached, so can one whose suffix is not longer, as long as no
directory has gone. -/
theorem Disk.locate_join {d d' : Disk} {cwd : Location} {dir name s t : String} {p : Disk.Place}
    (hs : IsSuffix s) (ht : IsSuffix t) (hsize : t.utf8ByteSize ≤ s.utf8ByteSize)
    (hd : ∀ l, d.node? l = some .directory → d'.node? l = some .directory)
    (h : d.locate cwd (Path.join dir (name ++ s)) = .ok p) :
    d'.locate cwd (Path.join dir (name ++ t)) =
      .ok ⟨Location.ofPath cwd (Path.join dir (name ++ t)), false⟩ := by
  obtain ⟨start, front, last, nul, hout⟩ := exists_output cwd dir name
  rw [(hout s hs).2 d] at h
  rw [(hout t ht).2 d', (hout t ht).1]
  cases nul with
  | true => cases h
  | false =>
    cases henter : d.enter start front with
    | error e =>
      rw [henter] at h
      cases h
    | ok l =>
      rw [henter] at h
      -- both go the same way, and only the last name can be too long
      rw [Disk.enter_of_directories hd henter, ← Disk.enter_ok henter]
      by_cases hlong : Disk.maxName < (last ++ s).utf8ByteSize
      · have herror := (if_pos hlong).symm.trans h
        cases herror
      · have hshort : ¬Disk.maxName < (last ++ t).utf8ByteSize := by
          rw [String.utf8ByteSize_append] at hlong ⊢
          omega
        exact if_neg hshort

end PolicyForge
