import PolicyForge.Host.Basic
import PolicyForge.Proofs.Host.Disk
/-!
# Entries of a directory

What a name leads to in a directory is settled by where the directory is: all entries of one
directory share the way to it (`locate_join_name`), and different names are different places.
-/
namespace PolicyForge

/-- A name that an entry of a directory can have. -/
structure IsEntry (name : String) : Prop where
  isName : IsName name
  separator : '/' ∉ name.toList
  nul : '\x00' ∉ name.toList

instance (name : String) : Decidable (IsEntry name) :=
  decidable_of_iff ((name ≠ "" ∧ name ≠ "." ∧ name ≠ "..") ∧ '/' ∉ name.toList ∧
    '\x00' ∉ name.toList)
    ⟨fun ⟨hname, hseparator, hnul⟩ => ⟨hname, hseparator, hnul⟩,
      fun he => ⟨he.isName, he.separator, he.nul⟩⟩

namespace Path

theorem isAbsolute_of_not_mem {name : String} (hname : '/' ∉ name.toList) : isAbsolute name = false := by
  unfold isAbsolute
  split
  · rename_i rest hrest
    exact absurd (by rw [hrest]; exact List.mem_cons_self) hname
  · rfl

theorem join_name {name : String} (hname : '/' ∉ name.toList) (dir : String) :
    join dir name = if dir = "" then name else if endsInSeparator dir then dir ++ name
      else dir ++ "/" ++ name := by
  simp only [join, isAbsolute_of_not_mem hname, Bool.false_or, String.isEmpty_iff]

theorem isAbsolute_join_name {name : String} (hname : '/' ∉ name.toList) (dir : String) :
    isAbsolute (join dir name) = isAbsolute dir := by
  rw [join_name hname]
  split
  · rename_i hempty
    rw [hempty, isAbsolute_of_not_mem hname]
    rfl
  · rename_i hempty
    have happend : ∀ t : String, isAbsolute (dir ++ t) = isAbsolute dir := by
      intro t
      unfold isAbsolute
      rw [String.toList_append]
      cases hdir : dir.toList with
      | nil => exact absurd (String.toList_eq_nil_iff.1 hdir) hempty
      | cons c rest => by_cases hc : c = '/' <;> simp [hc]
    split
    · exact happend name
    · rw [String.append_assoc]
      exact happend ("/" ++ name)

/-- The pieces of an entry are those of its directory and its name; a separator that ends the path
of the directory makes no difference. -/
theorem pieces_join_name {name : String} (hname : '/' ∉ name.toList) (dir : String) :
    ∃ front, pieces (join dir name) = front ++ [name] ∧
      (pieces dir = front ∨ pieces dir = front ++ [""]) := by
  have hsingle : Text.splitOn (· == '/') name.toList = [name.toList] :=
    Text.splitOn_of_none _ fun c hc => beq_eq_false_iff_ne.2 fun he => hname (he ▸ hc)
  rw [join_name hname]
  split
  · rename_i hempty
    refine ⟨[], by rw [pieces, hsingle]; simp, .inr ?_⟩
    rw [hempty]
    rfl
  · split
    · rename_i hends
      rw [endsInSeparator, beq_iff_eq] at hends
      obtain ⟨rest, hrest⟩ := List.getLast?_eq_some_iff.1 hends
      have hcut := fun t => Text.splitOn_append_break (p := (· == '/')) (c := '/') rfl t rest
      refine ⟨(Text.splitOn (· == '/') rest).map String.ofList, ?_, .inr ?_⟩
      · rw [pieces, String.toList_append, hrest, List.append_assoc, List.singleton_append, hcut, hsingle]
        simp
      · rw [pieces, hrest, hcut]
        simp [Text.splitOn]
    · refine ⟨pieces dir, ?_, .inl rfl⟩
      have hslash : ("/" : String).toList = ['/'] := rfl
      rw [pieces, String.toList_append, String.toList_append, hslash, List.append_assoc,
        List.singleton_append, Text.splitOn_append_break rfl, hsingle]
      simp [pieces]

theorem nul_mem_join_name {name : String} (he : IsEntry name) (dir : String) :
    (join dir name).toList.contains '\x00' = dir.toList.contains '\x00' := by
  have hname := he.nul
  rw [join_name he.separator]
  split
  · rename_i hempty
    rw [hempty]
    simpa using hname
  · split <;> simp [hname]

theorem join_name_ne {name : String} (he : IsEntry name) (dir : String) : join dir name ≠ "" := by
  rw [join_name he.separator]
  split
  · exact he.isName.1
  · rename_i hempty
    split <;> simp [String.append_eq_empty_iff, hempty]

end Path

/-! ## The way to a directory -/

/-- Where the pieces of a path are followed from. -/
def Location.origin (cwd : Location) (path : String) : Location :=
  if Path.isAbsolute path then [] else cwd

theorem Location.ofPath_join {name : String} (hname : IsName name) (hseparator : '/' ∉ name.toList)
    (cwd : Location) (dir : String) :
    ofPath cwd (Path.join dir name) = ofPath cwd dir ++ [name] := by
  obtain ⟨front, hjoin, hdir⟩ := Path.pieces_join_name hseparator dir
  rw [ofPath, ofPath, Path.isAbsolute_join_name hseparator, hjoin, follow_append, follow_name _ hname]
  rcases hdir with hdir | hdir
  · rw [hdir]
  · rw [hdir, follow_append]
    rfl

theorem Location.ofPath_join_name {name : String} (he : IsEntry name) (cwd : Location) (dir : String) :
    ofPath cwd (Path.join dir name) = ofPath cwd dir ++ [name] :=
  ofPath_join he.isName he.separator cwd dir

namespace Disk

theorem enter_append (d : Disk) (ps qs : List String) : ∀ (dir : Location),
    d.enter dir (ps ++ qs) = (d.enter dir ps).bind fun l => d.enter l qs := by
  induction ps with
  | nil => exact fun _ => rfl
  | cons p ps ih =>
    intro dir
    rw [List.cons_append, enter, enter]
    split
    · exact ih dir
    · split
      · exact ih dir.dropLast
      · split
        · rfl
        · split
          · rfl
          · rfl
          · exact ih (dir ++ [p])

/-- An entry is found if the way to the directory is there and the name is not too long. -/
theorem locate_join_name {name : String} (he : IsEntry name) (d : Disk) (cwd : Location) (dir : String) :
    d.locate cwd (Path.join dir name) =
      if dir.toList.contains '\x00' then .error .nulInPath
      else (d.enter (.origin cwd dir) (Path.pieces dir)).bind fun l =>
        if maxName < name.utf8ByteSize then .error .invalidFilename else .ok ⟨l ++ [name], false⟩ := by
  obtain ⟨front, hjoin, hdir⟩ := Path.pieces_join_name he.separator dir
  have hempty : (Path.join dir name).isEmpty = false := by
    rw [Bool.eq_false_iff, ne_eq, String.isEmpty_iff]
    exact Path.join_name_ne he dir
  have henter : d.enter (.origin cwd dir) (Path.pieces dir) = d.enter (.origin cwd dir) front := by
    rcases hdir with hdir | hdir
    · rw [hdir]
    · rw [hdir, enter_append]
      cases d.enter (.origin cwd dir) front <;> rfl
  rw [locate, Path.nul_mem_join_name he, hempty, Path.isAbsolute_join_name he.separator, hjoin,
    walk_concat d he.isName, henter]
  rfl

theorem enter_of_isTail {d : Disk} {ps : List String} (h : isTail ps = true) (dir : Location) :
    d.enter dir ps = .ok dir := by
  induction ps with
  | nil => rfl
  | cons p ps ih =>
    rw [isTail, List.all_cons, Bool.and_eq_true] at h
    rw [enter, if_pos h.1]
    exact ih h.2

/-- A walk that ends at a directory can go on from there. -/
theorem enter_of_walk {d : Disk} {ps : List String} {dir : Location} {p : Place}
    (h : d.walk dir ps = .ok p) (hp : d.node? p.location = some .directory) :
    d.enter dir ps = .ok p.location := by
  fun_induction walk d dir ps with
  | case1 dir =>
    cases h
    rfl
  | case2 dir q ps hskip ih =>
    rw [enter, if_pos hskip]
    exact ih h
  | case3 dir q ps hskip hup ih =>
    rw [enter, if_neg hskip, if_pos hup]
    exact ih h
  | case5 dir q ps hskip hup hlong next htail =>
    cases h
    rw [enter, if_neg hskip, if_neg hup, if_neg hlong, hp]
    exact enter_of_isTail htail _
  | case8 dir q ps hskip hup hlong next _ hnode ih =>
    rw [enter, if_neg hskip, if_neg hup, if_neg hlong, hnode]
    exact ih h
  | _ => cases h

theorem mem_of_find {l : Location} {n : DiskNode} :
    ∀ {es : List (Location × DiskNode)}, find l es = some n → (l, n) ∈ es
  | [], h => by cases h
  | (k, m) :: rest, h => by
    rw [find] at h
    split at h
    · rename_i hk
      cases h
      exact hk ▸ List.mem_cons_self
    · exact List.mem_cons_of_mem _ (mem_of_find h)

theorem mem_of_node? {d : Disk} {l : Location} {n : DiskNode} (hl : l ≠ []) (h : d.node? l = some n) :
    (l, n) ∈ d.entries := by
  rw [node?, if_neg (by simpa using hl)] at h
  exact mem_of_find h

theorem locate_join_ok {name : String} (he : IsEntry name) {d : Disk} {cwd : Location}
    {dir : String} {p : Place} (h : d.locate cwd (Path.join dir name) = .ok p) :
    p = ⟨.ofPath cwd (Path.join dir name), false⟩ := by
  have hlocation := locate_ok h
  rw [locate_join_name he] at h
  split at h
  · cases h
  · cases henter : d.enter (.origin cwd dir) (Path.pieces dir) with
    | error e =>
      rw [henter] at h
      cases h
    | ok l =>
      simp only [henter, Except.bind] at h
      split at h <;> cases h
      rw [← hlocation]

/-- An entry that is found is found as long as no directory has gone. -/
theorem locate_of_directories {name : String} (he : IsEntry name) {d d' : Disk} {cwd : Location}
    {dir : String} {p : Place}
    (hd : ∀ l, d.node? l = some .directory → d'.node? l = some .directory)
    (h : d.locate cwd (Path.join dir name) = .ok p) :
    d'.locate cwd (Path.join dir name) = .ok p := by
  rw [locate_join_name he] at h ⊢
  by_cases hnul : dir.toList.contains '\x00' = true
  · rw [if_pos hnul] at h
    cases h
  · rw [if_neg hnul] at h ⊢
    cases henter : d.enter (.origin cwd dir) (Path.pieces dir) with
    | error e =>
      rw [henter] at h
      cases h
    | ok l =>
      rw [enter_of_directories hd henter]
      rwa [henter] at h

/-! ## Making directories that are there -/

theorem makeWalk_of_enter {d : Disk} {ps : List String} {dir l : Location}
    (h : d.enter dir ps = .ok l) : d.makeWalk dir ps = (d, .ok ()) := by
  fun_induction enter d dir ps with
  | case1 dir => rfl
  | case2 dir q ps hskip ih =>
    rw [makeWalk, if_pos hskip]
    exact ih h
  | case3 dir q ps hskip hup ih =>
    rw [makeWalk, if_neg hskip, if_pos hup]
    exact ih h
  | case7 dir q ps hskip hup hlong hnode ih =>
    rw [makeWalk, if_neg hskip, if_neg hup, if_neg hlong]
    dsimp only
    rw [hnode]
    exact ih h
  | _ => cases h

/-- Where an entry is found, its directory need not be made. -/
theorem makeDirectories_of_locate {name : String} (he : IsEntry name) {d : Disk} {cwd : Location}
    {dir : String} {p : Place} (h : d.locate cwd (Path.join dir name) = .ok p) :
    d.makeDirectories cwd dir = (d, .ok ()) := by
  rw [locate_join_name he] at h
  unfold makeDirectories
  split at h
  · cases h
  · rw [if_neg ‹_›]
    cases henter : d.enter (.origin cwd dir) (Path.pieces dir) with
    | error e =>
      rw [henter] at h
      cases h
    | ok l =>
      split
      · rfl
      · exact makeWalk_of_enter henter

/-- A directory that is there and can be reached. -/
structure HasDirectory (d : Disk) (cwd : Location) (dir : String) : Prop where
  nul : '\x00' ∉ dir.toList
  enter : d.enter (.origin cwd dir) (Path.pieces dir) = .ok (.ofPath cwd dir)
  node : d.node? (.ofPath cwd dir) = some .directory

variable {d d' : Disk} {cwd : Location} {dir name : String}

theorem isDirectory_iff : d.isDirectory cwd dir = true ↔
    ∃ p, d.locate cwd dir = .ok p ∧ d.node? p.location = some .directory := by
  unfold isDirectory stat
  cases d.locate cwd dir with
  | error e => simp [bind, Except.bind]
  | ok p =>
    simp only [bind, Except.bind, Except.ok.injEq, exists_eq_left']
    cases d.node? p.location with
    | none => simp
    | some n =>
      cases n with
      | directory => simp [DiskNode.isDirectory]
      | file content executable => cases p.asDirectory <;> simp [DiskNode.isDirectory]

theorem isDirectory_mono (hd : ∀ l, d.node? l = some .directory → d'.node? l = some .directory)
    (h : d.isDirectory cwd dir = true) : d'.isDirectory cwd dir = true := by
  obtain ⟨p, hp, hnode⟩ := isDirectory_iff.1 h
  exact isDirectory_iff.2 ⟨p, locate_mono hd hp, hd _ hnode⟩

theorem hasDirectory_of_isDirectory (h : d.isDirectory cwd dir = true) : d.HasDirectory cwd dir := by
  obtain ⟨p, hp, hnode⟩ := isDirectory_iff.1 h
  have hlocation := locate_ok hp
  unfold locate at hp
  split at hp
  · cases hp
  · rename_i hnul
    split at hp
    · cases hp
    · rw [hlocation] at hnode
      refine ⟨by simpa using hnul, ?_, hnode⟩
      rw [← hlocation] at hnode ⊢
      exact enter_of_walk hp hnode

/-- A file is only made in a directory that is there. -/
theorem hasDirectory_of_writable {l : Location} (he : IsEntry name)
    (h : d.writable cwd (Path.join dir name) = .ok l) (hnone : d.fileAt l = none) :
    d.HasDirectory cwd dir := by
  have hlocate := (writable_ok h).1
  have hparent := parent_of_writable h hnone
  obtain rfl : l = .ofPath cwd (Path.join dir name) := locate_ok hlocate
  rw [Location.ofPath_join_name he, List.dropLast_concat] at hparent
  rw [locate_join_name he, Location.ofPath_join_name he] at hlocate
  split at hlocate
  · cases hlocate
  · rename_i hnul
    cases henter : d.enter (.origin cwd dir) (Path.pieces dir) with
    | error e =>
      rw [henter] at hlocate
      cases hlocate
    | ok l =>
      rw [henter, Except.bind] at hlocate
      split at hlocate
      · cases hlocate
      · have hplace := congrArg Place.location (Except.ok.inj hlocate)
        rw [List.append_cancel_right hplace] at henter
        exact ⟨by simpa using hnul, henter, hparent⟩

theorem HasDirectory.of_directories (hd : d.HasDirectory cwd dir)
    (h : ∀ l, d.node? l = some .directory → d'.node? l = some .directory) : d'.HasDirectory cwd dir :=
  ⟨hd.nul, enter_of_directories h hd.enter, h _ hd.node⟩

theorem HasDirectory.locate (hd : d.HasDirectory cwd dir) (he : IsEntry name) :
    d.locate cwd (Path.join dir name) = if maxName < name.utf8ByteSize then .error .invalidFilename
      else .ok ⟨.ofPath cwd (Path.join dir name), false⟩ := by
  have hnul : dir.toList.contains '\x00' = false := by simpa using hd.nul
  rw [locate_join_name he, hnul, hd.enter, Location.ofPath_join_name he]
  rfl

theorem HasDirectory.short (hd : d.HasDirectory cwd dir) (he : IsEntry name) {p : Place}
    (h : d.locate cwd (Path.join dir name) = .ok p) : name.utf8ByteSize ≤ maxName := by
  rw [hd.locate he] at h
  refine Nat.le_of_not_lt fun hlong => ?_
  rw [if_pos hlong] at h
  cases h

theorem HasDirectory.isDirectory_join (hd : d.HasDirectory cwd dir) (he : IsEntry name)
    (hshort : name.utf8ByteSize ≤ maxName)
    (h : d.node? (.ofPath cwd (Path.join dir name)) = some .directory) :
    d.isDirectory cwd (Path.join dir name) = true := by
  have hlocate := hd.locate he
  rw [if_neg (by omega)] at hlocate
  simp [isDirectory, stat, hlocate, h, bind, Except.bind, DiskNode.isDirectory]

/-! ## Files in a directory -/

/-- What the file at a path holds, if there is one that can be read. -/
def content? (d : Disk) (cwd : Location) (path : String) : Option ByteArray :=
  (d.readBytes cwd path).toOption

theorem content?_of_locate {path : String} {l : Location} (h : d.locate cwd path = .ok ⟨l, false⟩) :
    d.content? cwd path = (d.fileAt l).map Prod.fst := by
  unfold content? readBytes stat fileAt
  simp only [h, bind, Except.bind]
  cases d.node? l with
  | none => rfl
  | some n => cases n <;> rfl

theorem content?_of_error {path : String} {e : IoError} (h : d.locate cwd path = .error e) :
    d.content? cwd path = none := by
  unfold content? readBytes stat
  simp only [h, bind, Except.bind]
  rfl

/-- What an entry holds, it holds under changes elsewhere. -/
theorem content?_stays {bytes : ByteArray} {written made : Location → Prop} (he : IsEntry name)
    (h : Changes written made d d') (hwritten : ¬written (.ofPath cwd (Path.join dir name)))
    (hbytes : d.content? cwd (Path.join dir name) = some bytes) :
    d'.content? cwd (Path.join dir name) = some bytes := by
  cases hlocate : d.locate cwd (Path.join dir name) with
  | error e =>
    rw [content?_of_error hlocate] at hbytes
    cases hbytes
  | ok p =>
    obtain rfl := locate_join_ok he hlocate
    rw [content?_of_locate hlocate] at hbytes
    rw [content?_of_locate (locate_of_directories he h.directory hlocate), h.fileAt hwritten, hbytes]

theorem HasDirectory.content? (hd : d.HasDirectory cwd dir) (he : IsEntry name) :
    d.content? cwd (Path.join dir name) = if maxName < name.utf8ByteSize then none
      else (d.fileAt (.ofPath cwd (Path.join dir name))).map Prod.fst := by
  have hlocate := hd.locate he
  split at hlocate
  · rename_i hlong
    rw [content?_of_error hlocate, if_pos hlong]
  · rename_i hlong
    rw [content?_of_locate hlocate, if_neg hlong]

/-- What an entry holds stays the same under changes elsewhere. -/
theorem HasDirectory.content?_of_changes {written : Location → Prop} (hd : d.HasDirectory cwd dir)
    (he : IsEntry name) (h : Changes written (fun _ => False) d d')
    (hwritten : ¬written (.ofPath cwd (Path.join dir name))) :
    d'.content? cwd (Path.join dir name) = d.content? cwd (Path.join dir name) := by
  rw [(hd.of_directories h.directory).content? he, hd.content? he, h.fileAt hwritten]

theorem HasDirectory.writable (hd : d.HasDirectory cwd dir) (he : IsEntry name)
    (hshort : name.utf8ByteSize ≤ maxName)
    (hfree : d.node? (.ofPath cwd (Path.join dir name)) ≠ some .directory) :
    d.writable cwd (Path.join dir name) = .ok (.ofPath cwd (Path.join dir name)) := by
  have hparent : d.node? (Location.ofPath cwd (Path.join dir name)).dropLast = some .directory := by
    rw [Location.ofPath_join_name he, List.dropLast_concat]
    exact hd.node
  unfold Disk.writable
  rw [hd.locate he, if_neg (by omega)]
  simp only [bind, Except.bind]
  cases hnode : d.node? (.ofPath cwd (Path.join dir name)) with
  | none => simp [hparent]
  | some n =>
    cases n with
    | directory => exact absurd hnode hfree
    | file content executable => rfl

theorem append_of_file {path : String} {p : Place} {content : ByteArray} {executable : Bool}
    (h : d.locate cwd path = .ok p) (hnode : d.node? p.location = some (.file content executable))
    (more : ByteArray) :
    (d.append cwd path more).node? p.location = some (.file (content ++ more) executable) := by
  unfold append
  simp only [h, hnode]
  exact node?_insert_self d _ _ (ne_nil_of_node? (by rw [hnode]; simp))

/-- A file that is moved takes the place of what was there. -/
theorem rename_of_file {source target : String} {p : Place} {l : Location} {content : ByteArray}
    {executable : Bool} (h : d.locate cwd source = .ok p)
    (hnode : d.node? p.location = some (.file content executable)) (ht : d.writable cwd target = .ok l)
    (hne : p.location ≠ l) : ∃ d', d.rename cwd source target = .ok d' ∧
      d'.node? l = some (.file content executable) := by
  refine ⟨(d.insert l (.file content executable)).erase p.location,
    by simp [rename, h, hnode, ht, hne, bind, Except.bind], ?_⟩
  rw [node?_erase_of_ne _ hne]
  exact node?_insert_self d _ _ (ne_nil_of_node? (writable_ok ht).2)

theorem rename_of_error {source target : String} {p : Place} {content : ByteArray}
    {executable : Bool} {e : IoError} (h : d.locate cwd source = .ok p)
    (hnode : d.node? p.location = some (.file content executable))
    (ht : d.writable cwd target = .error e) : d.rename cwd source target = .error e := by
  simp [rename, h, hnode, ht, bind, Except.bind]

end Disk

def Host.withDisk (d : Disk) (network : Network) : Host where
  disk := d
  cwd := []
  interrupt := .quiet
  environment := []
  execute := fun _ _ d _ => (⟨0, .empty, .empty⟩, d)
  network := network
  fresh := 0
  compilations := 0

end PolicyForge
