import Mathlib.Logic.Relation
import PolicyForge.Proofs.Host.Entry
/-!
# What a directory holds

A disk that comes about has one node at each location and names that fit into a directory
(`wellFormed_of_steps`).  On such a disk the names in a directory are what the locations below it say
(`mem_children`), and the order in which the disk keeps its entries shows in the order of the names
only.
-/
namespace PolicyForge.Disk

/-- Every location has one node, and every name on the way to one can be that of an entry. -/
structure WellFormed (d : Disk) : Prop where
  distinct : (d.entries.map Prod.fst).Nodup
  isEntry : ∀ e ∈ d.entries, ∀ name ∈ e.1, IsEntry name
  short : ∀ e ∈ d.entries, ∀ name ∈ e.1, name.utf8ByteSize ≤ maxName

variable {d d' : Disk} {l : Location} {n : DiskNode}

theorem find_of_mem :
    ∀ {es : List (Location × DiskNode)}, (es.map Prod.fst).Nodup → (l, n) ∈ es → find l es = some n
  | (k, m) :: rest, hnodup, h => by
    rw [List.map_cons, List.nodup_cons] at hnodup
    rw [find]
    rcases List.mem_cons.1 h with h | h
    · cases h
      exact if_pos rfl
    · have hk : k ≠ l := by
        rintro rfl
        exact hnodup.1 (List.mem_map.2 ⟨_, h, rfl⟩)
      rw [if_neg hk]
      exact find_of_mem hnodup.2 h

theorem WellFormed.mem_entries_iff (hd : d.WellFormed) (hl : l ≠ []) :
    (l, n) ∈ d.entries ↔ d.node? l = some n := by
  refine ⟨fun h => ?_, mem_of_node? hl⟩
  rw [node?, if_neg (by simpa using hl)]
  exact find_of_mem hd.distinct h

/-! ## The names in a directory -/

theorem child_eq_some_iff {e : Location × DiskNode} {name : String} :
    (if e.1.length = l.length + 1 ∧ l.isPrefixOf e.1 then e.1.getLast?.map fun x => (x, e.2) else none) =
      some (name, n) ↔ e = (l ++ [name], n) := by
  constructor
  · intro h
    split at h
    · rename_i hk
      obtain ⟨rest, hrest⟩ := List.isPrefixOf_iff_prefix.1 hk.2
      have hlength : rest.length = 1 := by
        have hlong := hk.1
        rw [← hrest, List.length_append] at hlong
        omega
      obtain ⟨x, rfl⟩ := List.length_eq_one_iff.1 hlength
      rw [← hrest, List.getLast?_concat, Option.map_some] at h
      cases h
      exact Prod.ext hrest.symm rfl
    · cases h
  · rintro rfl
    simp

theorem mem_children {name : String} : (name, n) ∈ d.children l ↔ (l ++ [name], n) ∈ d.entries := by
  unfold children
  rw [List.mem_filterMap]
  constructor
  · rintro ⟨e, hmem, he⟩
    exact child_eq_some_iff.1 he ▸ hmem
  · exact fun hmem => ⟨_, hmem, child_eq_some_iff.2 rfl⟩

theorem WellFormed.nodup_children (hd : d.WellFormed) (l : Location) :
    ((d.children l).map Prod.fst).Nodup := by
  have hpairwise : d.entries.Pairwise fun a b => a.1 ≠ b.1 := List.pairwise_map.1 hd.distinct
  refine List.pairwise_map.2 (hpairwise.filterMap _ ?_)
  -- a name that comes twice would come from two entries at one location
  rintro a a' hne ⟨name, n⟩ ha ⟨name', n'⟩ ha' rfl
  rw [child_eq_some_iff.1 ha, child_eq_some_iff.1 ha'] at hne
  exact hne rfl

theorem WellFormed.mem_children_iff (hd : d.WellFormed) {name : String} :
    (name, n) ∈ d.children l ↔ d.node? (l ++ [name]) = some n := by
  rw [mem_children, hd.mem_entries_iff (by simp)]

theorem WellFormed.isEntry_of_node? (hd : d.WellFormed) {name : String}
    (h : d.node? (l ++ [name]) = some n) :
    IsEntry name ∧ name.utf8ByteSize ≤ maxName := by
  have hmem := mem_of_node? (by simp) h
  exact ⟨hd.isEntry _ hmem name (by simp), hd.short _ hmem name (by simp)⟩

theorem list_ok_iff {cwd : Location} {dir : String} {entries : List (String × DiskNode)} :
    d.list cwd dir = .ok entries ↔
      d.isDirectory cwd dir = true ∧ entries = d.children (.ofPath cwd dir) := by
  rw [isDirectory_iff]
  unfold list
  cases hlocate : d.locate cwd dir with
  | error e => simp [bind, Except.bind]
  | ok p =>
    simp only [bind, Except.bind, Except.ok.injEq, exists_eq_left', ← locate_ok hlocate]
    split
    · simp [*]
    · simp [*]
    · simp [*, eq_comm]

theorem readText_ok_iff {cwd : Location} {path text : String}
    (hlocate : d.locate cwd path = .ok ⟨l, false⟩) :
    d.readText cwd path = .ok text ↔
      ∃ content executable, d.fileAt l = some (content, executable) ∧
        String.fromUTF8? content = some text := by
  unfold readText readBytes stat fileAt
  simp only [hlocate, bind, Except.bind]
  cases d.node? l with
  | none => simp
  | some n =>
    cases n with
    | directory => simp
    | file content executable => cases htext : String.fromUTF8? content <;> simp [htext]

/-! ## The order of the entries -/

theorem WellFormed.of_perm (hd : d.WellFormed) (hp : d'.entries.Perm d.entries) : d'.WellFormed :=
  ⟨(hp.map Prod.fst).nodup_iff.2 hd.distinct, fun e he => hd.isEntry e (hp.mem_iff.1 he),
    fun e he => hd.short e (hp.mem_iff.1 he)⟩

theorem WellFormed.node?_of_perm (hd : d.WellFormed) (hp : d'.entries.Perm d.entries) (l : Location) :
    d'.node? l = d.node? l := by
  by_cases hl : l = []
  · rw [hl]
    rfl
  · refine Option.ext fun n => ?_
    rw [← (hd.of_perm hp).mem_entries_iff hl, ← hd.mem_entries_iff hl]
    exact hp.mem_iff

section

variable (hnode : ∀ l, d'.node? l = d.node? l)

include hnode

theorem walk_congr (ps : List String) : ∀ (dir : Location), d'.walk dir ps = d.walk dir ps := by
  induction ps with
  | nil => exact fun _ => rfl
  | cons p ps ih =>
    intro dir
    rw [walk, walk]
    simp only [ih, hnode]

theorem locate_congr (cwd : Location) (path : String) : d'.locate cwd path = d.locate cwd path := by
  rw [locate, locate, walk_congr hnode]

theorem stat_congr (cwd : Location) (path : String) : d'.stat cwd path = d.stat cwd path := by
  simp only [stat, locate_congr hnode, hnode]

theorem readText_congr (cwd : Location) (path : String) : d'.readText cwd path = d.readText cwd path := by
  rw [readText, readText, readBytes, readBytes, stat_congr hnode]

theorem fileAt_congr (l : Location) : d'.fileAt l = d.fileAt l := by
  rw [fileAt, fileAt, hnode]

/-- A directory is listed where it was, with the names in the order of the other disk. -/
theorem list_congr (cwd : Location) (dir : String) :
    d'.list cwd dir = (d.list cwd dir).map fun _ => d'.children (.ofPath cwd dir) := by
  unfold list
  rw [locate_congr hnode]
  cases hlocate : d.locate cwd dir with
  | error e => rfl
  | ok p =>
    simp only [bind, Except.bind, hnode, ← locate_ok hlocate]
    cases d.node? p.location with
    | none => rfl
    | some n => cases n <;> rfl

end

/-! ## What keeps a disk well formed -/

/-- Every name on the way to a location can be that of an entry. -/
def Fits (l : Location) : Prop := ∀ name ∈ l, IsEntry name ∧ name.utf8ByteSize ≤ maxName

theorem Fits.dropLast (hl : Fits l) : Fits l.dropLast :=
  fun name hname => hl name (List.dropLast_subset l hname)

theorem Fits.concat (hl : Fits l) {name : String} (he : IsEntry name)
    (hshort : name.utf8ByteSize ≤ maxName) :
    Fits (l ++ [name]) := by
  intro x hx
  rcases List.mem_append.1 hx with hx | hx
  · exact hl x hx
  · obtain rfl := List.mem_singleton.1 hx
    exact ⟨he, hshort⟩

theorem mem_of_mem_put {e : Location × DiskNode} :
    ∀ {es : List (Location × DiskNode)}, e ∈ put l n es → e = (l, n) ∨ e ∈ es
  | [], h => .inl (List.mem_singleton.1 h)
  | (k, m) :: rest, h => by
    rw [put] at h
    split at h
    · rename_i hk
      rcases List.mem_cons.1 h with rfl | h
      · exact .inl (by rw [hk])
      · exact .inr (List.mem_cons_of_mem _ h)
    · rcases List.mem_cons.1 h with rfl | h
      · exact .inr List.mem_cons_self
      · exact (mem_of_mem_put h).imp_right (List.mem_cons_of_mem _)

theorem nodup_put :
    ∀ {es : List (Location × DiskNode)}, (es.map Prod.fst).Nodup → ((put l n es).map Prod.fst).Nodup
  | [], _ => List.pairwise_singleton _ l
  | (k, m) :: rest, h => by
    rw [put]
    split
    · exact h
    · rename_i hk
      rw [List.map_cons, List.nodup_cons] at h ⊢
      refine ⟨fun hmem => ?_, nodup_put h.2⟩
      obtain ⟨e, he, hk'⟩ := List.mem_map.1 hmem
      rcases mem_of_mem_put he with rfl | he
      · exact hk hk'.symm
      · exact h.1 (List.mem_map.2 ⟨e, he, hk'⟩)

theorem WellFormed.insert (hd : d.WellFormed) (hl : Fits l) (n : DiskNode) :
    (d.insert l n).WellFormed := by
  refine ⟨nodup_put hd.distinct, fun e he name hname => ?_, fun e he name hname => ?_⟩ <;>
    rcases mem_of_mem_put he with rfl | he
  · exact (hl name hname).1
  · exact hd.isEntry e he name hname
  · exact (hl name hname).2
  · exact hd.short e he name hname

theorem WellFormed.filter (hd : d.WellFormed) (p : Location × DiskNode → Bool) :
    (⟨d.entries.filter p⟩ : Disk).WellFormed :=
  ⟨hd.distinct.sublist (List.filter_sublist.map Prod.fst),
    fun e he => hd.isEntry e (List.mem_filter.1 he).1,
    fun e he => hd.short e (List.mem_filter.1 he).1⟩

theorem WellFormed.erase (hd : d.WellFormed) (l : Location) : (d.erase l).WellFormed := hd.filter _

theorem WellFormed.store (hd : d.WellFormed) (hl : Fits l) (content : ByteArray) :
    (d.store l content).WellFormed := by
  unfold Disk.store
  split <;> exact hd.insert hl _

/-- A piece of a path that names something can be the name of an entry. -/
theorem isEntry_of_mem_pieces {path name : String} (hnul : '\x00' ∉ path.toList) (hname : IsName name)
    (hmem : name ∈ Path.pieces path) : IsEntry name := by
  obtain ⟨w, hw, rfl⟩ := List.mem_map.1 hmem
  refine ⟨hname, ?_, ?_⟩ <;> rw [String.toList_ofList]
  · exact fun h => absurd (Text.not_of_mem_splitOn _ _ hw _ h) (by simp)
  · exact fun h => hnul (Text.mem_of_mem_splitOn _ _ hw _ h)

theorem Fits.next {dir : Location} {q : String} {ps : List String}
    (hps : ∀ p ∈ q :: ps, IsName p → IsEntry p) (hdir : Fits dir)
    (hskip : ¬(q == "" || q == ".") = true) (hup : ¬(q == "..") = true)
    (hlong : ¬maxName < q.utf8ByteSize) : Fits (dir ++ [q]) := by
  have hname : IsName q := by simpa [IsName, and_assoc] using And.intro hskip hup
  exact hdir.concat (hps q List.mem_cons_self hname) (Nat.le_of_not_lt hlong)

theorem fits_of_walk {ps : List String} (hps : ∀ p ∈ ps, IsName p → IsEntry p) {dir : Location}
    {p : Place} (hdir : Fits dir) (h : d.walk dir ps = .ok p) : Fits p.location := by
  fun_induction walk d dir ps with
  | case1 dir =>
    cases h
    exact hdir
  | case2 dir q ps _ ih => exact ih (fun p hp => hps p (List.mem_cons_of_mem q hp)) hdir h
  | case3 dir q ps _ _ ih => exact ih (fun p hp => hps p (List.mem_cons_of_mem q hp)) hdir.dropLast h
  | case5 dir q ps hskip hup hlong =>
    cases h
    exact hdir.next hps hskip hup hlong
  | case8 dir q ps hskip hup hlong _ _ _ ih =>
    exact ih (fun p hp => hps p (List.mem_cons_of_mem q hp)) (hdir.next hps hskip hup hlong) h
  | _ => cases h

theorem fits_origin {cwd : Location} (hcwd : Fits cwd) (path : String) :
    Fits (if Path.isAbsolute path then [] else cwd) := by
  split
  · exact fun _ hname => absurd hname List.not_mem_nil
  · exact hcwd

/-- Where a path leads, the names can be those of entries. -/
theorem fits_of_locate {cwd : Location} (hcwd : Fits cwd) {path : String} {p : Place}
    (h : d.locate cwd path = .ok p) :
    Fits p.location := by
  unfold locate at h
  split at h
  · cases h
  rename_i hnul
  split at h
  · cases h
  · refine fits_of_walk (fun q hq hname => isEntry_of_mem_pieces ?_ hname hq) (fits_origin hcwd path) h
    rwa [List.contains_iff_mem] at hnul

variable {cwd : Location} {path : String}

theorem fits_of_writable (hcwd : Fits cwd) (h : d.writable cwd path = .ok l) : Fits l :=
  fits_of_locate hcwd (writable_ok h).1

theorem WellFormed.writeBytes (hd : d.WellFormed) (hcwd : Fits cwd) {content : ByteArray}
    (h : d.writeBytes cwd path content = .ok d') : d'.WellFormed := by
  obtain ⟨l, hw, rfl⟩ := writeBytes_cases h
  exact hd.store (fits_of_writable hcwd hw) content

theorem WellFormed.append (hd : d.WellFormed) (hcwd : Fits cwd) (more : ByteArray) :
    (d.append cwd path more).WellFormed := by
  unfold Disk.append
  cases hlocate : d.locate cwd path with
  | error e => exact hd
  | ok p =>
    dsimp only
    split
    · exact hd.insert (fits_of_locate hcwd hlocate) _
    · exact hd

theorem WellFormed.makeWalk {ps : List String} (hps : ∀ p ∈ ps, IsName p → IsEntry p) {d : Disk}
    {dir : Location} (hd : d.WellFormed) (hdir : Fits dir) : (d.makeWalk dir ps).1.WellFormed := by
  fun_induction Disk.makeWalk d dir ps with
  | case1 d dir => exact hd
  | case2 d dir q ps _ ih => exact ih (fun p hp => hps p (List.mem_cons_of_mem q hp)) hd hdir
  | case3 d dir q ps _ _ ih => exact ih (fun p hp => hps p (List.mem_cons_of_mem q hp)) hd hdir.dropLast
  | case5 d dir q ps hskip hup hlong _ _ ih =>
    exact ih (fun p hp => hps p (List.mem_cons_of_mem q hp)) hd (hdir.next hps hskip hup hlong)
  | case8 d dir q ps hskip hup hlong _ _ _ ih =>
    have hnext := hdir.next hps hskip hup hlong
    exact ih (fun p hp => hps p (List.mem_cons_of_mem q hp)) (hd.insert hnext _) hnext
  | _ => exact hd

theorem WellFormed.makeDirectories (hd : d.WellFormed) (hcwd : Fits cwd) (path : String) :
    (d.makeDirectories cwd path).1.WellFormed := by
  unfold Disk.makeDirectories
  split
  · exact hd
  rename_i hnul
  split
  · exact hd
  · refine WellFormed.makeWalk (fun q hq hname => isEntry_of_mem_pieces ?_ hname hq) hd
      (fits_origin hcwd path)
    rwa [List.contains_iff_mem] at hnul

theorem WellFormed.makeDirectory (hd : d.WellFormed) (hcwd : Fits cwd)
    (h : d.makeDirectory cwd path = .ok d') :
    d'.WellFormed := by
  obtain ⟨p, hp, -, rfl⟩ := makeDirectory_cases h
  exact hd.insert (fits_of_locate hcwd hp) _

theorem WellFormed.removeTree (hd : d.WellFormed) (cwd : Location) (path : String) :
    (d.removeTree cwd path).WellFormed := by
  unfold Disk.removeTree
  split
  · exact hd.filter _
  · exact hd

theorem WellFormed.removeFile (hd : d.WellFormed) (h : d.removeFile cwd path = .ok d') :
    d'.WellFormed := by
  obtain ⟨p, content, executable, -, -, rfl⟩ := removeFile_cases h
  exact hd.erase _

theorem WellFormed.rename (hd : d.WellFormed) (hcwd : Fits cwd) {target : String}
    (h : d.rename cwd path target = .ok d') : d'.WellFormed := by
  obtain ⟨p, n, l, -, -, -, hw, ⟨-, rfl⟩ | ⟨-, rfl⟩⟩ := rename_cases h
  · exact hd
  · exact (hd.insert (fits_of_writable hcwd hw) _).erase _

/-- One change to a disk by path. -/
inductive Step (cwd : Location) : Disk → Disk → Prop where
  | write {d d' : Disk} {path : String} {content : ByteArray}
    (h : d.writeBytes cwd path content = .ok d') : Step cwd d d'
  | append {d : Disk} (path : String) (more : ByteArray) : Step cwd d (d.append cwd path more)
  | rename {d d' : Disk} {source target : String} (h : d.rename cwd source target = .ok d') :
    Step cwd d d'
  | makeDirectory {d d' : Disk} {path : String} (h : d.makeDirectory cwd path = .ok d') : Step cwd d d'
  | makeDirectories {d : Disk} (path : String) : Step cwd d (d.makeDirectories cwd path).1
  | removeFile {d d' : Disk} {path : String} (h : d.removeFile cwd path = .ok d') : Step cwd d d'
  | removeTree {d : Disk} (path : String) : Step cwd d (d.removeTree cwd path)

theorem Step.wellFormed (hcwd : Fits cwd) (h : Step cwd d d') (hd : d.WellFormed) : d'.WellFormed := by
  cases h with
  | write h => exact hd.writeBytes hcwd h
  | append path more => exact hd.append hcwd more
  | rename h => exact hd.rename hcwd h
  | makeDirectory h => exact hd.makeDirectory hcwd h
  | makeDirectories path => exact hd.makeDirectories hcwd path
  | removeFile h => exact hd.removeFile h
  | removeTree path => exact hd.removeTree cwd path

/-- **Whatever is done to an empty disk by path, the disk is well formed.** -/
theorem wellFormed_of_steps (hcwd : Fits cwd) (h : Relation.ReflTransGen (Step cwd) ⟨[]⟩ d) :
    d.WellFormed := by
  induction h with
  | refl => exact ⟨List.Pairwise.nil, nofun, nofun⟩
  | tail _ hstep ih => exact hstep.wellFormed hcwd ih

end PolicyForge.Disk
