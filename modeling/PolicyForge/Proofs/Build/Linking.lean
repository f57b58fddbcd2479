import PolicyForge.Proofs.Build.Compiler
import PolicyForge.Proofs.Host.Entry
import PolicyForge.Proofs.Text.Run
/-!
# What a command is shown

The libraries of a package are found by the ends of their names, and what an entry was called before its
last separator is forgotten; so a library has a name that leads nowhere but into the directory it is put
in (`IsLibraryName`).  A command gets the first library of each name, from a directory in which nothing
else is written.
-/
namespace PolicyForge

open Act

/-! ## The libraries of a package -/

namespace Package

/-- A name that leads to one file of a directory, and to a library. -/
structure IsLibraryName (name : String) : Prop where
  separator : '/' ∉ name.toList
  suffix : ".dll".toList <:+ name.toList

theorem IsLibraryName.isName {name : String} (h : IsLibraryName name) : IsName name := by
  have hlong : 4 ≤ name.toList.length := h.suffix.length_le
  refine ⟨?_, ?_, ?_⟩ <;> rintro rfl <;> revert hlong <;> decide

def isReference (l : Listed) : Bool := !l.isLink && isReferenceName l.name

theorem isReference_eq (l : Listed) : isReference l = !(l.isLink || !isReferenceName l.name) := by
  rw [isReference, Bool.not_or, Bool.not_not]

/-- An image is what a listed entry is read as. -/
structure IsImage (data : ByteArray) (l : Listed) (image : Reference) : Prop where
  name : image.name = libraryName l.name
  content : ∃ entry, l.open data = .ok entry ∧ entry.content = .ok image.content

variable {data : ByteArray} {l : Listed} {ls : List Listed} {images : List Reference} {h h' : Host}

theorem isLibraryName_libraryName {name : String} (h : isReferenceName name = true) :
    IsLibraryName (libraryName name) := by
  rw [isReferenceName, Bool.and_eq_true, List.isSuffixOf_iff_suffix] at h
  obtain ⟨front, hfront⟩ := h.2
  constructor
  · rw [libraryName, String.toList_ofList, List.mem_reverse]
    exact Text.not_mem_takeWhile_until '/' _
  · have hsuffix : librarySuffix.reverse.all (· != '/') = true := by decide
    rw [libraryName, String.toList_ofList, ← hfront, List.reverse_append,
      List.takeWhile_append_of_pos (List.all_eq_true.1 hsuffix), List.reverse_append,
      List.reverse_reverse, String.toList_ofList]
    exact List.suffix_append _ _

theorem open_ok {entry : ArchiveEntry} (h : l.open data = .ok entry) :
    entry.name = l.name ∧ entry.isLink = l.isLink := by
  unfold Listed.open at h
  cases hencrypted : l.encrypted with
  | true =>
    rw [hencrypted] at h
    cases h
  | false =>
    cases hdata : entryData data l.header l.size with
    | error e =>
      rw [hencrypted, hdata] at h
      split at h <;> cases h
    | ok bytes =>
      rw [hencrypted, hdata] at h
      split at h <;> cases h <;> exact ⟨rfl, rfl⟩

theorem referencesAmong_ok : ∀ {ls : List Listed} {images : List Reference},
    referencesAmong data ls = .ok images → List.Forall₂ (IsImage data) (ls.filter isReference) images
  | [], images, h => by
    cases h
    exact .nil
  | l :: ls, images, h => by
    rw [referencesAmong] at h
    split at h
    · cases h
    · rename_i entry hopen
      obtain ⟨hname, hlink⟩ := open_ok hopen
      rw [hname, hlink] at h
      have hnot := isReference_eq l
      by_cases hpassed : (l.isLink || !isReferenceName l.name) = true
      · rw [if_pos hpassed] at h
        rw [List.filter_cons_of_neg (by rw [hnot, hpassed]; decide)]
        exact referencesAmong_ok h
      · rw [if_neg hpassed] at h
        rw [Bool.not_eq_true] at hpassed
        rw [List.filter_cons_of_pos (by rw [hnot, hpassed]; rfl)]
        split at h
        · cases h
        · rename_i content hcontent
          cases hmore : referencesAmong data ls with
          | error e =>
            rw [hmore] at h
            cases h
          | ok more =>
            rw [hmore] at h
            cases h
            exact .cons ⟨rfl, entry, hopen, hcontent⟩ (referencesAmong_ok hmore)

theorem isLibraryName_of_isImage (hls : ∀ l ∈ ls, isReference l = true)
    (h : List.Forall₂ (IsImage data) ls images) : ∀ i ∈ images, IsLibraryName i.name := by
  induction h with
  | nil => simp
  | cons himage _ ih =>
    have hreference := hls _ List.mem_cons_self
    rw [isReference, Bool.and_eq_true] at hreference
    refine List.forall_mem_cons.2 ⟨?_, ih fun l hl => hls l (List.mem_cons_of_mem _ hl)⟩
    rw [himage.name]
    exact isLibraryName_libraryName hreference.2

theorem readReferences_ok {path : String} (hr : readReferences path h = (.ok images, h')) :
    ∃ data listed, h.disk.content? h.cwd path = some data ∧ directory data = .ok listed ∧
      List.Forall₂ (IsImage data) (listed.filter isReference) images := by
  obtain ⟨data, h₁, hread, hr⟩ := bind_ok hr
  obtain ⟨hread, -⟩ := reading_ok (f := fun d cwd => d.readBytes cwd path) hread
  have himages : references data = .ok images := (Prod.mk.inj hr).1
  rw [references] at himages
  split at himages
  · cases himages
  · rename_i listed hlisted
    exact ⟨data, listed, by rw [Disk.content?, hread]; rfl, hlisted, referencesAmong_ok himages⟩

end Package

namespace Compiler

open Package

variable {dir : String} {rs : List Reference} {r : Reference} {h h' before : Host}

/-! ## One library of each name -/

/-- The names of references, each where it comes first. -/
def referenceNames (rs : List Reference) : List String := (rs.map (·.name)).eraseDups

/-- What is kept of some references is the first of each name that has not been seen. -/
theorem mem_distinctReferences : ∀ {rs : List Reference} {seen : List String},
    r ∈ distinctReferences seen rs ↔ r.name ∉ seen ∧ rs.find? (·.name == r.name) = some r
  | [], seen => by simp [distinctReferences]
  | x :: rest, seen => by
    rw [distinctReferences, List.find?_cons]
    by_cases hseen : x.name ∈ seen
    · rw [if_pos (by simpa using hseen), mem_distinctReferences]
      refine and_congr_right fun hr => ?_
      have hne : (x.name == r.name) = false := beq_eq_false_iff_ne.2 fun he => hr (he ▸ hseen)
      rw [hne]
    · rw [if_neg (by simpa using hseen), List.mem_cons, mem_distinctReferences, List.mem_cons, not_or]
      by_cases hname : x.name = r.name
      · simp only [hname, beq_self_eq_true, not_true, false_and, or_false, Option.some.injEq]
        rw [hname] at hseen
        exact ⟨fun he => ⟨hseen, he.symm⟩, fun he => he.2.symm⟩
      · have hne : r ≠ x := fun he => hname (by rw [he])
        simp [hne, beq_eq_false_iff_ne.2 hname, Ne.symm hname]

theorem nodup_distinctReferences : ∀ (rs : List Reference) (seen : List String),
    ((distinctReferences seen rs).map (·.name)).Nodup
  | [], seen => List.nodup_nil
  | x :: rest, seen => by
    rw [distinctReferences]
    split
    · exact nodup_distinctReferences rest seen
    · refine List.nodup_cons.2 ⟨fun hx => ?_, nodup_distinctReferences rest _⟩
      obtain ⟨r, hr, hname⟩ := List.mem_map.1 hx
      exact (mem_distinctReferences.1 hr).1 (hname ▸ List.mem_cons_self)

theorem map_distinctReferences : ∀ (rs : List Reference) (seen : List String),
    (distinctReferences seen rs).map (·.name) =
      ((rs.map (·.name)).filter fun n => !seen.contains n).eraseDups
  | [], seen => rfl
  | x :: rest, seen => by
    rw [distinctReferences, List.map_cons]
    by_cases hseen : seen.contains x.name = true
    · rw [if_pos hseen, List.filter_cons_of_neg (by simpa using hseen)]
      exact map_distinctReferences rest seen
    · rw [if_neg hseen, List.filter_cons_of_pos (by simpa using hseen), List.eraseDups_cons,
        List.filter_filter, List.map_cons, map_distinctReferences rest]
      congr 3
      funext n
      rw [List.contains_cons, Bool.not_or]

theorem map_distinctReferences_nil (rs : List Reference) :
    (distinctReferences [] rs).map (·.name) = referenceNames rs := by
  rw [map_distinctReferences, referenceNames]
  simp

/-! ## Putting libraries into a directory -/

theorem keeps_writeReferences (cwd : Location) (made : Location → Prop) (dir : String) :
    ∀ (rs : List Reference),
      Keeps (.changes cwd (fun l => ∃ r ∈ rs, l = Location.ofPath cwd (referencePath dir r)) made)
        (writeReferences dir rs)
  | [] => keeps_pure ()
  | r :: rest => by
    have hrest := keeps_writeReferences cwd made dir rest
    refine Keeps.bind ((keeps_writeBytes cwd made _ _ r.content).mono ?_ fun _ hm => hm) fun _ =>
      hrest.mono ?_ fun _ hm => hm
    · exact fun l hl => ⟨r, List.mem_cons_self, hl⟩
    · rintro l ⟨t, ht, hl⟩
      exact ⟨t, List.mem_cons_of_mem r ht, hl⟩

theorem ofPath_referencePath (hr : IsLibraryName r.name) (cwd : Location) (dir : String) :
    Location.ofPath cwd (referencePath dir r) = Location.ofPath cwd dir ++ [r.name] :=
  Location.ofPath_join hr.isName hr.separator cwd dir

/-- Libraries of different names do not write over each other. -/
theorem writeReferences_ok : ∀ {rs : List Reference} {h h' : Host}, (∀ r ∈ rs, IsLibraryName r.name) →
    (rs.map (·.name)).Nodup → writeReferences dir rs h = (.ok (), h') →
      ∀ r ∈ rs, h'.disk.content? h.cwd (referencePath dir r) = some r.content
  | [], h, h', _, _, _ => by simp
  | x :: rest, h, h', hlibrary, hnodup, hw => by
    obtain ⟨_, mid, hx, hw⟩ := bind_ok hw
    obtain ⟨d, hd, rfl⟩ := changing_ok (f := fun d cwd => d.writeBytes cwd _ x.content) hx
    obtain ⟨hlocate, hchanges, executable, hnode⟩ := Disk.writeBytes_ok hd
    obtain ⟨-, hlater⟩ := (keeps_writeReferences h.cwd (fun _ => False) dir rest).of_eq hw rfl
    obtain ⟨hx, hrest⟩ := List.forall_mem_cons.1 hlibrary
    obtain ⟨hfirst, hnodup⟩ := List.nodup_cons.1 hnodup
    have hothers := writeReferences_ok hrest hnodup hw
    refine List.forall_mem_cons.2 ⟨?_, hothers⟩
    -- the file of `x` is there once it is written, and no later library has its name
    have hkept : ¬∃ r ∈ rest, Location.ofPath h.cwd (referencePath dir x) =
        Location.ofPath h.cwd (referencePath dir r) := by
      rintro ⟨r, hr, he⟩
      rw [ofPath_referencePath hx, ofPath_referencePath (hrest r hr)] at he
      have hname : x.name = r.name := List.singleton_inj.1 (List.append_cancel_left he)
      exact hfirst (List.mem_map.2 ⟨r, hr, hname.symm⟩)
    have hthere := Disk.locate_mono hlater.directory (Disk.locate_mono hchanges.directory hlocate)
    rw [Disk.content?_of_locate hthere, hlater.fileAt hkept, Disk.fileAt, hnode]
    rfl

theorem makeScratch_ok (hs : makeScratch h = (.ok dir, h')) :
    h'.cwd = h.cwd ∧ h.disk.Changes (fun _ => False) (· = Location.ofPath h.cwd dir) h'.disk := by
  unfold makeScratch at hs
  obtain ⟨place, h₁, h1, hs⟩ := bind_ok hs
  obtain ⟨n, h₂, h2, hs⟩ := bind_ok hs
  obtain ⟨_, h₃, h3, hs⟩ := bind_ok hs
  obtain ⟨d, hd, h3⟩ := changing_ok (f := fun d cwd => d.makeDirectory cwd _) h3
  have hplace : h₁ = h := congrArg Prod.snd h1.symm
  have hfresh : h₂ = { h₁ with fresh := h₁.fresh + 1 } := congrArg Prod.snd h2.symm
  have hlast : h' = h₃ := congrArg Prod.snd hs.symm
  have hchanges := Disk.makeDirectory_ok hd
  rw [← pure_ok hs, hfresh, hplace] at hchanges
  rw [hlast, h3, hfresh, hplace]
  exact ⟨rfl, hchanges⟩

/-! ## A compilation by a command -/

/-- What is left of a compilation once the references are in their directory. -/
def runIn (c : Command) (r : EmitRequest) (dir : String) : Act BuildError CompilerOutcome := do
  let e ← Act.run (fun e => .compiler commandName (c.program ++ ": " ++ e.message)) c.program
    (arguments c r dir)
  return outcomeOf e

def IsPlaced (cwd : Location) (dir : String) (names : List String) (l : Location) : Prop :=
  ∃ n ∈ names, l = Location.ofPath cwd (Path.join dir n)

/-- A host on which the references of a request have been put into a directory, and what the command
is told of them. -/
structure Linked (c : Command) (r : EmitRequest) (dir : String) (h before : Host) : Prop where
  arguments : arguments c r dir = c.leading ++
    ["-nologo", "-noconfig", "-nostdlib+", "-target:library", "-deterministic", "-debug:portable",
      "-langversion:latest", "-utf8output"] ++
    ["-out:" ++ r.targets.binary, "-pdb:" ++ r.targets.symbols, "-doc:" ++ r.targets.documentation] ++
    (referenceNames r.references).map (fun n => "-reference:" ++ Path.join dir n) ++ [r.sourcePath]
  inside : ∀ n ∈ referenceNames r.references,
    Location.ofPath h.cwd (Path.join dir n) = Location.ofPath h.cwd dir ++ [n]
  apart : ((referenceNames r.references).map fun n => Location.ofPath h.cwd (Path.join dir n)).Nodup
  first : ∀ n ∈ referenceNames r.references, ∃ image,
    r.references.find? (·.name == n) = some image ∧
      before.disk.content? h.cwd (Path.join dir n) = some image.content
  others : h.disk.Changes (IsPlaced h.cwd dir (referenceNames r.references)) (fun _ => False) before.disk
  /-- The command runs on this host. -/
  runs : compileIn c r dir h = runIn c r dir before
  /-- Where the directory has been made for it, it is all that has been made. -/
  emits : ∀ start, makeScratch start = (.ok dir, h) →
    (external c).emit r start = (do
      let result ← Act.attempt (runIn c r dir)
      Act.removeTree dir
      Act.ofExcept result) before ∧
    start.disk.Changes (IsPlaced start.cwd dir (referenceNames r.references))
      (· = Location.ofPath start.cwd dir) before.disk

variable {c : Command} {r : EmitRequest}

theorem exists_of_mem_referenceNames {n : String} (hn : n ∈ referenceNames rs) :
    ∃ image ∈ distinctReferences [] rs, image.name = n ∧ rs.find? (·.name == n) = some image := by
  rw [← map_distinctReferences_nil] at hn
  obtain ⟨image, himage, rfl⟩ := List.mem_map.1 hn
  exact ⟨image, himage, rfl, (mem_distinctReferences.1 himage).2⟩

theorem emit_of_makeScratch {start : Host} (hs : makeScratch start = (.ok dir, h)) :
    (external c).emit r start = (do
      let result ← Act.attempt (compileIn c r dir)
      Act.removeTree dir
      Act.ofExcept result) h := bind_of_ok hs

theorem linked_of_written (hlibrary : ∀ i ∈ r.references, IsLibraryName i.name)
    (hw : writeReferences dir (distinctReferences [] r.references) h = (.ok (), before)) :
    Linked c r dir h before := by
  have hnames := map_distinctReferences_nil r.references
  have hnodup := nodup_distinctReferences r.references []
  have hdistinct : ∀ i ∈ distinctReferences [] r.references, IsLibraryName i.name := fun i hi =>
    hlibrary i (List.mem_of_find?_eq_some (mem_distinctReferences.1 hi).2)
  have hinside : ∀ cwd, ∀ n ∈ referenceNames r.references,
      Location.ofPath cwd (Path.join dir n) = Location.ofPath cwd dir ++ [n] := by
    intro cwd n hn
    obtain ⟨image, himage, rfl, -⟩ := exists_of_mem_referenceNames hn
    exact ofPath_referencePath (hdistinct image himage) cwd dir
  have hothers : h.disk.Changes (IsPlaced h.cwd dir (referenceNames r.references)) (fun _ => False)
      before.disk := by
    obtain ⟨-, hchanges⟩ := (keeps_writeReferences h.cwd (fun _ => False) dir _).of_eq hw rfl
    refine hchanges.mono ?_ fun _ hm => hm
    rintro l ⟨i, hi, rfl⟩
    exact ⟨i.name, hnames ▸ List.mem_map_of_mem hi, rfl⟩
  have hruns : compileIn c r dir h = runIn c r dir before := bind_of_ok hw
  refine ⟨?_, hinside h.cwd, ?_, ?_, hothers, hruns, ?_⟩
  · rw [Compiler.arguments, referenceOptions, ← hnames, List.map_map]
    rfl
  · rw [List.map_congr_left (hinside h.cwd), ← hnames]
    exact List.Pairwise.map _
      (fun n m hne he => hne (List.singleton_inj.1 (List.append_cancel_left he))) hnodup
  · intro n hn
    obtain ⟨image, himage, rfl, hfirst⟩ := exists_of_mem_referenceNames hn
    exact ⟨image, hfirst, writeReferences_ok hdistinct hnodup hw image himage⟩
  · intro start hs
    obtain ⟨hcwd, hmade⟩ := makeScratch_ok hs
    rw [hcwd] at hothers
    refine ⟨?_, (hmade.mono (fun _ hl => hl.elim) fun _ hm => hm).trans
      (hothers.mono (fun _ hl => hl) fun _ hm => hm.elim)⟩
    have hattempt : (Act.attempt (compileIn c r dir) : Act BuildError _) h =
        Act.attempt (runIn c r dir) before := by rw [Act.attempt, Act.attempt, hruns]
    rw [emit_of_makeScratch hs]
    exact bind_congr_left hattempt _

/-- **A command gets the first library of each name in a package**, from one directory in which
nothing else is written. -/
theorem linked_of_package {path : String} {asked answered : Host} {images : List Reference}
    (hread : readReferences path asked = (.ok images, answered)) :
    (∃ data listed, asked.disk.content? asked.cwd path = some data ∧ directory data = .ok listed ∧
      List.Forall₂ (IsImage data) (listed.filter isReference) images) ∧
    (∀ i ∈ images, '/' ∉ i.name.toList ∧ ".dll".toList <:+ i.name.toList) ∧
    ∀ (c : Command) (r : EmitRequest) (dir : String) (h before : Host), r.references = images →
      writeReferences dir (distinctReferences [] r.references) h = (.ok (), before) →
        Linked c r dir h before := by
  obtain ⟨data, listed, hdata, hlisted, himages⟩ := readReferences_ok hread
  have hlibrary : ∀ i ∈ images, IsLibraryName i.name :=
    isLibraryName_of_isImage (fun l hl => List.of_mem_filter hl) himages
  refine ⟨⟨data, listed, hdata, hlisted, himages⟩, fun i hi => ?_, fun c r dir h before hr hw => ?_⟩
  · exact ⟨(hlibrary i hi).separator, (hlibrary i hi).suffix⟩
  · subst hr
    exact linked_of_written hlibrary hw

/-- Of a library that a package has for two frameworks, the first one is linked. -/
theorem linked_of_package_twice :
    let zeros (n : Nat) := String.ofList (List.replicate n '\x00')
    let stored (name content : String) := "PK\x03\x04" ++ zeros 22 ++ "\x0b" ++ zeros 3 ++ name ++ content
    let described (name checksum place : String) :=
      "PK\x01\x02" ++ zeros 12 ++ checksum ++ "\x01" ++ zeros 3 ++
      "\x01" ++ zeros 3 ++ "\x0b" ++ zeros 13 ++ place ++ zeros 3 ++ name
    let archive := (stored "ref/a/A.dll" "J" ++ stored "ref/b/A.dll" "V" ++
      described "ref/a/A.dll" "\x03\x47\x0b\x44" "\x00" ++
        described "ref/b/A.dll" "\x4c\x1b\x0a\x50" "\x2a" ++
      "PK\x05\x06" ++ zeros 4 ++ "\x02\x00\x02\x00\x72" ++ zeros 3 ++ "\x54" ++ zeros 5).toUTF8
    let h := Host.withDisk ⟨[(["p"], .file archive false), (["s"], .directory)]⟩
      ⟨fun _ => .refused, []⟩
    let images := (readReferences "p" h).1.toOption.getD []
    let r : EmitRequest := ⟨"b/L.cs", "", "L", images, .inDirectory "b" "L"⟩
    let before := (writeReferences "s" (distinctReferences [] images) h).2
    images.map (fun i => (i.name, i.content)) = [("A.dll", "J".toUTF8), ("A.dll", "V".toUTF8)] ∧
      Linked ⟨"dotnet", ["csc.dll"]⟩ r "s" h before := by
  intro zeros stored described archive h images r before
  obtain ⟨himages, hwrites⟩ :
      images.map (fun i => (i.name, i.content)) = [("A.dll", "J".toUTF8), ("A.dll", "V".toUTF8)] ∧
        (writeReferences "s" (distinctReferences [] images) h).1.isOk = true := by decide +kernel
  -- what was to be computed has been
  clear_value archive
  obtain ⟨_, hwritten⟩ := exists_ok_of_isOk hwrites
  cases hresult : (readReferences "p" h).1 with
  | error e =>
    have hnone : images = [] := by
      show (readReferences "p" h).1.toOption.getD [] = []
      rw [hresult]
      rfl
    rw [hnone] at himages
    cases himages
  | ok found =>
    have hsame : images = found := by
      show (readReferences "p" h).1.toOption.getD [] = found
      rw [hresult]
      rfl
    obtain ⟨-, -, hlinked⟩ := linked_of_package (Prod.ext hresult rfl)
    exact ⟨himages, hlinked _ r "s" h before hsame hwritten⟩

end Compiler

end PolicyForge
