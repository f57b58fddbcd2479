import Mathlib.Data.List.Forall2
import PolicyForge.Policy.Model
import PolicyForge.Proofs.Host.Act
import PolicyForge.Proofs.Host.Listing
import PolicyForge.Proofs.Text.ByteOrder
/-!
# Loading is all or nothing

What a directory defines is the list of its definitions in the order of the bytes of their names
(`Listed`), and there is one such list whatever order the disk keeps its entries in.  A model that
has been loaded holds the policies of all of them; one that could not be loaded is what it was
(`reload_atomic`).
-/
namespace PolicyForge

open Text (BytesLess)

/-! ## Names in order -/

theorem mem_insertName {n x : String} : ∀ {ns : List String}, x ∈ insertName n ns ↔ x = n ∨ x ∈ ns
  | [] => by simp [insertName]
  | m :: rest => by
    rw [insertName]
    split
    · exact List.mem_cons
    · rw [List.mem_cons, mem_insertName, List.mem_cons]
      exact or_left_comm

theorem mem_sortNames {x : String} : ∀ {ns : List String}, x ∈ sortNames ns ↔ x ∈ ns
  | [] => Iff.rfl
  | n :: ns => by
    have ih : x ∈ List.foldr insertName [] ns ↔ x ∈ ns := mem_sortNames
    rw [sortNames, List.foldr_cons, mem_insertName, ih, List.mem_cons]

theorem insertName_pairwise {n : String} : ∀ {ns : List String}, ns.Pairwise (· < ·) → n ∉ ns →
    (insertName n ns).Pairwise (· < ·)
  | [], _, _ => by simp [insertName]
  | m :: rest, h, hn => by
    rw [List.mem_cons, not_or] at hn
    have ⟨hm, hrest⟩ := List.pairwise_cons.1 h
    rw [insertName]
    split
    · rename_i hlt
      refine List.pairwise_cons.2 ⟨fun x hx => ?_, h⟩
      rcases List.mem_cons.1 hx with rfl | hx
      · exact hlt
      · exact String.lt_trans hlt (hm x hx)
    · rename_i hge
      have hlt : m < n := by
        rw [← Decidable.not_not (p := m < n)]
        exact fun hle => hn.1 (String.le_antisymm hle hge)
      refine List.pairwise_cons.2 ⟨fun x hx => ?_, insertName_pairwise hrest hn.2⟩
      rcases mem_insertName.1 hx with rfl | hx
      · exact hlt
      · exact hm x hx

theorem sortNames_pairwise : ∀ {ns : List String}, ns.Nodup → (sortNames ns).Pairwise (· < ·)
  | [], _ => List.Pairwise.nil
  | n :: ns, h => by
    rw [List.nodup_cons] at h
    refine insertName_pairwise (sortNames_pairwise h.2) fun hn => h.1 ?_
    exact mem_sortNames.1 hn

/-! ## Names of definitions -/

namespace Path

theorem fileName_of_isEntry {name : String} (he : IsEntry name) : fileName name = some name := by
  have hpieces : pieces name = [name] := by
    have hsplit : Text.splitOn (· == '/') name.toList = [name.toList] :=
      Text.splitOn_of_none _ fun c hc => beq_eq_false_iff_ne.2 fun hslash => he.separator (hslash ▸ hc)
    rw [pieces, hsplit, List.map_singleton, String.ofList_toList]
  obtain ⟨hempty, hdot, hdots⟩ := he.isName
  simp [fileName, hpieces, hempty, hdot, hdots]

/-- An extension is what comes after the last dot, if that is not the first character. -/
theorem extensionOf_eq_some_iff {name e : String} :
    extensionOf name = some e ↔ '.' ∉ e.toList ∧ ∃ stem, stem ≠ "" ∧ name = stem ++ "." ++ e := by
  unfold extensionOf
  constructor
  · intro h
    have hsplit := List.takeWhile_append_dropWhile (p := (· != '.')) (l := name.toList.reverse)
    have hhead := List.head?_dropWhile_not (· != '.') name.toList.reverse
    have hafter := List.all_takeWhile (p := (· != '.')) (l := name.toList.reverse)
    dsimp only at h
    split at h
    · cases h
    · cases h
    · rename_i c d rest hdrop
      rw [hdrop] at hsplit hhead
      obtain rfl : c = '.' := by simpa using hhead
      cases h
      refine ⟨fun hdot => ?_, String.ofList (d :: rest).reverse, by simp, ?_⟩
      · rw [String.toList_ofList, List.mem_reverse] at hdot
        have hne := List.all_eq_true.1 hafter _ hdot
        simp at hne
      · rw [← String.toList_inj, ← List.reverse_inj]
        exact hsplit.symm.trans (by simp)
  · rintro ⟨hdot, stem, hstem, rfl⟩
    have hreverse : (stem ++ "." ++ e).toList.reverse =
        e.toList.reverse ++ '.' :: stem.toList.reverse := by
      simp [String.toList_append]
    have hpass : ∀ c ∈ e.toList.reverse, (c != '.') = true := by
      intro c hc
      rw [bne_iff_ne]
      rintro rfl
      exact hdot (List.mem_reverse.1 hc)
    rw [hreverse, List.takeWhile_append_of_pos hpass, List.dropWhile_append_of_pos hpass,
      List.takeWhile_cons_of_neg (by decide), List.dropWhile_cons_of_neg (by decide)]
    cases hs : stem.toList.reverse with
    | nil => exact absurd (String.toList_eq_nil_iff.1 (List.reverse_eq_nil_iff.1 hs)) hstem
    | cons d rest => simp

end Path

namespace Definition

/-- The extensions of definitions. -/
def extensions : List (String × Form) := [("json", .json), ("yaml", .yaml), ("yml", .yaml)]

/-- A name is something, a dot, and the extension of a definition in a form. -/
def IsNamed (form : Form) (name : String) : Prop :=
  ∃ stem extension, stem ≠ "" ∧ name = stem ++ "." ++ extension ∧ (extension, form) ∈ extensions

theorem form?_eq_some_iff {form : Form} {name : String} (he : IsEntry name) :
    form? name = some form ↔ IsNamed form name := by
  rw [form?, Path.extension, Path.fileName_of_isEntry he, Option.bind_some]
  constructor
  · intro h
    split at h <;> cases h
    all_goals
      rename_i hextension
      obtain ⟨-, stem, hstem, hname⟩ := Path.extensionOf_eq_some_iff.1 hextension
      exact ⟨stem, _, hstem, hname, by simp [extensions]⟩
  · rintro ⟨stem, extension, hstem, hname, hmem⟩
    have hextension : '.' ∉ extension.toList → Path.extensionOf name = some extension := fun hdot =>
      Path.extensionOf_eq_some_iff.2 ⟨hdot, stem, hstem, hname⟩
    simp only [extensions, List.mem_cons, Prod.mk.injEq, List.not_mem_nil, or_false] at hmem
    rcases hmem with ⟨rfl, rfl⟩ | ⟨rfl, rfl⟩ | ⟨rfl, rfl⟩
    · rw [hextension (by decide)]
      rfl
    · rw [hextension (by decide)]
      rfl
    · rw [hextension (by decide)]
      rfl

/-! ## What a directory defines -/

/-- All definitions in the directory at a location, in the order of the bytes of their names. -/
structure Listed (d : Disk) (l : Location) (defs : List (String × Form)) : Prop where
  ordered : (defs.map Prod.fst).Pairwise BytesLess
  mem_iff : ∀ name form, (name, form) ∈ defs ↔
    (d.fileAt (l ++ [name])).isSome = true ∧ IsNamed form name

/-- The definition in a directory is a file of text, and the text makes a policy. -/
def Defines (decode : Decoder) (d : Disk) (l : Location) (e : String × Form) (p : Policy) : Prop :=
  ∃ content executable text, d.fileAt (l ++ [e.1]) = some (content, executable) ∧
    String.fromUTF8? content = some text ∧ decode e.2 text = .ok p

/-- The names of definitions among those in a directory. -/
def named (entries : List (String × DiskNode)) : List (String × Form) :=
  (sortNames ((entries.filter fun e => e.2.isFile).map (·.1))).filterMap fun name =>
    (form? name).map fun form => (name, form)

theorem definitionsIn_eq (path : String) (entries : List (String × DiskNode)) :
    definitionsIn path entries = (named entries).map fun e => (Path.join path e.1, e.2) := by
  rw [definitionsIn, named, List.map_filterMap]
  simp [Option.map_map, Function.comp_def]

variable {decode : Decoder} {d : Disk} {l : Location}

theorem mem_named_children (hd : d.WellFormed) {name : String} {form : Form} :
    (name, form) ∈ named (d.children l) ↔
      (d.fileAt (l ++ [name])).isSome = true ∧ form? name = some form := by
  have hmem : name ∈ ((d.children l).filter fun e => e.2.isFile).map (·.1) ↔
      (d.fileAt (l ++ [name])).isSome = true := by
    rw [Disk.fileAt, List.mem_map]
    constructor
    · rintro ⟨⟨name, n⟩, hn, rfl⟩
      obtain ⟨hn, hfile⟩ := List.mem_filter.1 hn
      rw [hd.mem_children_iff.1 hn]
      cases n with
      | file content executable => rfl
      | directory => cases hfile
    · intro h
      split at h
      · rename_i content executable hnode
        exact ⟨_, List.mem_filter.2 ⟨hd.mem_children_iff.2 hnode, rfl⟩, rfl⟩
      · cases h
  rw [← hmem, ← mem_sortNames, named, List.mem_filterMap]
  constructor
  · rintro ⟨name', hname', h⟩
    obtain ⟨form', hform, heq⟩ := Option.map_eq_some_iff.1 h
    cases heq
    exact ⟨hname', hform⟩
  · rintro ⟨hname, hform⟩
    exact ⟨name, hname, by rw [hform]; rfl⟩

theorem listed_named_children (hd : d.WellFormed) (l : Location) : Listed d l (named (d.children l)) := by
  refine ⟨?_, fun name form => ?_⟩
  · have hnodup : (((d.children l).filter fun e => e.2.isFile).map (·.1)).Nodup :=
      (List.filter_sublist.map _).nodup (hd.nodup_children l)
    refine List.pairwise_map.2 ((sortNames_pairwise hnodup).filterMap _ ?_)
    intro a a' hlt b hb b' hb'
    obtain ⟨_, -, rfl⟩ := Option.map_eq_some_iff.1 hb
    obtain ⟨_, -, rfl⟩ := Option.map_eq_some_iff.1 hb'
    exact (Text.lt_iff_bytesLess a a').1 hlt
  · rw [mem_named_children hd]
    refine and_congr_right fun hfile => form?_eq_some_iff ?_
    obtain ⟨⟨content, executable⟩, hfile⟩ := Option.isSome_iff_exists.1 hfile
    exact (hd.isEntry_of_node? (Disk.fileAt_eq_some_iff.1 hfile)).1

/-- What a directory defines does not depend on who lists it. -/
theorem Listed.unique {defs defs' : List (String × Form)} (h : Listed d l defs) (h' : Listed d l defs') :
    defs = defs' := by
  have hnodup : ∀ {es : List (String × Form)}, (es.map Prod.fst).Pairwise BytesLess → es.Nodup := by
    intro es hes
    refine (List.pairwise_map.1 hes).imp ?_
    rintro a _ hlt rfl
    exact List.lt_irrefl _ hlt
  have hperm : defs.Perm defs' := by
    refine (List.perm_ext_iff_of_nodup (hnodup h.ordered) (hnodup h'.ordered)).2 ?_
    rintro ⟨name, form⟩
    rw [h.mem_iff, h'.mem_iff]
  refine hperm.eq_of_pairwise ?_ (List.pairwise_map.1 h.ordered) (List.pairwise_map.1 h'.ordered)
  exact fun a b _ _ hab hba => absurd hba (List.lt_asymm hab)

/-- The definitions of a directory are those that are listed. -/
theorem Listed.definitionsIn (hd : d.WellFormed) {defs : List (String × Form)}
    (hdefs : Listed d l defs) (path : String) :
    definitionsIn path (d.children l) = defs.map fun e => (Path.join path e.1, e.2) := by
  rw [definitionsIn_eq, (listed_named_children hd l).unique hdefs]

theorem Listed.of_perm {d' : Disk} {defs : List (String × Form)} (hdefs : Listed d l defs)
    (hd : d.WellFormed) (hp : d'.entries.Perm d.entries) : Listed d' l defs := by
  refine ⟨hdefs.ordered, fun name form => ?_⟩
  rw [Disk.fileAt_congr (hd.node?_of_perm hp)]
  exact hdefs.mem_iff name form

theorem Listed.isEntry (hd : d.WellFormed) {defs : List (String × Form)} (hdefs : Listed d l defs) :
    ∀ e ∈ defs, IsEntry e.1 ∧ e.1.utf8ByteSize ≤ Disk.maxName := by
  rintro ⟨name, form⟩ he
  obtain ⟨hfile, -⟩ := (hdefs.mem_iff name form).1 he
  obtain ⟨⟨content, executable⟩, hfile⟩ := Option.isSome_iff_exists.1 hfile
  exact hd.isEntry_of_node? (Disk.fileAt_eq_some_iff.1 hfile)

/-! ## Reading definitions -/

/-- What a definition at a path comes to. -/
def found (decode : Decoder) (d : Disk) (cwd : Location) (e : String × Form) : Except ModelError Policy :=
  match d.readText cwd e.1 with
  | .error i => .error (.io i)
  | .ok text =>
    match decode e.2 text with
    | .ok p => .ok p
    | .error i => .error (.undecodable e.1 i)

theorem found_ok_iff {cwd : Location} {e : String × Form} {p : Policy} :
    found decode d cwd e = .ok p ↔ ∃ text, d.readText cwd e.1 = .ok text ∧ decode e.2 text = .ok p := by
  unfold found
  cases d.readText cwd e.1 with
  | error i => simp
  | ok text => cases hdecode : decode e.2 text <;> simp [hdecode]

theorem read_eq (decode : Decoder) (form : Form) (path : String) (h : Host) :
    read decode form path h = (found decode h.disk h.cwd (path, form), h) := by
  unfold read found
  cases htext : h.disk.readText h.cwd path with
  | error i => exact Act.bind_of_error (Act.reading_of_error htext)
  | ok text =>
    refine (Act.bind_of_ok (Act.reading_of_ok htext)).trans ?_
    dsimp only
    cases decode form text <;> rfl

theorem readAll_of_not_quietAt {e : String × Form} {defs : List (String × Form)} {h : Host}
    (hq : ¬h.interrupt.QuietAt 0) : readAll decode (e :: defs) h = (.error .cancelled, h) :=
  Act.bind_of_error (Act.checkpoint_of_not_quietAt _ hq)

theorem readAll_of_quietAt {e : String × Form} {defs : List (String × Form)} {h : Host}
    (hq : h.interrupt.QuietAt 0) : (readAll decode (e :: defs) h).1 =
      (found decode h.disk h.cwd e).bind fun p =>
        (readAll decode defs { h with interrupt := h.interrupt.afterLook }).1.map (p :: ·) := by
  rw [readAll, Act.bind_of_ok (Act.checkpoint_of_quietAt _ hq)]
  have hread := read_eq decode e.2 e.1 { h with interrupt := h.interrupt.afterLook }
  cases hfound : found decode h.disk h.cwd e with
  | error i =>
    rw [hfound] at hread
    rw [Act.bind_of_error hread]
    rfl
  | ok p =>
    rw [hfound] at hread
    rw [Act.bind_of_ok hread]
    cases hrest : readAll decode defs { h with interrupt := h.interrupt.afterLook } with
    | mk result h' =>
      cases result with
      | error i =>
        rw [Act.bind_of_error hrest]
        rfl
      | ok ps =>
        rw [Act.bind_of_ok hrest]
        rfl

/-- Definitions are read if no look at the interrupt finds it set and each of them comes to a policy. -/
theorem readAll_ok_iff {defs : List (String × Form)} : ∀ {h : Host} {ps : List Policy},
    (readAll decode defs h).1 = .ok ps ↔ (∀ n < defs.length, h.interrupt.QuietAt n) ∧
      List.Forall₂ (fun e p => found decode h.disk h.cwd e = .ok p) defs ps := by
  induction defs with
  | nil =>
    intro h ps
    rw [readAll, List.forall₂_nil_left_iff]
    constructor
    · intro hps
      cases hps
      exact ⟨nofun, rfl⟩
    · rintro ⟨-, rfl⟩
      rfl
  | cons e defs ih =>
    intro h ps
    by_cases hq : h.interrupt.QuietAt 0
    · rw [readAll_of_quietAt hq, List.forall₂_cons_left_iff]
      -- the looks at the rest of the definitions are those that come after the first
      have hlooks : (∀ n < (e :: defs).length, h.interrupt.QuietAt n) ↔
          ∀ n < defs.length, h.interrupt.afterLook.QuietAt n := by
        simp only [Interrupt.quietAt_afterLook, List.length_cons]
        refine ⟨fun hall n hn => hall (n + 1) (by omega), fun hall n hn => ?_⟩
        cases n with
        | zero => exact hq
        | succ n => exact hall n (by omega)
      rw [hlooks]
      cases hfound : found decode h.disk h.cwd e with
      | error i => simp [Except.bind]
      | ok p =>
        have hrest : (Except.bind (.ok p) fun p =>
            (readAll decode defs { h with interrupt := h.interrupt.afterLook }).1.map (p :: ·)) = .ok ps ↔
              ∃ qs, (readAll decode defs { h with interrupt := h.interrupt.afterLook }).1 = .ok qs ∧
                p :: qs = ps := by
          cases (readAll decode defs { h with interrupt := h.interrupt.afterLook }).1 <;>
            simp [Except.bind, Except.map]
        rw [hrest]
        simp only [ih]
        constructor
        · rintro ⟨qs, ⟨hlooks, hall⟩, rfl⟩
          exact ⟨hlooks, p, qs, rfl, hall, rfl⟩
        · rintro ⟨hlooks, p', qs, hp, hall, rfl⟩
          cases hp
          exact ⟨qs, ⟨hlooks, hall⟩, rfl⟩
    · rw [readAll_of_not_quietAt hq]
      refine iff_of_false nofun fun hall => hq ?_
      exact hall.1 0 (by simp)

/-- What definitions come to is settled by what their paths lead to. -/
theorem readAll_congr {d : Disk} : ∀ {defs : List (String × Form)} {h : Host},
    (∀ e ∈ defs, found decode d h.cwd e = found decode h.disk h.cwd e) →
      (readAll decode defs { h with disk := d }).1 = (readAll decode defs h).1
  | [], h, _ => rfl
  | e :: defs, h, hfound => by
    by_cases hq : h.interrupt.QuietAt 0
    · rw [readAll_of_quietAt hq]
      refine (readAll_of_quietAt (h := { h with disk := d }) hq).trans ?_
      have hrest : (readAll decode defs { h with disk := d, interrupt := h.interrupt.afterLook }).1 =
          (readAll decode defs { h with interrupt := h.interrupt.afterLook }).1 :=
        readAll_congr (h := { h with interrupt := h.interrupt.afterLook }) fun e he =>
          hfound e (List.mem_cons_of_mem _ he)
      dsimp only
      rw [hfound e List.mem_cons_self, hrest]
    · rw [readAll_of_not_quietAt hq, readAll_of_not_quietAt (h := { h with disk := d }) hq]

section

variable {path : String} {h : Host}

theorem readFile_of_none (hform : form? path = none) :
    readFile decode path h = (.error (.invalidPath path), h) := by
  unfold readFile
  rw [hform]
  rfl

theorem readFile_of_not_quietAt {form : Form} (hform : form? path = some form)
    (hq : ¬h.interrupt.QuietAt 0) :
    readFile decode path h = (.error .cancelled, h) := by
  unfold readFile
  rw [hform]
  exact Act.bind_of_error (Act.checkpoint_of_not_quietAt _ hq)

theorem readFile_of_quietAt {form : Form} (hform : form? path = some form) (hq : h.interrupt.QuietAt 0) :
    readFile decode path h =
      (found decode h.disk h.cwd (path, form), { h with interrupt := h.interrupt.afterLook }) := by
  unfold readFile
  rw [hform]
  exact (Act.bind_of_ok (Act.checkpoint_of_quietAt _ hq)).trans (read_eq decode form path _)

theorem readDirectory_of_not_quietAt (hq : ¬h.interrupt.QuietAt 0) :
    readDirectory decode path h = (.error .cancelled, h) :=
  Act.bind_of_error (Act.checkpoint_of_not_quietAt _ hq)

/-- What a directory comes to once the interrupt has been looked at. -/
theorem readDirectory_of_quietAt (hq : h.interrupt.QuietAt 0) : (readDirectory decode path h).1 =
    match h.disk.list h.cwd path with
    | .error i => .error (if i = .notFound then .invalidPath path else .io i)
    | .ok entries =>
      (readAll decode (definitionsIn path entries)
        { h with interrupt := h.interrupt.afterLook }).1 := by
  rw [readDirectory, Act.bind_of_ok (Act.checkpoint_of_quietAt _ hq)]
  cases hlist : h.disk.list h.cwd path with
  | error i => rw [Act.bind_of_error (Act.reading_of_error hlist)]
  | ok entries => rw [Act.bind_of_ok (Act.reading_of_ok hlist)]

theorem found_ok_iff_defines {name : String} {form : Form} {p : Policy}
    (hd : h.disk.HasDirectory h.cwd path) (he : IsEntry name)
    (hshort : name.utf8ByteSize ≤ Disk.maxName) :
    found decode h.disk h.cwd (Path.join path name, form) = .ok p ↔
      Defines decode h.disk (.ofPath h.cwd path) (name, form) p := by
  have hlocate := hd.locate he
  rw [if_neg (by omega), Location.ofPath_join_name he] at hlocate
  rw [found_ok_iff, Defines]
  simp only [Disk.readText_ok_iff hlocate]
  constructor
  · rintro ⟨text, ⟨content, executable, hfile, htext⟩, hdecode⟩
    exact ⟨content, executable, text, hfile, htext, hdecode⟩
  · rintro ⟨content, executable, text, hfile, htext, hdecode⟩
    exact ⟨text, ⟨content, executable, hfile, htext⟩, hdecode⟩

/-- A directory is read if it is there, the interrupt is quiet up to its last definition, and each
of them makes a policy. -/
theorem readDirectory_ok_iff (hd : h.disk.WellFormed) {defs : List (String × Form)}
    (hdefs : Listed h.disk (.ofPath h.cwd path) defs) {ps : List Policy} :
    (readDirectory decode path h).1 = .ok ps ↔ h.disk.isDirectory h.cwd path = true ∧
      h.interrupt.QuietAt defs.length ∧
      List.Forall₂ (Defines decode h.disk (.ofPath h.cwd path)) defs ps := by
  by_cases hq : h.interrupt.QuietAt 0
  · rw [readDirectory_of_quietAt hq]
    by_cases hdir : h.disk.isDirectory h.cwd path = true
    · rw [Disk.list_ok_iff.2 ⟨hdir, rfl⟩]
      dsimp only
      rw [hdefs.definitionsIn hd, readAll_ok_iff, List.forall₂_map_left_iff]
      refine (and_congr ?_ ?_).trans (and_iff_right hdir).symm
      · simp only [List.length_map, Interrupt.quietAt_afterLook]
        cases hlength : defs.length with
        | zero => exact iff_of_true nofun hq
        | succ n => exact ⟨fun hall => hall n (by omega), fun hn m hm => hn.mono (by omega)⟩
      · have hfound : ∀ e p, (IsEntry e.1 ∧ e.1.utf8ByteSize ≤ Disk.maxName) ∧
            found decode h.disk h.cwd (Path.join path e.1, e.2) = .ok p ↔
              (IsEntry e.1 ∧ e.1.utf8ByteSize ≤ Disk.maxName) ∧
                Defines decode h.disk (.ofPath h.cwd path) e p := by
          rintro ⟨name, form⟩ p
          exact and_congr_right fun he =>
            found_ok_iff_defines (Disk.hasDirectory_of_isDirectory hdir) he.1 he.2
        refine (and_iff_right (hdefs.isEntry hd)).symm.trans
          (Iff.trans ?_ (and_iff_right (hdefs.isEntry hd)))
        rw [← List.forall₂_and_left, ← List.forall₂_and_left]
        simp only [hfound]
    · refine iff_of_false (fun hread => hdir ?_) fun hall => hdir hall.1
      split at hread
      · cases hread
      · rename_i hlist
        exact (Disk.list_ok_iff.1 hlist).1
  · rw [readDirectory_of_not_quietAt hq]
    exact iff_of_false nofun fun hall => hq (hall.2.1.mono (by omega))

theorem readFile_ok_iff {p : Policy} : (readFile decode path h).1 = .ok p ↔
    h.interrupt.QuietAt 0 ∧
    ∃ form, form? path = some form ∧ found decode h.disk h.cwd (path, form) = .ok p := by
  cases hform : form? path with
  | none =>
    rw [readFile_of_none hform]
    simp
  | some form =>
    by_cases hq : h.interrupt.QuietAt 0
    · rw [readFile_of_quietAt hform hq]
      simp [hq]
    · rw [readFile_of_not_quietAt hform hq]
      simp [hq]

/-! ## The order in which a disk keeps its entries -/

section

variable {d : Disk} (hd : h.disk.WellFormed) (hp : d.entries.Perm h.disk.entries)

include hd hp

theorem found_of_perm (e : String × Form) : found decode d h.cwd e = found decode h.disk h.cwd e := by
  rw [found, found, Disk.readText_congr (hd.node?_of_perm hp)]

theorem readFile_of_perm :
    (readFile decode path { h with disk := d }).1 = (readFile decode path h).1 := by
  cases hform : form? path with
  | none => rw [readFile_of_none hform, readFile_of_none hform]
  | some form =>
    by_cases hq : h.interrupt.QuietAt 0
    · rw [readFile_of_quietAt hform hq, readFile_of_quietAt (h := { h with disk := d }) hform hq]
      exact found_of_perm hd hp (path, form)
    · rw [readFile_of_not_quietAt hform hq, readFile_of_not_quietAt (h := { h with disk := d }) hform hq]

theorem readDirectory_of_perm :
    (readDirectory decode path { h with disk := d }).1 = (readDirectory decode path h).1 := by
  by_cases hq : h.interrupt.QuietAt 0
  · rw [readDirectory_of_quietAt hq]
    refine (readDirectory_of_quietAt (h := { h with disk := d }) hq).trans ?_
    dsimp only
    rw [Disk.list_congr (hd.node?_of_perm hp)]
    cases hlist : h.disk.list h.cwd path with
    | error i => rfl
    | ok entries =>
      have hdefs := listed_named_children hd (.ofPath h.cwd path)
      obtain ⟨-, rfl⟩ := Disk.list_ok_iff.1 hlist
      simp only [Except.map, hdefs.definitionsIn hd, (hdefs.of_perm hd hp).definitionsIn (hd.of_perm hp)]
      exact readAll_congr (h := { h with interrupt := h.interrupt.afterLook }) fun e _ =>
        found_of_perm hd hp e
  · rw [readDirectory_of_not_quietAt hq, readDirectory_of_not_quietAt (h := { h with disk := d }) hq]

end

end

end Definition

namespace Model

open Definition

/-! ## Models -/

theorem Handling.act_bind {α β : Type} (a : Act ModelError α) (f : α → Handling β) (m : Model)
    (h : Host) :
    (Handling.act a >>= f) m h =
      match a h with
      | (.ok x, h) => f x m h
      | (.error e, h) => ((.error e, m), h) := by
  show StateT.bind (Handling.act a m) (fun x => ExceptT.bindCont f x.1 x.2) h = _
  cases ha : a h with
  | mk result h' =>
    have hact : Handling.act a m h = ((result, m), h') := by rw [Handling.act, ha]
    rw [StateT.bind, hact]
    cases result <;> rfl

theorem reload_file (decode : Decoder) (path : String) (policy : Option Policy) (h : Host) :
    reload decode (.file path policy) h =
      match readFile decode path h with
      | (.ok p, h) => ((.ok (), .file path (some p)), h)
      | (.error e, h) => ((.error e, .file path policy), h) := by
  refine (Handling.act_bind (readFile decode path) (fun p => .put (.file path (some p)))
    (.file path policy) h).trans ?_
  rcases readFile decode path h with ⟨_ | _, _⟩ <;> rfl

theorem reload_directory (decode : Decoder) (path : String) (policies : Option (List Policy)) (h : Host) :
    reload decode (.directory path policies) h =
      match readDirectory decode path h with
      | (.ok ps, h) => ((.ok (), .directory path (some ps)), h)
      | (.error e, h) => ((.error e, .directory path policies), h) := by
  refine (Handling.act_bind (readDirectory decode path) (fun ps => .put (.directory path (some ps)))
    (.directory path policies) h).trans ?_
  rcases readDirectory decode path h with ⟨_ | _, _⟩ <;> rfl

/-- What a model holds is what its path leads to on a disk: the policy of the file, or those of all
definitions in the directory, one for each and in their order. -/
def Holds (decode : Decoder) (d : Disk) (cwd : Location) (m : Model) : Prop :=
  match m with
  | .file path _ => ∃ form text p, form? path = some form ∧ d.readText cwd path = .ok text ∧
      decode form text = .ok p ∧ m.policies = .ok (.single p)
  | .directory path _ => ∃ defs ps, Listed d (.ofPath cwd path) defs ∧
      List.Forall₂ (Defines decode d (.ofPath cwd path)) defs ps ∧ m.policies = .ok (.many ps)

/-- A model after it has been loaded on one host after the other, whether that went well or not. -/
def reloaded (decode : Decoder) (m : Model) (hs : List Host) : Model :=
  hs.foldl (fun m h => (reload decode m h).1.2) m

variable {decode : Decoder} {m m' : Model} {h : Host}

theorem Holds.isLoaded {d : Disk} {cwd : Location} (hm : m.Holds decode d cwd) : m.isLoaded = true := by
  cases m with
  | file path policy =>
    obtain ⟨form, text, p, -, -, -, hpolicies⟩ := hm
    cases policy with
    | none => cases hpolicies
    | some p => rfl
  | directory path policies =>
    obtain ⟨defs, ps, -, -, hpolicies⟩ := hm
    cases policies with
    | none => cases hpolicies
    | some ps => rfl

theorem reload_error {e : ModelError} (hr : (reload decode m h).1 = (.error e, m')) : m' = m := by
  cases m with
  | file path policy =>
    rw [reload_file] at hr
    split at hr
    · cases hr
    · exact (Prod.mk.inj hr).2.symm
  | directory path policies =>
    rw [reload_directory] at hr
    split at hr
    · cases hr
    · exact (Prod.mk.inj hr).2.symm

/-- A model that has been loaded holds everything that its path leads to. -/
theorem reload_ok (hd : h.disk.WellFormed) (hr : (reload decode m h).1 = (.ok (), m')) :
    m'.path = m.path ∧ m'.Holds decode h.disk h.cwd := by
  cases m with
  | file path policy =>
    rw [reload_file] at hr
    split at hr
    · rename_i p h' hread
      cases hr
      obtain ⟨-, form, hform, hfound⟩ := readFile_ok_iff.1 (congrArg Prod.fst hread)
      obtain ⟨text, htext, hdecode⟩ := found_ok_iff.1 hfound
      exact ⟨rfl, form, text, p, hform, htext, hdecode, rfl⟩
    · cases hr
  | directory path policies =>
    rw [reload_directory] at hr
    split at hr
    · rename_i ps h' hread
      cases hr
      have hdefs := listed_named_children hd (.ofPath h.cwd path)
      obtain ⟨-, -, hall⟩ := (readDirectory_ok_iff hd hdefs).1 (congrArg Prod.fst hread)
      exact ⟨rfl, _, ps, hdefs, hall, rfl⟩
    · cases hr

theorem reload_of_perm {d : Disk} (hd : h.disk.WellFormed) (hp : d.entries.Perm h.disk.entries) :
    (reload decode m { h with disk := d }).1 = (reload decode m h).1 := by
  cases m with
  | file path policy =>
    have hread : (readFile decode path { h with disk := d }).1 = (readFile decode path h).1 :=
      readFile_of_perm hd hp
    rw [reload_file, reload_file]
    rcases hr : readFile decode path h with ⟨_ | _, _⟩ <;>
      rcases hr' : readFile decode path { h with disk := d } with ⟨_ | _, _⟩ <;>
      rw [hr, hr'] at hread <;> cases hread <;> rfl
  | directory path policies =>
    have hread : (readDirectory decode path { h with disk := d }).1 = (readDirectory decode path h).1 :=
      readDirectory_of_perm hd hp
    rw [reload_directory, reload_directory]
    rcases hr : readDirectory decode path h with ⟨_ | _, _⟩ <;>
      rcases hr' : readDirectory decode path { h with disk := d } with ⟨_ | _, _⟩ <;>
      rw [hr, hr'] at hread <;> cases hread <;> rfl

theorem exists_forall₂_iff {α β : Type} {R : α → β → Prop} : ∀ {as : List α},
    (∃ bs, List.Forall₂ R as bs) ↔ ∀ a ∈ as, ∃ b, R a b
  | [] => iff_of_true ⟨[], .nil⟩ nofun
  | a :: as => by
    have ih : (∃ bs, List.Forall₂ R as bs) ↔ ∀ a ∈ as, ∃ b, R a b := exists_forall₂_iff
    simp only [List.forall₂_cons_left_iff, List.forall_mem_cons, ← ih]
    constructor
    · rintro ⟨_, b, bs, hb, hbs, -⟩
      exact ⟨⟨b, hb⟩, bs, hbs⟩
    · rintro ⟨⟨b, hb⟩, bs, hbs⟩
      exact ⟨_, b, bs, hb, hbs, rfl⟩

theorem reload_directory_ok_iff {path : String} {policies : Option (List Policy)}
    {defs : List (String × Form)} (hd : h.disk.WellFormed)
    (hdefs : Listed h.disk (.ofPath h.cwd path) defs) :
    (∃ m', (reload decode (.directory path policies) h).1 = (.ok (), m')) ↔
      h.disk.isDirectory h.cwd path = true ∧ h.interrupt.QuietAt defs.length ∧
        ∀ e ∈ defs, ∃ p, Defines decode h.disk (.ofPath h.cwd path) e p := by
  rw [← exists_forall₂_iff, reload_directory]
  have hread := fun ps => @readDirectory_ok_iff decode path h hd defs hdefs ps
  rcases hr : readDirectory decode path h with ⟨_ | ps, _⟩
  · rw [hr] at hread
    refine iff_of_false (by simp) ?_
    rintro ⟨hdir, hquiet, ps, hall⟩
    cases (hread ps).2 ⟨hdir, hquiet, hall⟩
  · rw [hr] at hread
    obtain ⟨hdir, hquiet, hall⟩ := (hread ps).1 rfl
    exact iff_of_true ⟨_, rfl⟩ ⟨hdir, hquiet, ps, hall⟩

/-- However often a model is loaded, it is what it was or holds everything of one of the hosts. -/
theorem reloaded_cases {hs : List Host} (hd : ∀ h ∈ hs, h.disk.WellFormed) :
    reloaded decode m hs = m ∨ ∃ h ∈ hs, (reloaded decode m hs).Holds decode h.disk h.cwd := by
  induction hs generalizing m with
  | nil => exact .inl rfl
  | cons h hs ih =>
    rcases hr : (reload decode m h).1 with ⟨result, m'⟩
    have hreloaded : reloaded decode m (h :: hs) = reloaded decode m' hs := by
      rw [reloaded, List.foldl_cons, hr]
      rfl
    rw [hreloaded]
    rcases ih (m := m') fun h' hh' => hd h' (List.mem_cons_of_mem _ hh') with hm | ⟨h', hh', hm⟩
    · rw [hm]
      cases result with
      | error e => exact .inl (reload_error hr)
      | ok u => exact .inr ⟨h, List.mem_cons_self, (reload_ok (hd h List.mem_cons_self) hr).2⟩
    · exact .inr ⟨h', List.mem_cons_of_mem _ hh', hm⟩

/-- **Loading is all or nothing, and the order of the entries does not show.**  A directory is
loaded exactly if it is there and each of its definitions makes a policy, unless the interrupt is
seen before the last of them; what has been loaded is then all of it, and what cannot be loaded
leaves the model as it was. -/
theorem reload_atomic (decode : Decoder) (m : Model) {h : Host} (hd : h.disk.WellFormed) :
    (∀ d, d.entries.Perm h.disk.entries →
      (reload decode m { h with disk := d }).1 = (reload decode m h).1) ∧
      (∀ path policies, m = .directory path policies →
        ∃ defs, Listed h.disk (.ofPath h.cwd path) defs ∧
        ((∃ m', (reload decode m h).1 = (.ok (), m')) ↔
          h.disk.isDirectory h.cwd path = true ∧ h.interrupt.QuietAt defs.length ∧
            ∀ e ∈ defs, ∃ p, Defines decode h.disk (.ofPath h.cwd path) e p)) ∧
      (∀ m', (reload decode m h).1 = (.ok (), m') → m'.path = m.path ∧ m'.Holds decode h.disk h.cwd) ∧
      (∀ e m', (reload decode m h).1 = (.error e, m') → m' = m) ∧
      ∀ hs, (∀ h ∈ hs, h.disk.WellFormed) →
        (reloaded decode m hs = m ∨ ∃ h ∈ hs, (reloaded decode m hs).Holds decode h.disk h.cwd) ∧
          (m.isLoaded = true → (reloaded decode m hs).isLoaded = true) := by
  refine ⟨fun d => reload_of_perm hd, ?_, fun m' => reload_ok hd, fun e m' => reload_error,
    fun hs hhs => ?_⟩
  · rintro path policies rfl
    have hdefs := listed_named_children hd (.ofPath h.cwd path)
    exact ⟨_, hdefs, reload_directory_ok_iff hd hdefs⟩
  · refine ⟨reloaded_cases hhs, fun hloaded => ?_⟩
    rcases reloaded_cases hhs with hm | ⟨h, -, hm⟩
    · rw [hm, hloaded]
    · exact hm.isLoaded

/-- A directory with two definitions, and four more entries that define nothing. -/
def mixed : Disk :=
  ⟨[(["p"], .directory), (["p", "b.yml"], .file "B".toUTF8 false),
    (["p", "c.JSON"], .file "C".toUTF8 false), (["p", "d.json"], .directory),
    (["p", ".json"], .file "E".toUTF8 false), (["p", "a.x.json"], .file "A".toUTF8 false),
    (["p", "notes.txt"], .file "F".toUTF8 false)]⟩

theorem reload_atomic_mixed : mixed.WellFormed ∧ ∀ d, d.entries.Perm mixed.entries →
    (reload (fun _ text => .ok (.named text "n" "k")) (.directory "p" none) (.withDisk d .none)).1 =
      (.ok (), .directory "p" (some [.named "A" "n" "k", .named "B" "n" "k"])) := by
  have hd : mixed.WellFormed := ⟨by decide, by decide, by decide⟩
  exact ⟨hd, fun d hp => ((reload_atomic _ _ (h := .withDisk mixed .none) hd).1 d hp).trans (by rfl)⟩

end Model

end PolicyForge
