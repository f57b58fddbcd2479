import PolicyForge.Data.Record
import PolicyForge.Proofs.Data.JsonText
/-!
# Fields in any order

A record is decoded alike from all objects that hold the same fields, whatever their order
(`Record.decode_of_holds`).  `Same` says of two JSON values that they differ in nothing else.
-/
namespace PolicyForge.Data

namespace Json

/-! ## The same values -/

mutual

/-- The same value, with the fields of its objects in any order. -/
inductive Same : Json → Json → Prop where
  | null : Same .null .null
  | bool (b : Bool) : Same (.bool b) (.bool b)
  | int (i : Int) : Same (.int i) (.int i)
  | float (bits : Nat) : Same (.float bits) (.float bits)
  | string (s : String) : Same (.string s) (.string s)
  | array {js ks : List Json} (h : SameItems js ks) : Same (.array js) (.array ks)
  | object {fs gs hs : List (String × Json)} (h : SameFields fs gs) (hperm : gs.Perm hs) :
    Same (.object fs) (.object hs)

inductive SameItems : List Json → List Json → Prop where
  | nil : SameItems [] []
  | cons {j k : Json} {js ks : List Json} (h : Same j k) (hs : SameItems js ks) :
    SameItems (j :: js) (k :: ks)

inductive SameFields : List (String × Json) → List (String × Json) → Prop where
  | nil : SameFields [] []
  | cons {j k : Json} {fs gs : List (String × Json)} (name : String) (h : Same j k)
    (hs : SameFields fs gs) :
    SameFields ((name, j) :: fs) ((name, k) :: gs)

end

mutual

theorem Same.refl : ∀ j : Json, Same j j
  | .null => .null
  | .bool b => .bool b
  | .int i => .int i
  | .float bits => .float bits
  | .string s => .string s
  | .array items => .array (SameItems.refl items)
  | .object fields => .object (SameFields.refl fields) (.refl _)

theorem SameItems.refl : ∀ items : List Json, SameItems items items
  | [] => .nil
  | j :: rest => .cons (Same.refl j) (SameItems.refl rest)

theorem SameFields.refl : ∀ fields : List (String × Json), SameFields fields fields
  | [] => .nil
  | (name, j) :: rest => .cons name (Same.refl j) (SameFields.refl rest)

end

mutual

/-- How many containers deep a value goes. -/
def depth : Json → Nat
  | .array items => itemsDepth items + 1
  | .object fields => fieldsDepth fields + 1
  | _ => 0

def itemsDepth : List Json → Nat
  | [] => 0
  | j :: rest => max (depth j) (itemsDepth rest)

def fieldsDepth : List (String × Json) → Nat
  | [] => 0
  | (_, j) :: rest => max (depth j) (fieldsDepth rest)

end

theorem fieldsPlain_iff {fields : List (String × Json)} :
    FieldsPlain fields ↔ ∀ f ∈ fields, f.2.IsPlain := by
  induction fields with
  | nil => simp [FieldsPlain]
  | cons f fields ih => simp [FieldsPlain, ih]

theorem fieldsDepth_le_iff {fields : List (String × Json)} {n : Nat} :
    fieldsDepth fields ≤ n ↔ ∀ f ∈ fields, f.2.depth ≤ n := by
  induction fields with
  | nil => simp [fieldsDepth]
  | cons f fields ih => rw [fieldsDepth, Nat.max_le, ih, List.forall_mem_cons]

mutual

theorem Same.isPlain : ∀ {j k : Json}, Same j k → j.IsPlain → k.IsPlain
  | _, _, .null, h | _, _, .bool _, h | _, _, .int _, h | _, _, .float _, h | _, _, .string _, h => h
  | _, _, .array hs, h => hs.plain h
  | _, _, .object hs hperm, h =>
    fieldsPlain_iff.2 fun f hf => fieldsPlain_iff.1 (hs.plain h) f (hperm.mem_iff.2 hf)

theorem SameItems.plain : ∀ {js ks : List Json}, SameItems js ks → ItemsPlain js → ItemsPlain ks
  | _, _, .nil, h => h
  | _, _, .cons hj hs, h => ⟨hj.isPlain h.1, hs.plain h.2⟩

theorem SameFields.plain :
    ∀ {fs gs : List (String × Json)}, SameFields fs gs → FieldsPlain fs → FieldsPlain gs
  | _, _, .nil, h => h
  | _, _, .cons _ hj hs, h => ⟨hj.isPlain h.1, hs.plain h.2⟩

end

mutual

theorem Same.depth_le : ∀ {j k : Json}, Same j k → k.depth ≤ j.depth
  | _, _, .null | _, _, .bool _ | _, _, .int _ | _, _, .float _ | _, _, .string _ => Nat.le_refl _
  | _, _, .array hs => Nat.succ_le_succ hs.depth_le
  | _, _, .object hs hperm =>
    Nat.succ_le_succ (fieldsDepth_le_iff.2 fun f hf => fieldsDepth_le_iff.1 hs.depth_le f
      (hperm.mem_iff.2 hf))

theorem SameItems.depth_le : ∀ {js ks : List Json}, SameItems js ks → itemsDepth ks ≤ itemsDepth js
  | _, _, .nil => Nat.le_refl _
  | _, _, .cons hj hs => by
    have hhead := hj.depth_le
    have htail := hs.depth_le
    rw [itemsDepth, itemsDepth]
    omega

theorem SameFields.depth_le :
    ∀ {fs gs : List (String × Json)}, SameFields fs gs → fieldsDepth gs ≤ fieldsDepth fs
  | _, _, .nil => Nat.le_refl _
  | _, _, .cons _ hj hs => by
    have hhead := hj.depth_le
    have htail := hs.depth_le
    rw [fieldsDepth, fieldsDepth]
    omega

end

/-! ## Fields by name -/

/-- The fields `hs` are the fields `fs` in some order. -/
structure Holds (fs hs : List (String × Json)) : Prop where
  nodup : (hs.map Prod.fst).Nodup
  given : ∀ f ∈ fs, ∃ k, Same f.2 k ∧ (f.1, k) ∈ hs
  only : ∀ h ∈ hs, ∃ f ∈ fs, f.1 = h.1 ∧ Same f.2 h.2

theorem SameFields.names :
    ∀ {fs gs : List (String × Json)}, SameFields fs gs → gs.map Prod.fst = fs.map Prod.fst
  | _, _, .nil => rfl
  | _, _, .cons name _ hs => by rw [List.map_cons, List.map_cons, hs.names]

theorem SameFields.given : ∀ {fs gs : List (String × Json)}, SameFields fs gs →
    ∀ f ∈ fs, ∃ k, Same f.2 k ∧ (f.1, k) ∈ gs
  | _, _, .nil, _, hf => by cases hf
  | _, _, .cons name hj hs, f, hf => by
    rcases List.mem_cons.1 hf with rfl | hf
    · exact ⟨_, hj, List.mem_cons_self⟩
    · obtain ⟨k, hk, hmem⟩ := hs.given f hf
      exact ⟨k, hk, List.mem_cons_of_mem _ hmem⟩

theorem SameFields.only : ∀ {fs gs : List (String × Json)}, SameFields fs gs →
    ∀ g ∈ gs, ∃ f ∈ fs, f.1 = g.1 ∧ Same f.2 g.2
  | _, _, .nil, _, hg => by cases hg
  | _, _, .cons name hj hs, g, hg => by
    rcases List.mem_cons.1 hg with rfl | hg
    · exact ⟨_, List.mem_cons_self, rfl, hj⟩
    · obtain ⟨f, hf, hsame⟩ := hs.only g hg
      exact ⟨f, List.mem_cons_of_mem _ hf, hsame⟩

/-- An object with the same fields as one in which no name stands twice. -/
theorem holds_of_same {fs : List (String × Json)} {j : Json} (h : Same (.object fs) j)
    (hfs : (fs.map Prod.fst).Nodup) :
    ∃ hs, j = .object hs ∧ Holds fs hs := by
  cases h with
  | @object _ gs hs hsame hperm =>
    refine ⟨hs, rfl, ?_, fun f hf => ?_, fun h hh => hsame.only h (hperm.mem_iff.2 hh)⟩
    · rw [← (hperm.map Prod.fst).nodup_iff, hsame.names]
      exact hfs
    · obtain ⟨k, hk, hmem⟩ := hsame.given f hf
      exact ⟨k, hk, hperm.mem_iff.1 hmem⟩

theorem lookup_of_mem {name : String} {j : Json} :
    ∀ {hs : List (String × Json)}, (hs.map Prod.fst).Nodup →
    (name, j) ∈ hs → lookup name hs = some j
  | (k, v) :: rest, hnodup, hmem => by
    rw [List.map_cons, List.nodup_cons] at hnodup
    rw [lookup]
    rcases List.mem_cons.1 hmem with heq | hmem
    · cases heq
      simp
    · have hne : (k == name) = false := by
        rw [beq_eq_false_iff_ne]
        rintro rfl
        exact hnodup.1 (List.mem_map.2 ⟨_, hmem, rfl⟩)
      rw [hne]
      exact lookup_of_mem hnodup.2 hmem

theorem mem_insertField {name : String} {value : Json} {f : String × Json} :
    ∀ {fs : List (String × Json)},
    name ∉ fs.map Prod.fst → (f ∈ insertField name value fs ↔ f = (name, value) ∨ f ∈ fs)
  | [], _ => by simp [insertField]
  | (k, v) :: rest, h => by
    rw [List.map_cons, List.mem_cons, not_or] at h
    have hne : (name == k) = false := beq_eq_false_iff_ne.2 h.1
    rw [insertField]
    split
    · simp
    · rw [hne]
      simp [mem_insertField h.2, or_left_comm]

theorem Holds.filter {name : String} {value : Json} {fs hs : List (String × Json)}
    (h : Holds (insertField name value fs) hs) (hname : name ∉ fs.map Prod.fst) :
    Holds fs (hs.filter (·.1 != name)) := by
  refine ⟨h.nodup.sublist (List.filter_sublist.map _), fun f hf => ?_, fun g hg => ?_⟩
  · obtain ⟨k, hk, hmem⟩ := h.given f ((mem_insertField hname).2 (.inr hf))
    refine ⟨k, hk, List.mem_filter.2 ⟨hmem, ?_⟩⟩
    rw [bne_iff_ne]
    rintro rfl
    exact hname (List.mem_map.2 ⟨f, hf, rfl⟩)
  · obtain ⟨hg, hne⟩ := List.mem_filter.1 hg
    obtain ⟨f, hf, heq, hsame⟩ := h.only g hg
    rcases (mem_insertField hname).1 hf with rfl | hf
    · rw [bne_iff_ne, ← heq] at hne
      exact absurd rfl hne
    · exact ⟨f, hf, heq, hsame⟩

theorem nodup_insertField {name : String} (value : Json) :
    ∀ {fs : List (String × Json)}, name ∉ fs.map Prod.fst →
    (fs.map Prod.fst).Nodup → ((insertField name value fs).map Prod.fst).Nodup
  | [], _, _ => by simp [insertField]
  | (k, v) :: rest, h, hfs => by
    rw [List.map_cons, List.mem_cons, not_or] at h
    rw [List.map_cons, List.nodup_cons] at hfs
    have hne : (name == k) = false := beq_eq_false_iff_ne.2 h.1
    rw [insertField]
    split
    · simp [h.1, h.2, hfs.1, hfs.2]
    · rw [hne, if_neg Bool.false_ne_true, List.map_cons, List.nodup_cons]
      refine ⟨fun hk => ?_, nodup_insertField value h.2 hfs.2⟩
      obtain ⟨f, hf, hkey⟩ := List.mem_map.1 hk
      rcases (mem_insertField h.2).1 hf with rfl | hf
      · exact h.1 hkey
      · exact hfs.1 (List.mem_map.2 ⟨f, hf, hkey⟩)

end Json

/-! ## Records -/

theorem Tree.ofFields_eq (fs : List (String × Json)) :
    Tree.ofFields fs = fs.map fun f => (.string f.1, .ofJson f.2) := by
  induction fs with
  | nil => rfl
  | cons f fs ih => rw [Tree.ofFields, ih, List.map_cons]

namespace Tree

mutual

theorem isReadable_ofJson : ∀ j : Json, (ofJson j).isReadable = true
  | .null | .bool _ | .int _ | .float _ | .string _ => rfl
  | .array items => itemsReadable_ofItems items
  | .object fields => entriesReadable_ofFields fields

theorem itemsReadable_ofItems : ∀ items : List Json, itemsReadable (ofItems items) = true
  | [] => rfl
  | j :: rest => by rw [ofItems, itemsReadable, isReadable_ofJson j, itemsReadable_ofItems rest]; rfl

theorem entriesReadable_ofFields :
    ∀ fields : List (String × Json), entriesReadable (ofFields fields) = true
  | [] => rfl
  | (k, j) :: rest => by
    rw [ofFields, entriesReadable, isReadable_ofJson j, entriesReadable_ofFields rest]
    rfl

end

mutual

/-- A tree that does not go deep is not cut. -/
theorem limitDepth_ofJson :
    ∀ (j : Json) {room : Nat}, j.depth ≤ room → (ofJson j).limitDepth room = ofJson j
  | .null, _, _ | .bool _, _, _ | .int _, _, _ | .float _, _, _ | .string _, _, _ => rfl
  | .array items, room, h => by
    rw [Json.depth] at h
    obtain ⟨room, rfl⟩ : ∃ r, room = r + 1 := ⟨room - 1, by omega⟩
    rw [ofJson, limitDepth, limitItems_ofItems items (by omega)]
  | .object fields, room, h => by
    rw [Json.depth] at h
    obtain ⟨room, rfl⟩ : ∃ r, room = r + 1 := ⟨room - 1, by omega⟩
    rw [ofJson, limitDepth, limitEntries_ofFields fields (by omega)]

theorem limitItems_ofItems : ∀ (items : List Json) {room : Nat}, Json.itemsDepth items ≤ room →
    limitItems room (ofItems items) = ofItems items
  | [], _, _ => rfl
  | j :: rest, room, h => by
    rw [Json.itemsDepth] at h
    rw [ofItems, limitItems, limitDepth_ofJson j (by omega), limitItems_ofItems rest (by omega)]

theorem limitEntries_ofFields :
    ∀ (fields : List (String × Json)) {room : Nat}, Json.fieldsDepth fields ≤ room →
    limitEntries room (ofFields fields) = ofFields fields
  | [], _, _ => rfl
  | (k, j) :: rest, room, h => by
    rw [Json.fieldsDepth] at h
    rw [ofFields, limitEntries, limitDepth_ofJson j (by omega), limitEntries_ofFields rest (by omega)]

end

end Tree

/-- A decoder takes the value `j` to `a`, in whatever order the fields of objects in it stand. -/
def Decodes {α : Type} (d : Decoder α) (o : Origin) (j : Json) (a : α) : Prop :=
  ∀ k, j.Same k → d o (.ofJson k) = .ok a

/-- Among the entries, there is one for each of the fields `fs` and no other by its name. -/
structure Entries.Gives (es : Entries) (o : Origin) (fs : List (String × Json)) : Prop where
  origin : es.origin = o
  once : ∀ f ∈ fs, ∃ k i, f.2.Same k ∧ Fields.occurrences f.1 0 es.entries = [(i, .ofJson k)]

namespace Fields

variable {α β : Type} {es : Entries} {o : Origin} {fs : List (String × Json)}

theorem map_ok {a : Fields α} {x : α} (f : α → β) (ha : a es = .ok x) : (f <$> a) es = .ok (f x) := by
  show (a es).map f = _
  rw [ha]
  rfl

theorem seq_ok {f : Fields (α → β)} {a : Fields α} {g : α → β} {x : α} (hf : f es = .ok g)
    (ha : a es = .ok x) :
    (f <*> a) es = .ok (g x) := by
  show apply f a es = _
  rw [apply, hf, ha]

/-- A field that is given is decoded. -/
theorem field_ok {name : String} {j : Json} {d : Decoder α} {absent : Entries → Decoded α} {a : α}
    (hes : es.Gives o fs) (hmem : (name, j) ∈ fs) (hd : Decodes d o j a) :
    field name d absent es = .ok a := by
  obtain ⟨k, i, hsame, honce⟩ := hes.once _ hmem
  rw [field, honce, hes.origin]
  dsimp only
  rw [hd k hsame]

theorem occurrences_of_not_mem {name : String} :
    ∀ {hs : List (String × Json)} (i : Nat), name ∉ hs.map Prod.fst →
    occurrences name i (hs.map fun h => ⟨.ok h.1, .ofJson h.2⟩) = []
  | [], _, _ => rfl
  | (k, v) :: rest, i, h => by
    rw [List.map_cons, List.mem_cons, not_or] at h
    have hne : (k == name) = false := beq_eq_false_iff_ne.2 fun he => h.1 he.symm
    rw [List.map_cons, occurrences]
    dsimp only
    rw [hne]
    exact occurrences_of_not_mem (i + 1) h.2

theorem occurrences_of_mem {name : String} {j : Json} : ∀ {hs : List (String × Json)} (i : Nat),
    (hs.map Prod.fst).Nodup → (name, j) ∈ hs →
      ∃ n, occurrences name i (hs.map fun h => ⟨.ok h.1, .ofJson h.2⟩) = [(n, .ofJson j)]
  | (k, v) :: rest, i, hnodup, hmem => by
    rw [List.map_cons, List.nodup_cons] at hnodup
    rw [List.map_cons, occurrences]
    dsimp only
    rcases List.mem_cons.1 hmem with heq | hmem
    · cases heq
      rw [beq_self_eq_true, if_pos rfl, occurrences_of_not_mem _ hnodup.1]
      exact ⟨i, rfl⟩
    · have hne : (k == name) = false := by
        rw [beq_eq_false_iff_ne]
        rintro rfl
        exact hnodup.1 (List.mem_map.2 ⟨_, hmem, rfl⟩)
      rw [hne]
      exact occurrences_of_mem (i + 1) hnodup.2 hmem

end Fields

namespace Record

variable {α : Type} {o : Origin} {record : String} {names : List String} {fields : Fields α} {a : α}
  {fs hs : List (String × Json)}

theorem strayFault_none : ∀ {hs : List (String × Json)} (i : Nat), (∀ h ∈ hs, h.1 ∈ names) →
    strayFault names i (hs.map fun h => ⟨.ok h.1, .ofJson h.2⟩) = none
  | [], _, _ => rfl
  | (k, v) :: rest, i, h => by
    have hk : names.contains k = true := List.contains_iff_mem.2 (h _ List.mem_cons_self)
    rw [List.map_cons, strayFault]
    dsimp only
    rw [hk]
    exact strayFault_none (i + 1) fun g hg => h g (List.mem_cons_of_mem _ hg)

/-- A record is decoded from its fields, in whatever order they stand. -/
theorem decode_of_holds (hholds : Json.Holds fs hs) (hnames : ∀ f ∈ fs, f.1 ∈ names)
    (hfields : ∀ es : Entries, es.Gives o fs → fields es = .ok a) :
    decode record names fields o (.ofJson (.object hs)) = .ok a := by
  have hentries : (Tree.ofFields hs).map (fun e => (⟨fieldName names o e.1, e.2⟩ : Entry)) =
      hs.map fun h => ⟨.ok h.1, .ofJson h.2⟩ := by
    rw [Tree.ofFields_eq, List.map_map]
    rfl
  have hgives : Entries.Gives
      ⟨o, true, record, names, hs.map fun h => ⟨.ok h.1, .ofJson h.2⟩⟩ o fs := by
    refine ⟨rfl, fun f hf => ?_⟩
    obtain ⟨k, hk, hmem⟩ := hholds.given f hf
    obtain ⟨n, hn⟩ := Fields.occurrences_of_mem 0 hholds.nodup hmem
    exact ⟨k, n, hk, hn⟩
  have hstray : strayFault names 0 (hs.map fun h => ⟨.ok h.1, .ofJson h.2⟩) = none := by
    refine strayFault_none 0 fun h hh => ?_
    obtain ⟨f, hf, heq, -⟩ := hholds.only h hh
    exact heq ▸ hnames f hf
  rw [Tree.ofJson]
  unfold decode
  dsimp only
  rw [hentries, hfields _ hgives, hstray]

end Record

end PolicyForge.Data
