import PolicyForge.Proofs.Source.Identifiers
/-!
# Legal names as normal forms

A legal name is its own legal name, so making names legal twice is the same as once
(`legalName_legalName`).  Dotted names are made legal between their dots: two of them with a dot in
between become what each becomes by itself, and what becomes nothing takes its dot with it
(`segments_append`).
-/
namespace PolicyForge.Source

open Text

/-! ## Names without dots -/

section

variable {keep : Char → Bool} {lead : Bool} {name : List Char}

theorem allBlank_of_leads {s : List Char} (h : leads lead s = true) : allBlank s = false := by
  cases s with
  | nil => cases h
  | cons c s =>
    have hc : isBlank c = false := by
      rw [leads, Bool.or_eq_true, Bool.and_eq_true] at h
      rcases h with h | ⟨-, h⟩
      · simp only [isAsciiLetter, Bool.or_eq_true, Bool.and_eq_true, decide_eq_true_eq, Char.le_def,
          UInt32.le_iff_toNat_le] at h
        have ha : ('a' : Char).val.toNat = 97 := rfl
        have hz : ('z' : Char).val.toNat = 122 := rfl
        have hA : ('A' : Char).val.toNat = 65 := rfl
        have hZ : ('Z' : Char).val.toNat = 90 := rfl
        have hval : c.toNat = c.val.toNat := rfl
        simp [isBlank]
        omega
      · rw [beq_iff_eq.1 h]
        decide
    simp [allBlank, hc]

/-- What is kept of a name is legal as it is, or has an underscore in front. -/
theorem legalName_cases (h : allBlank name = false) :
    legalName keep lead name = name.filter keep ∧ leads lead (name.filter keep) = true ∨
      legalName keep lead name = '_' :: name.filter keep ∧
        (leads lead (name.filter keep) && !isReserved (name.filter keep)) = false := by
  unfold legalName
  rw [h]
  by_cases hlegal : (leads lead (name.filter keep) && !isReserved (name.filter keep)) = true
  · refine .inl ⟨by simp [hlegal], ?_⟩
    rw [Bool.and_eq_true] at hlegal
    exact hlegal.1
  · exact .inr ⟨by simp [hlegal], by simpa using hlegal⟩

/-- A word of kept characters that leads and is not reserved is its own legal name. -/
theorem legalName_of_legal {s : List Char} (hkeep : s.filter keep = s) (hleads : leads lead s = true)
    (hfree : isReserved s = false) : legalName keep lead s = s := by
  simp [legalName, allBlank_of_leads hleads, hkeep, hleads, hfree]

theorem legalName_legalName (hkeep : ∀ c, keep c = true → isMemberPart c = true)
    (hlead : keep '_' = lead) (name : List Char) :
    legalName keep lead (legalName keep lead name) = legalName keep lead name := by
  cases h : allBlank name with
  | true =>
    rw [legalName_eq_nil.2 h]
    rfl
  | false =>
    have hfree := (isIdentifier_legalName hkeep hlead h).2.2
    have htwice : (name.filter keep).filter keep = name.filter keep := by simp
    rcases legalName_cases h with ⟨hname, hleads⟩ | ⟨hname, hillegal⟩
    · rw [hname] at hfree ⊢
      exact legalName_of_legal htwice hleads hfree
    · rw [hname] at hfree ⊢
      cases lead with
      | true => exact legalName_of_legal (by rw [List.filter_cons_of_pos hlead, htwice]) rfl hfree
      | false =>
        -- the underscore is dropped, and the rest needs one again
        have hkept : ('_' :: name.filter keep).filter keep = name.filter keep := by
          rw [List.filter_cons_of_neg (by simp [hlead]), htwice]
        have hblank : allBlank ('_' :: name.filter keep) = false :=
          @allBlank_of_leads true _ rfl
        simp [legalName, hblank, hkept, hillegal]

end

theorem typeChars_typeChars (s : List Char) : typeChars (typeChars s) = typeChars s :=
  legalName_legalName (fun _ => isMemberPart_of_isNamePart) (by decide) s

theorem memberChars_memberChars (s : List Char) : memberChars (memberChars s) = memberChars s :=
  legalName_legalName (fun _ hc => hc) (by decide) s

/-- A way of making names legal: a blank text has no legal name, every other one has one, and a
legal name is its own. -/
structure Legalizes (f : String → String) : Prop where
  eq_empty_iff : ∀ s, f s = "" ↔ allBlank s.toList = true
  isIdentifier_iff : ∀ s, IsIdentifier (f s).toList ↔ allBlank s.toList = false
  idempotent : ∀ s, f (f s) = f s

theorem legalizes_ofList {f : List Char → List Char} (hnil : ∀ s, f s = [] ↔ allBlank s = true)
    (hlegal : ∀ s, allBlank s = false → IsIdentifier (f s)) (htwice : ∀ s, f (f s) = f s) :
    Legalizes fun s => String.ofList (f s.toList) := by
  refine ⟨fun s => ?_, fun s => ?_, fun s => ?_⟩
  · rw [← hnil, ← String.toList_eq_nil_iff, String.toList_ofList]
  · rw [String.toList_ofList]
    refine ⟨fun h => ?_, hlegal s.toList⟩
    rw [Bool.eq_false_iff, ne_eq, ← hnil]
    intro hempty
    rw [hempty] at h
    exact absurd h (by decide)
  · simp only [String.toList_ofList, htwice]

theorem legalizes_typeName : Legalizes typeName :=
  legalizes_ofList (fun _ => legalName_eq_nil) (fun _ => isIdentifier_typeChars) typeChars_typeChars

theorem legalizes_memberName : Legalizes memberName :=
  legalizes_ofList (fun _ => legalName_eq_nil) (fun _ => isIdentifier_memberChars)
    memberChars_memberChars

/-! ## Dotted names -/

theorem segments_append (a b : List Char) : segments (a ++ '.' :: b) = segments a ++ segments b := by
  simp [segments, splitOn_append_break (p := (· == '.')) (c := '.') rfl]

theorem namespaceChars_eq_nil {s : List Char} : namespaceChars s = [] ↔ segments s = [] := by
  refine ⟨fun h => ?_, fun h => by rw [namespaceChars, h]; rfl⟩
  have hne : ∀ w ∈ segments s, w ≠ [] := by
    intro w hw
    simpa using (List.mem_filter.1 hw).2
  rw [namespaceChars] at h
  match hs : segments s with
  | [] => rfl
  | [w] =>
    rw [hs] at h
    exact absurd h (hne w (by simp [hs]))
  | w :: v :: ws =>
    rw [hs, join] at h
    · simp at h
    · simp

/-- Cutting a legal path at its dots gives the segments it was made of, and they are legal. -/
theorem segments_namespaceChars (s : List Char) : segments (namespaceChars s) = segments s := by
  by_cases h : segments s = []
  · rw [namespaceChars_eq_nil.2 h, h]
    rfl
  · have hdots : ∀ w ∈ segments s, '.' ∉ w := by
      intro w hw hdot
      obtain ⟨hmap, hne⟩ := List.mem_filter.1 hw
      obtain ⟨t, -, rfl⟩ := List.mem_map.1 hmap
      refine absurd (isMemberPart_of_mem_legalName (fun _ => isMemberPart_of_isNamePart) hdot) ?_
      decide
    have hlegal : (segments s).map typeChars = segments s := by
      conv => rhs; rw [← List.map_id (segments s)]
      refine List.map_congr_left fun w hw => ?_
      obtain ⟨t, -, rfl⟩ := List.mem_map.1 (List.mem_filter.1 hw).1
      exact typeChars_typeChars t
    have htwice : (segments s).filter (!·.isEmpty) = segments s := by
      simp [segments]
    rw [segments, namespaceChars, splitOn_join h hdots, hlegal, htwice]

theorem namespaceName_namespaceName (s : String) :
    namespaceName (namespaceName s) = namespaceName s := by
  simp only [namespaceName, String.toList_ofList]
  rw [namespaceChars, segments_namespaceChars, ← namespaceChars]

/-- A dot separates what the parts beside it become; a part that becomes nothing goes with its dot. -/
theorem namespaceChars_append (a b : List Char) : namespaceChars (a ++ '.' :: b) =
    join ['.'] ([namespaceChars a, namespaceChars b].filter (!·.isEmpty)) := by
  have hjoin : ∀ s, join ['.'] (segments s) = namespaceChars s := fun _ => rfl
  have hempty : ∀ s, (namespaceChars s).isEmpty = (segments s).isEmpty := fun s =>
    Bool.eq_iff_iff.2 (by simp [namespaceChars_eq_nil])
  rw [← hjoin, segments_append]
  by_cases ha : segments a = []
  · rw [ha, List.nil_append, hjoin]
    by_cases hb : segments b = []
    · simp [hempty, ha, join, namespaceChars_eq_nil.2 hb]
    · simp [hempty, ha, hb, join]
  · by_cases hb : segments b = []
    · rw [hb, List.append_nil, hjoin]
      simp [hempty, ha, hb, join]
    · rw [join_append _ ha hb, hjoin, hjoin]
      simp [hempty, ha, hb, join]

theorem map_toList_filter (ws : List String) :
    (ws.filter (· ≠ "")).map String.toList = (ws.map String.toList).filter (!·.isEmpty) := by
  have hempty : ∀ w : String, decide (w ≠ "") = !w.toList.isEmpty := fun w =>
    Bool.eq_iff_iff.2 (by simp)
  simp only [List.filter_map, Function.comp_def, hempty]

theorem namespaceName_append (a b : String) : namespaceName (a ++ "." ++ b) =
    ".".intercalate ([namespaceName a, namespaceName b].filter (· ≠ "")) := by
  have hdot : (a ++ "." ++ b).toList = a.toList ++ '.' :: b.toList := by simp
  rw [← String.toList_inj, toList_namespaceName, hdot, namespaceChars_append, String.toList_intercalate,
    map_toList_filter, join_eq_intercalate]
  simp

/-- What stands between the dots of a text. -/
structure IsCut (s : String) (ws : List String) : Prop where
  joined : s = ".".intercalate ws
  nonempty : ws ≠ []
  dotless : ∀ w ∈ ws, '.' ∉ w.toList

theorem exists_isCut (s : String) : ∃ ws, IsCut s ws := by
  have hback : ((splitOn (· == '.') s.toList).map String.ofList).map String.toList =
      splitOn (· == '.') s.toList := by
    simp [Function.comp_def]
  refine ⟨(splitOn (· == '.') s.toList).map String.ofList, ?_, by simp [splitOn_ne_nil], ?_⟩
  · rw [← String.toList_inj, String.toList_intercalate, hback]
    exact ((join_eq_intercalate _ _).symm.trans (join_splitOn '.' s.toList)).symm
  · intro w hw hdot
    obtain ⟨t, ht, rfl⟩ := List.mem_map.1 hw
    rw [String.toList_ofList] at hdot
    exact absurd (not_of_mem_splitOn s.toList t ht '.' hdot) (by decide)

section

variable {s : String} {ws : List String}

theorem IsCut.splitOn_eq (h : IsCut s ws) : splitOn (· == '.') s.toList = ws.map String.toList := by
  have hjoin : s.toList = join ['.'] (ws.map String.toList) := by
    rw [h.joined, String.toList_intercalate, join_eq_intercalate]
    rfl
  rw [hjoin]
  refine splitOn_join (by simpa using h.nonempty) fun t ht => ?_
  obtain ⟨w, hw, rfl⟩ := List.mem_map.1 ht
  exact h.dotless w hw

/-- What is left of the pieces of a name, made legal one by one. -/
theorem IsCut.segments_eq (h : IsCut s ws) :
    segments s.toList = ((ws.map typeName).filter (· ≠ "")).map String.toList := by
  rw [segments, h.splitOn_eq, map_toList_filter, List.map_map, List.map_map]
  simp [Function.comp_def]

theorem IsCut.namespaceName_eq (h : IsCut s ws) :
    namespaceName s = ".".intercalate ((ws.map typeName).filter (· ≠ "")) := by
  rw [← String.toList_inj, toList_namespaceName, namespaceChars, h.segments_eq, join_eq_intercalate,
    String.toList_intercalate]
  rfl

theorem IsCut.namespaceName_eq_empty (h : IsCut s ws) :
    namespaceName s = "" ↔ ∀ w ∈ ws, allBlank w.toList = true := by
  rw [← String.toList_eq_nil_iff, toList_namespaceName, namespaceChars_eq_nil, h.segments_eq]
  simp [legalizes_typeName.eq_empty_iff]

end

/-- **Made legal, a name is legal and stays what it is.**  Between its dots a dotted name is made
legal like a type, and what is left of two names with a dot between them is what is left of each. -/
theorem names_legalize (s a b : String) : Legalizes typeName ∧ Legalizes memberName ∧
    (∃ ws, IsCut s ws ∧ namespaceName s = ".".intercalate ((ws.map typeName).filter (· ≠ "")) ∧
      (∀ w ∈ ws, typeName w ≠ "" → IsIdentifier (typeName w).toList) ∧
      (namespaceName s = "" ↔ ∀ w ∈ ws, allBlank w.toList = true)) ∧
    namespaceName (namespaceName s) = namespaceName s ∧
    namespaceName (a ++ "." ++ b) =
      ".".intercalate ([namespaceName a, namespaceName b].filter (· ≠ "")) := by
  obtain ⟨ws, hcut⟩ := exists_isCut s
  exact ⟨legalizes_typeName, legalizes_memberName,
    ⟨ws, hcut, hcut.namespaceName_eq, fun w _ => isIdentifier_typeName, hcut.namespaceName_eq_empty⟩,
    namespaceName_namespaceName s, namespaceName_append a b⟩

end PolicyForge.Source
