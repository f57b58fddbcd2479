import PolicyForge.Proofs.Source.Names
/-!
# Legal identifiers

A name that is not blank becomes a legal identifier.  The suffixes of properties and of enumerations
keep an identifier legal, and with one of them even a blank name becomes legal.
-/
namespace PolicyForge.Source

open Text

/-- An underscore or a letter with characters of names after it, and no reserved word. -/
def IsIdentifier (s : List Char) : Prop :=
  leads true s = true ∧ (∀ c ∈ s, isMemberPart c = true) ∧ isReserved s = false

/-- Looks at the characters that are there, not at all characters. -/
instance : DecidablePred IsIdentifier := fun s =>
  decidable_of_decidable_of_iff
    (p := (leads true s && s.all isMemberPart && !isReserved s) = true)
    (by simp [IsIdentifier, and_assoc])

theorem leads_of_leads {lead : Bool} {s : List Char} (h : leads lead s = true) :
    leads true s = true := by
  cases s with
  | nil => cases h
  | cons c s =>
    rw [leads, Bool.or_eq_true] at h ⊢
    rcases h with h | h
    · exact .inl h
    · rw [Bool.and_eq_true] at h
      exact .inr h.2

/-- An underscore in front makes a word reserved only if another one follows, and then the rest is a
legal name already. -/
theorem of_isReserved_underscore {s : List Char} (h : isReserved ('_' :: s) = true) :
    s.head? = some '_' ∧ isReserved s = false := by
  have hall : reservedWords.all (fun r => r.toList.head? != some '_' ||
      r.toList.tail.head? == some '_' && !isReserved r.toList.tail) = true := by decide
  obtain ⟨r, hr, hrs⟩ := List.any_eq_true.1 h
  have hword := List.all_eq_true.1 hall r hr
  rw [beq_iff_eq.1 hrs] at hword
  simpa using hword

/-- What is kept of a name is a legal identifier, if need be with an underscore in front. -/
theorem isIdentifier_legalName {keep : Char → Bool} {lead : Bool} {name : List Char}
    (hkeep : ∀ c, keep c = true → isMemberPart c = true) (hlead : keep '_' = lead)
    (h : allBlank name = false) : IsIdentifier (legalName keep lead name) := by
  refine ⟨?_, fun c => isMemberPart_of_mem_legalName hkeep, ?_⟩
  · rw [legalName, h]
    simp only [Bool.false_eq_true, if_false]
    split
    · rename_i hlegal
      rw [Bool.and_eq_true] at hlegal
      exact leads_of_leads hlegal.1
    · rfl
  · rw [legalName, h]
    simp only [Bool.false_eq_true, if_false]
    split
    · rename_i hlegal
      rw [Bool.and_eq_true, Bool.not_eq_true'] at hlegal
      exact hlegal.2
    · rename_i hillegal
      refine Bool.eq_false_iff.2 fun hreserved => ?_
      -- then the rest is legal by itself, and nothing would have been put in front of it
      obtain ⟨hhead, hrest⟩ := of_isReserved_underscore hreserved
      obtain ⟨t, ht⟩ := List.head?_eq_some_iff.1 hhead
      have hkept : keep '_' = true := by
        have hmem : '_' ∈ name.filter keep := ht ▸ List.mem_cons_self
        exact (List.mem_filter.1 hmem).2
      rw [ht] at hillegal hrest
      rw [hrest, ← hlead, hkept] at hillegal
      exact hillegal rfl

theorem isIdentifier_typeChars {name : List Char} (h : allBlank name = false) :
    IsIdentifier (typeChars name) :=
  isIdentifier_legalName (fun _ => isMemberPart_of_isNamePart) (by decide) h

theorem isIdentifier_memberChars {name : List Char} (h : allBlank name = false) :
    IsIdentifier (memberChars name) :=
  isIdentifier_legalName (fun _ hc => hc) (by decide) h

/-- The empty text is no identifier, so that a blank name has no legal one. -/
theorem isIdentifier_memberChars_iff {name : List Char} :
    IsIdentifier (memberChars name) ↔ allBlank name = false := by
  refine ⟨fun h => ?_, isIdentifier_memberChars⟩
  refine Bool.eq_false_iff.2 fun hblank => ?_
  rw [memberChars, legalName_eq_nil.2 hblank] at h
  exact absurd h (by decide)

theorem typeChars_eq_nil_or_isIdentifier (name : List Char) :
    typeChars name = [] ∨ IsIdentifier (typeChars name) := by
  cases h : allBlank name with
  | true => exact .inl (legalName_eq_nil.2 h)
  | false => exact .inr (isIdentifier_typeChars h)

theorem memberChars_eq_nil_or_isIdentifier (name : List Char) :
    memberChars name = [] ∨ IsIdentifier (memberChars name) := by
  cases h : allBlank name with
  | true => exact .inl (legalName_eq_nil.2 h)
  | false => exact .inr (isIdentifier_memberChars h)

/-- A legal suffix that ends no reserved word. -/
theorem isIdentifier_append {s suffix : List Char} (hs : s = [] ∨ IsIdentifier s)
    (hsuffix : IsIdentifier suffix)
    (hwords : reservedWords.all (fun r => !suffix.isSuffixOf r.toList) = true) :
    IsIdentifier (s ++ suffix) := by
  rcases hs with rfl | ⟨hleads, hpart, -⟩
  · exact hsuffix
  refine ⟨?_, fun c hc => ?_, ?_⟩
  · cases s with
    | nil => cases hleads
    | cons c s => exact hleads
  · rcases List.mem_append.1 hc with hc | hc
    · exact hpart c hc
    · exact hsuffix.2.1 c hc
  · refine Bool.eq_false_iff.2 fun hreserved => ?_
    obtain ⟨r, hr, hrs⟩ := List.any_eq_true.1 hreserved
    have hword := List.all_eq_true.1 hwords r hr
    rw [beq_iff_eq.1 hrs, List.isSuffixOf_iff_suffix.2 (List.suffix_append s suffix)] at hword
    cases hword

theorem isIdentifier_property (id : String) :
    IsIdentifier (memberName id ++ "Element").toList := by
  rw [String.toList_append, toList_memberName]
  exact isIdentifier_append (memberChars_eq_nil_or_isIdentifier _) (by decide) (by decide)

theorem isIdentifier_option (id : String) : IsIdentifier (typeName id ++ "Option").toList := by
  rw [String.toList_append, toList_typeName]
  exact isIdentifier_append (typeChars_eq_nil_or_isIdentifier _) (by decide) (by decide)

theorem isIdentifier_typeName {name : String} (h : typeName name ≠ "") :
    IsIdentifier (typeName name).toList := by
  rw [toList_typeName]
  refine (typeChars_eq_nil_or_isIdentifier _).resolve_left fun hnil => h ?_
  rw [typeName, hnil]

/-- No identifier is a reserved word. -/
theorem IsIdentifier.ne {s : String} (h : IsIdentifier s.toList) {word : String}
    (hword : word ∈ reservedWords) : s ≠ word := by
  rintro rfl
  have hreserved : isReserved s.toList = true :=
    List.any_eq_true.2 ⟨s, hword, beq_self_eq_true _⟩
  rw [h.2.2] at hreserved
  cases hreserved

end PolicyForge.Source
