import PolicyForge.Framework.Version
import PolicyForge.Proofs.Text.Run
/-!
# Versions by their text

Of the versions that hold nothing but identifiers and dots in their pre-release and their build metadata
no two have the same text (`text_inj`), and the text holds no character that means anything in a path.
-/
namespace PolicyForge.Version

open Text

/-- A character of a pre-release or of build metadata. -/
def isLabelChar (c : Char) : Bool := isIdentifierChar c || c == '.'

/-- A version as versions are spelled: its labels hold identifiers and dots. -/
structure IsSpelled (v : Version) : Prop where
  pre : ∀ c ∈ v.pre.toList, isLabelChar c = true
  build : ∀ c ∈ v.build.toList, isLabelChar c = true

instance (v : Version) : Decidable v.IsSpelled :=
  decidable_of_iff (v.pre.toList.all isLabelChar = true ∧ v.build.toList.all isLabelChar = true)
    ⟨fun h => ⟨List.all_eq_true.1 h.1, List.all_eq_true.1 h.2⟩,
      fun h => ⟨List.all_eq_true.2 h.pre, List.all_eq_true.2 h.build⟩⟩

/-! ## The text in parts -/

/-- A label with the mark before it, if there is one. -/
def marked (mark : Char) (label : String) : List Char :=
  if label.isEmpty then [] else mark :: label.toList

theorem toList_text (v : Version) : v.text.toList = Nat.toDigits 10 v.major ++ '.' ::
    (Nat.toDigits 10 v.minor ++ '.' ::
      (Nat.toDigits 10 v.patch ++ (marked '-' v.pre ++ marked '+' v.build))) := by
  have hlabel : ∀ (mark : String) (label : String) (m : Char), mark.toList = [m] →
      (if label.isEmpty then "" else mark ++ label).toList = marked m label := by
    intro mark label m hm
    unfold marked
    split
    · rfl
    · rw [String.toList_append, hm]
      rfl
  simp only [text, String.toList_append, toList_toString, hlabel "-" v.pre '-' rfl,
    hlabel "+" v.build '+' rfl, List.append_assoc]
  rfl

theorem head?_marked (mark : Char) (label : String) : ∀ c ∈ (marked mark label).head?, c = mark := by
  unfold marked
  split <;> simp

theorem head?_labels {v : Version} :
    ∀ c ∈ (marked '-' v.pre ++ marked '+' v.build).head?, c = '-' ∨ c = '+' := by
  intro c hc
  rw [List.head?_append, Option.mem_def, Option.or_eq_some_iff] at hc
  rcases hc with hc | ⟨-, hc⟩
  · exact .inl (head?_marked _ _ c hc)
  · exact .inr (head?_marked _ _ c hc)

theorem marked_inj {mark : Char} {l l' : String} (h : marked mark l = marked mark l') : l = l' := by
  unfold marked at h
  split at h <;> split at h
  · simp_all
  · cases h
  · cases h
  · exact String.toList_inj.1 (List.cons.inj h).2

theorem isLabelChar_plus : isLabelChar '+' = false := by decide

theorem labels_inj {v w : Version} (hv : v.IsSpelled) (hw : w.IsSpelled)
    (h : marked '-' v.pre ++ marked '+' v.build = marked '-' w.pre ++ marked '+' w.build) :
    v.pre = w.pre ∧ v.build = w.build := by
  -- a label and the mark before it hold no plus sign, which is what the build metadata start with
  have hrun : ∀ {u : Version}, u.IsSpelled → ∀ c ∈ marked '-' u.pre, (c != '+') = true := by
    intro u hu c hc
    unfold marked at hc
    split at hc
    · cases hc
    · rcases List.mem_cons.1 hc with rfl | hc
      · decide
      · rw [bne_iff_ne]
        rintro rfl
        exact absurd (hu.pre _ hc) (by rw [isLabelChar_plus]; decide)
  have hhead : ∀ u : Version, ∀ c ∈ (marked '+' u.build).head?, (c != '+') = false := by
    intro u c hc
    rw [head?_marked _ _ c hc]
    decide
  obtain ⟨hpre, hbuild⟩ := run_inj (hrun hv) (hrun hw) (hhead v) (hhead w) h
  exact ⟨marked_inj hpre, marked_inj hbuild⟩

/-- **Different versions have different texts**, also where only a label tells them apart. -/
theorem text_inj {v w : Version} (hv : v.IsSpelled) (hw : w.IsSpelled) (h : v.text = w.text) : v = w := by
  have hchars := congrArg String.toList h
  rw [toList_text, toList_text] at hchars
  have hdot : ∀ r : List Char, ∀ c ∈ ('.' :: r).head?, isAsciiDigit c = false := by
    rintro r c ⟨⟩
    decide
  have hlabels : ∀ u : Version, ∀ c ∈ (marked '-' u.pre ++ marked '+' u.build).head?,
      isAsciiDigit c = false := by
    intro u c hc
    rcases head?_labels c hc with rfl | rfl <;> decide
  have hdigits : ∀ n, ∀ c ∈ Nat.toDigits 10 n, isAsciiDigit c = true :=
    fun n c => isAsciiDigit_of_mem_toDigits
  obtain ⟨hmajor, hrest⟩ := run_inj (hdigits _) (hdigits _) (hdot _) (hdot _) hchars
  obtain ⟨hminor, hrest⟩ := run_inj (hdigits _) (hdigits _) (hdot _) (hdot _) (List.cons.inj hrest).2
  obtain ⟨hpatch, hrest⟩ :=
    run_inj (hdigits _) (hdigits _) (hlabels v) (hlabels w) (List.cons.inj hrest).2
  obtain ⟨hpre, hbuild⟩ := labels_inj hv hw hrest
  cases v
  cases w
  simp only [Version.mk.injEq]
  exact ⟨toDigits_inj hmajor, toDigits_inj hminor, toDigits_inj hpatch, hpre, hbuild⟩

/-- A text of a version holds digits, labels and the marks between them. -/
theorem mem_text {v : Version} (hv : v.IsSpelled) {c : Char} (hc : c ∈ v.text.toList) :
    isLabelChar c = true ∨ c = '+' := by
  have hdigit : ∀ n, c ∈ Nat.toDigits 10 n → isLabelChar c = true := by
    intro n hn
    simp [isLabelChar, isIdentifierChar, isAsciiDigit_of_mem_toDigits hn]
  have hdot : c = '.' → isLabelChar c = true := by
    rintro rfl
    decide
  have hpre : c ∈ marked '-' v.pre → isLabelChar c = true := by
    unfold marked
    split
    · nofun
    · intro h
      rcases List.mem_cons.1 h with rfl | h
      · decide
      · exact hv.pre c h
  have hbuild : c ∈ marked '+' v.build → isLabelChar c = true ∨ c = '+' := by
    unfold marked
    split
    · nofun
    · intro h
      rcases List.mem_cons.1 h with rfl | h
      · exact .inr rfl
      · exact .inl (hv.build c h)
  rw [toList_text] at hc
  simp only [List.mem_append, List.mem_cons] at hc
  rcases hc with h | h | h | h | h | h | h
  · exact .inl (hdigit _ h)
  · exact .inl (hdot h)
  · exact .inl (hdigit _ h)
  · exact .inl (hdot h)
  · exact .inl (hdigit _ h)
  · exact .inl (hpre h)
  · exact hbuild h

end PolicyForge.Version
