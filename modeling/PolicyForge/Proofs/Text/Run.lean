import PolicyForge.Text.Category
/-!
# Runs of characters

A run of characters of one sort ends where another sort begins, so what stands before and after the
end of a run is settled by the whole text.  The figures of a number are a run of ASCII digits; an ASCII
digit is a digit of every kind and no letter.
-/
namespace PolicyForge.Text

section

variable {α : Type} {p : α → Bool} {s t r r' : List α}

theorem takeWhile_run (hs : ∀ x ∈ s, p x = true) (hr : ∀ c ∈ r.head?, p c = false) :
    (s ++ r).takeWhile p = s := by
  rw [List.takeWhile_append_of_pos hs]
  cases r with
  | nil => simp
  | cons c r => simp [hr c rfl]

theorem dropWhile_run (hs : ∀ x ∈ s, p x = true) (hr : ∀ c ∈ r.head?, p c = false) :
    (s ++ r).dropWhile p = r := by
  rw [List.dropWhile_append_of_pos hs]
  cases r with
  | nil => rfl
  | cons c r => simp [hr c rfl]

theorem head?_dropWhile (p : α → Bool) (s : List α) : ∀ c ∈ (s.dropWhile p).head?, p c = false := by
  intro c hc
  have hnot := List.head?_dropWhile_not p s
  rw [Option.mem_def.1 hc] at hnot
  simpa using hnot

theorem run_inj (hs : ∀ x ∈ s, p x = true) (ht : ∀ x ∈ t, p x = true)
    (hr : ∀ c ∈ r.head?, p c = false) (hr' : ∀ c ∈ r'.head?, p c = false) (h : s ++ r = t ++ r') :
    s = t ∧ r = r' := by
  have htake := congrArg (List.takeWhile p) h
  have hdrop := congrArg (List.dropWhile p) h
  rw [takeWhile_run hs hr, takeWhile_run ht hr'] at htake
  rw [dropWhile_run hs hr, dropWhile_run ht hr'] at hdrop
  exact ⟨htake, hdrop⟩

end

/-! ## Up to the first of a character -/

section

variable {d : Char} {s t r r' : List Char}

theorem takeWhile_until (h : d ∉ s) : (s ++ d :: r).takeWhile (· != d) = s :=
  takeWhile_run (fun _ hc => bne_iff_ne.2 fun he => h (he ▸ hc)) (by simp)

theorem dropWhile_until (h : d ∉ s) : (s ++ d :: r).dropWhile (· != d) = d :: r :=
  dropWhile_run (fun _ hc => bne_iff_ne.2 fun he => h (he ▸ hc)) (by simp)

theorem until_inj (hs : d ∉ s) (ht : d ∉ t) (h : s ++ d :: r = t ++ d :: r') : s = t ∧ r = r' := by
  have htake := congrArg (List.takeWhile (· != d)) h
  have hdrop := congrArg (List.dropWhile (· != d)) h
  rw [takeWhile_until hs, takeWhile_until ht] at htake
  rw [dropWhile_until hs, dropWhile_until ht] at hdrop
  exact ⟨htake, (List.cons.inj hdrop).2⟩

theorem not_mem_takeWhile_until (d : Char) : ∀ (s : List Char), d ∉ s.takeWhile (· != d)
  | [] => by simp
  | c :: s => by
    by_cases hc : c = d
    · simp [hc]
    · simp [hc, Ne.symm hc, not_mem_takeWhile_until d s]

end

/-! ## Digits and letters -/

theorem toNat_of_isAsciiDigit {c : Char} (h : isAsciiDigit c = true) : 48 ≤ c.toNat ∧ c.toNat ≤ 57 := by
  simpa [isAsciiDigit, Char.le_def, UInt32.le_iff_toNat_le] using h

theorem isAscii_of_isAsciiDigit {c : Char} (h : isAsciiDigit c = true) : isAscii c = true := by
  have hrange := toNat_of_isAsciiDigit h
  rw [isAscii, decide_eq_true_eq]
  omega

theorem isDigit_of_isAsciiDigit {c : Char} (h : isAsciiDigit c = true) : isDigit c = true := by
  rw [isDigit, isAscii_of_isAsciiDigit h, if_pos rfl, h]

theorem isNamePart_of_isAsciiDigit {c : Char} (h : isAsciiDigit c = true) : isNamePart c = true := by
  rw [isNamePart, isAscii_of_isAsciiDigit h, if_pos rfl, h, Bool.or_true]

theorem isAsciiLetter_of_isAsciiDigit {c : Char} (h : isAsciiDigit c = true) :
    isAsciiLetter c = false := by
  have hrange := toNat_of_isAsciiDigit h
  rw [Bool.eq_false_iff]
  intro hletter
  simp [isAsciiLetter, Char.le_def, UInt32.le_iff_toNat_le] at hletter
  have hval : c.toNat = c.val.toNat := rfl
  omega

/-! ## Figures -/

theorem toList_toString (n : Nat) : (toString n).toList = Nat.toDigits 10 n := by
  rw [Nat.toString_eq_ofList_toDigits, String.toList_ofList]

theorem isAsciiDigit_eq_isDigit (c : Char) : isAsciiDigit c = c.isDigit := by
  simp [isAsciiDigit, Char.isDigit, Char.le_def]

theorem isAsciiDigit_of_mem_toDigits {n : Nat} {c : Char} (hc : c ∈ Nat.toDigits 10 n) :
    isAsciiDigit c = true := by
  rw [isAsciiDigit_eq_isDigit]
  exact Nat.isDigit_of_mem_toDigits (by omega) (by omega) hc

theorem toDigits_inj {m n : Nat} (h : Nat.toDigits 10 m = Nat.toDigits 10 n) : m = n := by
  rw [← Nat.ofDigitChars_ten_toDigits (n := m), h, Nat.ofDigitChars_ten_toDigits]

end PolicyForge.Text
