import Mathlib.Algebra.Group.Nat.Defs
import PolicyForge.Proofs.Text.Run
/-!
# Numbers and their figures

Figures without a superfluous zero are the ones that their value is written in
(`toDigits_ofDigitChars`), so text and value determine each other.  How two values compare can be read
off the figures: more of them are more, unless they start with a zero (`ofDigitChars_lt_of_length_lt`),
and equally many compare from the left (`ofDigitChars_cons_lt`).
-/
namespace PolicyForge.Text

/-- Figures that are written with a zero in front only if the zero is all there is. -/
def IsTight (ds : List Char) : Prop := ds.head? = some '0' → ds = ['0']

instance (ds : List Char) : Decidable (IsTight ds) := inferInstanceAs (Decidable (_ → _))

/-- A number starts with a zero only if it is zero. -/
theorem toDigits_cases (n : Nat) : (n = 0 ∧ Nat.toDigits 10 n = ['0']) ∨
    ∃ d ds, Nat.toDigits 10 n = d :: ds ∧ d ≠ '0' := by
  induction n using Nat.strongRecOn with
  | ind n ih =>
    have hdigit : ∀ d < 10, d = 0 ∨ Nat.digitChar d ≠ '0' := by decide
    rw [Nat.toDigits_eq_if (by omega)]
    split
    · rename_i hn
      rcases hdigit n hn with rfl | hne
      · exact .inl ⟨rfl, rfl⟩
      · exact .inr ⟨_, [], rfl, hne⟩
    · rcases ih (n / 10) (by omega) with ⟨hzero, -⟩ | ⟨d, ds, hds, hne⟩
      · omega
      · exact .inr ⟨d, ds ++ [Nat.digitChar (n % 10)], by rw [hds, List.cons_append], hne⟩

theorem digitChar_of_isAsciiDigit {c : Char} (h : isAsciiDigit c = true) :
    Nat.digitChar (c.toNat - '0'.toNat) = c := by
  have hrange := toNat_of_isAsciiDigit h
  have hzero : '0'.toNat = 48 := rfl
  apply Char.toNat_inj.mp
  rw [hzero, Nat.toNat_digitChar_of_lt_ten (by omega)]
  omega

theorem one_le_value {c : Char} (h : isAsciiDigit c = true) (hne : c ≠ '0') :
    1 ≤ c.toNat - '0'.toNat := by
  have hrange := toNat_of_isAsciiDigit h
  have hzero : '0'.toNat = 48 := rfl
  have hcode : c.toNat ≠ '0'.toNat := fun he => hne (Char.toNat_inj.mp he)
  omega

theorem value_le_nine {c : Char} (h : isAsciiDigit c = true) : c.toNat - '0'.toNat ≤ 9 := by
  have hrange := toNat_of_isAsciiDigit h
  have hzero : '0'.toNat = 48 := rfl
  omega

/-- Further figures are written behind those of a number that is not zero. -/
theorem toDigits_append_figures {n : Nat} (hn : 0 < n) :
    ∀ {ds : List Char}, (∀ c ∈ ds, isAsciiDigit c = true) →
    Nat.toDigits 10 n ++ ds = Nat.toDigits 10 (Nat.ofDigitChars 10 ds n)
  | [], _ => by rw [List.append_nil, Nat.ofDigitChars_nil]
  | c :: ds, h => by
    have hc := h c List.mem_cons_self
    have hdigit : c.toNat - '0'.toNat < 10 := Nat.lt_succ_of_le (value_le_nine hc)
    have hstep : Nat.toDigits 10 n ++ [c] = Nat.toDigits 10 (10 * n + (c.toNat - '0'.toNat)) := by
      rw [← Nat.toDigits_append_toDigits (by omega) hn hdigit, Nat.toDigits_of_lt_base hdigit,
        digitChar_of_isAsciiDigit hc]
    rw [Nat.ofDigitChars_cons,
      ← toDigits_append_figures (by omega) fun d hd => h d (List.mem_cons_of_mem c hd), ← hstep,
      List.append_assoc, List.singleton_append]

/-- **Figures without a superfluous zero are how their value is written.** -/
theorem toDigits_ofDigitChars {ds : List Char} (hne : ds ≠ []) (h : ∀ c ∈ ds, isAsciiDigit c = true)
    (ht : IsTight ds) :
    Nat.toDigits 10 (Nat.ofDigitChars 10 ds 0) = ds := by
  cases ds with
  | nil => exact absurd rfl hne
  | cons c ds =>
    by_cases hc : c = '0'
    · rw [ht (congrArg some hc)]
      rfl
    · have hfigure := h c List.mem_cons_self
      have hdigit : c.toNat - '0'.toNat < 10 := Nat.lt_succ_of_le (value_le_nine hfigure)
      rw [Nat.ofDigitChars_cons, Nat.mul_zero, Nat.zero_add,
        ← toDigits_append_figures (one_le_value hfigure hc) fun d hd => h d (List.mem_cons_of_mem c hd),
        Nat.toDigits_of_lt_base hdigit, digitChar_of_isAsciiDigit hfigure]
      rfl

/-! ## Values in order -/

theorem ofDigitChars_lt_pow : ∀ {ds : List Char}, (∀ c ∈ ds, isAsciiDigit c = true) →
    Nat.ofDigitChars 10 ds 0 < 10 ^ ds.length
  | [], _ => by simp
  | c :: ds, h => by
    have ih := ofDigitChars_lt_pow fun d hd => h d (List.mem_cons_of_mem c hd)
    have hle := Nat.mul_le_mul_left (10 ^ ds.length) (value_le_nine (h c List.mem_cons_self))
    rw [Nat.ofDigitChars_cons, Nat.mul_zero, Nat.zero_add, Nat.ofDigitChars_eq_ofDigitChars_zero,
      List.length_cons, Nat.pow_succ]
    omega

/-- Of figures equally many, the first that differ decide. -/
theorem ofDigitChars_cons_lt {c d : Char} {ds es : List Char} (hds : ∀ x ∈ ds, isAsciiDigit x = true)
    (hc : isAsciiDigit c = true) (hlength : ds.length = es.length) (hlt : c.toNat < d.toNat) :
    Nat.ofDigitChars 10 (c :: ds) 0 < Nat.ofDigitChars 10 (d :: es) 0 := by
  have hzero : '0'.toNat = 48 := rfl
  have hrange := toNat_of_isAsciiDigit hc
  have hbound := ofDigitChars_lt_pow hds
  have hdigit : c.toNat - '0'.toNat + 1 ≤ d.toNat - '0'.toNat := by omega
  have hle := Nat.mul_le_mul_left (10 ^ ds.length) hdigit
  rw [Nat.mul_add, Nat.mul_one] at hle
  simp only [Nat.ofDigitChars_cons, Nat.mul_zero, Nat.zero_add]
  rw [Nat.ofDigitChars_eq_ofDigitChars_zero (l := ds),
    Nat.ofDigitChars_eq_ofDigitChars_zero (l := es), ← hlength]
  omega

/-- More figures are more, unless they start with a zero. -/
theorem ofDigitChars_lt_of_length_lt {ds es : List Char} (hds : ∀ c ∈ ds, isAsciiDigit c = true)
    (hes : ∀ c ∈ es, isAsciiDigit c = true) (hhead : es.head? ≠ some '0')
    (hlength : ds.length < es.length) :
    Nat.ofDigitChars 10 ds 0 < Nat.ofDigitChars 10 es 0 := by
  cases es with
  | nil => exact absurd hlength (Nat.not_lt_zero _)
  | cons e es =>
    have hvalue : 1 ≤ e.toNat - '0'.toNat :=
      one_le_value (hes e List.mem_cons_self) fun he => hhead (congrArg some he)
    have hlead := Nat.mul_le_mul_left (10 ^ es.length) hvalue
    have hpow : 10 ^ ds.length ≤ 10 ^ es.length :=
      Nat.pow_le_pow_right (by omega) (Nat.le_of_lt_succ (by simpa using hlength))
    have hbound := ofDigitChars_lt_pow hds
    rw [Nat.ofDigitChars_cons, Nat.mul_zero, Nat.zero_add,
      Nat.ofDigitChars_eq_ofDigitChars_zero (l := es)]
    omega

end PolicyForge.Text
