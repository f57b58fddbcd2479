import PolicyForge.Data.Json.Reader
import PolicyForge.Framework.Version
import PolicyForge.Host.Unique
/-!
# Made-up names are different

A made-up name is read back as the number it was made from, so no two numbers share one
(`identifierOf_inj`).  Its characters are those of an identifier.
-/
namespace PolicyForge

open Data.Json (hexValue)

namespace Text

def hexNumber (cs : List Char) : Nat := cs.foldl (fun n c => n * 16 + (hexValue c).getD 0) 0

theorem hexValue_digitChar : ∀ d < 16, hexValue (Nat.digitChar d) = some d := by decide

theorem hexDigits_eq (n : Nat) :
    hexDigits n = if n < 16 then [Nat.digitChar n] else hexDigits (n / 16) ++ [Nat.digitChar (n % 16)] :=
  Nat.toDigits_eq_if (by omega)

theorem hexNumber_append (cs : List Char) (c : Char) :
    hexNumber (cs ++ [c]) = hexNumber cs * 16 + (hexValue c).getD 0 := by
  simp [hexNumber]

theorem hexNumber_hexDigits (n : Nat) : hexNumber (hexDigits n) = n := by
  induction n using Nat.strongRecOn with
  | ind n ih =>
    rw [hexDigits_eq]
    split
    · rename_i hn
      simp [hexNumber, hexValue_digitChar n hn]
    · rw [hexNumber_append, ih (n / 16) (by omega), hexValue_digitChar _ (Nat.mod_lt n (by omega))]
      simp only [Option.getD_some]
      omega

theorem mem_hexDigits {n : Nat} {c : Char} (h : c ∈ hexDigits n) : ∃ d < 16, c = Nat.digitChar d := by
  induction n using Nat.strongRecOn with
  | ind n ih =>
    rw [hexDigits_eq] at h
    split at h
    · rename_i hn
      exact ⟨n, hn, List.mem_singleton.1 h⟩
    · rcases List.mem_append.1 h with h | h
      · exact ih (n / 16) (by omega) h
      · exact ⟨n % 16, Nat.mod_lt n (by omega), List.mem_singleton.1 h⟩

theorem hexNumber_zeros (k : Nat) (cs : List Char) :
    hexNumber (List.replicate k '0' ++ cs) = hexNumber cs := by
  have hzero : (hexValue '0').getD 0 = 0 := by decide
  induction k with
  | zero => rfl
  | succ k ih =>
    rw [List.replicate_succ, List.cons_append, hexNumber, List.foldl_cons, hzero]
    exact ih

end Text

open Text

theorem mem_paddedHex {width n : Nat} {c : Char} (h : c ∈ paddedHex width n) :
    ∃ d < 16, c = Nat.digitChar d := by
  rcases List.mem_append.1 h with h | h
  · exact ⟨0, by omega, List.eq_of_mem_replicate h⟩
  · exact mem_hexDigits h

theorem paddedHex_inj {width m n : Nat} (h : paddedHex width m = paddedHex width n) : m = n := by
  have hnumber := congrArg hexNumber h
  rwa [paddedHex, hexNumber_zeros, hexNumber_hexDigits, paddedHex, hexNumber_zeros,
    hexNumber_hexDigits] at hnumber

theorem filter_grouped {digits : List Char} (h : '-' ∉ digits) : ∀ (sizes : List Nat),
    (grouped sizes digits).filter (· != '-') = digits := by
  intro sizes
  induction sizes generalizing digits with
  | nil =>
    refine List.filter_eq_self.2 fun c hc => ?_
    rw [bne_iff_ne]
    rintro rfl
    exact h hc
  | cons size sizes ih =>
    have htake : (digits.take size).filter (· != '-') = digits.take size := by
      refine List.filter_eq_self.2 fun c hc => ?_
      rw [bne_iff_ne]
      rintro rfl
      exact h (List.mem_of_mem_take hc)
    rw [grouped, List.filter_append, htake, List.filter_cons_of_neg (by decide),
      ih fun hc => h (List.mem_of_mem_drop hc), List.take_append_drop]

theorem hyphen_not_mem_paddedHex (width n : Nat) : '-' ∉ paddedHex width n := by
  intro h
  obtain ⟨d, hd, hc⟩ := mem_paddedHex h
  have hne : ∀ d < 16, '-' ≠ Nat.digitChar d := by decide
  exact hne d hd hc

/-- **Different numbers have different names.** -/
theorem identifierOf_inj {m n : Nat} (h : identifierOf m = identifierOf n) : m = n := by
  have hchars : grouped [8, 4, 4, 4] (paddedHex 32 m) = grouped [8, 4, 4, 4] (paddedHex 32 n) :=
    String.ofList_injective h
  have hdigits := congrArg (List.filter (· != '-')) hchars
  rw [filter_grouped (hyphen_not_mem_paddedHex 32 m),
    filter_grouped (hyphen_not_mem_paddedHex 32 n)] at hdigits
  exact paddedHex_inj hdigits

theorem mem_grouped {c : Char} : ∀ {sizes : List Nat} {digits : List Char}, c ∈ grouped sizes digits →
    c = '-' ∨ c ∈ digits
  | [], _, h => .inr h
  | size :: sizes, digits, h => by
    rw [grouped, List.mem_append, List.mem_cons] at h
    rcases h with h | h | h
    · exact .inr (List.mem_of_mem_take h)
    · exact .inl h
    · exact (mem_grouped h).imp_right List.mem_of_mem_drop

theorem mem_identifierOf {n : Nat} {c : Char} (h : c ∈ (identifierOf n).toList) :
    Version.isIdentifierChar c = true := by
  rw [identifierOf, String.toList_ofList] at h
  rcases mem_grouped h with rfl | h
  · decide
  · obtain ⟨d, hd, rfl⟩ := mem_paddedHex h
    have hchar : ∀ d < 16, Version.isIdentifierChar (Nat.digitChar d) = true := by decide
    exact hchar d hd

end PolicyForge
