import PolicyForge.Proofs.Source.Names
import PolicyForge.Proofs.Text.Run
import PolicyForge.Source.Literal
/-!
# The literals of registry values

The literal of a registry value or of a flag is a verbatim string or a word: a numeral with its
suffix, `true`, `false` or `null`.
-/
namespace PolicyForge.Source

/-- Something to read, made of characters of names. -/
def IsWord (s : List Char) : Prop := s ≠ [] ∧ ∀ c ∈ s, isPathPart c = true

theorem isWord_iff (s : List Char) : IsWord s ↔ (!s.isEmpty && s.all isPathPart) = true := by
  simp [IsWord, List.all_eq_true]

theorem isPathPart_of_isAsciiDigit {c : Char} (h : Text.isAsciiDigit c = true) : isPathPart c = true :=
  isPathPart_of_isMemberPart (isMemberPart_of_isNamePart (Text.isNamePart_of_isAsciiDigit h))

/-- A numeral with a suffix. -/
theorem isWord_numeral (n : Nat) {suffix : String} (h : suffix.toList.all isPathPart = true) :
    IsWord (toString n ++ suffix).toList := by
  rw [String.toList_append, Text.toList_toString]
  refine ⟨fun hn => Nat.toDigits_ne_nil (List.append_eq_nil_iff.1 hn).1, fun c hc => ?_⟩
  rcases List.mem_append.1 hc with hc | hc
  · exact isPathPart_of_isAsciiDigit (Text.isAsciiDigit_of_mem_toDigits hc)
  · exact List.all_eq_true.1 h c hc

theorem isWord_bool (b : Bool) : IsWord (literal (.bool b)).toList := by
  rw [isWord_iff]
  cases b <;> decide

/-- A registry value is a text, or its literal is a word. -/
theorem isWord_literal (v : RegistryValue) :
    (∃ s, v = .string s) ∨ IsWord (literal v.toLiteral).toList := by
  cases v with
  | decimal n => exact .inr (isWord_numeral n.toNat (by decide))
  | longDecimal n => exact .inr (isWord_numeral n.toNat (by decide))
  | string s => exact .inl ⟨s, rfl⟩
  | delete => exact .inr ((isWord_iff _).2 (by decide))

/-! ## Literals determine values -/

/-- The kinds of literal that blocks hold. -/
def isDatum : Literal → Bool
  | .bool _ | .u32 _ | .u64 _ | .string _ | .delete => true
  | _ => false

/-- What the literals of a kind end with; no two kinds of datum end the same. -/
def closer : Literal → Char
  | .bool _ => 'e'
  | .u32 _ => 'u'
  | .u64 _ => 'L'
  | .string _ => '"'
  | _ => 'l'

theorem getLast?_literal {l : Literal} (h : isDatum l = true) :
    (literal l).toList.getLast? = some (closer l) := by
  cases l with
  | bool b => cases b <;> decide
  | u32 n =>
    show (toString n.toNat ++ "u").toList.getLast? = some 'u'
    rw [String.toList_append]
    exact List.getLast?_concat
  | u64 n =>
    show (toString n.toNat ++ "uL").toList.getLast? = some 'L'
    rw [String.toList_append, show "uL".toList = ['u'] ++ ['L'] from rfl, ← List.append_assoc]
    exact List.getLast?_concat
  | string s =>
    show (verbatim s).toList.getLast? = some '"'
    rw [toList_verbatim, verbatimChars]
    exact List.getLast?_concat (l := '@' :: '"' :: doubleQuotes s.toList)
  | delete => decide
  | _ => cases h

theorem doubleQuotes_inj : ∀ {s t : List Char}, doubleQuotes s = doubleQuotes t → s = t
  | [], [], _ => rfl
  | [], c :: t, h => by
    rw [doubleQuotes, doubleQuotes] at h
    split at h <;> cases h
  | c :: s, [], h => by
    rw [doubleQuotes, doubleQuotes] at h
    split at h <;> cases h
  | c :: s, d :: t, h => by
    rw [doubleQuotes, doubleQuotes] at h
    by_cases hc : c = '"' <;> by_cases hd : d = '"'
    · simp only [hc, hd, beq_self_eq_true, if_true, List.cons.injEq, true_and] at h
      rw [hc, hd, doubleQuotes_inj h]
    · simp [hc, hd, Ne.symm hd] at h
    · simp [hc, hd] at h
    · simp only [beq_iff_eq, hc, hd, if_false, List.cons.injEq] at h
      rw [h.1, doubleQuotes_inj h.2]

theorem numeral_inj {m n : Nat} {suffix : String}
    (h : toString m ++ suffix = toString n ++ suffix) : m = n := by
  rw [← String.toList_inj, String.toList_append, String.toList_append, List.append_cancel_right_eq,
    Text.toList_toString, Text.toList_toString] at h
  exact Text.toDigits_inj h

/-- **Different values have different literals.** -/
theorem literal_inj {l m : Literal} (hl : isDatum l = true) (hm : isDatum m = true)
    (h : literal l = literal m) : l = m := by
  have hcloser : closer l = closer m := by
    rw [← Option.some_inj, ← getLast?_literal hl, ← getLast?_literal hm, h]
  cases l <;> cases hl <;> cases m <;> cases hm <;> try (simp [closer] at hcloser; done)
  case bool.refl.bool.refl b c =>
    cases b <;> cases c <;> first | rfl | exact absurd h (by decide)
  case u32.refl.u32.refl n k => rw [UInt32.toNat_inj.1 (numeral_inj h)]
  case u64.refl.u64.refl n k => rw [UInt64.toNat_inj.1 (numeral_inj h)]
  case string.refl.string.refl s t =>
    have hchars : verbatimChars s.toList = verbatimChars t.toList := by
      rw [← toList_verbatim, ← toList_verbatim]
      exact congrArg String.toList h
    have hcontent := List.append_cancel_right (List.cons.inj (List.cons.inj hchars).2).2
    rw [String.toList_inj.1 (doubleQuotes_inj hcontent)]
  case delete.refl.delete.refl => rfl

theorem isDatum_toLiteral (v : RegistryValue) : isDatum v.toLiteral = true := by
  cases v <;> rfl

@[simp] theorem toLiteral_inj {v w : RegistryValue} : v.toLiteral = w.toLiteral ↔ v = w := by
  refine ⟨fun h => ?_, congrArg _⟩
  rw [← Except.ok.injEq (ε := String), ← RegistryValue.ofLiteral_toLiteral, h,
    RegistryValue.ofLiteral_toLiteral]

end PolicyForge.Source
