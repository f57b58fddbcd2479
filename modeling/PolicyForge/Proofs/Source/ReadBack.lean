import PolicyForge.Proofs.Source.Block
import PolicyForge.Proofs.Text.Run
/-!
# Reading registry values back

The literal of a registry value is one token: the word `null`, a number with the suffix of its type, or a
verbatim string.  A reader of the language takes that token and no more off a text, as long as the text
does not go on with a quote or with a character of a name, and knows the value from it
(`literal_readBack`).  The template writes the same token from the JSON of the value.
-/
namespace PolicyForge.Source

open Data Template Text

/-! ## One token -/

def connectorRanges : List (Nat × Nat) :=
  [(0x203F, 0x2040), (0x2054, 0x2054), (0xFE33, 0xFE34), (0xFE4D, 0xFE4F), (0xFF3F, 0xFF3F)]

def formatRanges : List (Nat × Nat) :=
  [(0xAD, 0xAD), (0x600, 0x605), (0x61C, 0x61C), (0x6DD, 0x6DD), (0x70F, 0x70F), (0x890, 0x891),
    (0x8E2, 0x8E2), (0x180E, 0x180E), (0x200B, 0x200F), (0x202A, 0x202E), (0x2060, 0x2064),
    (0x2066, 0x206F), (0xFEFF, 0xFEFF), (0xFFF9, 0xFFFB), (0x110BD, 0x110BD), (0x110CD, 0x110CD),
    (0x13430, 0x1343F), (0x1BCA0, 0x1BCA3), (0x1D173, 0x1D17A), (0xE0001, 0xE0001),
    (0xE0020, 0xE007F)]

/-- Characters that a name may go on with; the language has more of them than names are made of here. -/
def isIdentifierPart (c : Char) : Bool :=
  isMemberPart c || inRanges c connectorRanges || inRanges c formatRanges

/-- The content of a verbatim string up to the quote that ends it, and what follows. -/
def readContent : List Char → Option (List Char × List Char)
  | [] => none
  | '"' :: '"' :: s => (readContent s).map fun (t, r) => ('"' :: t, r)
  | '"' :: s => some ([], s)
  | c :: s => (readContent s).map fun (t, r) => (c :: t, r)

/-- A number with the suffix of its type, which it has to fit. -/
def suffixed? (n : Nat) : List Char → Option RegistryValue
  | ['u'] => if n < UInt32.size then some (.decimal n.toUInt32) else none
  | ['u', 'L'] => if n < UInt64.size then some (.longDecimal n.toUInt64) else none
  | _ => none

def wordValue? (w : List Char) : Option RegistryValue :=
  match w.takeWhile isAsciiDigit with
  | [] => if w = "null".toList then some .delete else none
  | figures => suffixed? (Nat.ofDigitChars 10 figures 0) (w.dropWhile isAsciiDigit)

/-- The value that a text starts with, read as the longest token there, and the text after it. -/
def readValue : List Char → Option (RegistryValue × List Char)
  | '@' :: '"' :: s => (readContent s).map fun (t, r) => (.string (String.ofList t), r)
  | s => (wordValue? (s.takeWhile isIdentifierPart)).map fun v => (v, s.dropWhile isIdentifierPart)

/-! ## Strings -/

/-- A quote that follows the string would be taken for a part of it. -/
theorem readContent_doubleQuotes {r : List Char} (hr : ∀ c ∈ r.head?, c ≠ '"') : ∀ (s : List Char),
    readContent (doubleQuotes s ++ '"' :: r) = some (s, r)
  | [] => by
    cases r with
    | nil => rfl
    | cons c r =>
      have hc : c ≠ '"' := hr c rfl
      rw [doubleQuotes, List.nil_append, readContent]
      simpa using hc
  | c :: s => by
    have ih := readContent_doubleQuotes hr s
    rw [doubleQuotes]
    by_cases hc : c = '"'
    · rw [if_pos (beq_iff_eq.2 hc), List.cons_append, List.cons_append, readContent, ih, hc]
      rfl
    · rw [if_neg (mt beq_iff_eq.1 hc), List.cons_append, readContent, ih]
      · rfl
      · simp [hc]
      · simpa using hc

theorem readValue_verbatim (s : String) {r : List Char} (hr : ∀ c ∈ r.head?, c ≠ '"') :
    readValue ((literal (.string s)).toList ++ r) = some (.string s, r) := by
  have hchars : (literal (.string s)).toList ++ r =
      '@' :: '"' :: (doubleQuotes s.toList ++ '"' :: r) := by
    rw [literal, toList_verbatim, verbatimChars]
    simp
  rw [hchars, readValue, readContent_doubleQuotes hr, Option.map_some]
  exact congrArg (fun t => some (RegistryValue.string t, r)) String.ofList_toList

/-! ## Words -/

theorem isIdentifierPart_of_isAsciiDigit {c : Char} (h : isAsciiDigit c = true) :
    isIdentifierPart c = true := by
  simp [isIdentifierPart, isMemberPart, isNamePart_of_isAsciiDigit h]

theorem readValue_word {w r : List Char} {v : RegistryValue} (hne : w ≠ [])
    (hw : w.all isIdentifierPart = true) (hv : wordValue? w = some v)
    (hr : ∀ c ∈ r.head?, isIdentifierPart c = false) : readValue (w ++ r) = some (v, r) := by
  have hat : ∀ t, w ++ r ≠ '@' :: '"' :: t := by
    obtain ⟨c, w, rfl⟩ := List.exists_cons_of_ne_nil hne
    intro t ht
    have hpart : isIdentifierPart '@' = false := by decide
    rw [(List.cons.inj ht).1, List.all_cons, hpart] at hw
    cases hw
  rw [readValue, takeWhile_run (List.all_eq_true.1 hw) hr, dropWhile_run (List.all_eq_true.1 hw) hr, hv]
  · rfl
  · exact hat

theorem wordValue?_number (n : Nat) {suffix : List Char}
    (hsuffix : ∀ c ∈ suffix.head?, isAsciiDigit c = false) :
    wordValue? (Nat.toDigits 10 n ++ suffix) = suffixed? n suffix := by
  have hdigits : ∀ c ∈ Nat.toDigits 10 n, isAsciiDigit c = true := fun c => isAsciiDigit_of_mem_toDigits
  unfold wordValue?
  rw [takeWhile_run hdigits hsuffix, dropWhile_run hdigits hsuffix]
  split
  · rename_i hnil
    exact absurd hnil Nat.toDigits_ne_nil
  · rw [Nat.ofDigitChars_ten_toDigits]

theorem readValue_number (n : Nat) {suffix r : List Char} {v : RegistryValue}
    (hword : suffix.all (fun c => isIdentifierPart c && !isAsciiDigit c) = true)
    (hv : suffixed? n suffix = some v) (hr : ∀ c ∈ r.head?, isIdentifierPart c = false) :
    readValue (Nat.toDigits 10 n ++ suffix ++ r) = some (v, r) := by
  have hsuffix : ∀ c ∈ suffix, isIdentifierPart c = true ∧ isAsciiDigit c = false := by
    simpa using hword
  refine readValue_word ?_ ?_ ?_ hr
  · exact fun hnil => Nat.toDigits_ne_nil (List.append_eq_nil_iff.1 hnil).1
  · rw [List.all_append, Bool.and_eq_true, List.all_eq_true, List.all_eq_true]
    exact ⟨fun c hc => isIdentifierPart_of_isAsciiDigit (isAsciiDigit_of_mem_toDigits hc),
      fun c hc => (hsuffix c hc).1⟩
  · rw [wordValue?_number n fun c hc => (hsuffix c (List.mem_of_head? hc)).2, hv]

/-! ## Values -/

theorem readValue_literal (v : RegistryValue) {r : List Char}
    (hr : ∀ c ∈ r.head?, c ≠ '"' ∧ isIdentifierPart c = false) :
    readValue ((literal v.toLiteral).toList ++ r) = some (v, r) := by
  have hpart : ∀ c ∈ r.head?, isIdentifierPart c = false := fun c hc => (hr c hc).2
  cases v with
  | decimal n =>
    have hchars : (literal (.u32 n)).toList = Nat.toDigits 10 n.toNat ++ ['u'] := by
      rw [literal, String.toList_append, toList_toString]
      rfl
    rw [RegistryValue.toLiteral, hchars]
    refine readValue_number n.toNat (by decide) ?_ hpart
    rw [suffixed?, if_pos n.toNat_lt_size, Nat.toUInt32_eq, UInt32.ofNat_toNat]
  | longDecimal n =>
    have hchars : (literal (.u64 n)).toList = Nat.toDigits 10 n.toNat ++ ['u', 'L'] := by
      rw [literal, String.toList_append, toList_toString]
      rfl
    rw [RegistryValue.toLiteral, hchars]
    refine readValue_number n.toNat (by decide) ?_ hpart
    rw [suffixed?, if_pos n.toNat_lt_size, Nat.toUInt64_eq, UInt64.ofNat_toNat]
  | string s => exact readValue_verbatim s fun c hc => (hr c hc).1
  | delete => exact readValue_word (by decide) (by decide) (by decide) hpart

/-- **The literal of a value is one token that says the value**, before every text that does not go on
with it; so no two values share a literal.  The template writes it from the JSON of the value, where the
deletion mark is a bare text. -/
theorem literal_readBack (v : RegistryValue) :
    (∀ r : List Char, (∀ c ∈ r.head?, c ≠ '"' ∧ isIdentifierPart c = false) →
      readValue ((literal v.toLiteral).toList ++ r) = some (v, r)) ∧
    (∀ w : RegistryValue, literal w.toLiteral = literal v.toLiteral → w = v) ∧
    (∀ (context : Json) (x : String), context.field? x = some v.toJson →
      evalAll context [.cond (.call "is_delval" (.field x)) [.text "null"]
        [.put (.call "literal" (.field x))]] =
        .ok (literal v.toLiteral)) := by
  refine ⟨fun r => readValue_literal v, fun w h => ?_, fun context x h => says_valueNodes h⟩
  have hw := readValue_literal w (r := []) (by simp)
  rw [h, readValue_literal v (by simp)] at hw
  exact (Prod.mk.inj (Option.some.inj hw)).1.symm

/-- A text that reads like the deletion mark, and ends in a quote before a bracket. -/
theorem literal_readBack_mark :
    ((∀ c ∈ [')'].head?, c ≠ '"' ∧ isIdentifierPart c = false) ∧
      readValue ((literal (RegistryValue.string "delete\"").toLiteral).toList ++ [')']) =
        some (.string "delete\"", [')'])) ∧
    (literal (RegistryValue.string "delete").toLiteral =
      literal (RegistryValue.string "delete").toLiteral ∧
      RegistryValue.string "delete" = .string "delete") ∧
    ((Json.object [("x", .object [("string", .string "delete")])]).field? "x" =
      some (RegistryValue.string "delete").toJson ∧
      evalAll (.object [("x", .object [("string", .string "delete")])])
        [.cond (.call "is_delval" (.field "x")) [.text "null"] [.put (.call "literal" (.field "x"))]] =
          .ok (literal (RegistryValue.string "delete").toLiteral)) := by
  have hbracket : ∀ c ∈ [')'].head?, c ≠ '"' ∧ isIdentifierPart c = false := by
    rintro c ⟨⟩
    decide
  exact ⟨⟨hbracket, (literal_readBack (.string "delete\"")).1 [')'] hbracket⟩,
    ⟨rfl, (literal_readBack (.string "delete")).2.1 (.string "delete") rfl⟩,
    rfl, (literal_readBack (.string "delete")).2.2 _ "x" rfl⟩

end PolicyForge.Source
