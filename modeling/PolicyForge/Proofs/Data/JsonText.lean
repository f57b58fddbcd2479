import PolicyForge.Proofs.Framework.Version
import PolicyForge.Proofs.Host.Unique
import PolicyForge.Proofs.Text.Figures
/-!
# Reading what has been written

The text of a JSON value that holds no fraction and no sign is read back as the tree of the value,
and nothing is left over (`read_text`).  The text is first cut into the tokens of the value, then the
tokens make its tree.
-/
namespace PolicyForge.Data.Json

open Text

/-! ## Strings -/

theorem scan_cons (m : Mode) (c : Char) (cs : List Char) :
    scan m (c :: cs) = (scanStep m c).1 ++ scan (scanStep m c).2 cs := by
  cases m <;> rfl

theorem unit_digits : ∀ n < 32, (if n < 0x10 then ['0'] else []) ++ hexDigits n =
    [Nat.digitChar (n / 16), Nat.digitChar (n % 16)] := by decide

/-- An escaped control character is read by its two digits that are not fixed. -/
theorem scan_unit {x y : Nat} (hx : x < 16) (hy : y < 16) (acc rest : List Char) :
    scan (.string (some acc)) ('\\' :: 'u' :: '0' :: '0' :: Nat.digitChar x :: Nat.digitChar y :: rest) =
      scan (afterUnit (some acc) (x * 16 + y) none) rest := by
  have hfirst : scanStep (.unicode (some acc) 2 0 none) (Nat.digitChar x) =
      ([], .unicode (some acc) 1 x none) := by
    simp [scanStep, hexValue_digitChar x hx]
  have hsecond : scanStep (.unicode (some acc) 1 x none) (Nat.digitChar y) =
      ([], afterUnit (some acc) (x * 16 + y) none) := by
    simp [scanStep, hexValue_digitChar y hy]
  have hstart : scan (.string (some acc))
      ('\\' :: 'u' :: '0' :: '0' :: Nat.digitChar x :: Nat.digitChar y :: rest) =
      scan (.unicode (some acc) 2 0 none) (Nat.digitChar x :: Nat.digitChar y :: rest) := rfl
  rw [hstart, scan_cons, hfirst, scan_cons, hsecond]
  rfl

theorem afterUnit_control {n : Nat} (hn : n < 32) (acc : List Char) :
    afterUnit (some acc) n none = .string (some (Char.ofNat n :: acc)) := by
  have hhigh : ¬0xD800 ≤ n := by omega
  have hlow : ¬0xDC00 ≤ n := by omega
  simp [afterUnit, hhigh, hlow]

def lettered : List Char := ['"', '\\', '\x08', '\x0C', '\n', '\r', '\t']

theorem writeChar_of_not_lettered {c : Char} (h : c ∉ lettered) : writeChar c =
    if c.toNat < 0x20 then
    "\\u00".toList ++ ((if c.toNat < 0x10 then ['0'] else []) ++ hexDigits c.toNat) else [c] := by
  simp only [lettered, List.mem_cons, List.not_mem_nil, or_false, not_or] at h
  obtain ⟨hquote, hslash, hbackspace, hfeed, hline, hreturn, htab⟩ := h
  simp only [writeChar, beq_eq_false_iff_ne.2, hquote, hslash, hbackspace, hfeed, hline, hreturn,
    htab, ne_eq, not_false_eq_true, if_false, List.append_assoc, Bool.false_eq_true]

/-- What is written for a character is read as this character. -/
theorem scan_writeChar (c : Char) (acc rest : List Char) :
    scan (.string (some acc)) (writeChar c ++ rest) = scan (.string (some (c :: acc))) rest := by
  by_cases hlettered : c ∈ lettered
  · simp only [lettered, List.mem_cons, List.not_mem_nil, or_false] at hlettered
    rcases hlettered with rfl | rfl | rfl | rfl | rfl | rfl | rfl <;> rfl
  rw [writeChar_of_not_lettered hlettered]
  by_cases hcontrol : c.toNat < 0x20
  · have hunit := scan_unit (x := c.toNat / 16) (y := c.toNat % 16) (by omega) (by omega) acc rest
    have hvalue : c.toNat / 16 * 16 + c.toNat % 16 = c.toNat := by omega
    rw [hvalue, afterUnit_control hcontrol, Char.ofNat_toNat] at hunit
    rw [if_pos hcontrol, unit_digits _ hcontrol]
    exact hunit
  · have hquote : (c == '"') = false := beq_eq_false_iff_ne.2 fun he => hlettered (by simp [lettered, he])
    have hslash : (c == '\\') = false :=
      beq_eq_false_iff_ne.2 fun he => hlettered (by simp [lettered, he])
    have hstep : scanStep (.string (some acc)) c = ([], .string (some (c :: acc))) := by
      simp only [scanStep, stringStep, hquote, hslash, hcontrol, Bool.false_eq_true, if_false,
        Option.map_some]
    rw [if_neg hcontrol, List.singleton_append, scan_cons, hstep]
    rfl

theorem scan_writeString (s : String) (rest : List Char) :
    scan .between (writeString s ++ rest) = .leaf (.string s) :: scan .between rest := by
  have hchars : ∀ (cs acc : List Char), scan (.string (some acc)) (cs.flatMap writeChar ++ '"' :: rest) =
      .leaf (.string (String.ofList (acc.reverse ++ cs))) :: scan .between rest := by
    intro cs
    induction cs with
    | nil =>
      intro acc
      rw [List.append_nil]
      rfl
    | cons c cs ih =>
      intro acc
      rw [List.flatMap_cons, List.append_assoc, scan_writeChar, ih, List.reverse_cons, List.append_assoc]
      rfl
  have hopen := hchars s.toList []
  rw [List.reverse_nil, List.nil_append, String.ofList_toList] at hopen
  rw [writeString, List.cons_append, List.cons_append, List.append_assoc, scan_cons]
  exact hopen

/-! ## Numbers -/

/-- What may follow a number: the end of the text, a comma or the end of a container. -/
def Ends (rest : List Char) : Prop := ∀ c ∈ rest.head?, c = ',' ∨ c = ']' ∨ c = '\x7d'

theorem foldl_toDigits (n : Nat) :
    (Nat.toDigits 10 n).foldl (fun i c => i * 10 + digitValue c) 0 = n := by
  calc (Nat.toDigits 10 n).foldl (fun i c => i * 10 + digitValue c) 0
      = Nat.ofDigitChars 10 (Nat.toDigits 10 n) 0 := by
        simp only [Nat.ofDigitChars, digitValue, Nat.mul_comm]
    _ = n := Nat.ofDigitChars_ten_toDigits

theorem scan_digits (acc rest : List Char) : ∀ (ds : List Char), (∀ c ∈ ds, isAsciiDigit c = true) →
    scan (.number .whole ⟨false, acc, [], none⟩) (ds ++ rest) =
      scan (.number .whole ⟨false, ds.reverse ++ acc, [], none⟩) rest := by
  intro ds
  induction ds generalizing acc with
  | nil => exact fun _ => rfl
  | cons d ds ih =>
    intro hds
    have hstep : scanStep (.number .whole ⟨false, acc, [], none⟩) d =
        ([], .number .whole ⟨false, d :: acc, [], none⟩) := by
      simp [scanStep, Numeral.step, hds d List.mem_cons_self]
    rw [List.cons_append, scan_cons, hstep, List.nil_append,
      ih _ fun c hc => hds c (List.mem_cons_of_mem _ hc), List.reverse_cons, List.append_assoc]
    rfl

theorem scan_number_end {stage : Stage} (hstage : stage = .zero ∨ stage = .whole) (n : Numeral)
    {rest : List Char} (hrest : Ends rest) :
    scan (.number stage n) rest = .leaf n.finish.tree :: scan .between rest := by
  cases rest with
  | nil => rcases hstage with rfl | rfl <;> rfl
  | cons c rest =>
    have hstep : n.step stage c = none := by
      rcases hstage with rfl | rfl <;> rcases hrest c rfl with rfl | rfl | rfl <;> rfl
    have hscan : scanStep (.number stage n) c =
        (.leaf n.finish.tree :: (startToken c).1, (startToken c).2) := by
      simp only [scanStep, hstep]
    rw [scan_cons, scan_cons, hscan]
    rfl

theorem tree_of_digits {n : Nat} (hn : n < UInt64.size) :
    (⟨false, Nat.toDigits 10 n, [], none⟩ : Numeral).tree = .int n := by
  have hlt : (n : Int) < Int.pow 2 64 := Int.ofNat_lt.2 hn
  unfold Numeral.tree
  dsimp only
  rw [foldl_toDigits, if_neg Bool.false_ne_true, if_pos hlt]

theorem startToken_digit {d : Char} (hd : isAsciiDigit d = true) (hne : d ≠ '0') :
    startToken d = ([], .number .whole ⟨false, [d], [], none⟩) := by
  unfold startToken
  split
  all_goals first | exact absurd hd (by decide) | exact absurd rfl hne | exact if_pos hd

theorem scan_number {n : Nat} (hn : n < UInt64.size) {rest : List Char} (hrest : Ends rest) :
    scan .between (Nat.toDigits 10 n ++ rest) = .leaf (.int n) :: scan .between rest := by
  have hdigits : ∀ c ∈ Nat.toDigits 10 n, isAsciiDigit c = true :=
    fun c hc => isAsciiDigit_of_mem_toDigits hc
  have htree := tree_of_digits hn
  rcases toDigits_cases n with ⟨rfl, hzero⟩ | ⟨d, ds, hds, hne⟩
  · rw [hzero] at htree ⊢
    rw [List.singleton_append, scan_cons]
    exact (scan_number_end (.inl rfl) _ hrest).trans (by rw [← htree]; rfl)
  · rw [hds] at hdigits htree ⊢
    have hstart := startToken_digit (hdigits d List.mem_cons_self) hne
    rw [List.cons_append, scan_cons, scanStep, hstart, List.nil_append,
      scan_digits _ _ ds fun c hc => hdigits c (List.mem_cons_of_mem _ hc),
      scan_number_end (.inr rfl) _ hrest, Numeral.finish]
    simpa using htree

/-! ## Values -/

mutual

/-- A value without fractions and without signs, whose numbers fit into 64 bits. -/
def IsPlain : Json → Prop
  | .float _ => False
  | .int i => ∃ n : Nat, i = n ∧ n < UInt64.size
  | .array items => ItemsPlain items
  | .object fields => FieldsPlain fields
  | .null | .bool _ | .string _ => True

def ItemsPlain : List Json → Prop
  | [] => True
  | j :: rest => IsPlain j ∧ ItemsPlain rest

def FieldsPlain : List (String × Json) → Prop
  | [] => True
  | (_, j) :: rest => IsPlain j ∧ FieldsPlain rest

end

mutual

def tokens : Json → List Token
  | .null => [.leaf .null]
  | .bool b => [.leaf (.bool b)]
  | .int i => [.leaf (.int i)]
  | .float bits => [.leaf (.float bits)]
  | .string s => [.leaf (.string s)]
  | .array items => .openArray :: itemTokens items ++ [.closeArray]
  | .object fields => .openObject :: fieldTokens fields ++ [.closeObject]

def itemTokens : List Json → List Token
  | [] => []
  | [j] => tokens j
  | j :: rest => tokens j ++ .comma :: itemTokens rest

def fieldTokens : List (String × Json) → List Token
  | [] => []
  | [(k, j)] => .leaf (.string k) :: .colon :: tokens j
  | (k, j) :: rest => .leaf (.string k) :: .colon :: tokens j ++ .comma :: fieldTokens rest

end

theorem ends_cons {c : Char} (hc : c = ',' ∨ c = ']' ∨ c = '\x7d') (rest : List Char) :
    Ends (c :: rest) := by
  rintro _ ⟨⟩
  exact hc

theorem scan_punctuation {c : Char} {t : Token} (h : startToken c = ([t], .between)) (rest : List Char) :
    scan .between (c :: rest) = t :: scan .between rest := by
  rw [scan_cons, scanStep, h]
  rfl

mutual

theorem scan_write : ∀ (j : Json), j.IsPlain → ∀ {rest : List Char}, Ends rest →
    scan .between (write j ++ rest) = tokens j ++ scan .between rest
  | .null, _, rest, _ => rfl
  | .bool true, _, rest, _ => rfl
  | .bool false, _, rest, _ => rfl
  | .float _, h, _, _ => h.elim
  | .int _, ⟨n, rfl, hn⟩, rest, hrest => by
    have htext : (toString (n : Int)).toList = Nat.toDigits 10 n := toList_toString n
    rw [write, htext]
    exact scan_number hn hrest
  | .string s, _, rest, _ => by
    rw [write]
    exact scan_writeString s rest
  | .array items, h, rest, _ => by
    rw [write, tokens]
    simp only [List.cons_append, List.append_assoc, List.nil_append]
    rw [scan_punctuation rfl, scan_writeItems items h (ends_cons (.inr (.inl rfl)) rest),
      scan_punctuation rfl]
  | .object fields, h, rest, _ => by
    rw [write, tokens]
    simp only [List.cons_append, List.append_assoc, List.nil_append]
    rw [scan_punctuation rfl, scan_writeFields fields h (ends_cons (.inr (.inr rfl)) rest),
      scan_punctuation rfl]

theorem scan_writeItems : ∀ (items : List Json), ItemsPlain items → ∀ {rest : List Char}, Ends rest →
    scan .between (writeItems items ++ rest) = itemTokens items ++ scan .between rest
  | [], _, _, _ => rfl
  | [j], h, _, hrest => scan_write j h.1 hrest
  | j :: k :: items, h, rest, hrest => by
    have hmore := scan_writeItems (k :: items) h.2 hrest
    rw [writeItems, itemTokens]
    · simp only [List.cons_append, List.append_assoc]
      rw [scan_write j h.1 (ends_cons (.inl rfl) _), scan_punctuation rfl, hmore]
    all_goals simp

theorem scan_writeFields :
    ∀ (fields : List (String × Json)), FieldsPlain fields → ∀ {rest : List Char}, Ends rest →
    scan .between (writeFields fields ++ rest) = fieldTokens fields ++ scan .between rest
  | [], _, _, _ => rfl
  | [(k, j)], h, rest, hrest => by
    rw [writeFields, fieldTokens]
    simp only [List.cons_append, List.append_assoc]
    rw [scan_writeString, scan_punctuation rfl, scan_write j h.1 hrest]
  | (k, j) :: f :: fields, h, rest, hrest => by
    have hmore := scan_writeFields (f :: fields) h.2 hrest
    rw [writeFields, fieldTokens]
    · simp only [List.cons_append, List.append_assoc]
      rw [scan_writeString, scan_punctuation rfl, scan_write j h.1 (ends_cons (.inl rfl) _),
        scan_punctuation rfl, hmore]
    all_goals simp

end

/-! ## Trees -/

/-- What comes of a complete value in some open containers. -/
def finished (t : Tree) (stack : List Frame) (rest : List Token) : Document :=
  match stack with
  | [] => ⟨t, !rest.isEmpty⟩
  | outer => build (place t outer) .more rest

theorem finished_cons (t : Tree) (f : Frame) (stack : List Frame) (rest : List Token) :
    finished t (f :: stack) rest = build (place t (f :: stack)) .more rest := rfl

theorem build_leaf {expected : Expected} (he : expected = .value ∨ expected = .first) (t : Tree)
    (stack : List Frame) (rest : List Token) :
    build stack expected (.leaf t :: rest) = finished t stack rest := by
  rcases he with rfl | rfl <;> cases stack <;> rfl

theorem build_close (done : List Tree) (stack : List Frame) (rest : List Token) :
    build (.array done :: stack) .more (.closeArray :: rest) =
      finished (.sequence done.reverse) stack rest := by
  cases stack <;> rfl

theorem build_closeObject (done : List (Tree × Tree)) (stack : List Frame) (rest : List Token) :
    build (.object done :: stack) .more (.closeObject :: rest) =
      finished (.mapping done.reverse) stack rest := by
  cases stack <;> rfl

theorem build_key {expected : Expected} (he : expected = .key ∨ expected = .firstKey)
    (done : List (Tree × Tree)) (stack : List Frame) (k : String) (rest : List Token) :
    build (.object done :: stack) expected (.leaf (.string k) :: .colon :: rest) =
      build (.field done (.string k) :: stack) .value rest := by
  rcases he with rfl | rfl <;> rfl

mutual

theorem build_tokens : ∀ (j : Json) {expected : Expected}, expected = .value ∨ expected = .first →
    ∀ (stack : List Frame) (rest : List Token),
      build stack expected (tokens j ++ rest) = finished (.ofJson j) stack rest
  | .null, _, he, stack, rest => build_leaf he _ stack rest
  | .bool _, _, he, stack, rest => build_leaf he _ stack rest
  | .int _, _, he, stack, rest => build_leaf he _ stack rest
  | .float _, _, he, stack, rest => build_leaf he _ stack rest
  | .string _, _, he, stack, rest => build_leaf he _ stack rest
  | .array items, expected, he, stack, rest => by
    have hopen : ∀ more,
        build stack expected (.openArray :: more) = build (.array [] :: stack) .first more := by
      intro more
      rcases he with rfl | rfl <;> cases stack <;> rfl
    rw [tokens, List.cons_append, List.cons_append, hopen, List.append_assoc]
    exact build_itemTokens items (.inl rfl) [] stack rest
  | .object fields, expected, he, stack, rest => by
    have hopen : ∀ more,
        build stack expected (.openObject :: more) =
          build (.object [] :: stack) .firstKey more := by
      intro more
      rcases he with rfl | rfl <;> cases stack <;> rfl
    rw [tokens, List.cons_append, List.cons_append, hopen, List.append_assoc]
    exact build_fieldTokens fields (.inl rfl) [] stack rest

/-- The items of an array, the first of which need not be there. -/
theorem build_itemTokens : ∀ (items : List Json) {expected : Expected},
    expected = .first ∨ expected = .value ∧ items ≠ [] →
    ∀ (done : List Tree) (stack : List Frame) (rest : List Token),
      build (.array done :: stack) expected (itemTokens items ++ .closeArray :: rest) =
        finished (.sequence (done.reverse ++ Tree.ofItems items)) stack rest
  | [], expected, he, done, stack, rest => by
    obtain rfl : expected = .first := he.resolve_right fun h => h.2 rfl
    rw [Tree.ofItems, List.append_nil]
    cases stack <;> rfl
  | [j], expected, he, done, stack, rest => by
    have he' : expected = .value ∨ expected = .first := he.symm.imp_left And.left
    rw [itemTokens, build_tokens j he', finished_cons, place, build_close, List.reverse_cons]
    rfl
  | j :: k :: items, expected, he, done, stack, rest => by
    have he' : expected = .value ∨ expected = .first := he.symm.imp_left And.left
    have hcomma : ∀ more, build (.array (Tree.ofJson j :: done) :: stack) .more (.comma :: more) =
        build (.array (Tree.ofJson j :: done) :: stack) .value more := fun _ => rfl
    rw [itemTokens, List.append_assoc, build_tokens j he', finished_cons, place, List.cons_append,
      hcomma, build_itemTokens (k :: items) (.inr ⟨rfl, List.cons_ne_nil _ _⟩), List.reverse_cons,
      List.append_assoc]
    all_goals simp [Tree.ofItems]

theorem build_fieldTokens : ∀ (fields : List (String × Json)) {expected : Expected},
    expected = .firstKey ∨ expected = .key ∧ fields ≠ [] →
      ∀ (done : List (Tree × Tree)) (stack : List Frame) (rest : List Token),
        build (.object done :: stack) expected (fieldTokens fields ++ .closeObject :: rest) =
          finished (.mapping (done.reverse ++ Tree.ofFields fields)) stack rest
  | [], expected, he, done, stack, rest => by
    obtain rfl : expected = .firstKey := he.resolve_right fun h => h.2 rfl
    rw [Tree.ofFields, List.append_nil]
    cases stack <;> rfl
  | [(k, j)], expected, he, done, stack, rest => by
    have he' : expected = .key ∨ expected = .firstKey := he.symm.imp_left And.left
    rw [fieldTokens, List.cons_append, List.cons_append, build_key he', build_tokens j (.inl rfl),
      finished_cons, place, build_closeObject, List.reverse_cons]
    rfl
  | (k, j) :: f :: fields, expected, he, done, stack, rest => by
    have he' : expected = .key ∨ expected = .firstKey := he.symm.imp_left And.left
    have hcomma : ∀ more,
        build (.object ((.string k, Tree.ofJson j) :: done) :: stack) .more (.comma :: more) =
        build (.object ((.string k, Tree.ofJson j) :: done) :: stack) .key more := fun _ => rfl
    rw [fieldTokens, List.append_assoc, List.cons_append, List.cons_append, build_key he',
      build_tokens j (.inl rfl), finished_cons, place, List.cons_append, hcomma,
      build_fieldTokens (f :: fields) (.inr ⟨rfl, List.cons_ne_nil _ _⟩), List.reverse_cons,
      List.append_assoc]
    all_goals simp [Tree.ofFields]

end

/-- **A value is read back from its text**, if it holds no fraction and no sign. -/
theorem read_text {j : Json} (hj : j.IsPlain) : read j.text = ⟨.ofJson j, false⟩ := by
  have hnone : Ends [] := by
    rintro c ⟨⟩
  have hscan := scan_write j hj hnone
  have hbuild := build_tokens j (.inl rfl) [] []
  rw [List.append_nil] at hscan
  rw [read, text, String.toList_ofList, hscan]
  exact hbuild

end PolicyForge.Data.Json
