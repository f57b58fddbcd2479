import PolicyForge.Proofs.Framework.Version
import PolicyForge.Proofs.Text.Figures
import PolicyForge.Proofs.Text.Lines
/-!
# Versions read exactly

The exact reading accepts the texts of semantic versions and no others (`parse_ok_iff`): numbers of 64
bits without superfluous zeros, and labels of identifiers between dots.  Each reader that it is made of
is characterised once, by what it takes off the text and what may follow.
-/
namespace PolicyForge.Version

open Text

/-! ## Semantic versions -/

/-- Letters, digits and hyphens, at least one of them. -/
def IsIdentifier (w : List Char) : Prop := w ≠ [] ∧ ∀ c ∈ w, isIdentifierChar c = true

/-- A number among the identifiers has no superfluous zero. -/
def IsCanonical (w : List Char) : Prop := (∀ c ∈ w, isAsciiDigit c = true) → IsTight w

/-- A label: identifiers between dots, and in a pre-release no numbers with superfluous zeros. -/
def IsLabel (p : Part) (label : List Char) : Prop :=
  ∀ w ∈ splitOn (· == '.') label, IsIdentifier w ∧ (p = .pre → IsCanonical w)

/-- A semantic version: numbers of 64 bits, and labels where there are any. -/
structure IsSemantic (v : Version) : Prop where
  major : v.major < 2 ^ 64
  minor : v.minor < 2 ^ 64
  patch : v.patch < 2 ^ 64
  pre : v.pre = "" ∨ IsLabel .pre v.pre.toList
  build : v.build = "" ∨ IsLabel .build v.build.toList

instance (w : List Char) : Decidable (IsIdentifier w) :=
  decidable_of_iff (w ≠ [] ∧ w.all isIdentifierChar = true) (and_congr_right fun _ => List.all_eq_true)

instance (w : List Char) : Decidable (IsCanonical w) :=
  decidable_of_iff (w.all isAsciiDigit = true → IsTight w) (imp_congr_left List.all_eq_true)

instance (p : Part) (label : List Char) : Decidable (IsLabel p label) :=
  decidable_of_iff
    ((splitOn (· == '.') label).all (fun w => IsIdentifier w ∧ (p = .pre → IsCanonical w)) = true)
    (List.all_eq_true.trans (forall₂_congr fun _ _ => decide_eq_true_iff))

instance (v : Version) : Decidable v.IsSemantic :=
  decidable_of_iff (v.major < 2 ^ 64 ∧ v.minor < 2 ^ 64 ∧ v.patch < 2 ^ 64 ∧
      (v.pre = "" ∨ IsLabel .pre v.pre.toList) ∧ (v.build = "" ∨ IsLabel .build v.build.toList))
    ⟨fun ⟨hmajor, hminor, hpatch, hpre, hbuild⟩ => ⟨hmajor, hminor, hpatch, hpre, hbuild⟩,
      fun h => ⟨h.major, h.minor, h.patch, h.pre, h.build⟩⟩

/-! ## Numbers -/

/-- Figures behind a number that is not zero are added to it, up to the limit. -/
theorem takeNumber_figures {p : Part} {rest : List Char}
    (hrest : ∀ c ∈ rest.head?, isAsciiDigit c = false) :
    ∀ {ds : List Char} {n : Nat}, 0 < n → n < limit → (∀ c ∈ ds, isAsciiDigit c = true) →
      takeNumber p n true (ds ++ rest) =
        if Nat.ofDigitChars 10 ds n < limit then .ok (Nat.ofDigitChars 10 ds n, rest)
        else .error (.overflow p)
  | [], n, _, hlimit, _ => by
    rw [List.nil_append, Nat.ofDigitChars_nil, if_pos hlimit]
    cases rest with
    | nil => rfl
    | cons c rest => simp [takeNumber, hrest c rfl]
  | c :: ds, n, hpos, _, hds => by
    have hc := hds c List.mem_cons_self
    have hne : (n == 0) = false := beq_eq_false_iff_ne.2 (by omega)
    have hnext : n * 10 + (c.toNat - '0'.toNat) = 10 * n + (c.toNat - '0'.toNat) := by rw [Nat.mul_comm]
    rw [List.cons_append, takeNumber, if_pos hc, hne, Bool.and_false, if_neg Bool.false_ne_true,
      Nat.ofDigitChars_cons]
    dsimp only
    rw [hnext]
    by_cases hlt : 10 * n + (c.toNat - '0'.toNat) < limit
    · rw [if_pos hlt,
        takeNumber_figures hrest (by omega) hlt fun d hd => hds d (List.mem_cons_of_mem c hd)]
    · have hge : 10 * n + (c.toNat - '0'.toNat) ≤
          Nat.ofDigitChars 10 ds (10 * n + (c.toNat - '0'.toNat)) := by
        rw [Nat.ofDigitChars_eq_ofDigitChars_zero]
        exact Nat.le_add_right_of_le (Nat.le_mul_of_pos_left _ (Nat.pow_pos (by omega)))
      rw [if_neg hlt, if_neg (by omega)]

theorem value_lt_limit {c : Char} (hc : isAsciiDigit c = true) : c.toNat - '0'.toNat < limit :=
  Nat.lt_of_le_of_lt (value_le_nine hc) (by decide)

theorem takeNumber_digit {p : Part} {c : Char} (hc : isAsciiDigit c = true) (s : List Char) :
    takeNumber p 0 false (c :: s) = takeNumber p (c.toNat - '0'.toNat) true s := by
  rw [takeNumber, if_pos hc, Bool.false_and, if_neg Bool.false_ne_true]
  dsimp only
  rw [Nat.zero_mul, Nat.zero_add, if_pos (value_lt_limit hc)]

theorem exists_digit_of_takeNumber {p : Part} {s : List Char} {r : Nat × List Char}
    (h : takeNumber p 0 false s = .ok r) :
    ∃ c t, s = c :: t ∧ isAsciiDigit c = true := by
  cases s with
  | nil => cases h
  | cons c t =>
    rw [takeNumber] at h
    split at h
    · exact ⟨c, t, rfl, by assumption⟩
    · cases h

/-- Behind a zero nothing may stand that belongs to the number. -/
theorem takeNumber_zero {p : Part} {s rest : List Char} {n : Nat} :
    takeNumber p 0 true s = .ok (n, rest) ↔
      n = 0 ∧ s = rest ∧ ∀ c ∈ rest.head?, isAsciiDigit c = false := by
  cases s with
  | nil =>
    simp only [takeNumber, if_true, Except.ok.injEq, Prod.mk.injEq]
    constructor
    · rintro ⟨rfl, rfl⟩
      exact ⟨rfl, rfl, nofun⟩
    · rintro ⟨rfl, rfl, -⟩
      exact ⟨rfl, rfl⟩
  | cons c s =>
    by_cases hc : isAsciiDigit c = true
    · have herror : takeNumber p 0 true (c :: s) = .error (.leadingZero p) := by
        rw [takeNumber, if_pos hc]
        rfl
      rw [herror]
      refine ⟨nofun, ?_⟩
      rintro ⟨-, rfl, hrest⟩
      rw [hrest c rfl] at hc
      cases hc
    · have hok : takeNumber p 0 true (c :: s) = .ok (0, c :: s) := by
        rw [takeNumber, if_neg hc, if_pos rfl]
      rw [hok, Except.ok.injEq, Prod.mk.injEq]
      constructor
      · rintro ⟨rfl, rfl⟩
        exact ⟨rfl, rfl, by simpa using hc⟩
      · rintro ⟨rfl, rfl, -⟩
        exact ⟨rfl, rfl⟩

theorem takeNumber_toDigits {p : Part} {rest : List Char} {n : Nat} (hn : n < 2 ^ 64)
    (hrest : ∀ c ∈ rest.head?, isAsciiDigit c = false) :
    takeNumber p 0 false (Nat.toDigits 10 n ++ rest) = .ok (n, rest) := by
  have hdigits : ∀ c ∈ Nat.toDigits 10 n, isAsciiDigit c = true := fun c => isAsciiDigit_of_mem_toDigits
  rcases toDigits_cases n with ⟨rfl, hzero⟩ | ⟨d, ds, hds, hne⟩
  · rw [hzero, List.singleton_append, takeNumber_digit (by decide)]
    exact takeNumber_zero.2 ⟨rfl, rfl, hrest⟩
  · have hvalue : Nat.ofDigitChars 10 ds (d.toNat - '0'.toNat) = n := by
      have hread := Nat.ofDigitChars_ten_toDigits (n := n)
      rwa [hds, Nat.ofDigitChars_cons, Nat.mul_zero, Nat.zero_add] at hread
    rw [hds] at hdigits ⊢
    have hd := hdigits d List.mem_cons_self
    rw [List.cons_append, takeNumber_digit hd,
      takeNumber_figures hrest (one_le_value hd hne) (value_lt_limit hd)
      fun c hc => hdigits c (List.mem_cons_of_mem d hc), hvalue]
    exact if_pos hn

theorem text_of_takeNumber {p : Part} {s rest : List Char} {n : Nat}
    (h : takeNumber p 0 false s = .ok (n, rest)) :
    n < 2 ^ 64 ∧ s = Nat.toDigits 10 n ++ rest ∧ ∀ c ∈ rest.head?, isAsciiDigit c = false := by
  obtain ⟨c, t, rfl, hc⟩ := exists_digit_of_takeNumber h
  rw [takeNumber_digit hc] at h
  by_cases hzero : c = '0'
  · subst hzero
    obtain ⟨rfl, rfl, hrest⟩ := takeNumber_zero.1 h
    exact ⟨by decide, rfl, hrest⟩
  · -- the figures behind the first one, and what follows them
    have hds : ∀ d ∈ t.takeWhile isAsciiDigit, isAsciiDigit d = true :=
      List.all_eq_true.1 List.all_takeWhile
    have hrest := head?_dropWhile isAsciiDigit t
    have htext := toDigits_ofDigitChars (List.cons_ne_nil c _) (List.forall_mem_cons.2 ⟨hc, hds⟩)
      fun hhead => absurd (Option.some.inj hhead) hzero
    rw [Nat.ofDigitChars_cons, Nat.mul_zero, Nat.zero_add] at htext
    rw [← List.takeWhile_append_dropWhile (p := isAsciiDigit) (l := t),
      takeNumber_figures hrest (one_le_value hc hzero) (value_lt_limit hc) hds] at h
    split at h
    · rename_i hfits
      cases h
      refine ⟨hfits, ?_, hrest⟩
      rw [htext, List.cons_append, List.takeWhile_append_dropWhile]
    · cases h

/-- **A number is read if it is written as numbers are, fits and ends there.** -/
theorem takeNumber_ok_iff {p : Part} {s rest : List Char} {n : Nat} :
    takeNumber p 0 false s = .ok (n, rest) ↔
      n < 2 ^ 64 ∧ s = Nat.toDigits 10 n ++ rest ∧ ∀ c ∈ rest.head?, isAsciiDigit c = false := by
  refine ⟨text_of_takeNumber, ?_⟩
  rintro ⟨hn, rfl, hrest⟩
  exact takeNumber_toDigits hn hrest

theorem takeDot_ok_iff {p : Part} {s rest : List Char} : takeDot p s = .ok rest ↔ s = '.' :: rest := by
  unfold takeDot
  split
  · simp
  · simp
  · rename_i c s hdot
    simp only [reduceCtorEq, List.cons.injEq, false_iff, not_and]
    exact fun h => absurd h hdot

/-! ## Labels -/

theorem isLabelChar_of_isIdentifierChar {c : Char} (h : isIdentifierChar c = true) :
    isLabelChar c = true := by
  rw [isLabelChar, h, Bool.true_or]

theorem IsLabel.isLabelChar {p : Part} {label : List Char} (h : IsLabel p label) :
    ∀ c ∈ label, isLabelChar c = true := by
  intro c hc
  rw [← join_splitOn '.' label] at hc
  rcases mem_join hc with hdot | ⟨w, hw, hc⟩
  · rw [List.mem_singleton.1 hdot]
    decide
  · exact isLabelChar_of_isIdentifierChar ((h w hw).1.2 c hc)

theorem IsLabel.ne_nil {p : Part} {label : List Char} (h : IsLabel p label) : label ≠ [] := by
  rintro rfl
  exact (h [] (by simp [splitOn])).1.1 rfl

theorem isPadded_eq_false_iff {w : List Char} : isPadded w = false ↔ IsCanonical w := by
  have hone : w.head? = some '0' → (w = ['0'] ↔ ¬1 < w.length) := by
    intro hhead
    rcases w with _ | ⟨c, _ | ⟨d, w⟩⟩
    · cases hhead
    · simp_all
    · simp
  rw [← Bool.not_eq_true, isPadded, Bool.and_eq_true, Bool.and_eq_true, decide_eq_true_eq,
    List.all_eq_true, beq_iff_eq, not_and, IsCanonical, IsTight]
  constructor
  · intro h hdigits hhead
    exact (hone hhead).2 fun hlength => h ⟨hlength, hdigits⟩ hhead
  · rintro h ⟨hlength, hdigits⟩ hhead
    exact (hone hhead).1 (h hdigits hhead) hlength

theorem segmentFault_eq_none_iff {p : Part} : ∀ {ws : List (List Char)},
    segmentFault p ws = none ↔ ∀ w ∈ ws, w ≠ [] ∧ (p = .pre → IsCanonical w)
  | [] => by simp [segmentFault]
  | w :: ws => by
    have hpadded : (p == .pre && isPadded w) = true ↔ ¬(p = .pre → IsCanonical w) := by
      rw [Bool.and_eq_true, beq_iff_eq, ← isPadded_eq_false_iff, Bool.eq_false_iff,
        Classical.not_imp, Classical.not_not]
    rw [List.forall_mem_cons, segmentFault]
    split
    · rename_i hempty
      simp [List.isEmpty_iff.1 hempty]
    · rename_i hgiven
      split
      · rename_i hbad
        simp [hpadded.1 hbad]
      · rename_i hgood
        rw [segmentFault_eq_none_iff, and_iff_right]
        exact ⟨fun h => hgiven (List.isEmpty_iff.2 h), Classical.not_not.1 (fun h => hgood (hpadded.2 h))⟩

/-- Between the dots of a run of label characters there are identifier characters only. -/
theorem isIdentifierChar_of_mem_splitOn {label w : List Char} (hlabel : ∀ c ∈ label, isLabelChar c = true)
    (hw : w ∈ splitOn (· == '.') label) : ∀ c ∈ w, isIdentifierChar c = true := by
  intro c hc
  have hchar := hlabel c (mem_of_mem_splitOn label w hw c hc)
  have hdot := not_of_mem_splitOn label w hw c hc
  rw [isLabelChar, Bool.or_eq_true] at hchar
  exact hchar.resolve_right (by simpa using hdot)

theorem segmentFault_splitOn {p : Part} {label : List Char} (hlabel : ∀ c ∈ label, isLabelChar c = true) :
    segmentFault p (splitOn (· == '.') label) = none ↔ IsLabel p label := by
  rw [segmentFault_eq_none_iff]
  constructor
  · intro h w hw
    exact ⟨⟨(h w hw).1, isIdentifierChar_of_mem_splitOn hlabel hw⟩, (h w hw).2⟩
  · intro h w hw
    exact ⟨(h w hw).1.1, (h w hw).2⟩

theorem takeIdentifier_cut {p : Part} {s taken rest : List Char} :
    takeIdentifier p s = .ok (taken, rest) ↔
      s.takeWhile isLabelChar = taken ∧ s.dropWhile isLabelChar = rest ∧
      (taken = [] ∨ IsLabel p taken) := by
  have hall : ∀ c ∈ s.takeWhile isLabelChar, isLabelChar c = true := List.all_eq_true.1 List.all_takeWhile
  have hpart : (fun c => isIdentifierChar c || c == '.') = isLabelChar := rfl
  unfold takeIdentifier
  dsimp only
  rw [hpart]
  split
  · rename_i hempty
    rw [List.isEmpty_iff.1 hempty, Except.ok.injEq, Prod.mk.injEq]
    constructor
    · rintro ⟨rfl, rfl⟩
      exact ⟨rfl, rfl, .inl rfl⟩
    · rintro ⟨rfl, rfl, -⟩
      exact ⟨rfl, rfl⟩
  · rename_i hgiven
    split
    · rename_i e he
      refine ⟨fun herror => (by cases herror), ?_⟩
      rintro ⟨rfl, rfl, hnil | hlabel⟩
      · exact absurd (List.isEmpty_iff.2 hnil) hgiven
      · rw [(segmentFault_splitOn hall).2 hlabel] at he
        cases he
    · rename_i hnone
      rw [Except.ok.injEq, Prod.mk.injEq]
      constructor
      · rintro ⟨rfl, rfl⟩
        exact ⟨rfl, rfl, .inr ((segmentFault_splitOn hall).1 hnone)⟩
      · rintro ⟨rfl, rfl, -⟩
        exact ⟨rfl, rfl⟩

/-- **An identifier is read with all that belongs to it**, or there is none. -/
theorem takeIdentifier_ok_iff {p : Part} {s taken rest : List Char} :
    takeIdentifier p s = .ok (taken, rest) ↔
      s = taken ++ rest ∧ (taken = [] ∨ IsLabel p taken) ∧
      ∀ c ∈ rest.head?, isLabelChar c = false := by
  rw [takeIdentifier_cut]
  constructor
  · rintro ⟨rfl, rfl, hlabel⟩
    exact ⟨List.takeWhile_append_dropWhile.symm, hlabel, head?_dropWhile isLabelChar s⟩
  · rintro ⟨rfl, hlabel, hrest⟩
    have htaken : ∀ c ∈ taken, isLabelChar c = true := by
      rcases hlabel with rfl | hlabel
      · exact nofun
      · exact hlabel.isLabelChar
    exact ⟨takeWhile_run htaken hrest, dropWhile_run htaken hrest, hlabel⟩

/-! ## The stages of the reading -/

theorem parsed_bind_ok {α β : Type} {x : Parsed α} {f : α → Parsed β} {b : β}
    (h : (x >>= f) = .ok b) :
    ∃ a, x = .ok a ∧ f a = .ok b := by
  cases x with
  | error e => cases h
  | ok a => exact ⟨a, rfl, h⟩

/-- A label behind its mark, if the mark is there: the label, what follows it and where that stands. -/
def takeMarked (p before : Part) (mark : Char) (s : List Char) : Parsed (List Char × List Char × Part) :=
  if s.head? = some mark then
    takeIdentifier p s.tail >>= fun r => if r.1.isEmpty then throw (.emptySegment p)
      else pure (r.1, r.2, p)
  else pure ([], s, before)

theorem takeMarked_mark {α : Type} {p before : Part} {mark : Char} (s : List Char)
    (k : List Char × List Char × Part → Parsed α) : takeMarked p before mark (mark :: s) >>= k =
      takeIdentifier p s >>= fun r => if r.1.isEmpty then throw (.emptySegment p)
        else k (r.1, r.2, p) := by
  rw [takeMarked, if_pos List.head?_cons, List.tail_cons, bind_assoc]
  refine bind_congr fun r => ?_
  split <;> rfl

theorem takeMarked_no_mark {p before : Part} {mark : Char} {s : List Char}
    (hs : ∀ rest, s = mark :: rest → False) :
    takeMarked p before mark s = pure ([], s, before) := by
  refine if_neg fun hhead => ?_
  obtain ⟨rest, hrest⟩ := List.head?_eq_some_iff.1 hhead
  exact hs rest hrest

/-- The labels behind the numbers of a version, up to the end of the text. -/
def takeLabels (major minor patch : Nat) (s : List Char) : Parsed Version := do
  let (pre, s, position) ← takeMarked .pre .patch '-' s
  let (build, s, position) ← takeMarked .build position '+' s
  match s with
  | [] => return ⟨major, minor, patch, String.ofList pre, String.ofList build⟩
  | c :: _ => throw (.unexpectedCharAfter position c)

theorem parse_eq {s : String} (hs : s.toList ≠ []) : parse s = (do
    let (major, cs) ← takeNumber .major 0 false s.toList
    let cs ← takeDot .major cs
    let (minor, cs) ← takeNumber .minor 0 false cs
    let cs ← takeDot .minor cs
    let (patch, cs) ← takeNumber .patch 0 false cs
    takeLabels major minor patch cs) := by
  unfold parse
  dsimp only
  rw [if_neg (by simpa using hs)]
  refine bind_congr fun ⟨major, cs⟩ => bind_congr fun cs => bind_congr fun ⟨minor, cs⟩ =>
    bind_congr fun cs =>
    bind_congr fun ⟨patch, cs⟩ => ?_
  unfold takeLabels
  dsimp only
  split
  · rw [takeMarked_mark]
    refine bind_congr fun ⟨pre, cs⟩ => ?_
    dsimp only
    split
    · rfl
    · rw [pure_bind]
      dsimp only
      split
      · rw [takeMarked_mark]
        refine bind_congr fun ⟨build, cs⟩ => ?_
        dsimp only
        split <;> rfl
      · rename_i hno
        exact (congrArg (· >>= _) (takeMarked_no_mark hno)).symm
  · rename_i hno
    rw [takeMarked_no_mark hno, pure_bind, pure_bind]
    dsimp only
    split
    · rw [takeMarked_mark]
      refine bind_congr fun ⟨build, cs⟩ => ?_
      dsimp only
      split <;> rfl
    · rename_i hno
      exact (congrArg (· >>= _) (takeMarked_no_mark hno)).symm

theorem marked_empty (mark : Char) : marked mark "" = [] := rfl

theorem marked_of_ne {mark : Char} {label : String} (h : label ≠ "") :
    marked mark label = mark :: label.toList := by
  rw [marked, if_neg (by simpa using h)]

/-- A label that has been read stands behind its mark. -/
theorem text_of_takeMarked {p before position : Part} {mark : Char} {s label rest : List Char}
    (h : takeMarked p before mark s = .ok (label, rest, position)) :
    s = marked mark (String.ofList label) ++ rest ∧
      (String.ofList label = "" ∨ IsLabel p (String.ofList label).toList) := by
  unfold takeMarked at h
  split at h
  · rename_i hhead
    obtain ⟨t, rfl⟩ := List.head?_eq_some_iff.1 hhead
    obtain ⟨⟨taken, r⟩, htaken, h⟩ := parsed_bind_ok h
    split at h
    · cases h
    · rename_i hgiven
      cases h
      obtain ⟨rfl, hlabel, -⟩ := takeIdentifier_ok_iff.1 htaken
      have hne : taken ≠ [] := fun hnil => hgiven (List.isEmpty_iff.2 hnil)
      have hsome : String.ofList taken ≠ "" := fun hnil => hne (by simpa using hnil)
      rw [marked_of_ne hsome, String.toList_ofList]
      exact ⟨rfl, .inr (hlabel.resolve_left hne)⟩
  · cases h
    exact ⟨rfl, .inl rfl⟩

/-- **A label behind its mark is read**, whatever does not belong to it follows. -/
theorem takeMarked_marked {p : Part} {label : String} (before : Part) (mark : Char) (rest : List Char)
    (hlabel : label = "" ∨ IsLabel p label.toList) (hrest : ∀ c ∈ rest.head?, isLabelChar c = false)
    (hmark : rest.head? ≠ some mark) :
    ∃ position, takeMarked p before mark (marked mark label ++ rest) =
      .ok (label.toList, rest, position) := by
  rcases hlabel with rfl | hlabel
  · exact ⟨before, if_neg hmark⟩
  · have hne := hlabel.ne_nil
    have hgiven : label ≠ "" := by
      rintro rfl
      exact hne rfl
    refine ⟨p, ?_⟩
    rw [marked_of_ne hgiven, List.cons_append, takeMarked, if_pos List.head?_cons, List.tail_cons,
      takeIdentifier_ok_iff.2 ⟨rfl, .inr hlabel, hrest⟩]
    exact if_neg fun hempty => hne (List.isEmpty_iff.1 hempty)

theorem takeLabels_ok_iff {major minor patch : Nat} {s : List Char} {v : Version} :
    takeLabels major minor patch s = .ok v ↔
      v.major = major ∧ v.minor = minor ∧ v.patch = patch ∧
      (v.pre = "" ∨ IsLabel .pre v.pre.toList) ∧
        (v.build = "" ∨ IsLabel .build v.build.toList) ∧ s = marked '-' v.pre ++ marked '+' v.build := by
  constructor
  · intro h
    obtain ⟨⟨pre, t, position⟩, hfirst, h⟩ := parsed_bind_ok h
    obtain ⟨⟨build, u, place⟩, hsecond, h⟩ := parsed_bind_ok h
    obtain ⟨hs, hpre⟩ := text_of_takeMarked hfirst
    obtain ⟨ht, hbuild⟩ := text_of_takeMarked hsecond
    cases u with
    | cons c u => cases h
    | nil =>
      cases h
      exact ⟨rfl, rfl, rfl, hpre, hbuild, by rw [hs, ht, List.append_nil]⟩
  · obtain ⟨_, _, _, pre, build⟩ := v
    rintro ⟨rfl, rfl, rfl, hpre, hbuild, rfl⟩
    dsimp only at hpre hbuild ⊢
    have hplus : ∀ c ∈ (marked '+' build).head?, c = '+' := head?_marked '+' build
    obtain ⟨position, hfirst⟩ := takeMarked_marked .patch '-' (marked '+' build) hpre
      (fun c hc => by rw [hplus c hc, isLabelChar_plus])
        (fun hhead => absurd (hplus '-' hhead) (by decide))
    obtain ⟨place, hsecond⟩ := takeMarked_marked position '+' [] hbuild nofun nofun
    rw [List.append_nil] at hsecond
    unfold takeLabels
    rw [hfirst]
    change takeMarked .build position '+' (marked '+' build) >>= _ = _
    rw [hsecond, String.ofList_toList]
    change Except.ok _ = Except.ok _
    rw [String.ofList_toList]

theorem isAsciiDigit_dot (s : List Char) : ∀ c ∈ ('.' :: s).head?, isAsciiDigit c = false := by
  rintro c ⟨⟩
  decide

/-- **The exact reading accepts the texts of semantic versions and no others.** -/
theorem parse_ok_iff {s : String} {v : Version} : parse s = .ok v ↔ v.IsSemantic ∧ s = v.text := by
  constructor
  · intro h
    by_cases hs : s.toList = []
    · rw [parse, hs] at h
      cases h
    · rw [parse_eq hs] at h
      obtain ⟨⟨major, cs₁⟩, hmajor, h⟩ := parsed_bind_ok h
      obtain ⟨cs₂, hdot₁, h⟩ := parsed_bind_ok h
      obtain ⟨⟨minor, cs₃⟩, hminor, h⟩ := parsed_bind_ok h
      obtain ⟨cs₄, hdot₂, h⟩ := parsed_bind_ok h
      obtain ⟨⟨patch, cs₅⟩, hpatch, h⟩ := parsed_bind_ok h
      obtain ⟨hmajor, hs, -⟩ := takeNumber_ok_iff.1 hmajor
      obtain ⟨hminor, hcs₂, -⟩ := takeNumber_ok_iff.1 hminor
      obtain ⟨hpatch, hcs₄, -⟩ := takeNumber_ok_iff.1 hpatch
      obtain ⟨rfl, rfl, rfl, hpre, hbuild, hlabels⟩ := takeLabels_ok_iff.1 h
      refine ⟨⟨hmajor, hminor, hpatch, hpre, hbuild⟩, String.toList_inj.1 ?_⟩
      rw [toList_text, hs, takeDot_ok_iff.1 hdot₁, hcs₂, takeDot_ok_iff.1 hdot₂, hcs₄, hlabels]
  · rintro ⟨hv, rfl⟩
    have hlabels : ∀ c ∈ (marked '-' v.pre ++ marked '+' v.build).head?, isAsciiDigit c = false :=
      fun c hc => by
      rcases head?_labels c hc with rfl | rfl <;> decide
    have hgiven : v.text.toList ≠ [] := by
      rw [toList_text]
      exact fun hnil => Nat.toDigits_ne_nil (List.append_eq_nil_iff.1 hnil).1
    rw [parse_eq hgiven, toList_text, takeNumber_toDigits hv.major (isAsciiDigit_dot _)]
    change (takeNumber .minor 0 false _ >>= _) = _
    rw [takeNumber_toDigits hv.minor (isAsciiDigit_dot _)]
    change (takeNumber .patch 0 false _ >>= _) = _
    rw [takeNumber_toDigits hv.patch hlabels]
    exact takeLabels_ok_iff.2 ⟨rfl, rfl, rfl, hv.pre, hv.build, rfl⟩

theorem IsSemantic.parse_text {v : Version} (hv : v.IsSemantic) : parse v.text = .ok v :=
  parse_ok_iff.2 ⟨hv, rfl⟩

end PolicyForge.Version
