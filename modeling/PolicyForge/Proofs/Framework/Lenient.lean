import PolicyForge.Proofs.Framework.Strict
/-!
# Versions read loosely

The lenient reading gives what the exact one gives where that reads anything, and takes versions with
fewer or with more numbers besides (`parseLenient_extends`).  What it reads is a semantic version, so
the text of the version it gives is read exactly.
-/
namespace PolicyForge.Version

open Text

/-! ## Numbers and pre-releases -/

theorem number?_unsigned {cs : List Char} (hsign : cs.head? ≠ some '+') : number? cs =
    if cs.isEmpty || !cs.all isAsciiDigit then none
    else if Nat.ofDigitChars 10 cs 0 < limit then some (Nat.ofDigitChars 10 cs 0) else none := by
  have hvalue : cs.foldl (fun n c => n * 10 + (c.toNat - '0'.toNat)) 0 = Nat.ofDigitChars 10 cs 0 := by
    simp only [Nat.ofDigitChars, Nat.mul_comm]
  unfold number?
  split
  · exact absurd List.head?_cons hsign
  · rw [← hvalue]

theorem number?_toDigits {n : Nat} (hn : n < 2 ^ 64) : number? (Nat.toDigits 10 n) = some n := by
  have hdigits : ∀ c ∈ Nat.toDigits 10 n, isAsciiDigit c = true := fun c => isAsciiDigit_of_mem_toDigits
  have hsign : (Nat.toDigits 10 n).head? ≠ some '+' := fun h =>
    absurd (hdigits '+' (List.mem_of_head? h)) (by decide)
  rw [number?_unsigned hsign, List.isEmpty_eq_false_iff.2 Nat.toDigits_ne_nil, List.all_eq_true.2 hdigits,
    Nat.ofDigitChars_ten_toDigits]
  exact if_pos hn

theorem lt_of_number? {cs : List Char} {n : Nat} (h : number? cs = some n) : n < 2 ^ 64 := by
  unfold number? at h
  simp only [Option.ite_none_left_eq_some, Option.ite_none_right_eq_some] at h
  obtain ⟨-, hlt, hn⟩ := h
  rw [← Option.some.inj hn]
  exact hlt

theorem lt_of_numberOrZero? {cs : Option (List Char)} {n : Nat} (h : numberOrZero? cs = some n) :
    n < 2 ^ 64 := by
  cases cs with
  | none =>
    cases h
    decide
  | some cs => exact lt_of_number? h

theorem preRelease?_eq_some_iff {s : List Char} {pre : String} :
    preRelease? s = some pre ↔ s = pre.toList ∧ (pre = "" ∨ IsLabel .pre pre.toList) := by
  have hread : ∀ taken, takeIdentifier .pre s = .ok (taken, []) ↔
      s = taken ∧ (taken = [] ∨ IsLabel .pre taken) := by
    intro taken
    rw [takeIdentifier_ok_iff, List.append_nil,
      and_iff_left (show ∀ c ∈ ([] : List Char).head?, _ from nofun)]
  have hsome : preRelease? s = some pre ↔ takeIdentifier .pre s = .ok (pre.toList, []) := by
    unfold preRelease?
    split
    · rename_i taken htaken
      rw [htaken, Except.ok.injEq, Prod.mk.injEq, Option.some.injEq, and_iff_left rfl]
      exact ⟨fun h => by rw [← h, String.toList_ofList], fun h => by rw [h, String.ofList_toList]⟩
    · rename_i hnone
      exact ⟨nofun, fun h => absurd h (hnone _)⟩
  rw [hsome, hread, String.toList_eq_nil_iff]

/-! ## The loose reading -/

/-- What a version starts with, as it is spelled with one, two or three numbers; behind three
numbers there may be more of anything but hyphens. -/
inductive Spells : List Char → Nat → Nat → Nat → Prop
  | one (a : Nat) : Spells (join ['.'] [Nat.toDigits 10 a]) a 0 0
  | two (a b : Nat) : Spells (join ['.'] [Nat.toDigits 10 a, Nat.toDigits 10 b]) a b 0
  | three (a b c : Nat) (more : List (List Char)) (unhyphened : ∀ w ∈ more, '-' ∉ w) :
    Spells (join ['.'] (Nat.toDigits 10 a :: Nat.toDigits 10 b :: Nat.toDigits 10 c :: more)) a b c

theorem not_mem_toDigits {c : Char} (hc : isAsciiDigit c = false) (n : Nat) : c ∉ Nat.toDigits 10 n := by
  intro hmem
  rw [isAsciiDigit_of_mem_toDigits hmem] at hc
  cases hc

theorem Spells.hyphen_not_mem {core : List Char} {a b c : Nat} (h : Spells core a b c) : '-' ∉ core := by
  have hnumber : ∀ n, '-' ∉ Nat.toDigits 10 n := not_mem_toDigits (by decide)
  have hjoin : ∀ ws : List (List Char), (∀ w ∈ ws, '-' ∉ w) → '-' ∉ join ['.'] ws := by
    intro ws hws hmem
    rcases mem_join hmem with hdot | ⟨w, hw, hmem⟩
    · exact absurd hdot (by decide)
    · exact hws w hw hmem
  cases h with
  | one a => exact hjoin _ (by simp [hnumber])
  | two a b => exact hjoin _ (by simp [hnumber])
  | three a b c more unhyphened => exact hjoin _ (by simpa [hnumber] using unhyphened)

theorem Spells.parts {core : List Char} {a b c : Nat} (h : Spells core a b c) (ha : a < 2 ^ 64)
    (hb : b < 2 ^ 64) (hc : c < 2 ^ 64) : number? ((splitOn (· == '.') core).headD []) = some a ∧
      numberOrZero? (splitOn (· == '.') core)[1]? = some b ∧
      numberOrZero? (splitOn (· == '.') core)[2]? = some c := by
  have hdot : ∀ n, '.' ∉ Nat.toDigits 10 n := not_mem_toDigits (by decide)
  cases h with
  | one a =>
    rw [splitOn_join_cons (hdot a)]
    exact ⟨number?_toDigits ha, rfl, rfl⟩
  | two a b =>
    rw [splitOn_join_cons (hdot a), if_neg (List.cons_ne_nil _ _), splitOn_join_cons (hdot b)]
    exact ⟨number?_toDigits ha, number?_toDigits hb, rfl⟩
  | three a b c more =>
    rw [splitOn_join_cons (hdot a), if_neg (List.cons_ne_nil _ _), splitOn_join_cons (hdot b),
      if_neg (List.cons_ne_nil _ _), splitOn_join_cons (hdot c)]
    exact ⟨number?_toDigits ha, number?_toDigits hb, number?_toDigits hc⟩

/-- **Up to three numbers, and more behind them, are read loosely**, with or without a pre-release. -/
theorem parseLoose_of_spells {core : List Char} {a b c : Nat} {pre : String} (h : Spells core a b c)
    (ha : a < 2 ^ 64) (hb : b < 2 ^ 64) (hc : c < 2 ^ 64)
    (hpre : pre = "" ∨ IsLabel .pre pre.toList) :
    parseLoose (String.ofList (core ++ marked '-' pre)) = some ⟨a, b, c, pre, ""⟩ := by
  obtain ⟨hmajor, hminor, hpatch⟩ := h.parts ha hb hc
  have hrun : ∀ x ∈ core, (x != '-') = true :=
    fun x hx => bne_iff_ne.2 fun he => h.hyphen_not_mem (he ▸ hx)
  have hhyphen : ∀ x ∈ (marked '-' pre).head?, (x != '-') = false := fun x hx => by
    rw [head?_marked '-' pre x hx]
    rfl
  have hlabel : preRelease? pre.toList = some pre := preRelease?_eq_some_iff.2 ⟨rfl, hpre⟩
  unfold Version.parseLoose
  dsimp only
  rw [String.toList_ofList, takeWhile_run hrun hhyphen, dropWhile_run hrun hhyphen, hmajor, hminor,
    hpatch]
  by_cases hempty : pre = ""
  · subst hempty
    rfl
  · rw [marked_of_ne hempty]
    change (preRelease? pre.toList >>= _) = _
    rw [hlabel]
    rfl

/-! ## Both readings of one text -/

theorem isLabelChar_of_label {p : Part} {label : String} (h : label = "" ∨ IsLabel p label.toList) :
    ∀ c ∈ label.toList, isLabelChar c = true := by
  rcases h with rfl | h
  · exact nofun
  · exact h.isLabelChar

theorem IsSemantic.isSpelled {v : Version} (hv : v.IsSemantic) : v.IsSpelled :=
  ⟨isLabelChar_of_label hv.pre, isLabelChar_of_label hv.build⟩

theorem text_eq_of_build_empty {v : Version} (hbuild : v.build = "") : v.text = String.ofList
    (join ['.'] [Nat.toDigits 10 v.major, Nat.toDigits 10 v.minor, Nat.toDigits 10 v.patch] ++
      marked '-' v.pre) := by
  rw [← String.toList_inj, toList_text, hbuild, String.toList_ofList]
  simp [join, marked_empty]

/-- What is spelled in this way is the text of no other version than the one that the loose reading
gives. -/
theorem Spells.eq_of_text {core : List Char} {a b c : Nat} {pre : String} {v : Version}
    (h : Spells core a b c) (hpre : pre = "" ∨ IsLabel .pre pre.toList) (hv : v.IsSemantic)
    (htext : v.text.toList = core ++ marked '-' pre) : v = ⟨a, b, c, pre, ""⟩ := by
  have hdigits : ∀ n, ∀ x ∈ Nat.toDigits 10 n, isAsciiDigit x = true :=
    fun n x => isAsciiDigit_of_mem_toDigits
  have hlabel : ∀ x ∈ (marked '-' pre).head?, x = '-' := head?_marked '-' pre
  have hend : ∀ x ∈ (marked '-' pre).head?, isAsciiDigit x = false := fun x hx => by
    rw [hlabel x hx]
    decide
  have hlabels : ∀ x ∈ (marked '-' v.pre ++ marked '+' v.build).head?,
      x ≠ '.' ∧ isAsciiDigit x = false := by
    intro x hx
    rcases head?_labels x hx with rfl | rfl <;> exact ⟨by decide, by decide⟩
  -- a number in the text of a version is followed by a dot, and the last one by none
  have hshort : ∀ s : List Char, marked '-' pre ≠ '.' :: s := fun s hs => by
    have hhead := hlabel '.' (by rw [hs]; rfl)
    exact absurd hhead (by decide)
  cases h with
  | one a =>
    rw [toList_text] at htext
    obtain ⟨-, hrest⟩ := run_inj (hdigits _) (hdigits a) (isAsciiDigit_dot _) hend htext
    exact absurd hrest.symm (hshort _)
  | two a b =>
    rw [toList_text, join, List.append_assoc, List.append_assoc] at htext
    · obtain ⟨-, hrest⟩ :=
        run_inj (hdigits _) (hdigits a) (isAsciiDigit_dot _) (isAsciiDigit_dot _) htext
      obtain ⟨-, hrest⟩ :=
        run_inj (hdigits _) (hdigits b) (isAsciiDigit_dot _) hend (List.cons.inj hrest).2
      exact absurd hrest.symm (hshort _)
    · exact List.cons_ne_nil _ _
  | three a b c more =>
    cases more with
    | nil =>
      have hw : IsSpelled ⟨a, b, c, pre, ""⟩ :=
        ⟨isLabelChar_of_label hpre, isLabelChar_of_label (p := .build) (.inl rfl)⟩
      refine text_inj hv.isSpelled hw (String.toList_inj.1 ?_)
      rw [htext, text_eq_of_build_empty rfl, String.toList_ofList]
    | cons w ws =>
      rw [toList_text, join_cons _ _ (List.cons_ne_nil _ _), join_cons _ _ (List.cons_ne_nil _ _),
        join_cons _ _ (List.cons_ne_nil _ _)] at htext
      simp only [List.append_assoc, List.cons_append] at htext
      obtain ⟨-, hrest⟩ := run_inj (hdigits _) (hdigits a) (isAsciiDigit_dot _) (isAsciiDigit_dot _) htext
      obtain ⟨-, hrest⟩ := run_inj (hdigits _) (hdigits b) (isAsciiDigit_dot _) (isAsciiDigit_dot _)
        (List.cons.inj hrest).2
      obtain ⟨-, hrest⟩ :=
        run_inj (hdigits _) (hdigits c) (fun x hx => (hlabels x hx).2) (isAsciiDigit_dot _)
        (List.cons.inj hrest).2
      exact absurd rfl (hlabels '.' (by rw [hrest]; rfl)).1

theorem isSemantic_of_parseLoose {s : String} {v : Version} (h : parseLoose s = some v) :
    v.IsSemantic := by
  unfold parseLoose at h
  simp only [Option.bind_eq_bind, Option.bind_eq_some_iff] at h
  obtain ⟨major, hmajor, minor, hminor, patch, hpatch, h⟩ := h
  split at h
  · cases h
    exact ⟨lt_of_number? hmajor, lt_of_numberOrZero? hminor, lt_of_numberOrZero? hpatch,
      .inl rfl, .inl rfl⟩
  · obtain ⟨pre, hpre, h⟩ := Option.bind_eq_some_iff.1 h
    cases h
    exact ⟨lt_of_number? hmajor, lt_of_numberOrZero? hminor, lt_of_numberOrZero? hpatch,
      (preRelease?_eq_some_iff.1 hpre).2, .inl rfl⟩

/-- Every version that has been read is a semantic version. -/
theorem isSemantic_of_parseLenient {s : String} {v : Version} (h : parseLenient s = some v) :
    v.IsSemantic := by
  unfold parseLenient at h
  split at h
  · rename_i w hw
    cases h
    exact (parse_ok_iff.1 hw).1
  · exact isSemantic_of_parseLoose h

theorem parseLenient_of_parse {s : String} {v : Version} (h : parse s = .ok v) :
    parseLenient s = some v := by
  rw [parseLenient, h]

theorem IsSemantic.parseLenient_text {v : Version} (hv : v.IsSemantic) : parseLenient v.text = some v :=
  parseLenient_of_parse hv.parse_text

/-- **The lenient reading extends the exact one.**  A text of a semantic version gives that version,
by the loose reading alone if it has no build metadata; up to three numbers and anything but hyphens
behind them give the version of these numbers, with the pre-release behind a hyphen if there is one;
and the text of a version that has been read gives the version again. -/
theorem parseLenient_extends :
    (∀ t v, parse t = .ok v ↔ v.IsSemantic ∧ t = v.text) ∧
    (∀ t v, parse t = .ok v → parseLenient t = some v ∧ (v.build = "" → parseLoose t = some v)) ∧
    (∀ core a b c pre, Spells core a b c → a < 2 ^ 64 → b < 2 ^ 64 → c < 2 ^ 64 →
      (pre = "" ∨ IsLabel .pre pre.toList) →
      parseLenient (String.ofList (core ++ marked '-' pre)) = some ⟨a, b, c, pre, ""⟩) ∧
    (∀ t v, parseLenient t = some v → parseLenient v.text = some v) := by
  refine ⟨fun t v => parse_ok_iff, fun t v h => ⟨parseLenient_of_parse h, fun hbuild => ?_⟩, ?_,
    fun t v h => ?_⟩
  · obtain ⟨hv, rfl⟩ := parse_ok_iff.1 h
    have hloose :=
      parseLoose_of_spells (.three v.major v.minor v.patch [] nofun) hv.major hv.minor
        hv.patch hv.pre
    rw [text_eq_of_build_empty hbuild, hloose, ← hbuild]
  · intro core a b c pre hcore ha hb hc hpre
    cases hexact : parse (String.ofList (core ++ marked '-' pre)) with
    | error e => rw [parseLenient, hexact, parseLoose_of_spells hcore ha hb hc hpre]
    | ok v =>
      obtain ⟨hv, htext⟩ := parse_ok_iff.1 hexact
      rw [parseLenient_of_parse hexact,
        hcore.eq_of_text hpre hv (by rw [← htext, String.toList_ofList])]
  · exact (isSemantic_of_parseLenient h).parseLenient_text

/-- A fourth number that is none and holds a plus sign, and a pre-release with a hyphen of its own;
without the fourth number both readings give the same. -/
theorem parseLenient_extends_dropped : Spells "8.0.4.+x".toList 8 0 4 ∧ IsLabel .pre "rc-1.2".toList ∧
    parseLenient "8.0.4.+x-rc-1.2" = some ⟨8, 0, 4, "rc-1.2", ""⟩ ∧
    parseLenient "8.0.4-rc-1.2" = some ⟨8, 0, 4, "rc-1.2", ""⟩ ∧
    parse "8.0.4-rc-1.2" = .ok ⟨8, 0, 4, "rc-1.2", ""⟩ ∧
    parseLoose "8.0.4-rc-1.2" = some ⟨8, 0, 4, "rc-1.2", ""⟩ := by
  obtain ⟨hexact, hboth, hspelled, hagain⟩ := parseLenient_extends
  have hcore : Spells "8.0.4.+x".toList 8 0 4 := .three 8 0 4 ["+x".toList] (by decide)
  have hpre : IsLabel .pre "rc-1.2".toList := by decide
  have hsemantic : (⟨8, 0, 4, "rc-1.2", ""⟩ : Version).IsSemantic := by decide
  have htext : (⟨8, 0, 4, "rc-1.2", ""⟩ : Version).text = "8.0.4-rc-1.2" := by decide +kernel
  have hdropped := hspelled _ 8 0 4 "rc-1.2" hcore (by decide) (by decide) (by decide) (.inr hpre)
  have hparse := (hexact "8.0.4-rc-1.2" _).2 ⟨hsemantic, htext.symm⟩
  exact ⟨hcore, hpre, hdropped, htext ▸ hagain _ _ hdropped, hparse, (hboth _ _ hparse).2 rfl⟩

end PolicyForge.Version
