import Mathlib.Data.Char
import Mathlib.Data.List.Lex
import Mathlib.Data.Prod.Lex
import Mathlib.Data.Sum.Order
import Mathlib.Order.Compare
import Mathlib.Order.WithBot
import PolicyForge.Proofs.Framework.Strict
/-!
# Versions in order

Each version has a rank in a linear order that says what semantic versions say of precedence (`rank`).
Versions compare as their ranks do (`order_compares`), and no two semantic versions have one rank
(`rank_inj`), so the greatest of some versions is one that no other exceeds, wherever it stands among
them (`greatest_eq_some_iff`).
-/
namespace PolicyForge.Version

open Text

/-! ## Ranks -/

/-- An identifier: numbers as `value` says, below every word. -/
def identifierRank {α : Type} (value : List Char → α) (w : List Char) : α ⊕ₗ List Char :=
  if w.all isAsciiDigit then toLex (.inl (value w)) else toLex (.inr w)

theorem identifierRank_number {α : Type} {value : List Char → α} {w : List Char}
    (h : w.all isAsciiDigit = true) :
    identifierRank value w = toLex (.inl (value w)) :=
  if_pos h

theorem identifierRank_word {α : Type} {value : List Char → α} {w : List Char}
    (h : w.all isAsciiDigit = false) :
    identifierRank value w = toLex (.inr w) :=
  if_neg (by rw [h]; exact Bool.false_ne_true)

/-- A label, identifier by identifier from the left. -/
def labelRank {α : Type} (value : List Char → α) (label : String) : List (α ⊕ₗ List Char) :=
  (splitOn (· == '.') label.toList).map (identifierRank value)

def figuresValue (ds : List Char) : ℕ := Nat.ofDigitChars 10 ds 0

/-- A pre-release, below the release. -/
def preRank (pre : String) : WithTop (List (ℕ ⊕ₗ List Char)) :=
  if pre = "" then ⊤ else ↑(labelRank figuresValue pre)

/-- A number in build metadata, where zeros in front make the difference between equal ones. -/
def paddedValue (ds : List Char) : ℕ ×ₗ ℕ := toLex (figuresValue ds, ds.length)

/-- Build metadata, above none at all. -/
def buildRank (build : String) : List ((ℕ ×ₗ ℕ) ⊕ₗ List Char) :=
  if build = "" then [] else labelRank paddedValue build

/-- The precedence of a version: its numbers, its pre-release, and build metadata between versions
that are even. -/
def rank (v : Version) :
    ℕ ×ₗ ℕ ×ₗ ℕ ×ₗ WithTop (List (ℕ ⊕ₗ List Char)) ×ₗ List ((ℕ ×ₗ ℕ) ⊕ₗ List Char) :=
  toLex (v.major, toLex (v.minor, toLex (v.patch, toLex (preRank v.pre, buildRank v.build))))

/-! ## Comparisons one after the other -/

theorem firstOf_cons (o : Ordering) (os : List Ordering) : firstOf (o :: os) = o.then (firstOf os) := by
  cases o <;> rfl

theorem compares_compare {α : Type} [LinearOrder α] (a b : α) : (compare a b).Compares a b :=
  (compare_iff a b).1 rfl

theorem compares_then {α β : Type} [LT α] [LT β] {o p : Ordering} {a a' : α} {b b' : β}
    (ho : o.Compares a a') (hp : p.Compares b b') :
    (o.then p).Compares (toLex (a, b)) (toLex (a', b')) := by
  cases o with
  | lt => exact Prod.Lex.toLex_lt_toLex.2 (.inl ho)
  | gt => exact Prod.Lex.toLex_lt_toLex.2 (.inl ho)
  | eq =>
    obtain rfl : a = a' := ho
    cases p with
    | lt => exact Prod.Lex.toLex_lt_toLex.2 (.inr ⟨rfl, hp⟩)
    | gt => exact Prod.Lex.toLex_lt_toLex.2 (.inr ⟨rfl, hp⟩)
    | eq => exact congrArg (toLex (a, ·)) hp

/-- What keeps the order and takes nothing for even keeps comparisons. -/
theorem compares_map {α β : Type} [LT α] [LT β] {f : α → β} (hf : ∀ {a b}, a < b → f a < f b)
    {o : Ordering} {a b : α} (h : o.Compares a b) : o.Compares (f a) (f b) := by
  cases o with
  | lt => exact hf h
  | gt => exact hf h
  | eq => exact congrArg f h

/-! ## Identifiers -/

theorem compareChars_cons_ne {a b : Char} (hab : a ≠ b) (s t : List Char) :
    a.toNat < b.toNat ∧ compareChars (a :: s) (b :: t) = .lt ∨
      b.toNat < a.toNat ∧ compareChars (a :: s) (b :: t) = .gt := by
  have hcode : a.toNat ≠ b.toNat := fun he => hab (Char.toNat_inj.mp he)
  rw [compareChars, if_neg (by simpa using hab)]
  rcases Nat.lt_or_gt_of_ne hcode with hlt | hgt
  · exact .inl ⟨hlt, Nat.compare_eq_lt.2 hlt⟩
  · exact .inr ⟨hgt, Nat.compare_eq_gt.2 hgt⟩

theorem compareChars_cons_self (a : Char) (s t : List Char) :
    compareChars (a :: s) (a :: t) = compareChars s t := by
  rw [compareChars, if_pos (beq_self_eq_true a)]

theorem compareChars_compares : ∀ (s t : List Char), (compareChars s t).Compares s t
  | [], [] => rfl
  | [], _ :: _ => List.Lex.nil
  | _ :: _, [] => List.Lex.nil
  | a :: s, b :: t => by
    by_cases hab : a = b
    · subst hab
      rw [compareChars_cons_self]
      exact compares_map (fun h => List.Lex.cons h) (compareChars_compares s t)
    · rcases compareChars_cons_ne hab s t with ⟨hlt, heq⟩ | ⟨hgt, heq⟩
      · rw [heq]
        exact List.Lex.rel hlt
      · rw [heq]
        exact List.Lex.rel hgt

theorem compareChars_figures : ∀ {ds es : List Char}, (∀ c ∈ ds, isAsciiDigit c = true) →
    (∀ c ∈ es, isAsciiDigit c = true) → ds.length = es.length →
      (compareChars ds es).Compares (figuresValue ds) (figuresValue es)
  | [], [], _, _, _ => rfl
  | d :: ds, e :: es, hds, hes, hlength => by
    rw [List.forall_mem_cons] at hds hes
    have hrest : ds.length = es.length := Nat.succ.inj hlength
    by_cases hde : d = e
    · subst hde
      have ih := compareChars_figures hds.2 hes.2 hrest
      rw [compareChars_cons_self]
      simp only [figuresValue, Nat.ofDigitChars_cons, Nat.mul_zero, Nat.zero_add]
      rw [Nat.ofDigitChars_eq_ofDigitChars_zero (l := ds),
        Nat.ofDigitChars_eq_ofDigitChars_zero (l := es), hrest]
      exact compares_map (fun h => Nat.add_lt_add_left h _) ih
    · rcases compareChars_cons_ne hde ds es with ⟨hlt, heq⟩ | ⟨hgt, heq⟩
      · rw [heq]
        exact ofDigitChars_cons_lt hds.2 hds.1 hrest hlt
      · rw [heq]
        exact ofDigitChars_cons_lt hes.2 hes.1 hrest.symm hgt

/-- **Numbers compare by length first and by figures then**, if no zero stands in front of the
longer one. -/
theorem compares_figures {ds es : List Char} (hds : ∀ c ∈ ds, isAsciiDigit c = true)
    (hes : ∀ c ∈ es, isAsciiDigit c = true) (hless : ds.length < es.length → es.head? ≠ some '0')
    (hmore : es.length < ds.length → ds.head? ≠ some '0') :
    ((compare ds.length es.length).then (compareChars ds es)).Compares (figuresValue ds)
    (figuresValue es) := by
  have hlength := compares_compare ds.length es.length
  cases hc : compare ds.length es.length with
  | lt =>
    rw [hc] at hlength
    exact ofDigitChars_lt_of_length_lt hds hes (hless hlength) hlength
  | gt =>
    rw [hc] at hlength
    exact ofDigitChars_lt_of_length_lt hes hds (hmore hlength) hlength
  | eq =>
    rw [hc] at hlength
    exact compareChars_figures hds hes hlength

theorem figuresValue_dropWhile_zero :
    ∀ (ds : List Char), figuresValue (ds.dropWhile (· == '0')) = figuresValue ds
  | [] => rfl
  | d :: ds => by
    by_cases hd : d = '0'
    · subst hd
      have ih := figuresValue_dropWhile_zero ds
      rw [figuresValue] at ih ⊢
      rw [List.dropWhile_cons_of_pos (by rfl), ih, figuresValue, figuresValue, Nat.ofDigitChars_cons]
      rfl
    · rw [List.dropWhile_cons_of_neg (by simpa using hd)]

/-- Words compare letter by letter and are above numbers. -/
theorem compareSegments_compares {α : Type} [LT α] {value : List Char → α} {zeros : Bool}
    {a b : List Char}
    (hnumbers : a.all isAsciiDigit = true → b.all isAsciiDigit = true →
      (compareSegments zeros a b).Compares (value a) (value b)) :
    (compareSegments zeros a b).Compares (identifierRank value a) (identifierRank value b) := by
  cases hda : a.all isAsciiDigit with
  | true =>
    rw [identifierRank_number hda]
    cases hdb : b.all isAsciiDigit with
    | true =>
      rw [identifierRank_number hdb]
      exact compares_map (f := fun x => (toLex (.inl x) : α ⊕ₗ List Char)) (fun h => Sum.Lex.inl h)
        (hnumbers hda hdb)
    | false =>
      have heq : compareSegments zeros a b = .lt := by simp [compareSegments, hda, hdb]
      rw [identifierRank_word hdb, heq]
      exact Sum.Lex.inl_lt_inr _ _
  | false =>
    rw [identifierRank_word hda]
    cases hdb : b.all isAsciiDigit with
    | true =>
      have heq : compareSegments zeros a b = .gt := by simp [compareSegments, hda, hdb]
      rw [identifierRank_number hdb, heq]
      exact Sum.Lex.inl_lt_inr _ _
    | false =>
      have heq : compareSegments zeros a b = compareChars a b := by simp [compareSegments, hda, hdb]
      rw [identifierRank_word hdb, heq]
      exact compares_map (f := fun x => (toLex (.inr x) : α ⊕ₗ List Char)) (fun h => Sum.Lex.inr h)
        (compareChars_compares a b)

theorem compareSegments_pre {a b : List Char} (ha : IsIdentifier a ∧ IsCanonical a)
    (hb : IsIdentifier b ∧ IsCanonical b) :
    (compareSegments false a b).Compares (identifierRank figuresValue a)
    (identifierRank figuresValue b) := by
  -- the longer of two numbers has a figure behind the first one, which is therefore no zero
  have hhead : ∀ {ds es : List Char}, ds ≠ [] → es.all isAsciiDigit = true → IsCanonical es →
      ds.length < es.length → es.head? ≠ some '0' := by
    intro ds es hds hes hcanonical hlt hzero
    rw [hcanonical (List.all_eq_true.1 hes) hzero, List.length_singleton] at hlt
    exact hds (List.length_eq_zero_iff.1 (by omega))
  refine compareSegments_compares fun hda hdb => ?_
  have heq : compareSegments false a b = (compare a.length b.length).then (compareChars a b) := by
    simp only [compareSegments, hda, hdb, Bool.false_eq_true, if_false, firstOf_cons]
    rw [firstOf, Ordering.then_eq]
  rw [heq]
  exact compares_figures (List.all_eq_true.1 hda) (List.all_eq_true.1 hdb) (hhead ha.1.1 hdb hb.2)
    (hhead hb.1.1 hda ha.2)

theorem compareSegments_build (a b : List Char) :
    (compareSegments true a b).Compares (identifierRank paddedValue a)
    (identifierRank paddedValue b) := by
  have hcut : ∀ {ds : List Char}, ds.all isAsciiDigit = true →
      ∀ c ∈ ds.dropWhile (· == '0'), isAsciiDigit c = true :=
    fun h c hc => List.all_eq_true.1 h c ((List.dropWhile_sublist _).subset hc)
  have hhead : ∀ ds : List Char, (ds.dropWhile (· == '0')).head? ≠ some '0' := fun ds hzero =>
    absurd (head?_dropWhile (· == '0') ds '0' hzero) (by decide)
  refine compareSegments_compares fun hda hdb => ?_
  have heq : compareSegments true a b =
      ((compare (a.dropWhile (· == '0')).length (b.dropWhile (· == '0')).length).then
        (compareChars (a.dropWhile (· == '0')) (b.dropWhile (· == '0')))).then
          (compare a.length b.length) := by
    simp only [compareSegments, hda, hdb, if_true, firstOf_cons]
    rw [firstOf, Ordering.then_eq, Ordering.then_assoc]
  rw [heq]
  refine compares_then ?_ (compares_compare a.length b.length)
  rw [← figuresValue_dropWhile_zero a, ← figuresValue_dropWhile_zero b]
  exact compares_figures (hcut hda) (hcut hdb) (fun _ => hhead b) (fun _ => hhead a)

/-! ## Labels and versions -/

theorem compareLists_compares {α : Type} [LT α] {zeros : Bool} {f : List Char → α} :
    ∀ {s t : List (List Char)},
      (∀ a ∈ s, ∀ b ∈ t, (compareSegments zeros a b).Compares (f a) (f b)) →
      (compareLists zeros s t).Compares (s.map f) (t.map f)
  | [], [], _ => rfl
  | [], _ :: _, _ => List.Lex.nil
  | _ :: _, [], _ => List.Lex.nil
  | a :: s, b :: t, h => by
    have hfirst := h a List.mem_cons_self b List.mem_cons_self
    rw [compareLists, List.map_cons, List.map_cons]
    cases ho : compareSegments zeros a b with
    | lt =>
      rw [ho] at hfirst
      exact List.Lex.rel hfirst
    | gt =>
      rw [ho] at hfirst
      exact List.Lex.rel hfirst
    | eq =>
      rw [ho] at hfirst
      obtain hfirst : f a = f b := hfirst
      rw [hfirst]
      exact compares_map (fun h => List.Lex.cons h)
        (compareLists_compares fun x hx y hy =>
          h x (List.mem_cons_of_mem a hx) y (List.mem_cons_of_mem b hy))

theorem isEmpty_of_ne {s : String} (h : s ≠ "") : s.isEmpty = false := by
  rw [Bool.eq_false_iff]
  simpa using h

theorem preRank_of_label {pre : String} (h : pre ≠ "") :
    preRank pre = ↑(labelRank figuresValue pre) :=
  if_neg h

theorem canonical_of_label {pre : String} (hne : pre ≠ "") (h : pre = "" ∨ IsLabel .pre pre.toList) :
    ∀ w ∈ segmentsOf pre, IsIdentifier w ∧ IsCanonical w := by
  intro w hw
  obtain ⟨hidentifier, hcanonical⟩ := h.resolve_left hne w hw
  exact ⟨hidentifier, hcanonical rfl⟩

theorem comparePre_compares {a b : String} (ha : a = "" ∨ IsLabel .pre a.toList)
    (hb : b = "" ∨ IsLabel .pre b.toList) :
    (comparePre a b).Compares (preRank a) (preRank b) := by
  by_cases hna : a = "" <;> by_cases hnb : b = ""
  · rw [hna, hnb]
    exact (rfl : preRank "" = preRank "")
  · have heq : comparePre a b = .gt := by rw [comparePre, hna, isEmpty_of_ne hnb]; rfl
    rw [heq, hna, preRank_of_label hnb]
    exact WithTop.coe_lt_top _
  · have heq : comparePre a b = .lt := by rw [comparePre, hnb, isEmpty_of_ne hna]; rfl
    rw [heq, hnb, preRank_of_label hna]
    exact WithTop.coe_lt_top _
  · have heq : comparePre a b = compareLists false (segmentsOf a) (segmentsOf b) := by
      rw [comparePre, isEmpty_of_ne hna, isEmpty_of_ne hnb]
    rw [heq, preRank_of_label hna, preRank_of_label hnb]
    exact compares_map (fun h => WithTop.coe_lt_coe.2 h) (compareLists_compares fun x hx y hy =>
      compareSegments_pre (canonical_of_label hna ha x hx) (canonical_of_label hnb hb y hy))

theorem buildRank_of_label {build : String} (h : build ≠ "") :
    buildRank build = labelRank paddedValue build :=
  if_neg h

theorem exists_labelRank_cons {α : Type} (value : List Char → α) (label : String) :
    ∃ x xs, labelRank value label = x :: xs := by
  cases h : labelRank value label with
  | cons x xs => exact ⟨x, xs, rfl⟩
  | nil => exact absurd (List.map_eq_nil_iff.1 h) (splitOn_ne_nil _ _)

theorem compareBuild_compares (a b : String) :
    (compareBuild a b).Compares (buildRank a) (buildRank b) := by
  have hempty : ∀ {label : String}, label ≠ "" → buildRank "" < buildRank label := by
    intro label h
    obtain ⟨x, xs, hx⟩ := exists_labelRank_cons paddedValue label
    rw [buildRank_of_label h, hx]
    exact List.Lex.nil
  by_cases hna : a = "" <;> by_cases hnb : b = ""
  · rw [hna, hnb]
    exact (rfl : buildRank "" = buildRank "")
  · have heq : compareBuild a b = .lt := by rw [compareBuild, hna, isEmpty_of_ne hnb]; rfl
    rw [heq, hna]
    exact hempty hnb
  · have heq : compareBuild a b = .gt := by rw [compareBuild, hnb, isEmpty_of_ne hna]; rfl
    rw [heq, hnb]
    exact hempty hna
  · have heq : compareBuild a b = compareLists true (segmentsOf a) (segmentsOf b) := by
      rw [compareBuild, isEmpty_of_ne hna, isEmpty_of_ne hnb]
    rw [heq, buildRank_of_label hna, buildRank_of_label hnb]
    exact compareLists_compares fun x _ y _ => compareSegments_build x y

/-- **Versions compare as their ranks do.** -/
theorem order_compares {v w : Version} (hv : v.IsSemantic) (hw : w.IsSemantic) :
    (order v w).Compares v.rank w.rank := by
  have heq : order v w =
      (compare v.major w.major).then ((compare v.minor w.minor).then ((compare v.patch w.patch).then
      ((comparePre v.pre w.pre).then (compareBuild v.build w.build)))) := by
    simp only [order, firstOf_cons]
    rw [firstOf, Ordering.then_eq]
  rw [heq]
  exact compares_then (compares_compare _ _)
    (compares_then (compares_compare _ _) (compares_then (compares_compare _ _)
    (compares_then (comparePre_compares hv.pre hw.pre) (compareBuild_compares _ _))))

/-! ## No two versions of one rank -/

theorem identifierRank_inj {α : Type} {value : List Char → α} {a b : List Char}
    (hnumbers : a.all isAsciiDigit = true → b.all isAsciiDigit = true → value a = value b → a = b)
    (h : identifierRank value a = identifierRank value b) : a = b := by
  have hinj : ∀ {x y : α ⊕ List Char}, toLex x = toLex y → x = y := fun h => toLex.injective h
  cases hda : a.all isAsciiDigit <;> cases hdb : b.all isAsciiDigit
  · rw [identifierRank_word hda, identifierRank_word hdb] at h
    exact Sum.inr.inj (hinj h)
  · rw [identifierRank_word hda, identifierRank_number hdb] at h
    cases hinj h
  · rw [identifierRank_number hda, identifierRank_word hdb] at h
    cases hinj h
  · rw [identifierRank_number hda, identifierRank_number hdb] at h
    exact hnumbers hda hdb (Sum.inl.inj (hinj h))

theorem figuresValue_inj {a b : List Char} (ha : IsIdentifier a ∧ IsCanonical a)
    (hb : IsIdentifier b ∧ IsCanonical b) (hda : a.all isAsciiDigit = true)
    (hdb : b.all isAsciiDigit = true) (h : figuresValue a = figuresValue b) : a = b := by
  have hwritten : ∀ {w : List Char}, IsIdentifier w ∧ IsCanonical w → w.all isAsciiDigit = true →
      Nat.toDigits 10 (figuresValue w) = w := fun hw hdigits =>
    toDigits_ofDigitChars hw.1.1 (List.all_eq_true.1 hdigits) (hw.2 (List.all_eq_true.1 hdigits))
  rw [← hwritten ha hda, h, hwritten hb hdb]

theorem paddedValue_inj {a b : List Char} (hda : a.all isAsciiDigit = true)
    (hdb : b.all isAsciiDigit = true) (h : paddedValue a = paddedValue b) : a = b := by
  obtain ⟨hvalue, hlength⟩ := Prod.mk.inj (toLex.injective h)
  have heq :=
    (compareChars_figures (List.all_eq_true.1 hda) (List.all_eq_true.1 hdb) hlength).eq_eq.2 hvalue
  exact (compareChars_compares a b).eq_eq.1 heq

theorem labelRank_inj {α : Type} {value : List Char → α} {a b : String}
    (hnumbers : ∀ x ∈ segmentsOf a, ∀ y ∈ segmentsOf b, x.all isAsciiDigit = true →
      y.all isAsciiDigit = true → value x = value y → x = y)
    (h : labelRank value a = labelRank value b) : a = b := by
  have hsegments : ∀ {xs ys : List (List Char)},
      (∀ x ∈ xs, ∀ y ∈ ys, identifierRank value x = identifierRank value y → x = y) →
        xs.map (identifierRank value) = ys.map (identifierRank value) → xs = ys := by
    intro xs
    induction xs with
    | nil =>
      intro ys _ h
      exact (List.map_eq_nil_iff.1 h.symm).symm
    | cons x xs ih =>
      intro ys hinj h
      cases ys with
      | nil => cases h
      | cons y ys =>
        obtain ⟨hx, hxs⟩ := List.cons.inj h
        rw [hinj x List.mem_cons_self y List.mem_cons_self hx,
          ih (fun u hu v hv => hinj u (List.mem_cons_of_mem x hu) v (List.mem_cons_of_mem y hv)) hxs]
  have heq : segmentsOf a = segmentsOf b :=
    hsegments (fun x hx y hy => identifierRank_inj (hnumbers x hx y hy)) h
  have hjoin := congrArg (join ['.']) heq
  rw [segmentsOf, segmentsOf, join_splitOn, join_splitOn] at hjoin
  exact String.toList_inj.1 hjoin

theorem preRank_inj {a b : String} (ha : a = "" ∨ IsLabel .pre a.toList)
    (hb : b = "" ∨ IsLabel .pre b.toList) (h : preRank a = preRank b) : a = b := by
  by_cases hna : a = "" <;> by_cases hnb : b = ""
  · rw [hna, hnb]
  · rw [hna, preRank_of_label hnb] at h
    cases h
  · rw [hnb, preRank_of_label hna] at h
    cases h
  · rw [preRank_of_label hna, preRank_of_label hnb] at h
    exact labelRank_inj (fun x hx y hy => figuresValue_inj (canonical_of_label hna ha x hx)
      (canonical_of_label hnb hb y hy)) (WithTop.coe_injective h)

theorem buildRank_inj {a b : String} (h : buildRank a = buildRank b) : a = b := by
  have hempty : ∀ {label : String}, label ≠ "" → buildRank label ≠ [] := by
    intro label hne
    obtain ⟨x, xs, hx⟩ := exists_labelRank_cons paddedValue label
    rw [buildRank_of_label hne, hx]
    exact List.cons_ne_nil x xs
  by_cases hna : a = "" <;> by_cases hnb : b = ""
  · rw [hna, hnb]
  · rw [hna] at h
    exact absurd h.symm (hempty hnb)
  · rw [hnb] at h
    exact absurd h (hempty hna)
  · rw [buildRank_of_label hna, buildRank_of_label hnb] at h
    exact labelRank_inj (fun x _ y _ => paddedValue_inj) h

/-- **No two semantic versions have one rank.** -/
theorem rank_inj {v w : Version} (hv : v.IsSemantic) (hw : w.IsSemantic) (h : v.rank = w.rank) :
    v = w := by
  obtain ⟨major, minor, patch, pre, build⟩ := v
  obtain ⟨major', minor', patch', pre', build'⟩ := w
  simp only [rank, EmbeddingLike.apply_eq_iff_eq, Prod.mk.injEq] at h
  obtain ⟨rfl, rfl, rfl, hpre, hbuild⟩ := h
  obtain rfl : pre = pre' := preRank_inj hv.pre hw.pre hpre
  obtain rfl : build = build' := buildRank_inj hbuild
  rfl

/-! ## The greatest version -/

/-- Of two versions the later one is kept unless the first is above it. -/
theorem rank_kept {best v : Version} (hbest : best.IsSemantic) (hv : v.IsSemantic) :
    best.rank ≤ (if order best v == .gt then best else v).rank ∧
      v.rank ≤ (if order best v == .gt then best else v).rank := by
  have hcompares := order_compares hbest hv
  split
  · rename_i hgt
    exact ⟨le_rfl, (hcompares.eq_gt.1 (by simpa using hgt)).le⟩
  · rename_i hgt
    exact ⟨hcompares.ne_gt.1 (by simpa using hgt), le_rfl⟩

theorem foldl_kept_mem : ∀ (versions : List Version) (best : Version),
    versions.foldl (fun best w => if order best w == .gt then best else w) best ∈ best :: versions
  | [], best => List.mem_singleton_self best
  | next :: versions, best => by
    have ih := foldl_kept_mem versions (if order best next == .gt then best else next)
    rw [List.foldl_cons, List.mem_cons, List.mem_cons]
    rcases List.mem_cons.1 ih with heq | hmem
    · rw [heq]
      split
      · exact .inl rfl
      · exact .inr (.inl rfl)
    · exact .inr (.inr hmem)

theorem le_foldl_kept : ∀ {versions : List Version} {best : Version}, best.IsSemantic →
    (∀ w ∈ versions, w.IsSemantic) → ∀ w ∈ best :: versions,
      w.rank ≤ (versions.foldl (fun best w => if order best w == .gt then best else w) best).rank
  | [], best, _, _ => by simp
  | next :: versions, best, hbest, hversions => by
    rw [List.forall_mem_cons] at hversions
    obtain ⟨hnext, hversions⟩ := hversions
    obtain ⟨hfirst, hsecond⟩ := rank_kept hbest hnext
    have hsemantic : (if order best next == .gt then best else next).IsSemantic := by
      split
      · exact hbest
      · exact hnext
    have ih := le_foldl_kept hsemantic hversions
    rw [List.forall_mem_cons] at ih
    obtain ⟨hkept, hrest⟩ := ih
    rw [List.foldl_cons, List.forall_mem_cons, List.forall_mem_cons]
    exact ⟨hfirst.trans hkept, hsecond.trans hkept, hrest⟩

/-- **The greatest of some semantic versions is the one that no other exceeds.** -/
theorem greatest_eq_some_iff {versions : List Version} (hversions : ∀ w ∈ versions, w.IsSemantic)
    {v : Version} :
    greatest versions = some v ↔ v ∈ versions ∧ ∀ w ∈ versions, w.rank ≤ v.rank := by
  cases versions with
  | nil => exact ⟨nofun, fun h => absurd h.1 List.not_mem_nil⟩
  | cons first rest =>
    have hmem := foldl_kept_mem rest first
    rw [List.forall_mem_cons] at hversions
    have habove := le_foldl_kept hversions.1 hversions.2
    rw [greatest, Option.some.injEq]
    constructor
    · rintro rfl
      exact ⟨hmem, habove⟩
    · rintro ⟨hv, hmax⟩
      have hsemantic := List.forall_mem_cons.2 hversions
      exact rank_inj (hsemantic _ hmem) (hsemantic v hv) (le_antisymm (hmax _ hmem) (habove v hv))

end PolicyForge.Version
