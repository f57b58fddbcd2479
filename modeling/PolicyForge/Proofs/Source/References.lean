import PolicyForge.Proofs.Text.Run
import PolicyForge.Source.Reference
/-!
# The leftmost reference

A text may mention references in several ways: the type of one may run over the start of the next, and
a start that leads to no reference may stand within one that does.  Of all mentions the one with the
least before it counts, and there is only one (`referenceKey_leftmost`).
-/
namespace PolicyForge.Source

open Text

structure Mention where
  before : List Char
  type : List Char
  key : List Char
  after : List Char
  typed : type ≠ []
  dotless : '.' ∉ type
  keyed : key ≠ []
  unclosed : ')' ∉ key

namespace Mention

def chars (m : Mention) : List Char :=
  m.before ++ '$' :: '(' :: (m.type ++ '.' :: (m.key ++ ')' :: m.after))

/-- No mention in the text has less before it. -/
def IsLeftmost (m : Mention) (text : List Char) : Prop :=
  m.chars = text ∧ ∀ m' : Mention, m'.chars = text → m.before.length ≤ m'.before.length

def push (m : Mention) (c : Char) : Mention := { m with before := c :: m.before }

/-- A mention starts its text, or it is a mention in the rest of it. -/
theorem before_cases (m : Mention) : m.before = [] ∨ ∃ c m', m = push m' c := by
  cases hm : m.before with
  | nil => exact .inl rfl
  | cons c before => exact .inr ⟨c, { m with before := before }, by rw [push, ← hm]⟩

/-- Where a mention starts settles what it is. -/
theorem eq_of_length {m m' : Mention} (h : m.chars = m'.chars)
    (hlength : m.before.length = m'.before.length) :
    m = m' := by
  obtain ⟨before, type, key, after, _, hdot, _, hclose⟩ := m
  obtain ⟨before', type', key', after', _, hdot', _, hclose'⟩ := m'
  obtain ⟨rfl, hrest⟩ := List.append_inj h hlength
  obtain ⟨rfl, hrest⟩ := until_inj hdot hdot' (List.cons.inj (List.cons.inj hrest).2).2
  obtain ⟨rfl, rfl⟩ := until_inj hclose hclose' hrest
  rfl

theorem IsLeftmost.eq {m m' : Mention} {text : List Char} (h : m.IsLeftmost text)
    (h' : m'.IsLeftmost text) : m = m' :=
  eq_of_length (h.1.trans h'.1.symm) (Nat.le_antisymm (h.2 m' h'.1) (h'.2 m h.1))

/-- Without an opening before it, a mention is the leftmost. -/
theorem isLeftmost_of_not_infix {m : Mention} (h : ¬['$', '('] <:+: m.before) : m.IsLeftmost m.chars := by
  refine ⟨rfl, fun m' hm' => Nat.le_of_not_lt fun hlt => h ?_⟩
  obtain ⟨t, ht, htail⟩ : ∃ t, m.before = m'.before ++ t ∧
      '$' :: '(' :: (m'.type ++ '.' :: (m'.key ++ ')' :: m'.after)) =
        t ++ '$' :: '(' :: (m.type ++ '.' :: (m.key ++ ')' :: m.after)) := by
    rcases List.append_eq_append_iff.1 hm' with ⟨t, ht, htail⟩ | ⟨t, ht, htail⟩
    · exact ⟨t, ht, htail⟩
    · rw [ht, List.length_append] at hlt
      omega
  rw [ht] at hlt ⊢
  -- the other opening stands in what is left of `before`, which cannot end within it
  match t, htail with
  | [], _ => simp at hlt
  | [c], htail =>
    have h2 := (List.cons.inj (List.cons.inj htail).2).1
    cases h2
  | c :: d :: t, htail =>
    rw [List.cons_append, List.cons_append, List.cons.injEq, List.cons.injEq] at htail
    obtain ⟨rfl, rfl, -⟩ := htail
    exact ⟨m'.before, t, by simp⟩

end Mention

/-! ## Finding it -/

theorem keyAfterOpening_of_parts {type key : List Char} (ht : type ≠ []) (hdot : '.' ∉ type)
    (hk : key ≠ []) (hclose : ')' ∉ key) (after : List Char) :
    keyAfterOpening (type ++ '.' :: (key ++ ')' :: after)) = some key := by
  obtain ⟨t, ts, rfl⟩ := List.exists_cons_of_ne_nil ht
  obtain ⟨k, ks, rfl⟩ := List.exists_cons_of_ne_nil hk
  unfold keyAfterOpening
  rw [takeWhile_until hdot, dropWhile_until hdot]
  simp only [takeWhile_until hclose, dropWhile_until hclose]

/-- The key after an opening is that of a mention which starts there. -/
theorem exists_mention_of_keyAfterOpening {s key : List Char} (h : keyAfterOpening s = some key) :
    ∃ m : Mention, m.before = [] ∧ m.key = key ∧ m.chars = '$' :: '(' :: s := by
  unfold keyAfterOpening at h
  split at h
  · rename_i t ts rest htype hrest
    split at h
    · rename_i k ks after hkey hafter
      cases h
      have hs : s = t :: ts ++ '.' :: rest := by
        rw [← htype, ← hrest, List.takeWhile_append_dropWhile]
      have hr : rest = k :: ks ++ ')' :: after := by
        rw [← hkey, ← hafter, List.takeWhile_append_dropWhile]
      have hdot : '.' ∉ t :: ts := htype ▸ not_mem_takeWhile_until '.' s
      have hclose : ')' ∉ k :: ks := hkey ▸ not_mem_takeWhile_until ')' rest
      refine ⟨⟨[], t :: ts, k :: ks, after, List.cons_ne_nil t ts, hdot, List.cons_ne_nil k ks,
        hclose⟩, rfl, rfl, ?_⟩
      rw [hs, hr]
      rfl
    · cases h
  · cases h

theorem leftmostKey_opening (s : List Char) :
    leftmostKey ('$' :: '(' :: s) = (keyAfterOpening s).or (leftmostKey ('(' :: s)) := by
  rw [leftmostKey]
  cases keyAfterOpening s <;> rfl

theorem leftmostKey_of_not_opening {c : Char} {s : List Char} (h : ∀ rest, c = '$' → s ≠ '(' :: rest) :
    leftmostKey (c :: s) = leftmostKey s := by
  rw [leftmostKey]
  exact h

/-- What is found is the key of a mention at the start, or there is none at the start and it is what
is found in the rest. -/
theorem leftmostKey_cons (c : Char) (s : List Char) :
    (∃ m : Mention, m.before = [] ∧ m.chars = c :: s ∧ leftmostKey (c :: s) = some m.key) ∨
      ((∀ m : Mention, m.chars = c :: s → m.before ≠ []) ∧ leftmostKey (c :: s) = leftmostKey s) := by
  have hopening : ∀ m : Mention, m.before = [] → m.chars = c :: s →
      c = '$' ∧ ∃ rest, s = '(' :: rest ∧ keyAfterOpening rest = some m.key := by
    intro m hm hchars
    rw [Mention.chars, hm, List.nil_append, List.cons.injEq] at hchars
    exact ⟨hchars.1.symm, _, hchars.2.symm,
      keyAfterOpening_of_parts m.typed m.dotless m.keyed m.unclosed m.after⟩
  by_cases hopen : ∃ rest, c = '$' ∧ s = '(' :: rest
  · obtain ⟨rest, rfl, rfl⟩ := hopen
    rw [leftmostKey_opening]
    cases hkey : keyAfterOpening rest with
    | some k =>
      obtain ⟨m, hm, rfl, hchars⟩ := exists_mention_of_keyAfterOpening hkey
      exact .inl ⟨m, hm, hchars, rfl⟩
    | none =>
      refine .inr ⟨fun m hchars hm => ?_, rfl⟩
      obtain ⟨-, rest', hrest, hkey'⟩ := hopening m hm hchars
      rw [← (List.cons.inj hrest).2, hkey] at hkey'
      cases hkey'
  · refine .inr ⟨fun m hchars hm => ?_, leftmostKey_of_not_opening fun rest hc hs =>
      hopen ⟨rest, hc, hs⟩⟩
    obtain ⟨hc, rest, hs, -⟩ := hopening m hm hchars
    exact hopen ⟨rest, hc, hs⟩

/-- A text has a leftmost mention, whose key is found, or it has none and nothing is found. -/
theorem leftmostKey_cases (text : List Char) :
    (∃ m : Mention, m.IsLeftmost text ∧ leftmostKey text = some m.key) ∨
      ((∀ m : Mention, m.chars ≠ text) ∧ leftmostKey text = none) := by
  induction text with
  | nil => exact .inr ⟨fun m => by simp [Mention.chars], rfl⟩
  | cons c s ih =>
    rcases leftmostKey_cons c s with ⟨m, hm, hchars, hkey⟩ | ⟨hstart, hrest⟩
    · exact .inl ⟨m, ⟨hchars, fun m' _ => by simp [hm]⟩, hkey⟩
    have hpush : ∀ m : Mention, m.chars = c :: s → ∃ m' : Mention, m = m'.push c ∧ m'.chars = s := by
      intro m hchars
      obtain ⟨d, m', rfl⟩ := m.before_cases.resolve_left (hstart m hchars)
      obtain ⟨rfl, hs⟩ := List.cons.inj hchars
      exact ⟨m', rfl, hs⟩
    rw [hrest]
    rcases ih with ⟨m, ⟨hchars, hleast⟩, hkey⟩ | ⟨hnone, hkey⟩
    · refine .inl ⟨m.push c, ⟨congrArg (c :: ·) hchars, fun m' hm' => ?_⟩, hkey⟩
      obtain ⟨m'', rfl, hs⟩ := hpush m' hm'
      exact Nat.succ_le_succ (hleast m'' hs)
    · refine .inr ⟨fun m hm => ?_, hkey⟩
      obtain ⟨m', rfl, hs⟩ := hpush m hm
      exact hnone m' hs

/-- **The key of the leftmost mention is found**, and that mention is unique; in a text without any
nothing is found.  What follows a mention does not matter. -/
theorem referenceKey_leftmost (text : String) :
    (∀ m : Mention, m.chars = text.toList → ∃ l : Mention, l.IsLeftmost text.toList ∧
      (∀ l' : Mention, l'.IsLeftmost text.toList → l' = l) ∧ (referenceKey text).toList = l.key) ∧
    ((∀ m : Mention, m.chars ≠ text.toList) → referenceKey text = "") ∧
    (∀ m : Mention, m.chars = text.toList → ¬['$', '('] <:+: m.before →
      (referenceKey text).toList = m.key) := by
  unfold referenceKey
  rw [String.toList_ofList]
  rcases leftmostKey_cases text.toList with ⟨l, hl, hkey⟩ | ⟨hnone, hkey⟩
  · rw [hkey]
    refine ⟨fun _ _ => ⟨l, hl, fun l' hl' => hl'.eq hl, rfl⟩, fun hnone => absurd hl.1 (hnone l),
      fun m hm hopen => ?_⟩
    rw [← hm] at hl
    rw [(Mention.isLeftmost_of_not_infix hopen).eq hl]
    rfl
  · rw [hkey]
    exact ⟨fun m hm => absurd hm (hnone m), fun _ => rfl, fun m hm => absurd hm (hnone m)⟩

/-- A mention within the key of another, none at all, and one after a lone dollar sign. -/
theorem referenceKey_leftmost_nested :
    (∃ m l : Mention, m.chars = "$(a.b$(c.d)".toList ∧ m.key = ['d'] ∧
      l.IsLeftmost "$(a.b$(c.d)".toList ∧
      (referenceKey "$(a.b$(c.d)").toList = l.key) ∧
    ((∀ m : Mention, m.chars ≠ "a$".toList) ∧ referenceKey "a$" = "") ∧
    (∃ m : Mention, m.chars = "$$(a.b)$(c.d)".toList ∧ ¬['$', '('] <:+: m.before ∧
      (referenceKey "$$(a.b)$(c.d)").toList = m.key) := by
  have hnone : ∀ m : Mention, m.chars ≠ "a$".toList := by
    intro m h
    have hlength := congrArg List.length h
    simp [Mention.chars] at hlength
    omega
  refine ⟨?_, ⟨hnone, (referenceKey_leftmost "a$").2.1 hnone⟩, ?_⟩
  · let m : Mention := ⟨"$(a.b".toList, ['c'], ['d'], [], by decide, by decide, by decide, by decide⟩
    obtain ⟨l, hl, -, hkey⟩ := (referenceKey_leftmost "$(a.b$(c.d)").1 m (by decide)
    exact ⟨m, l, by decide, rfl, hl, hkey⟩
  · let m : Mention := ⟨['$'], ['a'], ['b'], "$(c.d)".toList, by decide, by decide, by decide, by decide⟩
    exact ⟨m, by decide, by decide, (referenceKey_leftmost "$$(a.b)$(c.d)").2.2 m (by decide) (by decide)⟩

end PolicyForge.Source
