import PolicyForge.Text.Lines
/-!
# Cutting and joining lines

No piece of a cut text holds what it was cut at, and pieces that do not hold it come back from
their text: ended one by one (`splitOn_flatMap_ended`), which is how they stand when they are
joined with one more separator after the last (`join_append_sep`).
-/
namespace PolicyForge.Text

theorem ne_of_holds {p : Char → Bool} {c d : Char} (hc : p c = true) (hd : p d = false) : c ≠ d := by
  rintro rfl
  rw [hc] at hd
  cases hd

theorem splitOn_append {p : Char → Bool} {c : Char} (hc : p c = true) (t : List Char) :
    ∀ (s : List Char), (∀ d ∈ s, p d = false) → splitOn p (s ++ c :: t) = s :: splitOn p t
  | [], _ => by simp [splitOn, hc]
  | d :: s, h => by
    have hd : p d = false := h d List.mem_cons_self
    rw [List.cons_append, splitOn,
      splitOn_append hc t s fun e he => h e (List.mem_cons_of_mem _ he)]
    simp [hd]

/-- A break between two parts cuts them apart, whatever they hold. -/
theorem splitOn_append_break {p : Char → Bool} {c : Char} (hc : p c = true) (t : List Char) :
    ∀ (s : List Char), splitOn p (s ++ c :: t) = splitOn p s ++ splitOn p t
  | [] => by simp [splitOn, hc]
  | d :: s => by
    have ih := splitOn_append_break hc t s
    rw [List.cons_append, splitOn, splitOn, ih]
    cases hs : splitOn p s with
    | nil => exact absurd hs (splitOn_ne_nil p s)
    | cons w ws => by_cases hd : p d = true <;> simp [hd]

theorem splitOn_of_none {p : Char → Bool} :
    ∀ (s : List Char), (∀ c ∈ s, p c = false) → splitOn p s = [s]
  | [], _ => rfl
  | c :: s, h => by
    have hc : p c = false := h c List.mem_cons_self
    rw [splitOn, splitOn_of_none s fun d hd => h d (List.mem_cons_of_mem _ hd)]
    simp [hc]

theorem not_of_mem_splitOn {p : Char → Bool} : ∀ (s : List Char) (w : List Char),
    w ∈ splitOn p s → ∀ c ∈ w, p c = false
  | [], w, hw, c, hc => by
    rw [splitOn, List.mem_singleton] at hw
    rw [hw] at hc
    cases hc
  | d :: s, w, hw, c, hc => by
    have ih := not_of_mem_splitOn (p := p) s
    rw [splitOn] at hw
    split at hw
    · rcases List.mem_cons.1 hw with rfl | hw
      · cases hc
      · exact ih w hw c hc
    · rename_i hd
      split at hw
      · rename_i hs
        exact absurd hs (splitOn_ne_nil p s)
      · rename_i v vs hs
        rcases List.mem_cons.1 hw with rfl | hw
        · rcases List.mem_cons.1 hc with rfl | hc
          · simpa using hd
          · exact ih v (by rw [hs]; exact List.mem_cons_self) c hc
        · exact ih w (by rw [hs]; exact List.mem_cons_of_mem _ hw) c hc

theorem mem_of_mem_splitOn {p : Char → Bool} :
    ∀ (s : List Char) (w : List Char), w ∈ splitOn p s → ∀ c ∈ w, c ∈ s
  | [], w, hw, c, hc => by
    rw [splitOn, List.mem_singleton] at hw
    rwa [hw] at hc
  | d :: s, w, hw, c, hc => by
    have ih := mem_of_mem_splitOn (p := p) s
    rw [splitOn] at hw
    split at hw
    · rcases List.mem_cons.1 hw with rfl | hw
      · cases hc
      · exact List.mem_cons_of_mem _ (ih w hw c hc)
    · split at hw
      · rename_i hs
        exact absurd hs (splitOn_ne_nil p s)
      · rename_i v vs hs
        rw [hs] at ih
        rcases List.mem_cons.1 hw with rfl | hw
        · rcases List.mem_cons.1 hc with rfl | hc
          · exact List.mem_cons_self
          · exact List.mem_cons_of_mem _ (ih v List.mem_cons_self c hc)
        · exact List.mem_cons_of_mem _ (ih w (List.mem_cons_of_mem _ hw) c hc)

theorem splitOn_flatMap_ended {sep : Char} : ∀ (ws : List (List Char)), (∀ w ∈ ws, sep ∉ w) →
    splitOn (· == sep) (ws.flatMap (· ++ [sep])) = ws ++ [[]]
  | [], _ => rfl
  | w :: ws, h => by
    have hw : ∀ c ∈ w, (c == sep) = false := fun c hc => by
      rw [beq_eq_false_iff_ne]
      rintro rfl
      exact h w List.mem_cons_self hc
    rw [List.flatMap_cons, List.append_assoc, List.singleton_append,
      splitOn_append (p := (· == sep)) (beq_self_eq_true sep) _ w hw,
      splitOn_flatMap_ended ws fun v hv => h v (List.mem_cons_of_mem _ hv), List.cons_append]

/-- A separator after the last piece ends every piece. -/
theorem join_append_sep (sep : Char) : ∀ {ws : List (List Char)}, ws ≠ [] →
    join [sep] ws ++ [sep] = ws.flatMap (· ++ [sep])
  | [w], _ => by simp [join]
  | w :: v :: ws, _ => by
    rw [join, List.append_assoc, join_append_sep sep (List.cons_ne_nil v ws), List.flatMap_cons]
    · simp
    · simp

theorem join_cons (sep w : List Char) {ws : List (List Char)} (h : ws ≠ []) :
    join sep (w :: ws) = w ++ sep ++ join sep ws := by
  cases ws with
  | nil => exact absurd rfl h
  | cons v ws => rfl

/-- The first piece is cut off the others, whatever they hold. -/
theorem splitOn_join_cons {sep : Char} {w : List Char} (hw : sep ∉ w) (ws : List (List Char)) :
    splitOn (· == sep) (join [sep] (w :: ws)) =
      w :: if ws = [] then [] else splitOn (· == sep) (join [sep] ws) := by
  have hplain : ∀ c ∈ w, (c == sep) = false := fun c hc => beq_eq_false_iff_ne.2 fun he => hw (he ▸ hc)
  cases ws with
  | nil => exact splitOn_of_none w hplain
  | cons v vs =>
    rw [join_cons _ _ (List.cons_ne_nil v vs), List.append_assoc, List.singleton_append,
      if_neg (List.cons_ne_nil v vs)]
    exact splitOn_append (p := (· == sep)) (beq_self_eq_true sep) _ w hplain

/-- Pieces without separators come back from what they are joined to. -/
theorem splitOn_join {sep : Char} : ∀ {ws : List (List Char)}, ws ≠ [] → (∀ w ∈ ws, sep ∉ w) →
    splitOn (· == sep) (join [sep] ws) = ws
  | w :: ws, _, h => by
    rw [List.forall_mem_cons] at h
    rw [splitOn_join_cons h.1]
    by_cases hws : ws = []
    · rw [if_pos hws, hws]
    · rw [if_neg hws, splitOn_join hws h.2]

/-- A line that is ended is read before the others. -/
theorem lines_append_break {w : List Char} (hw : '\n' ∉ w) (t : List Char) :
    lines (w ++ '\n' :: t) = dropReturn w :: lines t := by
  have hplain : ∀ c ∈ w, (c == '\n') = false := fun c hc => beq_eq_false_iff_ne.2 fun he => hw (he ▸ hc)
  rw [lines, lines, splitOn_append (p := (· == '\n')) rfl t w hplain]
  cases hs : splitOn (· == '\n') t with
  | nil => exact absurd hs (splitOn_ne_nil _ t)
  | cons v vs => rfl

theorem lines_of_unbroken {w : List Char} (hgiven : w ≠ []) (hw : '\n' ∉ w) : lines w = [w] := by
  have hplain : ∀ c ∈ w, (c == '\n') = false := fun c hc => beq_eq_false_iff_ne.2 fun he => hw (he ▸ hc)
  rw [lines, splitOn_of_none w hplain, closeLines, List.isEmpty_eq_false_iff.2 hgiven,
    if_neg Bool.false_ne_true]

theorem join_append (sep : List Char) {vs ws : List (List Char)} (hv : vs ≠ []) (hw : ws ≠ []) :
    join sep (vs ++ ws) = join sep vs ++ sep ++ join sep ws := by
  induction vs with
  | nil => exact absurd rfl hv
  | cons v vs ih =>
    rw [List.cons_append, join_cons sep v (by simp [hw])]
    by_cases h : vs = []
    · simp [h, join]
    · rw [ih h, join_cons sep v h]
      simp

theorem join_eq_intercalate (sep : List Char) (ws : List (List Char)) :
    join sep ws = sep.intercalate ws := by
  induction ws with
  | nil => simp [join]
  | cons w ws ih =>
    by_cases h : ws = []
    · simp [h, join]
    · rw [join_cons sep w h, ih]
      cases ws with
      | nil => exact absurd rfl h
      | cons v ws => simp

/-- What is joined comes from the pieces or from what is put between them. -/
theorem mem_join {sep : List Char} {c : Char} : ∀ {ws : List (List Char)}, c ∈ join sep ws →
    c ∈ sep ∨ ∃ w ∈ ws, c ∈ w
  | [], h => by cases h
  | [w], h => .inr ⟨w, List.mem_cons_self, h⟩
  | w :: v :: ws, h => by
    rw [join, List.mem_append, List.mem_append] at h
    · rcases h with (h | h) | h
      · exact .inr ⟨w, List.mem_cons_self, h⟩
      · exact .inl h
      · rcases mem_join h with h | ⟨u, hu, hc⟩
        · exact .inl h
        · exact .inr ⟨u, List.mem_cons_of_mem w hu, hc⟩
    · exact List.cons_ne_nil v ws

end PolicyForge.Text
