import PolicyForge.Text.Blank
/-!
# The last word of a text

A text without blanks is a word, and behind a blank it is the last word of the whole text, whatever
stands in front of the blank (`words_append_word`).
-/
namespace PolicyForge.Text

variable {c : Char} {s w : List Char}

theorem words_cons_of_blank (hc : isBlank c = true) (s : List Char) : words (c :: s) = words s := by
  rw [words.eq_def (c :: s)]
  simp [hc]

theorem words_singleton (hc : isBlank c = false) : words [c] = [[c]] := by
  rw [words.eq_def]
  simp [hc]

theorem words_cons_cons_of_blank {d : Char} (hc : isBlank c = false) (hd : isBlank d = true)
    (s : List Char) :
    words (c :: d :: s) = [c] :: words (d :: s) := by
  rw [words.eq_def (c :: d :: s)]
  simp [hc, hd]

/-- A character in front of a word becomes the first of it. -/
theorem words_cons_cons {d : Char} {v : List Char} {vs : List (List Char)} (hc : isBlank c = false)
    (hd : isBlank d = false) (hs : words (d :: s) = v :: vs) : words (c :: d :: s) = (c :: v) :: vs := by
  rw [words.eq_def (c :: d :: s)]
  simp [hc, hd, hs]

theorem exists_words_cons :
    ∀ {c : Char} {s : List Char}, isBlank c = false → ∃ v vs, words (c :: s) = v :: vs
  | c, [], hc => ⟨[c], [], words_singleton hc⟩
  | c, d :: s, hc => by
    cases hd : isBlank d with
    | true => exact ⟨[c], words (d :: s), words_cons_cons_of_blank hc hd s⟩
    | false =>
      obtain ⟨v, vs, hs⟩ := exists_words_cons (s := s) hd
      exact ⟨c :: v, vs, words_cons_cons hc hd hs⟩

theorem words_of_unblank : ∀ {w : List Char}, w ≠ [] → (∀ c ∈ w, isBlank c = false) → words w = [w]
  | [c], _, h => words_singleton (h c List.mem_cons_self)
  | c :: d :: w, _, h =>
    words_cons_cons (h c List.mem_cons_self) (h d (by simp))
      (words_of_unblank (List.cons_ne_nil d w) fun x hx => h x (List.mem_cons_of_mem c hx))

/-- **What stands behind a blank is the last word**, if it holds no blanks itself. -/
theorem words_append_word {b : Char} (hb : isBlank b = true) (hne : w ≠ [])
    (hw : ∀ c ∈ w, isBlank c = false) :
    ∀ (s : List Char), words (s ++ b :: w) = words s ++ [w]
  | [] => by
    rw [List.nil_append, words_cons_of_blank hb, words_of_unblank hne hw]
    rfl
  | c :: s => by
    have ih := words_append_word hb hne hw s
    cases hc : isBlank c with
    | true => rw [List.cons_append, words_cons_of_blank hc, words_cons_of_blank hc, ih]
    | false =>
      cases s with
      | nil =>
        rw [List.cons_append, List.nil_append, words_cons_cons_of_blank hc hb, words_cons_of_blank hb,
          words_of_unblank hne hw, words_singleton hc]
        rfl
      | cons d s =>
        rw [List.cons_append] at ih ⊢
        rw [List.cons_append]
        cases hd : isBlank d with
        | true =>
          rw [words_cons_cons_of_blank hc hd, words_cons_cons_of_blank hc hd, ih, List.cons_append]
        | false =>
          obtain ⟨v, vs, hs⟩ := exists_words_cons (s := s) hd
          rw [hs, List.cons_append] at ih
          rw [words_cons_cons hc hd ih, words_cons_cons hc hd hs, List.cons_append]

end PolicyForge.Text
