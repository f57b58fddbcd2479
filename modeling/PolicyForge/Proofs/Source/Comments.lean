import PolicyForge.Proofs.Text.Lines
import PolicyForge.Source.Comment
/-!
# The characters of documentation comments

No text gets a line end or an opening angle bracket of its own into the comment that it becomes.
-/
namespace PolicyForge.Source

open Text

def entityChars : List Char := "&ampltgquos;".toList

/-- A character of the comment that no entity holds is the character of the text. -/
theorem eq_of_mem_encodeChar {c d : Char} (hd : d ∉ entityChars) (h : d ∈ encodeChar c) : d = c := by
  have hentity : ∀ s, s ⊆ entityChars → d ∉ s := fun s hs hm => hd (hs hm)
  unfold encodeChar at h
  split at h
  · exact absurd h (hentity _ (by decide))
  split at h
  · exact absurd h (hentity _ (by decide))
  split at h
  · exact absurd h (hentity _ (by decide))
  split at h
  · exact absurd h (hentity _ (by decide))
  split at h
  · exact absurd h (hentity _ (by decide))
  · exact List.mem_singleton.1 h

theorem encodeLine_cons (c : Char) (line : List Char) :
    encodeLine (c :: line) = encodeChar c ++ encodeLine line := List.flatMap_cons

theorem newline_not_mem_encodeLine {line : List Char} (h : '\n' ∉ line) :
    '\n' ∉ encodeLine line := by
  intro hn
  obtain ⟨c, hc, hn⟩ := List.mem_flatMap.1 hn
  exact h (eq_of_mem_encodeChar (by decide) hn ▸ hc)

/-- What is encoded and is in no entity is gone. -/
theorem not_mem_encodeLine {d : Char} (hd : d ∉ entityChars) (hcode : d ∉ encodeChar d)
    (line : List Char) :
    d ∉ encodeLine line := by
  intro hn
  obtain ⟨c, -, hn⟩ := List.mem_flatMap.1 hn
  obtain rfl := eq_of_mem_encodeChar hd hn
  exact hcode hn

theorem lt_not_mem_encodeLine (line : List Char) : '<' ∉ encodeLine line :=
  not_mem_encodeLine (by decide) (by decide) line

theorem isLineBreak_of_mem_encodeLine {line : List Char} (h : ∀ c ∈ line, isLineBreak c = false)
    {c : Char} (hc : c ∈ encodeLine line) : isLineBreak c = false := by
  refine Bool.eq_false_iff.2 fun hbreak => ?_
  have hentity : c ∉ entityChars := by
    intro hm
    have hnone : entityChars.all (fun d => !isLineBreak d) = true := by decide
    simpa [hbreak] using List.all_eq_true.1 hnone c hm
  obtain ⟨d, hd, hcd⟩ := List.mem_flatMap.1 hc
  have hline := h d hd
  rw [← eq_of_mem_encodeChar hentity hcd, hbreak] at hline
  cases hline

/-- No line of a comment is cut by a line end. -/
theorem newline_not_mem_of_mem_sourceLines {text line : List Char} (h : line ∈ sourceLines text) :
    '\n' ∉ line := fun hn => by
  have := not_of_mem_splitOn _ line h '\n' hn
  cases this

theorem sourceLines_ne_nil (text : List Char) : sourceLines text ≠ [] := splitOn_ne_nil _ _

theorem lt_not_mem_docChars (text : List Char) : '<' ∉ docChars text := by
  intro hn
  rcases mem_join hn with hn | ⟨line, hline, hn⟩
  · exact absurd hn (by decide)
  · obtain ⟨l, -, rfl⟩ := List.mem_map.1 hline
    rcases List.mem_append.1 hn with hn | hn
    · exact absurd hn (by decide)
    · exact lt_not_mem_encodeLine l hn

/-- A comment starts with its marker, even that of an empty text. -/
theorem head?_docChars (text : List Char) : (docChars text).head? = some '/' := by
  unfold docChars
  cases h : sourceLines text with
  | nil => exact absurd h (sourceLines_ne_nil text)
  | cons line rest =>
    cases rest with
    | nil => rfl
    | cons next rest => rfl

end PolicyForge.Source
