import Mathlib.Data.List.Forall2
import PolicyForge.Proofs.Data.Xml
import PolicyForge.Proofs.Source.Comments
/-!
# The lines of documentation comments

A text and the comment that it becomes are read by one reader of lines, which takes CR LF for one end
(`terminatedLines`).  Line by line the comment is the text with its markup as entities
(`docComment_documents`).
-/
namespace PolicyForge.Source

open Text

/-! ## Reading lines -/

def terminators : List Char := ['\n', '\r', '\u0085', '\u2028', '\u2029']

/-- The lines of a text; CR LF ends one line and not two. -/
def terminatedLines : List Char → List (List Char)
  | [] => [[]]
  | '\r' :: '\n' :: s => [] :: terminatedLines s
  | c :: s => if c ∈ terminators then [] :: terminatedLines s else (terminatedLines s).modifyHead (c :: ·)

theorem mem_terminators {c : Char} : c ∈ terminators ↔ isLineBreak c = true := by
  simp [terminators, isLineBreak, or_assoc]

theorem terminatedLines_cons_of_break {c : Char} {s : List Char} (hc : isLineBreak c = true)
    (hpair : ∀ t, ¬(c = '\r' ∧ s = '\n' :: t)) : terminatedLines (c :: s) = [] :: terminatedLines s := by
  rw [terminatedLines.eq_3 _ _ (by simpa using hpair), if_pos (mem_terminators.2 hc)]

theorem terminatedLines_cons {c : Char} (hc : isLineBreak c = false) (s : List Char) :
    terminatedLines (c :: s) = (terminatedLines s).modifyHead (c :: ·) := by
  have hr : c ≠ '\r' := ne_of_holds (p := fun d => !isLineBreak d) (by simp [hc]) rfl
  rw [terminatedLines.eq_3 _ _ (by simp [hr]), if_neg]
  simp [mem_terminators, hc]

/-- Reading CR LF as one end is the same as writing LF for it first. -/
theorem terminatedLines_eq (text : List Char) : terminatedLines text = sourceLines text := by
  unfold sourceLines
  fun_induction terminatedLines text with
  | case1 => rfl
  | case2 s ih => rw [ih, unifyReturns, splitOn, if_pos (by decide)]
  | case3 c s hpair hc ih =>
    rw [ih, unifyReturns.eq_3 _ _ hpair, splitOn, if_pos (mem_terminators.1 hc)]
  | case4 c s hpair hc ih =>
    rw [ih, unifyReturns.eq_3 _ _ hpair, splitOn, if_neg (mt mem_terminators.2 hc)]
    cases h : splitOn isLineBreak (unifyReturns s) with
    | nil => exact absurd h (splitOn_ne_nil _ _)
    | cons w ws => rfl

example : terminatedLines "\r\r\nx\u0085".toList = [[], [], ['x'], []] := by decide

theorem terminatedLines_of_unbroken : ∀ {w : List Char}, (∀ c ∈ w, isLineBreak c = false) →
    terminatedLines w = [w]
  | [], _ => rfl
  | c :: w, h => by
    rw [terminatedLines_cons (h c List.mem_cons_self),
      terminatedLines_of_unbroken fun d hd => h d (List.mem_cons_of_mem c hd)]
    rfl

theorem terminatedLines_append_newline (t : List Char) :
    ∀ {w : List Char}, (∀ c ∈ w, isLineBreak c = false) →
    terminatedLines (w ++ '\n' :: t) = w :: terminatedLines t
  | [], _ => terminatedLines_cons_of_break rfl (by simp)
  | c :: w, h => by
    rw [List.cons_append, terminatedLines_cons (h c List.mem_cons_self),
      terminatedLines_append_newline t fun d hd => h d (List.mem_cons_of_mem c hd)]
    rfl

theorem terminatedLines_join :
    ∀ {ws : List (List Char)}, ws ≠ [] → (∀ w ∈ ws, ∀ c ∈ w, isLineBreak c = false) →
    terminatedLines (join ['\n'] ws) = ws
  | [w], _, h => terminatedLines_of_unbroken (h w List.mem_cons_self)
  | w :: v :: ws, _, h => by
    have hne : v :: ws ≠ [] := List.cons_ne_nil v ws
    rw [join_cons _ w hne, List.append_assoc, List.singleton_append,
      terminatedLines_append_newline _ (h w List.mem_cons_self),
      terminatedLines_join hne fun u hu => h u (List.mem_cons_of_mem w hu)]

theorem terminatedLines_docChars (text : List Char) :
    terminatedLines (docChars text) =
      (terminatedLines text).map fun line => docMarker ++ encodeLine line := by
  rw [terminatedLines_eq text]
  refine terminatedLines_join (by simpa using sourceLines_ne_nil text) fun w hw c hc => ?_
  obtain ⟨line, hline, rfl⟩ := List.mem_map.1 hw
  rcases List.mem_append.1 hc with hc | hc
  · have hmarker : docMarker.all (!isLineBreak ·) = true := by decide
    simpa using List.all_eq_true.1 hmarker c hc
  · exact isLineBreak_of_mem_encodeLine (not_of_mem_splitOn _ line hline) hc

/-! ## One line -/

/-- What an ampersand of a comment goes on with. -/
def entityNames : List (List Char) :=
  ["amp;".toList, "lt;".toList, "gt;".toList, "quot;".toList, "apos;".toList]

/-- A character is one entity, which is read as that character, or itself and no ampersand. -/
theorem encodeChar_cases (c : Char) :
    (∃ name ∈ entityNames, encodeChar c = '&' :: name ∧
      ∀ s, Xml.decode ('&' :: name ++ s) = (Xml.decode s).map (c :: ·)) ∨
        (encodeChar c = [c] ∧ c ≠ '&') := by
  by_cases hamp : c = '&'
  · rw [hamp]
    exact .inl ⟨"amp;".toList, by decide, rfl, fun _ => rfl⟩
  by_cases hlt : c = '<'
  · rw [hlt]
    exact .inl ⟨"lt;".toList, by decide, rfl, fun _ => rfl⟩
  by_cases hgt : c = '>'
  · rw [hgt]
    exact .inl ⟨"gt;".toList, by decide, rfl, fun _ => rfl⟩
  by_cases hquot : c = '"'
  · rw [hquot]
    exact .inl ⟨"quot;".toList, by decide, rfl, fun _ => rfl⟩
  by_cases hapos : c = '\''
  · rw [hapos]
    exact .inl ⟨"apos;".toList, by decide, rfl, fun _ => rfl⟩
  · exact .inr ⟨by simp [encodeChar, hamp, hlt, hgt, hquot, hapos], hamp⟩

theorem ampersand_not_mem_of_mem_entityNames {name : List Char} (h : name ∈ entityNames) :
    '&' ∉ name := by
  have hall : entityNames.all (!·.contains '&') = true := by decide
  simpa using List.all_eq_true.1 hall name h

theorem exists_entity {line : List Char} :
    ∀ {front rest : List Char}, encodeLine line = front ++ '&' :: rest →
    ∃ name ∈ entityNames, name <+: rest := by
  induction line with
  | nil =>
    intro front rest h
    cases front <;> cases h
  | cons c line ih =>
    intro front rest h
    rw [encodeLine_cons] at h
    rcases encodeChar_cases c with ⟨name, hname, hc, -⟩ | ⟨hc, hplain⟩
    · rw [hc] at h
      cases front with
      | nil =>
        rw [List.cons_append, List.nil_append, List.cons.injEq] at h
        exact ⟨name, hname, _, h.2⟩
      | cons d front =>
        -- the ampersand is not within the name of an entity
        rw [List.cons_append, List.cons_append, List.cons.injEq] at h
        rcases List.append_eq_append_iff.1 h.2 with ⟨t, -, ht⟩ | ⟨t, ht, htail⟩
        · exact ih ht
        · cases t with
          | nil => exact ih (htail.symm.trans (List.nil_append _).symm)
          | cons e t =>
            rw [List.cons_append, List.cons.injEq] at htail
            refine absurd ?_ (ampersand_not_mem_of_mem_entityNames hname)
            rw [ht, htail.1]
            simp
    · rw [hc] at h
      cases front with
      | nil => exact absurd (List.cons.inj h).1 hplain
      | cons d front => exact ih (List.cons.inj h).2

theorem decode_encodeChar_append (c : Char) (s : List Char) :
    Xml.decode (encodeChar c ++ s) = (Xml.decode s).map (c :: ·) := by
  rcases encodeChar_cases c with ⟨name, -, hc, hdecode⟩ | ⟨hc, hplain⟩
  · rw [hc]
    exact hdecode s
  · have hamp : (c == '&') = false := beq_eq_false_iff_ne.2 hplain
    rw [hc]
    simp only [Xml.decode, List.singleton_append, Xml.decodeFrom, hamp]
    rfl

theorem decode_encodeLine (line : List Char) : Xml.decode (encodeLine line) = some line := by
  induction line with
  | nil => rfl
  | cons c line ih =>
    rw [encodeLine_cons, decode_encodeChar_append, ih]
    rfl

/-! ## Line by line -/

/-- What is written for a line: nothing that is markup, but the line when it is read as markup. -/
structure Encodes (line written : List Char) : Prop where
  plain : ∀ c ∈ ['<', '>', '"', '\''], c ∉ written
  entity : ∀ front rest, written = front ++ '&' :: rest → ∃ name ∈ entityNames, name <+: rest
  decoded : Xml.decode written = some line

theorem encodes_encodeLine (line : List Char) : Encodes line (encodeLine line) where
  plain c hc := by
    have hall : ['<', '>', '"', '\''].all
      (fun d => !entityChars.contains d && !(encodeChar d).contains d) = true := by
      decide
    have h := List.all_eq_true.1 hall c hc
    simp only [Bool.and_eq_true, Bool.not_eq_true', List.contains_eq_mem, decide_eq_false_iff_not] at h
    exact not_mem_encodeLine h.1 h.2 line
  entity _ _ := exists_entity
  decoded := decode_encodeLine line

/-- **A comment has the lines of its text**, each after the marker and with its markup as entities. -/
theorem docComment_documents (text : String) : List.Forall₂
    (fun line written => ∃ body, written = "/// ".toList ++ body ∧ Encodes line body)
    (terminatedLines text.toList) (terminatedLines (docComment text).toList) := by
  rw [toList_docComment, terminatedLines_docChars, List.forall₂_map_right_iff, List.forall₂_same]
  exact fun line _ => ⟨_, rfl, encodes_encodeLine line⟩

end PolicyForge.Source
