import PolicyForge.Proofs.Source.Standing
import PolicyForge.Proofs.Source.StrayBreaks
/-!
# Texts stand in quotes

Of all pieces of a unit only those that quote a text of the model can hold a stray break, and each
of them begins in code.  So every stray break of a rendered unit stands within a verbatim string
(`guarded_unitPieces`).
-/
namespace PolicyForge

def RegistryValue.texts : RegistryValue → List String
  | .string s => [s]
  | _ => []

namespace Source

open Layout Text

/-! ## Pieces that quote -/

/-- The text that a piece quotes, if it quotes one. -/
def Piece.quotes : Piece → List String
  | .value v => v.texts
  | _ => []

theorem not_isStray_of_isSupportPart {c : Char} (h : isSupportPart c = true) : isStray c = false := by
  have hne := fun d => ne_of_holds (d := d) h
  have hreturn : c ≠ '\r' := hne _ rfl
  have hnext : c ≠ '\u0085' := hne _ (by decide +kernel)
  have hline : c ≠ '\u2028' := hne _ (by decide +kernel)
  have hparagraph : c ≠ '\u2029' := hne _ (by decide +kernel)
  simp [isStray, isLineBreak, hreturn, hnext, hline, hparagraph]

theorem any_isStray_eq_false {s : List Char} (h : ∀ c ∈ s, isStray c = false) :
    s.any isStray = false :=
  List.any_eq_false.2 fun c hc => by rw [h c hc]; decide

theorem not_isStray_of_mem_docChars {text : List Char} {c : Char} (h : c ∈ docChars text) :
    isStray c = false := by
  rcases mem_join h with hc | ⟨line, hline, hc⟩
  · rw [List.mem_singleton.1 hc]
    rfl
  · obtain ⟨l, hl, rfl⟩ := List.mem_map.1 hline
    have hmarker : docMarker.any isStray = false := by decide
    have hentities : entityChars.any isStray = false := by decide
    rcases List.mem_append.1 hc with hc | hc
    · exact Bool.eq_false_iff.2 (List.any_eq_false.1 hmarker c hc)
    · obtain ⟨d, hd, hc⟩ := List.mem_flatMap.1 hc
      have hbreak : isLineBreak d = false := not_of_mem_splitOn _ l hl d hd
      by_cases hentity : c ∈ entityChars
      · exact Bool.eq_false_iff.2 (List.any_eq_false.1 hentities c hentity)
      · rw [eq_of_mem_encodeChar hentity hc, isStray, hbreak]
        rfl

/-- Only a piece that quotes a text can hold a stray break. -/
theorem text_or_not_any {q : Piece} (hq : q.isTidy = true) :
    (∃ s, q = .value (.string s)) ∨ (q.quotes = [] ∧ q.string.toList.any isStray = false) := by
  have hname : q.shape = .name → q.string.toList.any isStray = false := fun hs =>
    any_isStray_eq_false fun c hc => not_isStray_of_isSupportPart (isSupportPart_of_shape hs hc)
  have hword : IsWord q.string.toList → q.string.toList.any isStray = false := fun hw =>
    any_isStray_eq_false fun c hc =>
      not_isStray_of_isSupportPart (isSupportPart_of_isPathPart (hw.2 c hc))
  cases q with
  | fixed s =>
    rw [Piece.isTidy, Piece.shape, Shape.isTidy, Bool.not_eq_true'] at hq
    exact .inr ⟨rfl, hq⟩
  | support _ | path _ | typeName _ | memberName _ => exact .inr ⟨rfl, hname rfl⟩
  | value v =>
    cases v with
    | string s => exact .inl ⟨s, rfl⟩
    | decimal n =>
      have hw := isWord_literal (.decimal n)
      exact .inr ⟨rfl, hword (hw.resolve_left (by simp))⟩
    | longDecimal n =>
      have hw := isWord_literal (.longDecimal n)
      exact .inr ⟨rfl, hword (hw.resolve_left (by simp))⟩
    | delete =>
      have hw := isWord_literal .delete
      exact .inr ⟨rfl, hword (hw.resolve_left (by simp))⟩
  | flag b => exact .inr ⟨rfl, hword (isWord_bool b)⟩
  | comment s =>
    refine .inr ⟨rfl, any_isStray_eq_false fun c hc => ?_⟩
    rw [Piece.string, toList_docComment] at hc
    exact not_isStray_of_mem_docChars hc

/-! ## A stray break within a text -/

/-- A character of written pieces belongs to one of them. -/
theorem exists_piece : ∀ {ps : List Piece} {u t : List Char} {c : Char},
    (written ps).toList = u ++ c :: t → ∃ before q after v w, ps = before ++ q :: after ∧
      u = (written before).toList ++ v ∧ q.string.toList = v ++ c :: w
  | [], u, t, c, h => by simp [written] at h
  | q :: ps, u, t, c, h => by
    rw [written, String.toList_append] at h
    rcases List.append_eq_append_iff.1 h with ⟨mid, rfl, hmid⟩ | ⟨mid, hq, hmid⟩
    · obtain ⟨before, r, after, v, w, rfl, rfl, hr⟩ := exists_piece hmid
      exact ⟨q :: before, r, after, v, w, rfl,
        by rw [written, String.toList_append, List.append_assoc], hr⟩
    · cases mid with
      | nil =>
        obtain ⟨before, r, after, v, w, rfl, hu, hr⟩ :=
          exists_piece (u := []) (by simpa using hmid.symm)
        refine ⟨q :: before, r, after, v, w, rfl, ?_, hr⟩
        rw [List.append_nil] at hq
        rw [written, String.toList_append, List.append_assoc, ← hu, ← hq, List.append_nil]
      | cons d mid =>
        obtain ⟨rfl, -⟩ := List.cons.inj hmid
        exact ⟨[], q, ps, u, mid, rfl, by simp [written], hq⟩

/-- What stands before a character of a doubled text is a doubled text, unless the character is a
quote. -/
theorem exists_doubleQuotes_of_append {c : Char} (hc : c ≠ '"') {t : List Char} :
    ∀ {s u : List Char}, doubleQuotes s ++ ['"'] = u ++ c :: t → ∃ r, u = doubleQuotes r
  | [], u, h => by
    cases u with
    | nil => exact absurd (List.cons.inj h).1.symm hc
    | cons d u => simp [doubleQuotes] at h
  | d :: s, u, h => by
    by_cases hd : d = '"'
    · subst hd
      rw [doubleQuotes, if_pos (by decide)] at h
      rcases u with - | ⟨a, - | ⟨b, u⟩⟩
      · exact absurd (List.cons.inj h).1.symm hc
      · exact absurd (List.cons.inj (List.cons.inj h).2).1.symm hc
      · simp only [List.cons_append, List.cons.injEq] at h
        obtain ⟨rfl, rfl, h⟩ := h
        obtain ⟨r, rfl⟩ := exists_doubleQuotes_of_append hc h
        exact ⟨'"' :: r, rfl⟩
    · rw [doubleQuotes, if_neg (by simpa using hd)] at h
      cases u with
      | nil => exact ⟨[], rfl⟩
      | cons a u =>
        simp only [List.cons_append, List.cons.injEq] at h
        obtain ⟨rfl, h⟩ := h
        obtain ⟨r, rfl⟩ := exists_doubleQuotes_of_append hc h
        exact ⟨d :: r, by rw [doubleQuotes, if_neg (by simpa using hd)]⟩

/-- A stray break of a verbatim string stands in its content. -/
theorem exists_of_verbatimChars {s u t : List Char} {c : Char} (hc : isStray c = true)
    (h : verbatimChars s = u ++ c :: t) : ∃ r, u = '@' :: '"' :: doubleQuotes r := by
  have hne : ∀ d, isStray d = false → c ≠ d := fun d => ne_of_holds hc
  rcases u with - | ⟨a, - | ⟨b, u⟩⟩
  · exact absurd (List.cons.inj h).1.symm (hne '@' rfl)
  · exact absurd (List.cons.inj (List.cons.inj h).2).1.symm (hne '"' rfl)
  · simp only [verbatimChars, List.cons_append, List.cons.injEq] at h
    obtain ⟨rfl, rfl, h⟩ := h
    obtain ⟨r, rfl⟩ := exists_doubleQuotes_of_append (hne '"' rfl) h
    exact ⟨r, rfl⟩

/-- **Pieces that stand somewhere are guarded.** -/
theorem guardedFrom_written {p : Place} {depth : Nat} {b : Place × Nat} {ps : List Piece}
    (hps : Stands (p, depth) ps b) : GuardedFrom p (written ps).toList := by
  intro u c t hsplit hc
  obtain ⟨before, q, after, v, w, rfl, rfl, hq⟩ := exists_piece hsplit
  obtain ⟨s, rfl⟩ : ∃ s, q = .value (.string s) := by
    rcases text_or_not_any (hps.tidy q (by simp)) with hs | ⟨-, hany⟩
    · exact hs
    · exact absurd hc (List.any_eq_false.1 hany c (by rw [hq]; simp))
  obtain ⟨d, hleads⟩ := hps.values before _ after rfl
  have hverbatim : verbatimChars s.toList = v ++ c :: w := by
    rw [← hq]
    exact (toList_verbatim s).symm
  obtain ⟨r, rfl⟩ := exists_of_verbatimChars hc hverbatim
  have hread := (hleads ('@' :: '"' :: doubleQuotes r) ⟨'@', _, rfl, by decide⟩).2
  have hcontent : Layout.read strict (.within .code) d ('@' :: '"' :: doubleQuotes r) =
      some (.within .verbatim, d) := read_doubleQuotes d r
  exact place_of_read (hread.trans hcontent)

/-! ## Units -/

def unitPieces (assembly : String) (ps : List Policy) : List Piece :=
  bannerPieces ++ openingPieces assembly ++
    ps.flatMap (fun p => blockPieces assembly p ++ [.fixed "\n"]) ++ supplementPieces ++
    [.fixed closing]

theorem written_unitPieces (assembly : String) (ps : List Policy) :
    written (unitPieces assembly ps) = banner ++ opening (namespaceName assembly) ++
      String.join (ps.map fun p => written (blockPieces assembly p) ++ "\n") ++ supplement ++
      closing := by
  have hblocks : written (ps.flatMap fun p => blockPieces assembly p ++ [.fixed "\n"]) =
      String.join (ps.map fun p => written (blockPieces assembly p) ++ "\n") := by
    rw [← join_map_written]
    refine congrArg String.join (List.map_congr_left fun p _ => ?_)
    rw [written_append]
    rfl
  have hclosing : written [.fixed closing] = closing := rfl
  rw [unitPieces, written_append, written_append, written_append, written_append,
    written_bannerPieces, written_openingPieces, hblocks, written_supplementPieces, hclosing]

theorem stands_unitPieces (assembly : String) (ps : List Policy) :
    Stands (.margin, 0) (unitPieces assembly ps) (.margin, 0) := by
  have hnewline : Stands (.margin, 1) [.fixed "\n"] (.margin, 1) := by
    apply Stands.of_spells 0 1 1
    · repeat constructor
    · decide
    · decide
  have hclosing : Stands (.margin, 1) [.fixed closing] (.margin, 0) := by
    apply Stands.of_spells 0 1 0
    · dsimp only [closing]
      repeat constructor
    · decide
    · decide
  exact (((stands_bannerPieces.append (stands_openingPieces assembly)).append
    (.flatMap fun p _ => (stands_blockPieces assembly p 1).append hnewline)).append
    stands_supplementPieces).append hclosing

/-- **Every stray break of a unit stands within a string.** -/
theorem guarded_unitPieces (assembly : String) (ps : List Policy) :
    Guarded (written (unitPieces assembly ps)).toList :=
  guardedFrom_written (stands_unitPieces assembly ps)

end Source

end PolicyForge
