import PolicyForge.Proofs.Source.Meaning
import PolicyForge.Proofs.Source.Quoting
import PolicyForge.Proofs.Source.References
/-!
# The texts that a unit quotes

A unit in normal layout holds a stray break exactly if one of the texts that it quotes does
(`holdsStray_of_render`).  Those texts are the ones that the meanings of its policies are made of;
the key of a reference is quoted as well, but it is a part of the displayed name.
-/
namespace PolicyForge

/-! ## The texts of a meaning -/

def ElementParameters.texts : ElementParameters → List String
  | .boolean valueName trueValue falseValue => valueName :: trueValue.texts ++ falseValue.texts
  | .enumeration valueName _ items => valueName :: items.flatMap fun i => i.1 :: i.2.texts
  | .list valuePrefix _ _ _ => valuePrefix.toList
  | .decimal valueName .. | .longDecimal valueName .. | .multiText valueName ..
  | .text valueName .. => [valueName]

def ElementMeaning.texts (e : ElementMeaning) : List String := e.id :: e.key :: e.parameters.texts

/-- The texts that are part of what a policy means. -/
def PolicyMeaning.texts (m : PolicyMeaning) : List String :=
  m.key :: m.valueName.toList ++ m.enabledValue.texts ++ m.disabledValue.texts ++
    m.displayName :: m.supportedOn.toList ++ m.elements.flatMap ElementMeaning.texts

namespace Source

open Layout Text

/-! ## Stray breaks of a text and of its parts -/

theorem holdsStray_cons (c : Char) (s : List Char) : holdsStray (c :: s) =
    ((isStray c && !(c == '\r' && s.head? == some '\n')) || holdsStray s) := by
  by_cases h : c = '\r' ∧ s.head? = some '\n'
  · obtain ⟨rfl, hs⟩ := h
    obtain ⟨t, rfl⟩ : ∃ t, s = '\n' :: t := by
      cases s with
      | nil => cases hs
      | cons d t => exact ⟨t, by rw [Option.some.inj hs]⟩
    have hnewline : ∀ u, unifyReturns ('\n' :: u) = '\n' :: unifyReturns u := fun u =>
      unifyReturns.eq_3 _ _ (by simp)
    simp [holdsStray, hnewline, unifyReturns.eq_2]
  · have hunify : unifyReturns (c :: s) = c :: unifyReturns s :=
      unifyReturns.eq_3 _ _ fun t hc hs => h ⟨hc, by rw [hs]; rfl⟩
    have hlone : (c == '\r' && s.head? == some '\n') = false := by simpa using h
    rw [hlone, holdsStray, hunify, List.any_cons, holdsStray]
    simp

/-- The stray breaks of two parts are those of the whole, unless CR meets LF between them. -/
theorem holdsStray_append {t : List Char} : ∀ {s : List Char},
    (s.getLast? = some '\r' → t.head? ≠ some '\n') →
      holdsStray (s ++ t) = (holdsStray s || holdsStray t)
  | [], _ => rfl
  | [c], h => by
    have hlone : (c == '\r' && t.head? == some '\n') = false := by
      simpa using fun hc => h (by rw [hc]; rfl)
    rw [List.singleton_append, holdsStray_cons, holdsStray_cons, hlone]
    simp [holdsStray, unifyReturns]
  | c :: d :: s, h => by
    have ih := holdsStray_append (s := d :: s) (t := t) (by simpa using h)
    rw [List.cons_append, holdsStray_cons, ih, holdsStray_cons c (d :: s), Bool.or_assoc]
    rfl

theorem holdsStray_append_right (s : List Char) {t : List Char} (h : holdsStray t = true) :
    holdsStray (s ++ t) = true := by
  induction s with
  | nil => exact h
  | cons c s ih => rw [List.cons_append, holdsStray_cons, ih, Bool.or_true]

theorem holdsStray_of_not_any : ∀ {s : List Char}, s.any isStray = false → holdsStray s = false
  | [], _ => rfl
  | c :: s, h => by
    rw [List.any_cons, Bool.or_eq_false_iff] at h
    rw [holdsStray_cons, h.1, holdsStray_of_not_any h.2]
    rfl

theorem head?_doubleQuotes (s : List Char) : (doubleQuotes s).head? = s.head? := by
  cases s with
  | nil => rfl
  | cons c s => by_cases hc : c = '"' <;> simp [doubleQuotes, hc]

theorem holdsStray_doubleQuotes : ∀ (s : List Char), holdsStray (doubleQuotes s) = holdsStray s
  | [] => rfl
  | c :: s => by
    have ih := holdsStray_doubleQuotes s
    by_cases hc : c = '"'
    · have hquote : isStray '"' = false := rfl
      subst hc
      simp [doubleQuotes, holdsStray_cons, hquote, ih]
    · rw [doubleQuotes, if_neg (by simpa using hc), holdsStray_cons, holdsStray_cons, ih,
        head?_doubleQuotes]

/-- Quoting a text keeps its stray breaks. -/
theorem holdsStray_verbatimChars (s : List Char) : holdsStray (verbatimChars s) = holdsStray s := by
  have hopen : isStray '@' = false ∧ isStray '"' = false := ⟨rfl, rfl⟩
  have hclose : holdsStray ['"'] = false := rfl
  have hbody : holdsStray (doubleQuotes s ++ ['"']) = holdsStray s := by
    rw [holdsStray_append (by simp), holdsStray_doubleQuotes, hclose, Bool.or_false]
  rw [verbatimChars, List.cons_append, List.cons_append, holdsStray_cons, holdsStray_cons, hbody]
  simp [hopen]

/-! ## References -/

/-- The key of a reference holds a stray break only if the text does. -/
theorem holdsStray_of_referenceKey {s : String} (h : holdsStray (referenceKey s).toList = true) :
    holdsStray s.toList = true := by
  rw [referenceKey, String.toList_ofList] at h
  rcases leftmostKey_cases s.toList with ⟨m, ⟨hm, -⟩, hkey⟩ | ⟨-, hkey⟩
  · have hchars : s.toList =
        (m.before ++ '$' :: '(' :: m.type ++ ['.']) ++ (m.key ++ ')' :: m.after) := by
      simp [← hm, Mention.chars]
    rw [hkey, Option.getD_some] at h
    rw [hchars]
    refine holdsStray_append_right _ ?_
    rw [holdsStray_append (by simp), h, Bool.true_or]
  · rw [hkey] at h
    cases h

/-! ## Pieces -/

theorem getLast?_ne_return {q : Piece} (hq : q.isTidy = true) :
    q.string.toList.getLast? ≠ some '\r' := by
  intro hlast
  rcases text_or_not_any hq with ⟨s, rfl⟩ | ⟨-, hany⟩
  · have hstring : (Piece.value (.string s)).string.toList = verbatimChars s.toList :=
      toList_verbatim s
    rw [hstring, verbatimChars, List.getLast?_concat] at hlast
    cases hlast
  · exact List.any_eq_false.1 hany '\r' (List.mem_of_getLast? hlast) rfl

theorem holdsStray_piece {q : Piece} (hq : q.isTidy = true) :
    holdsStray q.string.toList = q.quotes.any fun s => holdsStray s.toList := by
  rcases text_or_not_any hq with ⟨s, rfl⟩ | ⟨hnone, hany⟩
  · have hstring : (Piece.value (.string s)).string.toList = verbatimChars s.toList :=
      toList_verbatim s
    rw [hstring, holdsStray_verbatimChars]
    simp [Piece.quotes, RegistryValue.texts]
  · rw [hnone, holdsStray_of_not_any hany]
    rfl

/-- Pieces hold a stray break exactly if a text that they quote does. -/
theorem holdsStray_written : ∀ {ps : List Piece}, (∀ q ∈ ps, q.isTidy = true) →
    holdsStray (written ps).toList = (ps.flatMap Piece.quotes).any fun s => holdsStray s.toList
  | [], _ => rfl
  | q :: ps, h => by
    have hq := h q List.mem_cons_self
    have ih := holdsStray_written fun r hr => h r (List.mem_cons_of_mem q hr)
    rw [written, String.toList_append,
      holdsStray_append (fun hlast => absurd hlast (getLast?_ne_return hq)), ih,
      holdsStray_piece hq, List.flatMap_cons, List.any_append]

/-! ## What a unit quotes -/

@[simp] theorem texts_string (s : String) : (RegistryValue.string s).texts = [s] := rfl

@[simp] theorem texts_decimal (n : UInt32) : (RegistryValue.decimal n).texts = [] := rfl

@[simp] theorem texts_longDecimal (n : UInt64) : (RegistryValue.longDecimal n).texts = [] := rfl

@[simp] theorem texts_ofText? (s : Option String) : (RegistryValue.ofText? s).texts = s.toList := by
  cases s <;> rfl

theorem quotes_argumentPieces : ∀ (ps : List Piece),
    (argumentPieces ps).flatMap Piece.quotes = ps.flatMap Piece.quotes
  | [] => rfl
  | [_] => rfl
  | q :: r :: ps => by
    have ih := quotes_argumentPieces (r :: ps)
    rw [argumentPieces, List.flatMap_cons, List.flatMap_cons, ih]
    · rfl
    · exact List.cons_ne_nil r ps

section

variable (assembly : String) (p : Policy)

/-- An element quotes the texts of its meaning. -/
theorem quotes_elementPieces (e : Element) :
    (elementPieces assembly p e).flatMap Piece.quotes = (elementMeaning p e).texts := by
  have hproperty : ∀ e, (propertyPieces assembly e).flatMap Piece.quotes = [] := fun e => rfl
  cases e with
  | enumeration n =>
    simp [elementPieces, hproperty, quotes_argumentPieces, elementArguments, optionPieces,
      entryPieces, List.flatMap_assoc, List.flatMap_map, Piece.quotes, elementMeaning, parameters,
      itemMeaning, ElementMeaning.texts, ElementParameters.texts]
  | _ =>
    simp [elementPieces, hproperty, quotes_argumentPieces, elementArguments, Piece.quotes,
      elementMeaning, parameters, ElementMeaning.texts, ElementParameters.texts]

theorem quotes_headPieces : (headPieces assembly p).flatMap Piece.quotes = [] := by
  have himport : importPieces.flatMap Piece.quotes = [] := rfl
  have hremark : (remarkPieces p.explainText).flatMap Piece.quotes = [] := by
    cases p.explainText with
    | none => rfl
    | some s => by_cases hs : s.isEmpty = true <;> simp [remarkPieces, hs, Piece.quotes]
  rw [headPieces, List.flatMap_append, List.flatMap_append, List.flatMap_append,
    List.flatMap_append, himport, hremark]
  rfl

theorem quotes_blockPieces : (blockPieces assembly p).flatMap Piece.quotes =
    p.key :: p.valueName.toList ++ (meaning p).enabledValue.texts ++
      (meaning p).disabledValue.texts ++ p.displayName :: referenceKey p.displayName ::
      p.supportedOn.toList ++ (meaning p).elements.flatMap ElementMeaning.texts := by
  have htail : (tailPieces assembly p).flatMap Piece.quotes = [] := by
    simp [tailPieces, List.flatMap_assoc, Piece.quotes]
  simp [blockPieces, quotes_headPieces, quotes_argumentPieces, stateArguments, propertiesPieces,
    htail, List.flatMap_assoc, List.flatMap_map, quotes_elementPieces, Piece.quotes, meaning]

/-- What a block quotes holds a stray break exactly if a text of the meaning does. -/
theorem any_quotes_blockPieces :
    ((blockPieces assembly p).flatMap Piece.quotes).any (fun s => holdsStray s.toList) =
      (meaning p).texts.any fun s => holdsStray s.toList := by
  have hkey := holdsStray_of_referenceKey (s := p.displayName)
  have hmeaning : (meaning p).texts = p.key :: p.valueName.toList ++
      (meaning p).enabledValue.texts ++ (meaning p).disabledValue.texts ++ p.displayName ::
      p.supportedOn.toList ++ (meaning p).elements.flatMap ElementMeaning.texts := rfl
  rw [quotes_blockPieces, hmeaning]
  simp only [List.any_append, List.any_cons]
  cases hname : holdsStray p.displayName.toList with
  | true => simp
  | false =>
    have hnokey : holdsStray (referenceKey p.displayName).toList = false := by
      by_contra h
      rw [hkey (by simpa using h)] at hname
      cases hname
    rw [hnokey]
    rfl

end

/-- A unit holds a stray break exactly if a text of the meaning of a policy does. -/
theorem holdsStray_unitPieces (assembly : String) (ps : List Policy) :
    holdsStray (written (unitPieces assembly ps)).toList =
      ps.any fun p => (meaning p).texts.any fun s => holdsStray s.toList := by
  have hbanner : bannerPieces.flatMap Piece.quotes = [] := rfl
  have hopening : (openingPieces assembly).flatMap Piece.quotes = [] := rfl
  have hsupplement : supplementPieces.flatMap Piece.quotes = [] := by
    have himport : importPieces.flatMap Piece.quotes = [] := rfl
    have hsection : ∀ lines, (sectionPieces lines).flatMap Piece.quotes = [] := fun lines => by
      simp [sectionPieces, List.flatMap_assoc, Piece.quotes]
    simp [supplementPieces, himport, List.flatMap_assoc, hsection, Piece.quotes]
  have hunit : (unitPieces assembly ps).flatMap Piece.quotes =
      ps.flatMap fun p => (blockPieces assembly p).flatMap Piece.quotes := by
    simp [unitPieces, hbanner, hopening, hsupplement, List.flatMap_assoc, Piece.quotes]
  rw [holdsStray_written (stands_unitPieces assembly ps).tidy, hunit, List.any_flatMap]
  exact congrArg _ (funext fun p => any_quotes_blockPieces assembly p)

/-! ## Rendered units -/

/-- A unit is lines, each of them ended. -/
theorem written_unitPieces_ended (assembly : String) (ps : List Policy) :
    ∃ ws : List (List Char), (∀ w ∈ ws, '\n' ∉ w) ∧
      (written (unitPieces assembly ps)).toList = ws.flatMap (· ++ ['\n']) := by
  obtain ⟨text, htext⟩ : ∃ text : List Char,
      (written (unitPieces assembly ps)).toList = text ++ ['\n'] := by
    have hclosing : (written [.fixed closing]).toList = ['\x7d'] ++ ['\n'] := rfl
    rw [unitPieces, written_append, String.toList_append, hclosing, ← List.append_assoc]
    exact ⟨_, rfl⟩
  refine ⟨splitOn (· == '\n') text, fun w hw hn => ?_, ?_⟩
  · simpa using not_of_mem_splitOn text w hw '\n' hn
  · rw [htext, ← join_append_sep '\n' (splitOn_ne_nil _ text), join_splitOn]

/-- **A rendered unit in normal layout holds a stray break** exactly if a text of the meaning of a
policy does. -/
theorem holdsStray_of_render {model : Model} {assembly : String} {interrupt : Interrupt} {pen : Pen}
    (h : render model assembly interrupt = (.ok (), pen)) :
    ∃ policies, model.policies = .ok policies ∧
      holdsStray (Layout.normalize pen.written).toList =
        policies.toList.any fun p => (meaning p).texts.any fun s => holdsStray s.toList := by
  obtain ⟨policies, hpolicies, -, hwritten⟩ := render_ok h
  refine ⟨policies, hpolicies, ?_⟩
  rw [← written_unitPieces] at hwritten
  have hguarded := guarded_unitPieces assembly policies.toList
  obtain ⟨ws, hn, hended⟩ := written_unitPieces_ended assembly policies.toList
  have hunit := holdsStray_unitPieces assembly policies.toList
  rw [hended] at hguarded hunit
  rw [hwritten, toList_normalize, hended, holdsStray_normalizeChars hn hguarded,
    hunit]

end Source

end PolicyForge
