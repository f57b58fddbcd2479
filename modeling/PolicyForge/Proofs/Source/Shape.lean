import PolicyForge.Proofs.Source.Comments
import PolicyForge.Proofs.Source.Literals
import PolicyForge.Proofs.Source.Unit
/-!
# The shape of a text

The shape of a piece is what the template alone says of it: fixed text is spelled out, of anything
else only the sort is kept.  What can be told from the shapes of pieces is told by evaluation, for
all policies at once; `Spells` finds the shapes without evaluating a text.  A long line of the
support code is a text `joined` from several.
-/
namespace PolicyForge.Source

inductive Shape where
  | fixed (s : List Char)
  | name
  | value
  | comment
  deriving DecidableEq, Repr

def Piece.shape : Piece → Shape
  | .fixed s => .fixed s.toList
  | .support _ | .path _ | .typeName _ | .memberName _ => .name
  | .value _ | .flag _ => .value
  | .comment _ => .comment

inductive Spells : List Piece → List Shape → Prop where
  | nil : Spells [] []
  | fixed {s : List Char} {ps : List Piece} {ss : List Shape} (h : Spells ps ss) :
    Spells (.fixed (String.ofList s) :: ps) (.fixed s :: ss)
  | joined {a : String} {s t : List Char} {ps : List Piece} {ss : List Shape}
    (h : Spells (.fixed a :: ps) (.fixed s :: ss)) :
    Spells (.fixed (a ++ String.ofList t) :: ps) (.fixed (s ++ t) :: ss)
  | support {a : String} {ps : List Piece} {ss : List Shape} (h : Spells ps ss) :
    Spells (.support a :: ps) (.name :: ss)
  | path {s : String} {ps : List Piece} {ss : List Shape} (h : Spells ps ss) :
    Spells (.path s :: ps) (.name :: ss)
  | typeName {s : String} {ps : List Piece} {ss : List Shape} (h : Spells ps ss) :
    Spells (.typeName s :: ps) (.name :: ss)
  | memberName {s : String} {ps : List Piece} {ss : List Shape} (h : Spells ps ss) :
    Spells (.memberName s :: ps) (.name :: ss)
  | value {v : RegistryValue} {ps : List Piece} {ss : List Shape} (h : Spells ps ss) :
    Spells (.value v :: ps) (.value :: ss)
  | flag {b : Bool} {ps : List Piece} {ss : List Shape} (h : Spells ps ss) :
    Spells (.flag b :: ps) (.value :: ss)
  | comment {s : String} {ps : List Piece} {ss : List Shape} (h : Spells ps ss) :
    Spells (.comment s :: ps) (.comment :: ss)

theorem Spells.map_shape {ps : List Piece} {ss : List Shape} (h : Spells ps ss) :
    ps.map Piece.shape = ss := by
  induction h with
  | nil => rfl
  | fixed _ ih => rw [List.map_cons, ih, Piece.shape, String.toList_ofList]
  | joined _ ih =>
    rw [List.map_cons, Piece.shape, List.cons.injEq, Shape.fixed.injEq] at ih
    rw [List.map_cons, ih.2, Piece.shape, String.toList_append, String.toList_ofList, ih.1]
  | _ _ ih => rw [List.map_cons, ih, Piece.shape]

/-! ## What pieces of a shape look like -/

/-- Characters of names and of the path of the support code. -/
def isSupportPart (c : Char) : Bool := c == ':' || isPathPart c

theorem isSupportPart_of_isPathPart {c : Char} (h : isPathPart c = true) :
    isSupportPart c = true := by
  rw [isSupportPart, h, Bool.or_true]

theorem isSupportPart_of_mem_supportPath {assembly : String} {c : Char}
    (h : c ∈ (supportPath (namespaceName assembly)).toList) : isSupportPart c = true := by
  have hfixed : ∀ s : String, s.toList.all isSupportPart = true → c ∈ s.toList →
      isSupportPart c = true := fun s hs hc => List.all_eq_true.1 hs c hc
  rw [supportPath, String.toList_append, String.toList_append, String.toList_append,
    toList_namespaceName, List.mem_append, List.mem_append, List.mem_append] at h
  rcases h with ((h | h) | h) | h
  · exact hfixed "global::" (by decide) h
  · exact isSupportPart_of_isPathPart (isPathPart_of_mem_namespaceChars h)
  · exact hfixed "." (by decide) h
  · exact hfixed supportNamespace (by decide) h

/-- A name holds nothing that ends it. -/
theorem isSupportPart_of_shape {p : Piece} (hp : p.shape = .name) {c : Char}
    (hc : c ∈ p.string.toList) : isSupportPart c = true := by
  cases p with
  | support assembly => exact isSupportPart_of_mem_supportPath hc
  | path s =>
    rw [Piece.string, toList_namespaceName] at hc
    exact isSupportPart_of_isPathPart (isPathPart_of_mem_namespaceChars hc)
  | typeName s =>
    rw [Piece.string, toList_typeName] at hc
    exact isSupportPart_of_isPathPart (isPathPart_of_mem_typeChars hc)
  | memberName s =>
    rw [Piece.string, toList_memberName] at hc
    exact isSupportPart_of_isPathPart (isPathPart_of_mem_memberChars hc)
  | _ => cases hp

/-- A value is a verbatim string or a word. -/
theorem verbatim_or_isWord_of_shape {p : Piece} (hp : p.shape = .value) :
    (∃ s, p.string.toList = verbatimChars s) ∨ IsWord p.string.toList := by
  cases p with
  | value v =>
    rcases isWord_literal v with ⟨s, rfl⟩ | h
    · exact .inl ⟨s.toList, toList_verbatim s⟩
    · exact .inr h
  | flag b => exact .inr (isWord_bool b)
  | _ => cases hp

theorem docChars_of_shape {p : Piece} (hp : p.shape = .comment) :
    ∃ text, p.string.toList = docChars text := by
  cases p with
  | comment s => exact ⟨s.toList, toList_docComment s⟩
  | _ => cases hp

theorem toList_of_shape {p : Piece} {s : List Char} (hp : p.shape = .fixed s) :
    p.string.toList = s := by
  cases p <;> cases hp
  rfl

end PolicyForge.Source
