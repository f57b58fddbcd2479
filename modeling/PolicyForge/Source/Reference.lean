/-!
# Resource references

A reference has the form `$(type.key)`.  Its type holds no dot and its key no closing parenthesis;
neither is empty.  Of all references in a text the leftmost counts.
-/
namespace PolicyForge.Source

/-- The key of a reference that starts with `$(`, given what follows. -/
def keyAfterOpening (s : List Char) : Option (List Char) :=
  match s.takeWhile (· != '.'), s.dropWhile (· != '.') with
  | _ :: _, '.' :: rest =>
    match rest.takeWhile (· != ')'), rest.dropWhile (· != ')') with
    | k :: ks, ')' :: _ => some (k :: ks)
    | _, _ => none
  | _, _ => none

/-- The key of the leftmost reference. -/
def leftmostKey : List Char → Option (List Char)
  | [] => none
  | c :: s =>
    match c, s with
    | '$', '(' :: rest =>
      match keyAfterOpening rest with
      | some k => some k
      | none => leftmostKey s
    | _, _ => leftmostKey s

/-- The key of the leftmost reference of a text, or the empty text if it has none. -/
def referenceKey (text : String) : String := String.ofList ((leftmostKey text.toList).getD [])

end PolicyForge.Source
