import PolicyForge.Text.Lines
import PolicyForge.Text.Quoted
/-!
# Versions

A version is three numbers of 64 bits, optionally a pre-release and build metadata.  `parse` reads
exactly the texts that `text` writes; `parseLenient` also takes versions with fewer or more numbers.
Versions are in order of their numbers, a pre-release before its release, and identifiers compare
as numbers where both are numbers.
-/
namespace PolicyForge

structure Version where
  major : Nat
  minor : Nat
  patch : Nat
  /-- The pre-release after `-`, empty for a release. -/
  pre : String
  /-- The build metadata after `+`, empty without any. -/
  build : String
  deriving DecidableEq, Repr

namespace Version

def text (v : Version) : String :=
  toString v.major ++ "." ++ toString v.minor ++ "." ++ toString v.patch ++
    (if v.pre.isEmpty then "" else "-" ++ v.pre) ++ (if v.build.isEmpty then "" else "+" ++ v.build)

/-! ## Strict reading -/

/-- The parts of a version, for messages. -/
inductive Part where
  | major
  | minor
  | patch
  | pre
  | build
  deriving DecidableEq, Repr

def Part.text : Part → String
  | .major => "major version number"
  | .minor => "minor version number"
  | .patch => "patch version number"
  | .pre => "pre-release identifier"
  | .build => "build metadata"

inductive ParseError where
  | empty
  | unexpectedEnd (p : Part)
  | unexpectedChar (p : Part) (c : Char)
  | unexpectedCharAfter (p : Part) (c : Char)
  | leadingZero (p : Part)
  | overflow (p : Part)
  | emptySegment (p : Part)
  | illegalCharacter (p : Part)
  deriving DecidableEq, Repr

def quotedCharacter (c : Char) : String :=
  String.ofList ('\'' :: Text.quotedChar '\'' c ++ ['\''])

def ParseError.message : ParseError → String
  | .empty => "empty string, expected a semver version"
  | .unexpectedEnd p => "unexpected end of input while parsing " ++ p.text
  | .unexpectedChar p c =>
    "unexpected character " ++ quotedCharacter c ++ " while parsing " ++ p.text
  | .unexpectedCharAfter p c => "unexpected character " ++ quotedCharacter c ++ " after " ++ p.text
  | .leadingZero p => "invalid leading zero in " ++ p.text
  | .overflow p => "value of " ++ p.text ++ " exceeds u64::MAX"
  | .emptySegment p => "empty identifier segment in " ++ p.text
  | .illegalCharacter p => "unexpected character in " ++ p.text

abbrev Parsed (α : Type) := Except ParseError α

/-- One more than the largest number in a version. -/
def limit : Nat := UInt64.size

/-- The digits of a number without superfluous zeros, read to its end. -/
def takeNumber (p : Part) (value : Nat) (any : Bool) : List Char → Parsed (Nat × List Char)
  | [] => if any then .ok (value, []) else .error (.unexpectedEnd p)
  | c :: s =>
    if Text.isAsciiDigit c then
      if any && value == 0 then .error (.leadingZero p)
      else
        let next := value * 10 + (c.toNat - '0'.toNat)
        if next < limit then takeNumber p next true s else .error (.overflow p)
    else if any then .ok (value, c :: s)
    else .error (.unexpectedChar p c)

def takeDot (p : Part) : List Char → Parsed (List Char)
  | [] => .error (.unexpectedEnd p)
  | '.' :: s => .ok s
  | c :: _ => .error (.unexpectedCharAfter p c)

def isIdentifierChar (c : Char) : Bool := Text.isAsciiLetter c || Text.isAsciiDigit c || c == '-'

/-- Whether a segment is a number with a superfluous zero. -/
def isPadded (segment : List Char) : Bool :=
  1 < segment.length && segment.all Text.isAsciiDigit && segment.head? == some '0'

/-- What is wrong with the segments of an identifier; only a pre-release refuses padded numbers. -/
def segmentFault (p : Part) : List (List Char) → Option ParseError
  | [] => none
  | s :: rest =>
    if s.isEmpty then some (.emptySegment p)
    else if p == .pre && isPadded s then some (.leadingZero p)
    else segmentFault p rest

/-- The identifier that a text starts with, empty if it starts with none, and what follows it. -/
def takeIdentifier (p : Part) (s : List Char) : Parsed (List Char × List Char) :=
  let isPart := fun c => isIdentifierChar c || c == '.'
  let taken := s.takeWhile isPart
  let rest := s.dropWhile isPart
  if taken.isEmpty then .ok ([], rest)
  else
    match segmentFault p (Text.splitOn (· == '.') taken) with
    | some e => .error e
    | none => .ok (taken, rest)

/-- The version that a text spells exactly. -/
def parse (s : String) : Parsed Version := do
  let cs := s.toList
  if cs.isEmpty then throw .empty
  let (major, cs) ← takeNumber .major 0 false cs
  let cs ← takeDot .major cs
  let (minor, cs) ← takeNumber .minor 0 false cs
  let cs ← takeDot .minor cs
  let (patch, cs) ← takeNumber .patch 0 false cs
  let (pre, cs, position) ← match cs with
    | '-' :: rest => do
      let (pre, rest) ← takeIdentifier .pre rest
      if pre.isEmpty then throw (.emptySegment .pre)
      pure (pre, rest, Part.pre)
    | cs => pure ([], cs, Part.patch)
  let (build, cs, position) ← match cs with
    | '+' :: rest => do
      let (build, rest) ← takeIdentifier .build rest
      if build.isEmpty then throw (.emptySegment .build)
      pure (build, rest, Part.build)
    | cs => pure ([], cs, position)
  match cs with
  | [] => return ⟨major, minor, patch, String.ofList pre, String.ofList build⟩
  | c :: _ => throw (.unexpectedCharAfter position c)

/-! ## Lenient reading -/

/-- A number of 64 bits, with a plus sign or zeros in front if it likes. -/
def number? (cs : List Char) : Option Nat :=
  let ds := match cs with
    | '+' :: rest => rest
    | _ => cs
  if ds.isEmpty || !ds.all Text.isAsciiDigit then none
  else
    let n := ds.foldl (fun n c => n * 10 + (c.toNat - '0'.toNat)) 0
    if n < limit then some n else none

/-- A part that counts as zero if it is not there. -/
def numberOrZero? : Option (List Char) → Option Nat
  | none => some 0
  | some cs => number? cs

/-- A pre-release that is nothing but one. -/
def preRelease? (s : List Char) : Option String :=
  match takeIdentifier .pre s with
  | .ok (pre, []) => some (String.ofList pre)
  | _ => none

/-- The version of up to three numbers before a hyphen and a pre-release after it; further numbers
are dropped. -/
def parseLoose (s : String) : Option Version := do
  let cs := s.toList
  let parts := Text.splitOn (· == '.') (cs.takeWhile (· != '-'))
  let major ← number? (parts.headD [])
  let minor ← numberOrZero? parts[1]?
  let patch ← numberOrZero? parts[2]?
  let pre ← match cs.dropWhile (· != '-') with
    | [] => some ""
    | _ :: rest => preRelease? rest
  return ⟨major, minor, patch, pre, ""⟩

/-- The version that a text spells, exactly or loosely. -/
def parseLenient (s : String) : Option Version :=
  match parse s with
  | .ok v => some v
  | .error _ => parseLoose s

/-! ## Order -/

/-- The first comparison that is not even. -/
def firstOf : List Ordering → Ordering
  | [] => .eq
  | .eq :: rest => firstOf rest
  | o :: _ => o

def compareChars : List Char → List Char → Ordering
  | [], [] => .eq
  | [], _ :: _ => .lt
  | _ :: _, [] => .gt
  | a :: s, b :: t => if a == b then compareChars s t else compare a.toNat b.toNat

/-- Two segments: numbers below words, numbers by value, words letter by letter. -/
def compareSegments (zeros : Bool) (a b : List Char) : Ordering :=
  let digits := fun s => List.all s Text.isAsciiDigit
  match digits a, digits b with
  | true, false => .lt
  | false, true => .gt
  | false, false => compareChars a b
  | true, true =>
    if zeros then
      -- Zeros in front count only if everything else is even.
      let cut := fun s => List.dropWhile (· == '0') s
      firstOf [compare (cut a).length (cut b).length, compareChars (cut a) (cut b),
        compare a.length b.length]
    else firstOf [compare a.length b.length, compareChars a b]

/-- Two lists of segments: the first difference decides, and then their number. -/
def compareLists (zeros : Bool) : List (List Char) → List (List Char) → Ordering
  | [], [] => .eq
  | [], _ :: _ => .lt
  | _ :: _, [] => .gt
  | a :: s, b :: t =>
    match compareSegments zeros a b with
    | .eq => compareLists zeros s t
    | o => o

def segmentsOf (s : String) : List (List Char) := Text.splitOn (· == '.') s.toList

/-- Two pre-releases: none at all is above every other. -/
def comparePre (a b : String) : Ordering :=
  match a.isEmpty, b.isEmpty with
  | true, true => .eq
  | true, false => .gt
  | false, true => .lt
  | false, false => compareLists false (segmentsOf a) (segmentsOf b)

/-- Two texts of build metadata: none at all is below every other. -/
def compareBuild (a b : String) : Ordering :=
  match a.isEmpty, b.isEmpty with
  | true, true => .eq
  | true, false => .lt
  | false, true => .gt
  | false, false => compareLists true (segmentsOf a) (segmentsOf b)

def order (a b : Version) : Ordering :=
  firstOf [compare a.major b.major, compare a.minor b.minor, compare a.patch b.patch,
    comparePre a.pre b.pre, compareBuild a.build b.build]

/-- The greatest of some versions, the last of those that are even. -/
def greatest : List Version → Option Version
  | [] => none
  | v :: rest => some (rest.foldl (fun best w => if order best w == .gt then best else w) v)

end Version

end PolicyForge
