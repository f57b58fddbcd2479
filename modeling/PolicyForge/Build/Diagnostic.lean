import PolicyForge.Data.Record
import PolicyForge.Text.Blank
import PolicyForge.Text.Lines
/-!
# Diagnostics

A compiler reports what it finds line by line, either at a place of the source,
`file(line,column): severity CODE: message`, or at none, with an optional origin in front,
`origin : severity CODE: message`.  Other lines are not reports.  Places count from one in the
report and from zero here.
-/
namespace PolicyForge.Build

/-- How bad a report is, least first. -/
inductive Severity where
  | hidden
  | info
  | warning
  | error
  deriving DecidableEq, Repr

namespace Severity

def name : Severity → String
  | .hidden => "hidden"
  | .info => "info"
  | .warning => "warning"
  | .error => "error"

def rank : Severity → Nat
  | .hidden => 0
  | .info => 1
  | .warning => 2
  | .error => 3

def isReported (s : Severity) : Bool := warning.rank ≤ s.rank

def below (a b : Severity) : Bool := a.rank < b.rank

/-- The severities in the order in which they are looked for. -/
def all : List Severity := [.error, .warning, .info, .hidden]

end Severity

/-- A place in the source, counted from zero. -/
structure Position where
  line : Nat
  column : Nat
  deriving DecidableEq, Repr

structure Diagnostic where
  severity : Severity
  /-- Absent where the report is not about the source. -/
  position : Option Position
  code : String
  message : String
  deriving DecidableEq, Repr

/-! ## Reading reports -/

/-- The number that a text of digits spells, if it fits 64 bits and has ASCII digits only. -/
def wordOf? (digits : List Char) : Option Nat :=
  if digits.isEmpty || !digits.all Text.isAsciiDigit then none
  else
    let n := digits.foldl (fun n c => n * 10 + (c.toNat - '0'.toNat)) 0
    if n < UInt64.size then some n else none

/-- What follows a fixed text, if the other text starts with it. -/
def after? (start : List Char) (s : List Char) : Option (List Char) :=
  match start, s with
  | [], s => some s
  | _ :: _, [] => none
  | a :: start, b :: s => if a == b then after? start s else none

/-- A run of digits of any script, not empty, and what follows it. -/
def digits? (s : List Char) : Option (List Char × List Char) :=
  match s.takeWhile Text.isDigit with
  | [] => none
  | ds => some (ds, s.dropWhile Text.isDigit)

/-- A code, letters and then digits, and what follows it. -/
def code? (s : List Char) : Option (List Char × List Char) := do
  let letters := s.takeWhile Text.isAsciiLetter
  if letters.isEmpty then none
  else
    let (ds, rest) ← digits? (s.dropWhile Text.isAsciiLetter)
    return (letters ++ ds, rest)

/-- The severity that a text starts with, its code and its message. -/
def report? (s : List Char) : Option (Severity × List Char × List Char) :=
  Severity.all.findSome? fun severity => do
    let rest ← after? (severity.name.toList ++ [' ']) s
    let (code, rest) ← code? rest
    let message ← after? [':', ' '] rest
    if message.contains '\n' then none else return (severity, code, message)

/-- The two numbers of a place, and what follows the place; the end of a range is passed over. -/
def place? (s : List Char) : Option (List Char × List Char × List Char) := do
  let s ← after? ['('] s
  let (line, s) ← digits? s
  let s ← after? [','] s
  let (column, s) ← digits? s
  let close := fun s => after? [')', ':', ' '] s
  match close s with
  | some rest => return (line, column, rest)
  | none =>
    let s ← after? [','] s
    let (_, s) ← digits? s
    let s ← after? [','] s
    let (_, s) ← digits? s
    return (line, column, ← close s)

/-- The first place in a text from which on it reads as a located report, with something in front
of it. -/
def located? : Bool → List Char → Option (List Char × List Char × Severity × List Char × List Char)
  | _, [] => none
  | any, c :: s =>
    let here := if any then (place? (c :: s)).bind fun (line, column, rest) =>
        (report? rest).map fun (severity, code, message) => (line, column, severity, code, message)
      else none
    match here with
    | some r => some r
    | none => if c == '\n' then none else located? true s

/-- A report without a place, after an origin if there is one. -/
def unlocated? (s : List Char) : Option (Severity × List Char × List Char) :=
  let origin := s.takeWhile (· != ':')
  -- The origin ends with the blank before its colon.
  let afterOrigin :=
    match origin.reverse, s.dropWhile (· != ':') with
    | ' ' :: _ :: _, ':' :: ' ' :: rest => report? rest
    | _, _ => none
  afterOrigin.or (report? s)

/-- The report on a line, if the line is one. -/
def ofLine? (line : List Char) : Option Diagnostic :=
  let line := Text.trimEnd line
  match located? false line with
  | some (l, c, severity, code, message) => do
    let l ← wordOf? l
    let c ← wordOf? c
    return ⟨severity, some ⟨l - 1, c - 1⟩, String.ofList code, String.ofList message⟩
  | none =>
    (unlocated? line).map fun (severity, code, message) =>
      ⟨severity, none, String.ofList code, String.ofList message⟩

def parseDiagnostics (output : String) : List Diagnostic :=
  (Text.lines output.toList).filterMap ofLine?

/-! ## Showing reports -/

/-- A report with the line of source that it is about; one without a place shows the first. -/
def formatDiagnostic (d : Diagnostic) (source : String) : String :=
  let line := (d.position.map Position.line).getD 0
  let text := ((Text.lines source.toList)[line]?).getD []
  "[ln." ++ toString (line + 1) ++ "] " ++ d.message ++ " - " ++ String.ofList text

/-! ## As documents -/

open Data Data.Fields

def Severity.decode : Decoder Severity :=
  Decode.alternative
    [("hidden", .unit .hidden), ("info", .unit .info), ("warning", .unit .warning),
      ("error", .unit .error)]

def Position.decode : Decoder Position :=
  let number : Decoder Nat := fun o t => (Decode.usize o t).map UInt64.toNat
  Record.decode "struct SourceLocation" ["line", "column"]
    (Position.mk <$> needed "line" number <*> needed "column" number)

def Diagnostic.decode : Decoder Diagnostic :=
  Record.decode "struct BackendDiagnostic" ["severity", "location", "code", "message"]
    (Diagnostic.mk <$> needed "severity" Severity.decode <*> nullable "location" Position.decode
      <*> needed "code" Decode.string <*> needed "message" Decode.string)

def Position.toJson (p : Position) : Json :=
  .object [("column", .int p.column), ("line", .int p.line)]

def Diagnostic.toJson (d : Diagnostic) : Json :=
  .object [("code", .string d.code), ("location", Json.ofOption Position.toJson d.position),
    ("message", .string d.message), ("severity", .string d.severity.name)]

end PolicyForge.Build
