import PolicyForge.Host.Program
/-!
# Scripts

A program on the disk is a script in a small command language: simple commands with a redirection,
joined by `&&` and `||` or standing one after the other, and loops over words.  `Script.run` gives
what a script writes to its two outputs, what it does to the disk, and its status.
-/
namespace PolicyForge.Script

/-! ## Words -/

inductive Part where
  | literal (s : List Char)
  /-- The argument at a place, counting from one. -/
  | argument (n : Nat)
  /-- All arguments, each a word of its own. -/
  | allArguments
  | named (name : String)
  deriving Repr, BEq

abbrev Word := List Part

inductive Token where
  | word (w : Word)
  | stop
  | both
  | either
  /-- Output into a file, in place of what it holds or after it. -/
  | redirect (append : Bool)
  | toErrors
  deriving Repr

/-- How the first pass reads characters. -/
inductive Quoting where
  | bare
  | single
  | double
  | comment
  deriving DecidableEq

/-- A word in the making: its parts, last first, and whether there is one at all. -/
structure Pending where
  parts : List Part
  started : Bool

def Pending.empty : Pending := ⟨[], false⟩

def Pending.add (p : Pending) (c : Char) : Pending :=
  match p.parts with
  | .literal s :: rest => ⟨.literal (c :: s) :: rest, true⟩
  | parts => ⟨.literal [c] :: parts, true⟩

def Pending.part (p : Pending) (q : Part) : Pending := ⟨q :: p.parts, true⟩

def Pending.finish (p : Pending) : List Token :=
  if p.started then
    [.word (p.parts.reverse.map fun q => match q with
      | .literal s => .literal s.reverse
      | q => q)]
  else []

def isNameChar (c : Char) : Bool :=
  ('a' ≤ c && c ≤ 'z') || ('A' ≤ c && c ≤ 'Z') || ('0' ≤ c && c ≤ '9') || c == '_'

def scan (fuel : Nat) (q : Quoting) (p : Pending) (s : List Char) : List Token :=
  match fuel, s with
  | 0, _ => []
  | _, [] => p.finish
  | fuel + 1, c :: s =>
    match q with
    | .comment => if c == '\n' then .stop :: scan fuel .bare p s else scan fuel .comment p s
    | .single => if c == '\'' then scan fuel .bare p s else scan fuel .single (p.add c) s
    | _ =>
      let quoted := q == .double
      match c, s with
      | '$', '@' :: rest => scan fuel q (p.part .allArguments) rest
      | '$', d :: rest =>
        if '1' ≤ d && d ≤ '9' then scan fuel q (p.part (.argument (d.toNat - '0'.toNat))) rest
        else if isNameChar d then
          scan fuel q (p.part (.named (String.ofList (s.takeWhile isNameChar))))
            (s.dropWhile isNameChar)
        else scan fuel q (p.add c) s
      | '"', _ => scan fuel (if quoted then .bare else .double) { p with started := true } s
      | '\\', d :: rest =>
        if quoted && !(d == '"' || d == '\\' || d == '$') then scan fuel q (p.add c) s
        else scan fuel q (p.add d) rest
      | _, _ =>
        if quoted then scan fuel q (p.add c) s
        else
          match c, s with
          | '\'', _ => scan fuel .single { p with started := true } s
          | ' ', _ | '\t', _ => p.finish ++ scan fuel .bare .empty s
          | '\n', _ | ';', _ => p.finish ++ .stop :: scan fuel .bare .empty s
          | '&', '&' :: rest => p.finish ++ .both :: scan fuel .bare .empty rest
          | '|', '|' :: rest => p.finish ++ .either :: scan fuel .bare .empty rest
          | '>', '&' :: '2' :: rest => p.finish ++ .toErrors :: scan fuel .bare .empty rest
          | '>', '>' :: rest => p.finish ++ .redirect true :: scan fuel .bare .empty rest
          | '>', _ => p.finish ++ .redirect false :: scan fuel .bare .empty s
          | '#', _ =>
            if p.started then scan fuel .bare (p.add c) s else scan fuel .comment .empty s
          | _, _ => scan fuel .bare (p.add c) s

/-! ## Commands -/

inductive Output where
  | onward
  | errors
  | file (append : Bool) (name : Word)

inductive Command where
  | simple (words : List Word) (output : Output)
  /-- The body once for every word. -/
  | loop (name : String) (words : List Word) (body : List Command) (output : Output)
  /-- The second command if the first has ended well, or if it has not. -/
  | chain (first : Command) (onSuccess : Bool) (second : Command)

def literalOf (w : Word) : Option String :=
  match w with
  | [.literal s] => some (String.ofList s)
  | _ => none

def isWord (name : String) : Token → Bool
  | .word w => literalOf w == some name
  | _ => false

/-- The words and the redirection of a simple command, and what follows it. -/
def takeSimple : List Token → List Word → Output → List Word × Output × List Token
  | .word w :: rest, ws, o => takeSimple rest (ws ++ [w]) o
  | .toErrors :: rest, ws, _ => takeSimple rest ws .errors
  | .redirect append :: .word w :: rest, ws, _ => takeSimple rest ws (.file append w)
  | rest, ws, o => (ws, o, rest)

mutual

def parseOne (fuel : Nat) (ts : List Token) : Option (Command × List Token) :=
  match fuel with
  | 0 => none
  | fuel + 1 =>
    match ts with
    | .word w :: .word v :: rest =>
      if literalOf w == some "for" then
        match literalOf v, rest with
        | some name, .word i :: rest =>
          if literalOf i == some "in" then
            let (words, _, rest) := takeSimple rest [] .onward
            match rest with
            | .stop :: d :: rest =>
              if isWord "do" d then
                let (body, rest) := parseMany fuel rest
                match rest with
                | _ :: rest =>
                  let (_, output, rest) := takeSimple rest [] .onward
                  some (.loop name words body output, rest)
                | [] => none
              else none
            | _ => none
          else none
        | _, _ => none
      else
        let (words, output, rest) := takeSimple ts [] .onward
        some (.simple words output, rest)
    | _ =>
      let (words, output, rest) := takeSimple ts [] .onward
      if words.isEmpty then none else some (.simple words output, rest)

/-- A command with those joined to it. -/
def parseChain (fuel : Nat) (first : Command) (ts : List Token) : Command × List Token :=
  match fuel with
  | 0 => (first, ts)
  | fuel + 1 =>
    match ts with
    | .both :: rest =>
      match parseOne fuel rest with
      | some (c, rest) => parseChain fuel (.chain first true c) rest
      | none => (first, rest)
    | .either :: rest =>
      match parseOne fuel rest with
      | some (c, rest) => parseChain fuel (.chain first false c) rest
      | none => (first, rest)
    | ts => (first, ts)

/-- The commands up to the end of the script or of the loop. -/
def parseMany (fuel : Nat) (ts : List Token) : List Command × List Token :=
  match fuel with
  | 0 => ([], ts)
  | fuel + 1 =>
    match ts with
    | [] => ([], [])
    | .stop :: rest => parseMany fuel rest
    | t :: _ =>
      if isWord "done" t then ([], ts)
      else
        match parseOne fuel ts with
        | none => ([], [])
        | some (c, rest) =>
          let (c, rest) := parseChain fuel c rest
          let (cs, rest) := parseMany fuel rest
          (c :: cs, rest)

end

def parse (text : String) : List Command :=
  let tokens := scan (text.length + 1) .bare .empty text.toList
  (parseMany (2 * tokens.length + 2) tokens).1

/-! ## Running -/

structure State where
  disk : Disk
  cwd : Location
  arguments : List String
  bindings : List (String × String)
  output : ByteArray
  errors : ByteArray
  /-- The commands that are programs of their own and can be found. -/
  installed : List String
  /-- The status of the last command, zero if it has ended well. -/
  status : Nat
  ended : Bool

def expand (st : State) (w : Word) : List String :=
  let value : Part → List String
    | .literal s => [String.ofList s]
    | .argument n => [(st.arguments[n - 1]?).getD ""]
    | .allArguments => st.arguments
    | .named name => [((st.bindings.find? (·.1 == name)).map (·.2)).getD ""]
  match w with
  | [.allArguments] => st.arguments
  | w => [String.join (w.flatMap value)]

/-- A text written by a pattern; the pattern is used again while words are left. -/
def format : List Char → List String → List Char
  | [], _ => []
  | '%' :: 's' :: rest, [] => format rest []
  | '%' :: 's' :: rest, w :: ws => w.toList ++ format rest ws
  | '%' :: '%' :: rest, ws => '%' :: format rest ws
  | '\\' :: 'n' :: rest, ws => '\n' :: format rest ws
  | '\\' :: 't' :: rest, ws => '\t' :: format rest ws
  | '\\' :: 'r' :: rest, ws => '\r' :: format rest ws
  | '\\' :: '\\' :: rest, ws => '\\' :: format rest ws
  | c :: rest, ws => c :: format rest ws

def State.write (st : State) (s : String) : State := { st with output := st.output ++ s.toUTF8 }

def State.complain (st : State) (status : Nat) (s : String) : State :=
  { st with errors := st.errors ++ s.toUTF8, status := status }

def numberOf (s : String) : Nat := s.toList.foldl (fun n c => n * 10 + (c.toNat - '0'.toNat)) 0

def copyFiles (st : State) : List String → State
  | [] => st
  | name :: rest =>
    match st.disk.readBytes st.cwd name with
    | .ok bytes => copyFiles { st with output := st.output ++ bytes } rest
    | .error e =>
      let reason := (e.message.splitOn " (os error").headD ""
      copyFiles (st.complain 1 ("cat: " ++ name ++ ": " ++ reason ++ "\n")) rest

def runWords (st : State) (words : List String) : State :=
  let before := st.status
  let st := { st with status := 0 }
  match words with
  | [] => st
  | "cat" :: names =>
    if st.installed.contains "cat" then copyFiles st names
    else st.complain 127 "sh: cat: not found\n"
  | "echo" :: "-n" :: ws => st.write (" ".intercalate ws)
  | "echo" :: ws => st.write (" ".intercalate ws ++ "\n")
  | "printf" :: pattern :: ws => st.write (String.ofList (format pattern.toList ws))
  | ["exit"] => { st with status := before, ended := true }
  | "exit" :: code :: _ => { st with status := numberOf code % 256, ended := true }
  | "[" :: a :: "=" :: b :: _ => { st with status := if a == b then 0 else 1 }
  | "[" :: a :: "!=" :: b :: _ => { st with status := if a == b then 1 else 0 }
  | ["true"] | [":"] => st
  | ["false"] => { st with status := 1 }
  | name :: _ => st.complain 127 ("sh: " ++ name ++ ": not found\n")

/-- Runs `body` with its output sent where it belongs. -/
def withOutput (st : State) (o : Output) (body : State → State) : State :=
  match o with
  | .onward => body st
  | .errors =>
    let done := body { st with output := .empty }
    { done with output := st.output, errors := done.errors ++ done.output }
  | .file append name =>
    let path := (expand st name).headD ""
    let before := if append then ((st.disk.readBytes st.cwd path).toOption).getD .empty else .empty
    match st.disk.writeBytes st.cwd path before with
    | .error _ => st.complain 2 ("sh: cannot create " ++ path ++ "\n")
    | .ok disk =>
      let done := body { st with disk := disk, output := .empty }
      match done.disk.writeBytes st.cwd path (before ++ done.output) with
      | .ok disk => { done with disk := disk, output := st.output }
      | .error _ => { done with output := st.output }

mutual

def runCommand (st : State) : Command → State
  | .simple words output =>
    withOutput st output fun st => runWords st (words.flatMap (expand st))
  | .loop name words body output =>
    withOutput st output fun st =>
      (words.flatMap (expand st)).foldl
        (fun st w => runAll { st with bindings := (name, w) :: st.bindings } body)
        { st with status := 0 }
  | .chain first onSuccess second =>
    let st := runCommand st first
    if st.ended || (st.status == 0) != onSuccess then st else runCommand st second

def runAll (st : State) : List Command → State
  | [] => st
  | c :: rest => if st.ended then st else runAll (runCommand st c) rest

end

/-- What a script does with arguments in a directory of the disk, where some programs are
installed. -/
def runWith (installed : List String) : Interpreter := fun text arguments disk cwd =>
  let st := runAll ⟨disk, cwd, arguments, [], .empty, .empty, installed, 0, false⟩ (parse text)
  (⟨st.status, st.output, st.errors⟩, st.disk)

/-- What a script does where everything that it may call is installed. -/
def run : Interpreter := runWith ["cat"]

end PolicyForge.Script
