/-!
# Arguments of the command

The command takes three names in order and options in between.  An option is long, `--name value` or
`--name=value`, or short, `-n value` or `-nvalue`; short ones without values may be joined.  No
option may be given twice, and after `--` everything is a name.  Arguments are read from left to
right, and the first that asks for something else or cannot be understood decides.
-/
namespace PolicyForge

/-- What the command is asked to build. -/
structure BuildOrder where
  assembly : String
  input : String
  output : String
  project : Option String
  script : Option String
  log : Bool
  settings : Option String
  runtime : Option String
  /-- Whether to write placeholders and not to compile. -/
  simulate : Bool
  verbose : Bool
  deriving DecidableEq, Repr

inductive Invocation where
  | build (order : BuildOrder)
  | showVersion
  | showHelp
  | refused
  deriving DecidableEq, Repr

inductive Flag where
  | project
  | script
  | log
  | settings
  | runtime
  | simulate
  | verbose
  | version
  | help
  deriving DecidableEq, Repr

namespace Flag

def ofLong? : String → Option Flag
  | "generate-csproj" => some .project
  | "generate-linqpad" => some .script
  | "generate-buildlog" => some .log
  | "config" => some .settings
  | "runtime" => some .runtime
  | "simulate-compiler" => some .simulate
  | "verbose" => some .verbose
  | "version" => some .version
  | "help" => some .help
  | _ => none

def ofShort? : Char → Option Flag
  | 'c' => some .settings
  | 'v' => some .verbose
  | 'V' => some .version
  | 'h' => some .help
  | _ => none

def takesValue : Flag → Bool
  | .project | .script | .log | .settings | .runtime => true
  | .simulate | .verbose | .version | .help => false

/-- Whether an option can have a value. -/
def accepts (f : Flag) (value : String) : Bool :=
  match f with
  | .log => value == "true" || value == "false"
  | .settings => !value.isEmpty
  | _ => true

/-- The variable of the environment that stands in for an option. -/
def environmentName? : Flag → Option String
  | .settings => some "POLICYGEN_CONFIG"
  | .runtime => some "POLICYGEN_RUNTIME"
  | _ => none

end Flag

namespace Invocation

/-- What has been understood so far. -/
structure Reading where
  names : List String
  given : List (Flag × String)
  /-- Whether only names follow. -/
  onlyNames : Bool

abbrev Step := Except Invocation Reading

namespace Reading

def start : Reading := ⟨[], [], false⟩

/-- One more name; the second and the third may not be empty. -/
def addName (n : String) (r : Reading) : Step :=
  if r.names.length < 3 && (r.names.isEmpty || !n.isEmpty) then
    .ok { r with names := r.names ++ [n] }
  else .error .refused

def value? (f : Flag) (r : Reading) : Option String := (r.given.find? (·.1 == f)).map (·.2)

def addFlag (f : Flag) (value : String) (r : Reading) : Step :=
  match f with
  | .version => .error .showVersion
  | .help => .error .showHelp
  | f =>
    if (r.value? f).isNone && f.accepts value then .ok { r with given := (f, value) :: r.given }
    else .error .refused

/-- Short options that are joined, and the one that still needs a value. -/
def addShort (r : Reading) : List Char → Except Invocation (Reading × Option Flag)
  | [] => .ok (r, none)
  | c :: more =>
    match Flag.ofShort? c with
    | none => .error .refused
    | some f =>
      if f.takesValue then
        match more with
        | [] => .ok (r, some f)
        | '=' :: value => do return (← r.addFlag f (String.ofList value), none)
        | value => do return (← r.addFlag f (String.ofList value), none)
      else do addShort (← r.addFlag f "") more

/-- A long option, and the one that still needs a value. -/
def addLong (r : Reading) (text : List Char) : Except Invocation (Reading × Option Flag) :=
  let name := text.takeWhile (· != '=')
  match Flag.ofLong? (String.ofList name), text.drop name.length with
  | none, _ => .error .refused
  | some f, [] => if f.takesValue then .ok (r, some f) else do return (← r.addFlag f "", none)
  | some f, _ :: value =>
    if f.takesValue then do return (← r.addFlag f (String.ofList value), none) else .error .refused

/-- Whether an argument can be the value of the option before it. -/
def isValue (a : String) : Bool :=
  match a.toList with
  | '-' :: _ :: _ => false
  | _ => true

def addArgument (r : Reading) (a : String) : Except Invocation (Reading × Option Flag) :=
  if r.onlyNames then do return (← r.addName a, none)
  else
    match a.toList with
    | ['-', '-'] => .ok ({ r with onlyNames := true }, none)
    | '-' :: '-' :: text => r.addLong text
    | '-' :: c :: text => r.addShort (c :: text)
    | _ => do return (← r.addName a, none)

def addAll (r : Reading) : List String → Step
  | [] => .ok r
  | a :: rest =>
    match r.addArgument a with
    | .error i => .error i
    | .ok (r, none) => addAll r rest
    | .ok (r, some f) =>
      match rest with
      | [] => .error .refused
      | v :: rest =>
        if isValue v then
          match r.addFlag f v with
          | .error i => .error i
          | .ok r => addAll r rest
        else .error .refused

/-- An option that is not given, from the environment. -/
def fill (environment : String → Option String) (f : Flag) (r : Reading) : Step :=
  match r.value? f, f.environmentName?.bind environment with
  | none, some value => r.addFlag f value
  | _, _ => .ok r

def order? (r : Reading) : Option BuildOrder :=
  match r.names with
  | [assembly, input, output] =>
    some
      { assembly := assembly
        input := input
        output := output
        project := r.value? .project
        script := r.value? .script
        log := r.value? .log != some "false"
        settings := r.value? .settings
        runtime := r.value? .runtime
        simulate := (r.value? .simulate).isSome
        verbose := (r.value? .verbose).isSome }
  | _ => none

end Reading

/-- What the arguments ask for, in an environment. -/
def ofArguments (environment : String → Option String) (arguments : List String) : Invocation :=
  let read : Step := do
    let r ← Reading.start.addAll arguments
    let r ← r.fill environment .settings
    r.fill environment .runtime
  match read with
  | .error i => i
  | .ok r =>
    match r.order? with
    | some order => .build order
    | none => .refused

end Invocation

end PolicyForge
