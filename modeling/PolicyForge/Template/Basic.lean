import PolicyForge.Template.Helper
/-!
# Templates

A template is text with places to fill.  It is evaluated against one value, the context: a place
names a field of it or calls a helper, and a block shows its body under a condition, once per item
of a list, or with another context.
-/
namespace PolicyForge.Template

open Data

/-- A value that a template asks for. -/
inductive Expr where
  | self
  | field (name : String)
  /-- A helper called with one argument. -/
  | call (helper : String) (arg : Expr)
  deriving Repr

/-- A part of a template. -/
inductive Node where
  | text (s : String)
  | put (e : Expr)
  /-- One of two bodies, by whether a value is there. -/
  | cond (e : Expr) (yes no : List Node)
  /-- The body once for every item of a field, with the item as context. -/
  | each (name : String) (body : List Node)
  /-- The body with another context. -/
  | within (e : Expr) (body : List Node)

/-- The value of an expression; a field that is not there is null. -/
def Expr.eval (context : Json) : Expr → Except HelperError Json
  | .self => .ok context
  | .field name => .ok ((context.field? name).getD .null)
  | .call helper arg =>
    match arg.eval context with
    | .error e => .error e
    | .ok j => Template.call helper [j]

def holds : Json → Bool
  | .null => false
  | .bool b => b
  | .int i => i != 0
  | .float bits => bits % Number.double.signBit != 0
  | .string s => !s.isEmpty
  | .array items => !items.isEmpty
  | .object fields => !fields.isEmpty

def shown : Json → String
  | .null => ""
  | .string s => s
  | j => j.text

def itemsOf : Json → List Json
  | .array items => items
  | _ => []

mutual

def Node.eval (context : Json) : Node → Except HelperError String
  | .text s => .ok s
  | .put e =>
    match e.eval context with
    | .error err => .error err
    | .ok j => .ok (shown j)
  | .cond e yes no =>
    match e.eval context with
    | .error err => .error err
    | .ok j => if holds j then evalAll context yes else evalAll context no
  | .each name body =>
    match (itemsOf ((context.field? name).getD .null)).mapM fun item => evalAll item body with
    | .error err => .error err
    | .ok texts => .ok (String.join texts)
  | .within e body =>
    match e.eval context with
    | .error err => .error err
    | .ok j => if holds j then evalAll j body else .ok ""

def evalAll (context : Json) : List Node → Except HelperError String
  | [] => .ok ""
  | n :: rest =>
    match n.eval context with
    | .error err => .error err
    | .ok s =>
      match evalAll context rest with
      | .error err => .error err
      | .ok s' => .ok (s ++ s')

end

end PolicyForge.Template
