import PolicyForge.Policy.Encode
import PolicyForge.Policy.Model
import PolicyForge.Source.PolicyTemplate
import PolicyForge.Source.Support
/-!
# Rendering a model

A model becomes one unit of source: a banner, the namespace of the assembly, in it a block for
every policy, and the support code.  Every policy is checked before its block is written, and the
interrupt is looked at before every policy and before the support code.
-/
namespace PolicyForge

/-- Why a model cannot be rendered. -/
inductive RenderError where
  | model (e : ModelError)
  | invalidAssemblyName (name : String)
  | invalidPolicy (name reason : String)
  | template (e : Template.HelperError)
  | cancelled

def RenderError.message : RenderError → String
  | .model e => e.message
  | .invalidAssemblyName name => "Invalid assembly name: '" ++ name ++ "'"
  | .invalidPolicy name reason => "Invalid policy '" ++ name ++ "': " ++ reason
  | .template e => "Render failed: " ++ e.message
  | .cancelled => cancelledMessage

def RenderError.isCancelled : RenderError → Bool
  | .cancelled => true
  | .model e => e.isCancelled
  | _ => false

namespace Source

open Data

/-- The version that the banner names. -/
def version : String := "0.1.0"

/-- The comment that a unit starts with. -/
def banner : String :=
  String.join
    ["//------------------------------------------------------------------------------\n",
      "// <auto-generated>\n",
      "//     This code was generated by policygen " ++ version ++ ".\n",
      "//\n",
      "//     Changes to this file may cause incorrect behavior and will be lost if\n",
      "//     the code is regenerated.\n",
      "// </auto-generated>\n",
      "//------------------------------------------------------------------------------\n"]

def opening (root : String) : String :=
  "\n#pragma warning disable CS0219, CS1591, CS8019\n\nnamespace " ++ root ++ "\n\x7b\n"

def supplement : String :=
  "namespace " ++ supportNamespace ++ "\n\x7b\n" ++
    String.join (importLines.map (· ++ "\n")) ++ "\n" ++
    String.join (supportSections.map fun s => sectionText s ++ "\n\n") ++ "\x7d\n"

def closing : String := "\x7d\n"

/-- How generated code names the namespace of the support code. -/
def supportPath (root : String) : String := "global::" ++ root ++ "." ++ supportNamespace

/-! ## Names within a policy -/

/-- Members that every generated class has. -/
def fixedMembers : List String := ["DisplayName", "ResourceId", "SupportedOn", "Elements"]

/-- Members that an element brings. -/
def elementMembers (e : Element) : List String :=
  let property := memberName e.id ++ "Element"
  match e with
  | .enumeration _ => [property, typeName e.id ++ "Option"]
  | _ => [property]

def memberNames (p : Policy) : List String := fixedMembers ++ p.elements.flatMap elementMembers

/-- Why a policy cannot be rendered, if it cannot. -/
def refusal? (p : Policy) : Option String :=
  let className := typeName p.name
  if className.isEmpty then some "name has no identifier characters"
  else if (namespaceName p.namespacePath).isEmpty then
    some "namespace has no identifier characters"
  else if (memberNames p).contains className then
    some ("class name '" ++ className ++ "' is also the name of one of its members")
  else none

/-! ## Blocks -/

/-- What the template sees of an element: its fields with the key resolved. -/
def elementContext (p : Policy) (support : String) (e : Element) : Json :=
  (e.toJson.setField "key" (.string (p.elementKey e))).setField "runtime" (.string support)

/-- What the template sees of a policy. -/
def policyContext (p : Policy) (support : String) : Json :=
  (((p.toJson.setField "elements" (.array (p.elements.map (elementContext p support)))).setField
    "class_member" (.string p.policyClass.memberName)).setField
    "runtime" (.string support)).setField
    "using_references" (.array (importLines.map Json.string))

def block (root : String) (p : Policy) : Except Template.HelperError String :=
  Template.evalAll (policyContext p (supportPath root)) policyTemplate

/-! ## Units -/

/-- A pen: what it has written, and the interrupt it watches. -/
structure Pen where
  written : String
  interrupt : Interrupt

/-- Something that writes and may stop. -/
abbrev Writing (α : Type) := ExceptT RenderError (StateM Pen) α

namespace Writing

def put (s : String) : Writing Unit := fun p => (.ok (), { p with written := p.written ++ s })

def checkpoint : Writing Unit := fun p =>
  (if p.interrupt.isSet then .error .cancelled else .ok (),
    { p with interrupt := p.interrupt.afterLook })

end Writing

def writePolicy (root : String) (p : Policy) : Writing Unit := do
  Writing.checkpoint
  match refusal? p with
  | some reason => throw (.invalidPolicy p.name reason)
  | none =>
    match block root p with
    | .error e => throw (.template e)
    | .ok text => Writing.put (text ++ "\n")

def writePolicies (root : String) : List Policy → Writing Unit
  | [] => return ()
  | p :: rest => do
    writePolicy root p
    writePolicies root rest

def writeUnit (model : Model) (assembly : String) : Writing Unit := do
  match model.policies with
  | .error e => throw (.model e)
  | .ok policies =>
    let root := namespaceName assembly
    if root.isEmpty then throw (.invalidAssemblyName assembly)
    Writing.put banner
    Writing.put (opening root)
    writePolicies root policies.toList
    Writing.checkpoint
    Writing.put supplement
    Writing.put closing

/-- Renders a model: what has been written, whether it is complete, and the interrupt afterwards. -/
def render (model : Model) (assembly : String) (interrupt : Interrupt) :
    Except RenderError Unit × Pen :=
  writeUnit model assembly ⟨"", interrupt⟩

end Source

end PolicyForge
