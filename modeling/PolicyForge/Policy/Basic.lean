import PolicyForge.Policy.Element
/-!
# Policies

A policy is a named registry setting with its elements.
-/
namespace PolicyForge

/-- Whose registry a policy is written to. -/
inductive PolicyClass where
  | user
  | machine
  | both
  deriving DecidableEq, Repr

def PolicyClass.tag : PolicyClass → String
  | .user => "user"
  | .machine => "machine"
  | .both => "both"

def PolicyClass.memberName : PolicyClass → String
  | .user => "User"
  | .machine => "Machine"
  | .both => "Both"

structure Policy where
  name : String
  displayName : String
  explainText : Option String
  namespacePath : String
  supportedOn : Option String
  policyClass : PolicyClass
  key : String
  valueName : Option String
  enabledValue : Option RegistryValue
  disabledValue : Option RegistryValue
  elements : List Element
  deriving DecidableEq, Repr

namespace Policy

/-- The policy that has nothing but a name, a namespace and a key; its name is also what it is
called on screen. -/
def named (name namespacePath key : String) : Policy :=
  { name, displayName := name, explainText := none, namespacePath, supportedOn := none,
    policyClass := .machine, key, valueName := none, enabledValue := none, disabledValue := none,
    elements := [] }

def withElement (p : Policy) (e : Element) : Policy := { p with elements := p.elements ++ [e] }

/-- The registry key of an element: its own, or that of its policy. -/
def elementKey (p : Policy) (e : Element) : String := e.key.getD p.key

end Policy

end PolicyForge
