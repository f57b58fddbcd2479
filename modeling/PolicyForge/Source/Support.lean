import PolicyForge.Source.Support.Elements
import PolicyForge.Source.Support.Contracts
import PolicyForge.Source.Support.Objects
import PolicyForge.Source.Support.Actions
import PolicyForge.Source.Support.Platform
import PolicyForge.Source.Support.Registry
/-!
# The support code

Generated source brings with it the classes that it builds on, the same for every model.
-/
namespace PolicyForge.Source

/-- The sections of the support code, in order, each as its lines. -/
def supportSections : List (List String) :=
  [Support.elementLines, Support.contractLines, Support.objectLines, Support.actionLines,
    Support.platformLines, Support.registryLines]

def supportNamespace : String := "PolicyRuntime"

/-- Namespaces that every block of generated source imports. -/
def importedNamespaces : List String :=
  ["System", "System.Collections.Generic", "System.ComponentModel", "System.Globalization",
    "System.Runtime.InteropServices", "System.Text"]

def importLines : List String := importedNamespaces.map fun n => "using global::" ++ n ++ ";"

/-- The text of a section: every line with its end. -/
def sectionText (lines : List String) : String := String.join (lines.map (· ++ "\n"))

end PolicyForge.Source
