import PolicyForge.Number.Decimal
import PolicyForge.Text.Quoted
/-!
# Values

A `Literal` is anything that can be written as a literal of the generated source.  A
`RegistryValue` is what a policy state writes to the registry, or removes from it: four of the
kinds of literal.
-/
namespace PolicyForge

/-- A value with a form in source text. -/
inductive Literal where
  | bool (b : Bool)
  /-- One UTF-16 code unit. -/
  | char (unit : UInt16)
  /-- An integer of 64 bits, written without a suffix. -/
  | int (i : Int)
  | u32 (n : UInt32)
  | u64 (n : UInt64)
  /-- A 32-bit floating-point number, by its bits. -/
  | f32 (bits : UInt32)
  /-- A 64-bit floating-point number, by its bits. -/
  | f64 (bits : UInt64)
  | decimal (d : Number.Decimal)
  | string (s : String)
  | enum (typeName member : String)
  /-- The mark of a value that is to be removed. -/
  | delete
  deriving DecidableEq, Repr

inductive RegistryValue where
  | decimal (n : UInt32)
  | longDecimal (n : UInt64)
  | string (s : String)
  | delete
  deriving DecidableEq, Repr

namespace Literal

def isDelete : Literal → Bool
  | .delete => true
  | _ => false

def kindName : Literal → String
  | .bool _ => "Bool"
  | .char _ => "Char"
  | .int _ => "Int"
  | .u32 _ => "U32"
  | .u64 _ => "U64"
  | .f32 _ => "F32"
  | .f64 _ => "F64"
  | .decimal _ => "Decimal"
  | .string _ => "String"
  | .enum _ _ => "Enum"
  | .delete => "Delete"

/-- A literal as a message shows it: its kind with its content. -/
def describe : Literal → String
  | .enum typeName member =>
    "Enum \x7b type_name: " ++ Text.quoted typeName ++ ", member: " ++ Text.quoted member ++ " \x7d"
  | .delete => "Delete"
  | l => l.kindName ++ "(" ++ content l ++ ")"
where
  content : Literal → String
    | .bool b => toString b
    | .char unit => toString unit
    | .int i => toString i
    | .u32 n => toString n
    | .u64 n => toString n
    | .f32 bits => Number.messageStyle.text Number.single bits.toNat
    | .f64 bits => Number.messageStyle.text Number.double bits.toNat
    | .decimal d => d.text
    | .string s => Text.quoted s
    | .enum _ _ | .delete => ""

end Literal

namespace RegistryValue

def isDelete : RegistryValue → Bool
  | .delete => true
  | _ => false

/-- The literal that writes a registry value. -/
def toLiteral : RegistryValue → Literal
  | .decimal n => .u32 n
  | .longDecimal n => .u64 n
  | .string s => .string s
  | .delete => .delete

/-- The registry value that a literal stands for, or how the literal reads in the refusal. -/
def ofLiteral : Literal → Except String RegistryValue
  | .u32 n => .ok (.decimal n)
  | .u64 n => .ok (.longDecimal n)
  | .int i =>
    if 0 ≤ i ∧ i < UInt32.size then .ok (.decimal i.toNat.toUInt32)
    else .error ("int " ++ toString i ++ " out of range")
  | .string s => .ok (.string s)
  | .delete => .ok .delete
  | l => .error l.describe

theorem ofLiteral_toLiteral (v : RegistryValue) : ofLiteral v.toLiteral = .ok v := by
  cases v <;> rfl

end RegistryValue

end PolicyForge
