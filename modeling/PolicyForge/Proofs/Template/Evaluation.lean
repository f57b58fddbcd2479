import PolicyForge.Policy.Encode
import PolicyForge.Template.Basic
/-!
# Evaluating templates

What the parts of a template come to, one equation for every kind of part, and what the helpers
answer on the values that they are given.
-/
namespace PolicyForge

/-- The value that stands for a text that may be absent: the deletion mark is null. -/
def RegistryValue.ofText? : Option String → RegistryValue
  | none => .delete
  | some s => .string s

namespace Template

open Data

variable {context : Json}

/-! ## Fields -/

theorem field?_setField_self (fields : List (String × Json)) (name : String) (value : Json) :
    ((Json.object fields).setField name value).field? name = some value :=
  Json.lookup_insertField_self name value fields

theorem field?_setField_of_ne (fields : List (String × Json)) {name other : String} (value : Json)
    (h : name ≠ other) :
    ((Json.object fields).setField name value).field? other = (Json.object fields).field? other :=
  Json.lookup_insertField_of_ne value h fields

/-! ## Parts -/

theorem evalAll_nil : evalAll context [] = .ok "" := by
  rw [evalAll]

/-- A part, then what the rest comes to. -/
theorem evalAll_cons {n : Node} {s : String} (h : n.eval context = .ok s) (rest : List Node) :
    evalAll context (n :: rest) = (evalAll context rest).map (s ++ ·) := by
  rw [evalAll, h]
  cases evalAll context rest <;> rfl

theorem evalAll_text (s : String) (rest : List Node) :
    evalAll context (.text s :: rest) = (evalAll context rest).map (s ++ ·) :=
  evalAll_cons (by rw [Node.eval]) rest

theorem evalAll_put {e : Expr} {j : Json} (he : e.eval context = .ok j) (rest : List Node) :
    evalAll context (.put e :: rest) = (evalAll context rest).map (shown j ++ ·) :=
  evalAll_cons (by rw [Node.eval, he]) rest

theorem evalAll_append {ns : List Node} {s : String} (h : evalAll context ns = .ok s)
    (ms : List Node) : evalAll context (ns ++ ms) = (evalAll context ms).map (s ++ ·) := by
  induction ns generalizing s with
  | nil =>
    rw [evalAll] at h
    cases h
    cases hms : evalAll context ms <;> simp [Except.map, hms]
  | cons n ns ih =>
    rw [List.cons_append, evalAll]
    rw [evalAll] at h
    cases hn : n.eval context with
    | error e => rw [hn] at h; cases h
    | ok t =>
      rw [hn] at h
      cases hns : evalAll context ns with
      | error e => simp [hns] at h
      | ok u =>
        simp only [hns, Except.ok.injEq] at h
        rw [ih hns, ← h]
        cases evalAll context ms <;> simp [Except.map, String.append_assoc]

theorem evalAll_append_ok {ns ms : List Node} {s t : String} (hns : evalAll context ns = .ok s)
    (hms : evalAll context ms = .ok t) : evalAll context (ns ++ ms) = .ok (s ++ t) := by
  rw [evalAll_append hns, hms]
  rfl

theorem evalAll_singleton (n : Node) : evalAll context [n] = n.eval context := by
  rw [evalAll, evalAll]
  cases n.eval context <;> simp

theorem eval_cond {e : Expr} {j : Json} (he : e.eval context = .ok j) (yes no : List Node) :
    (Node.cond e yes no).eval context = evalAll context (if holds j then yes else no) := by
  rw [Node.eval, he]
  cases h : holds j <;> simp [h]

theorem eval_within {e : Expr} {j : Json} (he : e.eval context = .ok j) (hj : holds j = true)
    (body : List Node) : (Node.within e body).eval context = evalAll j body := by
  rw [Node.eval, he]
  simp [hj]

theorem eval_each {name : String} {body : List Node} {α : Type} {items : List α} {item : α → Json}
    {said : α → String} (hitems : context.field? name = some (.array (items.map item)))
    (hbody : ∀ a, evalAll (item a) body = .ok (said a)) :
    (Node.each name body).eval context = .ok (String.join (items.map said)) := by
  have hmap : (items.map item).mapM (fun j => evalAll j body) = .ok (items.map said) := by
    clear hitems
    induction items with
    | nil => rfl
    | cons a items ih =>
      rw [List.map_cons, List.mapM_cons, hbody, ih, List.map_cons]
      rfl
  rw [Node.eval, hitems]
  simp [itemsOf, hmap]

/-! ## Helpers -/

theorem eval_call {arg : Expr} {j : Json} (helper : String) (h : arg.eval context = .ok j) :
    (Expr.call helper arg).eval context = call helper [j] := by
  rw [Expr.eval, h]

theorem call_literal {j : Json} {l : Literal} (h : literalOf j = .ok l) :
    call "literal" [j] = .ok (.string (Source.literal l)) := by
  simp [call, h, Except.map]

theorem call_literal_string (s : String) :
    call "literal" [.string s] = .ok (.string (Source.literal (.string s))) :=
  call_literal rfl

theorem call_literal_bool (b : Bool) :
    call "literal" [.bool b] = .ok (.string (Source.literal (.bool b))) :=
  call_literal rfl

theorem call_literal_textOrNull (s : Option String) : call "literal" [textOrNull s] =
    .ok (.string (Source.literal (RegistryValue.ofText? s).toLiteral)) := by
  cases s <;> exact call_literal rfl

theorem call_escape_type (s : String) :
    call "escape_type" [.string s] = .ok (.string (Source.typeName s)) := rfl

theorem call_escape_identifier (s : String) :
    call "escape_identifier" [.string s] = .ok (.string (Source.memberName s)) := rfl

theorem call_escape_namespace (s : String) :
    call "escape_namespace" [.string s] = .ok (.string (Source.namespaceName s)) := rfl

theorem call_escape_xmldoc (s : String) :
    call "escape_xmldoc" [.string s] = .ok (.string (Source.docComment s)) := rfl

theorem call_ref_id (s : String) :
    call "ref_id" [.string s] = .ok (.string (Source.referenceKey s)) := rfl

theorem lt_pow {n : Nat} (bits : Nat) (h : n < Nat.pow 2 bits) : (n : Int) < Int.pow 2 bits := by
  have hpow : ((Nat.pow 2 bits : Nat) : Int) = Int.pow 2 bits := Int.natCast_pow 2 bits
  rw [← hpow]
  exact Int.ofNat_lt.2 h

theorem unsigned_toNat {n : Nat} (helper : String) (bits : Nat) (h : n < Nat.pow 2 bits) :
    unsigned helper bits [.int n] = .ok n := by
  have hn := lt_pow bits h
  have hrange : (decide (0 ≤ (n : Int)) && decide ((n : Int) < Int.pow 2 bits)) = true := by
    rw [Bool.and_eq_true, decide_eq_true_eq, decide_eq_true_eq]
    exact ⟨Int.natCast_nonneg n, hn⟩
  rw [unsigned, if_pos hrange, Int.toNat_natCast]

theorem call_u32 (n : UInt32) :
    call "u32" [.int n.toNat] = .ok (.string (Source.literal (.u32 n))) := by
  have h := unsigned_toNat "u32" 32 n.toNat_lt
  have hcall : ∀ args, call "u32" args =
      (unsigned "u32" 32 args).map fun n => .string (Source.literal (.u32 n.toUInt32)) := by
    intro args
    rfl
  rw [hcall, h, Except.map, Nat.toUInt32_eq, UInt32.ofNat_toNat]

theorem call_u64 (n : UInt64) :
    call "u64" [.int n.toNat] = .ok (.string (Source.literal (.u64 n))) := by
  have h := unsigned_toNat "u64" 64 n.toNat_lt
  have hcall : ∀ args, call "u64" args =
      (unsigned "u64" 64 args).map fun n => .string (Source.literal (.u64 n.toUInt64)) := by
    intro args
    rfl
  rw [hcall, h, Except.map, Nat.toUInt64_eq, UInt64.ofNat_toNat]

theorem decode_unsigned {n : Nat} (bits : Nat) (expected : String) (h : n < Nat.pow 2 bits) :
    Decode.unsigned bits expected .value (.int n) = .ok n := by
  have hn : (n : Int) ≤ Int.pow 2 bits - 1 := Int.le_sub_one_of_lt (lt_pow bits h)
  have hrange : (decide (0 ≤ (n : Int)) && decide ((n : Int) ≤ Int.pow 2 bits - 1)) = true := by
    rw [Bool.and_eq_true, decide_eq_true_eq, decide_eq_true_eq]
    exact ⟨Int.natCast_nonneg n, hn⟩
  have hinteger : Decode.integer 0 (Int.pow 2 bits - 1) expected .value (.int n) = .ok (n : Int) :=
    if_pos hrange
  show (Decode.integer 0 (Int.pow 2 bits - 1) expected .value (.int n)).map Int.toNat = .ok n
  rw [hinteger, Except.map, Int.toNat_natCast]

theorem literalOf_u32 (n : UInt32) : literalOf (Literal.u32 n).toJson = .ok (.u32 n) := by
  have hdecode : literalOf (Literal.u32 n).toJson =
      match (Decode.u32 .value (.int n.toNat)).map Literal.u32 with
      | .ok l => .ok l
      | .error e => .error (.notLiteral (Literal.u32 n).toJson e) := rfl
  rw [hdecode, Decode.u32, decode_unsigned 32 "u32" n.toNat_lt]
  simp [Except.map]

theorem literalOf_u64 (n : UInt64) : literalOf (Literal.u64 n).toJson = .ok (.u64 n) := by
  have hdecode : literalOf (Literal.u64 n).toJson =
      match (Decode.u64 .value (.int n.toNat)).map Literal.u64 with
      | .ok l => .ok l
      | .error e => .error (.notLiteral (Literal.u64 n).toJson e) := rfl
  rw [hdecode, Decode.u64, decode_unsigned 64 "u64" n.toNat_lt]
  simp [Except.map]

/-- A registry value is read back from its JSON; the deletion mark is not told from a text there. -/
theorem literalOf_toJson {v : RegistryValue} (h : v.isDelete = false) :
    literalOf v.toJson = .ok v.toLiteral := by
  cases v with
  | decimal n => exact literalOf_u32 n
  | longDecimal n => exact literalOf_u64 n
  | string s => rfl
  | delete => cases h

theorem call_is_delval (v : RegistryValue) :
    call "is_delval" [v.toJson] = .ok (.bool v.isDelete) := by
  cases v <;> rfl

theorem call_questionName (k : ElementKind) (j : Json) :
    call (questionName k) [j] = .ok (.bool (kindOf j == some k.tag)) := by
  cases k <;> rfl

theorem call_castName {k : ElementKind} {j : Json} (h : kindOf j = some k.tag) :
    call (castName k) [j] = .ok j := by
  have hcall : call (castName k) [j] =
      if kindOf j == some k.tag then .ok j else .error (.wrongKind (kindOf j) k) := by
    cases k <;> rfl
  simp [hcall, h]

end Template

end PolicyForge
