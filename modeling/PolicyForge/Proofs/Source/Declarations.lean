import PolicyForge.Proofs.Source.Tokens
/-!
# The declarations of a text

A reader of the declarations that generated code is made of: namespaces, classes and the members of
classes.  A declaration ends with a semicolon outside of braces or with the brace that closes its
body.  A brace that closes a part of a value does not end it, nor does one that a value follows, as in
`int N { get; } = 1;`.

Declarations in a row are read back one by one (`declarations_flatten`).  That a row of tokens is one
declaration is shown by `isDeclaration_of_semicolon` or `isDeclaration_of_braces`, from what its tokens
do to the braces that are open (`passes`).
-/
namespace PolicyForge.Source

/-- Where in a declaration a reader is: how many braces are open, and whether a value has begun. -/
structure Span where
  depth : Nat
  assigned : Bool
  deriving DecidableEq

inductive Turn where
  | goes (s : Span)
  | ends
  /-- What ends is the body that the declaration would stand in. -/
  | closes

namespace Span

def start : Span := ⟨0, false⟩

/-- What a token does to a declaration; `next` is the token after it. -/
def turn (s : Span) (t : Token) (next : Option Token) : Turn :=
  match t with
  | .mark '\x7b' => .goes ⟨s.depth + 1, s.assigned⟩
  | .mark '\x7d' =>
    match s.depth with
    | 0 => .closes
    | 1 => if s.assigned || next == some (.mark '=') then .goes ⟨0, s.assigned⟩ else .ends
    | d + 2 => .goes ⟨d + 1, s.assigned⟩
  | .mark ';' => if s.depth == 0 then .ends else .goes s
  | .mark '=' => .goes ⟨s.depth, s.assigned || s.depth == 0⟩
  | _ => .goes s

end Span

/-- The declarations up to the end of the body they stand in, after some tokens of the first. -/
def declarationsFrom (s : Span) (sofar : List Token) : List Token → List (List Token)
  | [] => if sofar.isEmpty then [] else [sofar]
  | t :: ts =>
    match s.turn t ts.head? with
    | .goes s' => declarationsFrom s' (sofar ++ [t]) ts
    | .ends => (sofar ++ [t]) :: declarationsFrom .start [] ts
    | .closes => if sofar.isEmpty then [] else [sofar]

def declarations (ts : List Token) : List (List Token) := declarationsFrom .start [] ts

/-- Where a reader is after tokens none of which ends anything; `next` is the token after them. -/
def passes (s : Span) (next : Option Token) : List Token → Option Span
  | [] => some s
  | t :: ts =>
    match s.turn t (ts.head?.or next) with
    | .goes s' => passes s' next ts
    | _ => none

theorem passes_cons_of_goes {s s' : Span} {next : Option Token} {t : Token} {ts : List Token}
    (h : s.turn t (ts.head?.or next) = .goes s') : passes s next (t :: ts) = passes s' next ts := by
  rw [passes, h]

theorem exists_of_passes_cons {s s' : Span} {next : Option Token} {t : Token} {ts : List Token}
    (h : passes s next (t :: ts) = some s') :
    ∃ m, s.turn t (ts.head?.or next) = .goes m ∧ passes m next ts = some s' := by
  rw [passes] at h
  split at h
  · rename_i m hm
    exact ⟨m, hm, h⟩
  · cases h

theorem passes_append {s m s' : Span} {next : Option Token} {ts us : List Token}
    (hts : passes s (us.head?.or next) ts = some m) (hus : passes m next us = some s') :
    passes s next (ts ++ us) = some s' := by
  induction ts generalizing s with
  | nil =>
    cases hts
    exact hus
  | cons t ts ih =>
    obtain ⟨n, hn, hts⟩ := exists_of_passes_cons hts
    have hhead : (ts ++ us).head?.or next = ts.head?.or (us.head?.or next) := by
      rw [List.head?_append, Option.or_assoc]
    rw [List.cons_append, passes_cons_of_goes (hhead ▸ hn)]
    exact ih hts

/-- Tokens after each of which the reader is where it was. -/
theorem passes_flatten {s : Span} : ∀ {tss : List (List Token)} {next : Option Token},
    (∀ ts ∈ tss, ∀ next, passes s next ts = some s) → passes s next tss.flatten = some s
  | [], _, _ => rfl
  | ts :: tss, next, h => by
    rw [List.flatten_cons]
    exact passes_append (h ts List.mem_cons_self _)
      (passes_flatten fun us hus => h us (List.mem_cons_of_mem ts hus))

/-- A token that has no part in where a declaration ends. -/
def Token.isPlain : Token → Bool
  | .mark c => !("\x7b\x7d;=".toList.contains c)
  | _ => true

@[simp] theorem isPlain_word (w : String) : (Token.word w).isPlain = true := rfl

@[simp] theorem isPlain_mark (c : Char) :
    (Token.mark c).isPlain = !("\x7b\x7d;=".toList.contains c) := rfl

@[simp] theorem isPlain_valueToken (v : RegistryValue) : (valueToken v).isPlain = true := by
  cases v <;> rfl

theorem turn_of_isPlain {t : Token} (h : t.isPlain = true) (s : Span) (next : Option Token) :
    s.turn t next = .goes s := by
  unfold Span.turn
  split
  case h_5 => rfl
  all_goals exact absurd h (by decide)

@[simp] theorem passes_nil (s : Span) (next : Option Token) : passes s next [] = some s := rfl

@[simp] theorem passes_word (s : Span) (next : Option Token) (w : String) (ts : List Token) :
    passes s next (.word w :: ts) = passes s next ts := rfl

@[simp] theorem passes_text (s : Span) (next : Option Token) (t : String) (ts : List Token) :
    passes s next (.text t :: ts) = passes s next ts := rfl

@[simp] theorem passes_valueToken (s : Span) (next : Option Token) (v : RegistryValue)
    (ts : List Token) : passes s next (valueToken v :: ts) = passes s next ts :=
  passes_cons_of_goes (turn_of_isPlain (isPlain_valueToken v) s _)

theorem passes_mark (s : Span) (next : Option Token) (c : Char) (ts : List Token) :
    passes s next (.mark c :: ts) =
      match s.turn (.mark c) (ts.head?.or next) with
      | .goes s' => passes s' next ts
      | _ => none := rfl

theorem passes_of_isPlain {ts : List Token} (h : ∀ t ∈ ts, t.isPlain = true) (s : Span)
    (next : Option Token) : passes s next ts = some s := by
  induction ts with
  | nil => rfl
  | cons t ts ih =>
    rw [passes_cons_of_goes (turn_of_isPlain (h t List.mem_cons_self) s _)]
    exact ih fun u hu => h u (List.mem_cons_of_mem t hu)

/-! ## Rows of declarations -/

/-- A row of tokens that is one declaration. -/
def IsDeclaration (d : List Token) : Prop :=
  d.head? ≠ some (.mark '=') ∧ ∃ ts t s, d = ts ++ [t] ∧ passes .start (some t) ts = some s ∧
    s.turn t none = .ends

theorem turn_of_ends {s : Span} {t : Token} {next : Option Token} (h : s.turn t none = .ends)
    (hnext : next ≠ some (.mark '=')) : s.turn t next = .ends := by
  have hbeq : (next == some (.mark '=')) = false := beq_eq_false_iff_ne.2 hnext
  unfold Span.turn at h ⊢
  split at h
  · cases h
  · split at h
    · cases h
    · rw [hbeq]
      exact h
    · cases h
  · exact h
  · cases h
  · cases h

theorem declarationsFrom_of_passes {s s' : Span} {next : Option Token} {sofar ts rest : List Token}
    (h : passes s next ts = some s') (hnext : rest.head? = next) :
    declarationsFrom s sofar (ts ++ rest) = declarationsFrom s' (sofar ++ ts) rest := by
  induction ts generalizing s sofar with
  | nil =>
    cases h
    rw [List.append_nil]
    rfl
  | cons t ts ih =>
    obtain ⟨m, hm, hts⟩ := exists_of_passes_cons h
    have hhead : (ts ++ rest).head? = ts.head?.or next := by rw [List.head?_append, hnext]
    rw [List.cons_append, declarationsFrom, hhead, hm]
    simp only
    rw [ih hts, List.append_assoc, List.singleton_append]

theorem declarationsFrom_of_isDeclaration {d rest : List Token} (h : IsDeclaration d)
    (hrest : rest.head? ≠ some (.mark '=')) :
    declarationsFrom .start [] (d ++ rest) = d :: declarationsFrom .start [] rest := by
  obtain ⟨-, ts, t, s, rfl, hpasses, hends⟩ := h
  rw [List.append_assoc, declarationsFrom_of_passes hpasses rfl, List.singleton_append,
    declarationsFrom, turn_of_ends hends hrest]
  rfl

theorem IsDeclaration.head?_append {d : List Token} (h : IsDeclaration d) (rest : List Token) :
    (d ++ rest).head? ≠ some (.mark '=') := by
  obtain ⟨hhead, ts, t, -, rfl, -⟩ := h
  rw [List.head?_append, Option.or_of_isSome (by simp)]
  exact hhead

/-- **Declarations in a row are read back**, up to the brace that closes their body. -/
theorem declarations_flatten {ds : List (List Token)} {rest : List Token}
    (h : ∀ d ∈ ds, IsDeclaration d) (hrest : rest = [] ∨ rest.head? = some (.mark '\x7d')) :
    declarations (ds.flatten ++ rest) = ds := by
  induction ds with
  | nil =>
    rw [List.flatten_nil, List.nil_append]
    cases rest with
    | nil => rfl
    | cons t rest =>
      have ht : t = .mark '\x7d' := by simpa using hrest
      rw [ht]
      rfl
  | cons d ds ih =>
    have hds : ∀ d' ∈ ds, IsDeclaration d' := fun d' hd' => h d' (List.mem_cons_of_mem d hd')
    -- what follows starts with a declaration or closes the body, so it is never a value
    have hhead : (ds.flatten ++ rest).head? ≠ some (.mark '=') := by
      cases ds with
      | nil =>
        rcases hrest with rfl | hrest
        · simp
        · rw [List.flatten_nil, List.nil_append, hrest]
          decide
      | cons d' ds =>
        rw [List.flatten_cons, List.append_assoc]
        exact (hds d' List.mem_cons_self).head?_append _
    rw [List.flatten_cons, List.append_assoc, declarations,
      declarationsFrom_of_isDeclaration (h d List.mem_cons_self) hhead]
    exact congrArg (d :: ·) (ih hds)

/-- A value after a body goes on with the declaration, a body after a body does not. -/
example : declarations (tokens "int N \x7b get; \x7d = 1; class C \x7b int M; \x7d") =
    [[.word "int", .word "N", .mark '\x7b', .word "get", .mark ';', .mark '\x7d', .mark '=',
        .word "1", .mark ';'],
      [.word "class", .word "C", .mark '\x7b', .word "int", .word "M", .mark ';',
        .mark '\x7d']] := by
  decide +kernel

/-! ## Declarations within braces -/

/-- Within braces nothing ends that is not opened there, and values do not count. -/
theorem turn_inside {s s' : Span} {t : Token} {next : Option Token} (h : s.turn t next = .goes s')
    (k : Nat) (b : Bool) (next' : Option Token) :
    Span.turn ⟨s.depth + (k + 1), b⟩ t next' = .goes ⟨s'.depth + (k + 1), b⟩ := by
  unfold Span.turn at h
  split at h
  · cases h
    simp only [Span.turn, Turn.goes.injEq, Span.mk.injEq, and_true]
    omega
  · split at h
    · cases h
    · rename_i hdepth
      split at h
      · cases h
        simp only [hdepth, Nat.add_comm 1, Nat.zero_add]
        rfl
      · cases h
    · rename_i d hdepth
      cases h
      have hsum : d + 2 + (k + 1) = (d + 1 + k) + 2 := by omega
      simp only [hdepth, hsum, Span.turn, Turn.goes.injEq, Span.mk.injEq, and_true]
      omega
  · split at h
    · cases h
    · cases h
      rfl
  · cases h
    simp only [Span.turn]
    rw [show (s.depth + (k + 1) == 0) = false from rfl, Bool.or_false]
  · rename_i hopen hclose hsemicolon hassign
    cases h
    unfold Span.turn
    split
    · exact absurd rfl hopen
    · exact absurd rfl hclose
    · exact absurd rfl hsemicolon
    · exact absurd rfl hassign
    · rfl

/-- The end of a declaration leads back to where it began. -/
theorem turn_inside_of_ends {s : Span} {t : Token} (h : s.turn t none = .ends) (k : Nat) (b : Bool)
    (next : Option Token) : Span.turn ⟨s.depth + (k + 1), b⟩ t next = .goes ⟨k + 1, b⟩ := by
  unfold Span.turn at h
  split at h
  · cases h
  · split at h
    · cases h
    · rename_i hdepth
      rw [hdepth, Nat.add_comm 1]
      rfl
    · cases h
  · split at h
    · rename_i hdepth
      rw [beq_iff_eq.1 hdepth, Nat.zero_add]
      rfl
    · cases h
  · cases h
  · cases h

theorem passes_inside {s s' : Span} {next : Option Token} {ts : List Token}
    (h : passes s next ts = some s') (k : Nat) (b : Bool) (next' : Option Token) :
    passes ⟨s.depth + (k + 1), b⟩ next' ts = some ⟨s'.depth + (k + 1), b⟩ := by
  induction ts generalizing s with
  | nil =>
    cases h
    rfl
  | cons t ts ih =>
    obtain ⟨m, hm, hts⟩ := exists_of_passes_cons h
    rw [passes_cons_of_goes (turn_inside hm k b _)]
    exact ih hts

theorem IsDeclaration.passes {d : List Token} (h : IsDeclaration d) (k : Nat) (b : Bool)
    (next : Option Token) : passes ⟨k + 1, b⟩ next d = some ⟨k + 1, b⟩ := by
  obtain ⟨-, ts, t, s, rfl, hpasses, hends⟩ := h
  have hts := passes_inside hpasses k b (some t)
  rw [Span.start, Nat.zero_add] at hts
  refine passes_append hts ?_
  rw [passes_cons_of_goes (turn_inside_of_ends hends k b _)]
  rfl

theorem isDeclaration_of_semicolon {ts : List Token} {a : Bool}
    (hhead : ts.head? ≠ some (.mark '=')) (h : passes .start (some (.mark ';')) ts = some ⟨0, a⟩) :
    IsDeclaration (ts ++ [.mark ';']) := by
  refine ⟨?_, ts, _, _, rfl, h, rfl⟩
  cases ts with
  | nil => simp
  | cons t ts => exact hhead

/-- A declaration with a body. -/
theorem isDeclaration_of_braces {head body : List Token} (hhead : ∀ t ∈ head, t.isPlain = true)
    (hbody : passes ⟨1, false⟩ (some (.mark '\x7d')) body = some ⟨1, false⟩) :
    IsDeclaration (head ++ .mark '\x7b' :: body ++ [.mark '\x7d']) := by
  refine ⟨?_, _, _, ⟨1, false⟩, rfl, ?_, rfl⟩
  · cases head with
    | nil => simp
    | cons t head =>
      intro h
      have ht := hhead t List.mem_cons_self
      rw [show t = .mark '=' by simpa using h] at ht
      cases ht
  · refine passes_append (passes_of_isPlain hhead _ _) ?_
    rw [passes_mark]
    exact hbody

/-! ## Classes and their members -/

inductive Member where
  | constructor (name : String)
  /-- A property that every class of its sort has, with the tokens of its value. -/
  | override (name : String) (value : List Token)
  /-- A property with its type, the class that it is made of, and the tokens from its arguments on. -/
  | property (type name made : String) (arguments : List Token)
  | enumeration (name : String) (members : List String)
  deriving DecidableEq, Repr

/-- Names that a comma follows, up to something else; between two commas a name may be missing. -/
def names : List Token → List String
  | .word w :: .mark ',' :: ts => w :: names ts
  | .mark ',' :: ts => "" :: names ts
  | .word w :: _ => [w]
  | _ => []

/-- The texts that braces begin with. -/
def keys : List Token → List String
  | .mark '\x7b' :: .text k :: ts => k :: keys ts
  | _ :: ts => keys ts
  | [] => []

/-- What stands after the first opening brace. -/
def body : List Token → List Token
  | .mark '\x7b' :: ts => ts
  | _ :: ts => body ts
  | [] => []

/-- The name in front of an arrow, and the tokens after it. -/
def arrow : List Token → Option (String × List Token)
  | .word name :: .mark '=' :: .mark '>' :: ts => some (name, ts)
  | _ :: ts => arrow ts
  | [] => none

def Member.read : List Token → Option Member
  | .word "public" :: .word "override" :: ts => (arrow ts).map fun a => .override a.1 a.2
  | .word "public" :: .word "enum" :: .word name :: .mark '\x7b' :: ts =>
    some (.enumeration name (names ts))
  | .word "public" :: .word name :: .mark '(' :: _ => some (.constructor name)
  | .word "public" :: .word type :: .word name :: .mark '\x7b' :: .word "get" :: .mark ';' ::
      .mark '\x7d' :: .mark '=' :: .word "new" :: .word made :: .mark '(' :: ts =>
    some (.property type name made ts)
  | _ => none

structure Class where
  name : String
  members : List Member
  deriving DecidableEq, Repr

/-- The name after a keyword, and the tokens after the name. -/
def nameAfter (keyword : String) : List Token → Option (String × List Token)
  | .word k :: .word name :: ts =>
    if k = keyword then some (name, ts) else nameAfter keyword (.word name :: ts)
  | _ :: ts => nameAfter keyword ts
  | [] => none

def Class.read (d : List Token) : Option Class := do
  let (name, ts) ← nameAfter "class" d
  let members ← (declarations (body ts)).mapM Member.read
  return ⟨name, members⟩

structure Namespace where
  path : String
  classes : List Class
  deriving DecidableEq, Repr

def isImport (d : List Token) : Bool := d.head? == some (.word "using")

def Namespace.read : List Token → Option Namespace
  | .word "namespace" :: .word path :: .mark '\x7b' :: ts => do
    let classes ← ((declarations ts).filter fun d => !isImport d).mapM Class.read
    return ⟨path, classes⟩
  | _ => none

/-- The namespace that a text consists of. -/
def readNamespace (text : String) : Option Namespace :=
  match declarations (tokens text) with
  | [d] => Namespace.read d
  | _ => none

structure Assembly where
  path : String
  namespaces : List Namespace
  deriving DecidableEq, Repr

/-- The namespace that a text begins, which need not end there. -/
def readAssembly (text : String) : Option Assembly := do
  let (path, ts) ← nameAfter "namespace" (tokens text)
  let namespaces ← (declarations (body ts)).mapM Namespace.read
  return ⟨path, namespaces⟩

end PolicyForge.Source
