import Mathlib.Data.List.Infix
/-!
# Reading XML

A document of XML 1.0 is read character by character into its tokens: start tags with their
attributes, end tags, and the text between them, all with their references resolved.  A document is
well-formed if it can be read to its end (`read`).  Of what the language has, only declarations of
document types are not known here.

A value that stands in a document as it is has been read as it is exactly if it holds nothing that
means something else there (`reads_value`, `literal_of_reads`).
-/
namespace PolicyForge.Xml

/-! ## Characters -/

/-- The characters that a document may hold at all. -/
def isCharacter (c : Char) : Bool :=
  c == '\t' || c == '\n' || c == '\r' || (32 ≤ c.toNat && c.toNat != 0xFFFE && c.toNat != 0xFFFF)

def isBlank (c : Char) : Bool := c == ' ' || c == '\t' || c == '\n' || c == '\r'

/-- The code points that a name may start with, by their first and their last. -/
def nameStarts : List (Nat × Nat) :=
  [(0x3A, 0x3A), (0x41, 0x5A), (0x5F, 0x5F), (0x61, 0x7A), (0xC0, 0xD6), (0xD8, 0xF6),
    (0xF8, 0x2FF), (0x370, 0x37D), (0x37F, 0x1FFF), (0x200C, 0x200D), (0x2070, 0x218F),
    (0x2C00, 0x2FEF), (0x3001, 0xD7FF), (0xF900, 0xFDCF), (0xFDF0, 0xFFFD), (0x10000, 0xEFFFF)]

/-- The code points that a name may go on with as well. -/
def nameParts : List (Nat × Nat) :=
  [(0x2D, 0x2E), (0x30, 0x39), (0xB7, 0xB7), (0x300, 0x36F), (0x203F, 0x2040)]

def within (ranges : List (Nat × Nat)) (c : Char) : Bool :=
  ranges.any fun (a, b) => a ≤ c.toNat && c.toNat ≤ b

def isNameStart (c : Char) : Bool := within nameStarts c

def isNamePart (c : Char) : Bool := within nameStarts c || within nameParts c

def lineEnds : List Char → List Char
  | [] => []
  | '\r' :: '\n' :: s => '\n' :: lineEnds s
  | c :: s => (if c == '\r' then '\n' else c) :: lineEnds s

/-! ## References -/

/-- The entities that every document knows. -/
def entities : List (List Char × Char) :=
  [("amp".toList, '&'), ("lt".toList, '<'), ("gt".toList, '>'), ("apos".toList, '\''),
    ("quot".toList, '"')]

def digit? (c : Char) : Option Nat :=
  if '0' ≤ c ∧ c ≤ '9' then some (c.toNat - '0'.toNat)
  else if 'a' ≤ c ∧ c ≤ 'f' then some (c.toNat - 'a'.toNat + 10)
  else if 'A' ≤ c ∧ c ≤ 'F' then some (c.toNat - 'A'.toNat + 10)
  else none

/-- The character whose number some digits write. -/
def numbered? (base : Nat) (digits : List Char) : Option Char := do
  if digits.isEmpty then none
  let n ← digits.foldlM
      (fun n c => (digit? c).bind fun d => if d < base then some (base * n + d) else none) 0
  if n.isValidChar ∧ isCharacter (Char.ofNat n) then some (Char.ofNat n) else none

/-- What stands for what is between `&` and `;`. -/
def reference? : List Char → Option Char
  | '#' :: 'x' :: digits => numbered? 16 digits
  | '#' :: digits => numbered? 10 digits
  | name => entities.lookup name

def decodeFrom : Option (List Char) → List Char → Option (List Char)
  | none, [] => some []
  | some _, [] => none
  | none, c :: s => if c == '&' then decodeFrom (some []) s else (decodeFrom none s).map (c :: ·)
  | some r, c :: s =>
    if c == ';' then (reference? r).bind fun d => (decodeFrom none s).map (d :: ·)
    else decodeFrom (some (r ++ [c])) s

def decode (s : List Char) : Option (List Char) := decodeFrom none s

theorem decode_of_not_mem : ∀ {s : List Char}, '&' ∉ s → decode s = some s
  | [], _ => rfl
  | c :: s, h => by
    obtain ⟨hc, hs⟩ := List.ne_and_not_mem_of_not_mem_cons h
    have ih : decodeFrom none s = some s := decode_of_not_mem hs
    simp [decode, decodeFrom, hc.symm, ih]

theorem length_decodeFrom_le : ∀ {s : List Char} {r : Option (List Char)} {d : List Char},
    decodeFrom r s = some d → d.length ≤ s.length
  | [], none, d, h => by
    cases h
    simp
  | c :: s, none, d, h => by
    rw [decodeFrom] at h
    split at h
    · exact Nat.le_succ_of_le (length_decodeFrom_le h)
    · obtain ⟨t, ht, rfl⟩ := Option.map_eq_some_iff.1 h
      exact Nat.succ_le_succ (length_decodeFrom_le ht)
  | c :: s, some r, d, h => by
    rw [decodeFrom] at h
    split at h
    · obtain ⟨x, -, h⟩ := Option.bind_eq_some_iff.1 h
      obtain ⟨t, ht, rfl⟩ := Option.map_eq_some_iff.1 h
      exact Nat.succ_le_succ (length_decodeFrom_le ht)
    · exact Nat.le_succ_of_le (length_decodeFrom_le h)

/-- A reference is longer than what it stands for. -/
theorem length_decode_lt : ∀ {s d : List Char}, '&' ∈ s → decode s = some d → d.length < s.length
  | c :: s, d, hmem, h => by
    rw [decode, decodeFrom] at h
    split at h
    · exact Nat.lt_succ_of_le (length_decodeFrom_le h)
    · rename_i hc
      obtain ⟨t, ht, rfl⟩ := Option.map_eq_some_iff.1 h
      rcases List.mem_cons.1 hmem with rfl | hmem
      · exact absurd rfl hc
      · exact Nat.succ_lt_succ (length_decode_lt hmem ht)

theorem decode_eq_self_iff {s : List Char} : decode s = some s ↔ '&' ∉ s :=
  ⟨fun h hmem => absurd (length_decode_lt hmem h) (Nat.lt_irrefl _), decode_of_not_mem⟩

/-! ## Tokens -/

abbrev Attributes := List (List Char × List Char)

inductive Token where
  | start (name : List Char) (attributes : Attributes)
  | stop (name : List Char)
  | text (s : List Char)
  deriving DecidableEq, Repr

/-- A start tag so far.  The declaration of the document is one without a name. -/
structure Tag where
  name : Option (List Char)
  attributes : Attributes
  deriving DecidableEq, Repr

/-- What is being read. -/
inductive Mode where
  /-- What stands between tags, so far. -/
  | text (raw : List Char)
  | opened
  | startName (n : List Char)
  /-- A tag, and whether a blank was the last. -/
  | tag (t : Tag) (spaced : Bool)
  | attributeName (t : Tag) (n : List Char)
  | equals (t : Tag) (n : List Char)
  | quote (t : Tag) (n : List Char)
  | value (t : Tag) (n : List Char) (q : Char) (raw : List Char)
  | slash (t : Tag)
  | question (t : Tag)
  | stopName (n : List Char)
  | stopEnd (n : List Char)
  | bang (s : List Char)
  | comment (raw : List Char)
  | characterData (raw : List Char)
  | target (n : List Char)
  | instruction (raw : List Char)
  | instructionEnd
  deriving DecidableEq, Repr

/-- The tag that is being read, if one is that has its name. -/
def Mode.tag? : Mode → Option Tag
  | .tag t _ | .attributeName t _ | .equals t _ | .quote t _ | .value t _ _ _ | .slash t => some t
  | _ => none

structure State where
  mode : Mode
  /-- The elements that are open, the innermost first. -/
  stack : List (List Char)
  /-- Whether the outermost element has been opened. -/
  started : Bool
  deriving DecidableEq, Repr

/-- What a declaration may say of itself. -/
def isDeclared : List Char × List Char → Bool
  | (n, v) =>
    if n == "version".toList then
      match v with
      | '1' :: '.' :: digits => !digits.isEmpty && digits.all Char.isDigit
      | _ => false
    else if n == "encoding".toList then
      match v with
      | c :: s => c.isAlpha && s.all fun c => c.isAlphanum || c == '.' || c == '_' || c == '-'
      | [] => false
    else v == "yes".toList || v == "no".toList

def isDeclaration (as : Attributes) : Bool :=
  as.all isDeclared &&
    [["version".toList], ["version".toList, "encoding".toList], ["version".toList, "standalone".toList],
      ["version".toList, "encoding".toList, "standalone".toList]].contains (as.map (·.1))

namespace State

def goOn (st : State) (m : Mode) : Option (State × List Token) := some ({ st with mode := m }, [])

/-- The text between two tags.  Around the outermost element there are only blanks. -/
def endText (st : State) (raw : List Char) : Option (List Token) :=
  if st.stack.isEmpty then if raw.all isBlank then some [] else none
  else if "]]>".toList <:+: raw then none
  else if raw.isEmpty then some []
  else (decode raw).map fun s => [.text s]

def openElement (st : State) (n : List Char) (as : Attributes) : Option (State × List Token) :=
  if st.stack.isEmpty && st.started then none else some (⟨.text [], n :: st.stack, true⟩, [.start n as])

def closeElement (st : State) (n : List Char) : Option (State × List Token) :=
  match st.stack with
  | m :: stack => if m == n then some (⟨.text [], stack, st.started⟩, [.stop n]) else none
  | [] => none

/-- A character of a tag, outside its names and values. -/
def inTag (st : State) (t : Tag) (spaced : Bool) (c : Char) : Option (State × List Token) :=
  if isBlank c then st.goOn (.tag t true)
  else if spaced && isNameStart c then st.goOn (.attributeName t [c])
  else
    match t.name with
    | some n =>
      if c == '>' then st.openElement n t.attributes
      else if c == '/' then st.goOn (.slash t) else none
    | none => if c == '?' then st.goOn (.question t) else none

/-- A character after the name of an attribute. -/
def afterName (st : State) (t : Tag) (n : List Char) (c : Char) : Option (State × List Token) :=
  if isBlank c then st.goOn (.equals t n) else if c == '=' then st.goOn (.quote t n) else none

def spaces (raw : List Char) : List Char := raw.map fun c => if isBlank c then ' ' else c

/-- The value of an attribute: blanks are spaces there.  No attribute is given twice. -/
def endValue (st : State) (t : Tag) (n raw : List Char) : Option (State × List Token) :=
  if n ∈ t.attributes.map (·.1) ∨ t.name = none ∧ '&' ∈ raw then none
  else (decode (spaces raw)).bind fun v =>
    st.goOn (.tag { t with attributes := t.attributes ++ [(n, v)] } false)

/-- The name of an instruction, which is not that of a declaration. -/
def endTarget (st : State) (n : List Char) (m : Mode) : Option (State × List Token) :=
  if n.map Char.toLower == "xml".toList then none else st.goOn m

def step (st : State) (c : Char) : Option (State × List Token) :=
  if !isCharacter c then none
  else
    match st.mode with
    | .text raw =>
      if c == '<' then (st.endText raw).map fun ts => ({ st with mode := .opened }, ts)
      else st.goOn (.text (raw ++ [c]))
    | .opened =>
      if c == '/' then st.goOn (.stopName [])
      else if c == '!' then st.goOn (.bang [])
      else if c == '?' then st.goOn (.target [])
      else if isNameStart c then st.goOn (.startName [c])
      else none
    | .startName n =>
      if isNamePart c then st.goOn (.startName (n ++ [c])) else st.inTag ⟨some n, []⟩ false c
    | .tag t spaced => st.inTag t spaced c
    | .attributeName t n =>
      if isNamePart c then st.goOn (.attributeName t (n ++ [c])) else st.afterName t n c
    | .equals t n => st.afterName t n c
    | .quote t n =>
      if isBlank c then st.goOn (.quote t n)
      else if c == '"' || c == '\'' then st.goOn (.value t n c []) else none
    | .value t n q raw =>
      if c == q then st.endValue t n raw
      else if c == '<' then none else st.goOn (.value t n q (raw ++ [c]))
    | .slash t =>
      if c == '>' then t.name.bind fun n => (st.openElement n t.attributes).map fun (_, ts) =>
        (⟨.text [], st.stack, true⟩, ts ++ [.stop n])
      else none
    | .question t => if c == '>' && isDeclaration t.attributes then st.goOn (.text []) else none
    | .stopName n =>
      if n.isEmpty then if isNameStart c then st.goOn (.stopName [c]) else none
      else if isNamePart c then st.goOn (.stopName (n ++ [c]))
      else if isBlank c then st.goOn (.stopEnd n)
      else if c == '>' then st.closeElement n
      else none
    | .stopEnd n =>
      if isBlank c then st.goOn (.stopEnd n) else if c == '>' then st.closeElement n else none
    | .bang s =>
      if s ++ [c] == "--".toList then st.goOn (.comment [])
      else if s ++ [c] == "[CDATA[".toList && !st.stack.isEmpty then st.goOn (.characterData [])
      else if (s ++ [c]).isPrefixOf "--".toList || (s ++ [c]).isPrefixOf "[CDATA[".toList then
        st.goOn (.bang (s ++ [c]))
      else none
    | .comment raw =>
      if c == '>' ∧ "--".toList <:+ raw then if "--".toList <:+: raw.dropLast then none
      else st.goOn (.text [])
      else st.goOn (.comment (raw ++ [c]))
    | .characterData raw =>
      if c == '>' ∧ "]]".toList <:+ raw then
        some (⟨.text [], st.stack, st.started⟩, [.text raw.dropLast.dropLast])
      else st.goOn (.characterData (raw ++ [c]))
    | .target n =>
      if n.isEmpty then if isNameStart c then st.goOn (.target [c]) else none
      else if isNamePart c then st.goOn (.target (n ++ [c]))
      else if isBlank c then st.endTarget n (.instruction [])
      else if c == '?' then st.endTarget n .instructionEnd
      else none
    | .instruction raw =>
      if c == '>' && raw.getLast? == some '?' then st.goOn (.text [])
      else st.goOn (.instruction (raw ++ [c]))
    | .instructionEnd => if c == '>' then st.goOn (.text []) else none

def run : State → List Char → Option (State × List Token)
  | st, [] => some (st, [])
  | st, c :: s => (st.step c).bind fun p => (run p.1 s).map fun r => (r.1, p.2 ++ r.2)

/-- Where reading begins: within the declaration, if there is one. -/
def first (s : List Char) : State × List Char :=
  if s.take 5 == "<?xml".toList && (s.drop 5).head?.any isBlank then
    (⟨.tag ⟨none, []⟩ true, [], false⟩, s.drop 6)
  else (⟨.text [], [], false⟩, s)

/-- Whether a document may end here. -/
def isEnd (st : State) : Bool :=
  match st.mode with
  | .text raw => st.stack.isEmpty && st.started && raw.all isBlank
  | _ => false

end State

/-- The tokens of a document, if it is well-formed. -/
def read (document : String) : Option (List Token) := do
  let (st, s) := State.first (lineEnds document.toList)
  let (st, ts) ← st.run s
  if st.isEnd then some ts else none

/-! ## What a document says -/

/-- The values that an attribute has in elements of a name, in order. -/
def attributeValues (element name : String) (ts : List Token) : List (List Char) :=
  ts.flatMap fun
    | .start n as => if n = element.toList then (as.filter (·.1 = name.toList)).map (·.2) else []
    | _ => []

/-- The text up to the next tag, if that is an end tag. -/
def content? : List Token → Option (List Char)
  | .text s :: ts => (content? ts).map (s ++ ·)
  | .stop _ :: _ => some []
  | _ => none

/-- What elements of a name hold, in order, if it is only text. -/
def contents (element : String) : List Token → List (Option (List Char))
  | [] => []
  | .start n _ :: ts =>
    if n = element.toList then content? ts :: contents element ts else contents element ts
  | _ :: ts => contents element ts

/-- No element of a name starts here. -/
def lacks (element : String) (ts : List Token) : Bool :=
  ts.all fun
    | .start n _ => n != element.toList
    | _ => true

section

variable {element name : String} {ts : List Token}

theorem lacks_append (ts us : List Token) :
    lacks element (ts ++ us) = (lacks element ts && lacks element us) :=
  List.all_append

theorem attributeValues_append (ts us : List Token) :
    attributeValues element name (ts ++ us) =
      attributeValues element name ts ++ attributeValues element name us :=
  List.flatMap_append

theorem mem_attributeValues {as : Attributes} {v : List Char} (h : (name.toList, v) ∈ as) :
    v ∈ attributeValues element name (.start element.toList as :: ts) := by
  refine List.mem_flatMap.2 ⟨_, List.mem_cons_self, ?_⟩
  dsimp only
  rw [if_pos rfl]
  exact List.mem_map.2 ⟨_, List.mem_filter.2 ⟨h, decide_eq_true rfl⟩, rfl⟩

theorem attributeValues_of_lacks :
    ∀ {ts : List Token}, lacks element ts = true → attributeValues element name ts = []
  | [], _ => rfl
  | t :: ts, h => by
    rw [lacks, List.all_cons, Bool.and_eq_true] at h
    have ih : attributeValues element name ts = [] := attributeValues_of_lacks h.2
    cases t with
    | start n as =>
      have hn : n ≠ element.toList := by simpa using h.1
      simpa [attributeValues, hn] using ih
    | stop n => exact ih
    | text s => exact ih

theorem contents_append_of_lacks : ∀ {ts : List Token}, lacks element ts = true → ∀ (us : List Token),
    contents element (ts ++ us) = contents element us
  | [], _, us => rfl
  | t :: ts, h, us => by
    rw [lacks, List.all_cons, Bool.and_eq_true] at h
    have ih := contents_append_of_lacks h.2 us
    cases t with
    | start n as =>
      have hn : n ≠ element.toList := by simpa using h.1
      simpa [contents, hn] using ih
    | stop n => exact ih
    | text s => exact ih

end

/-! ## Reading part by part -/

namespace State

variable {st st₁ st₂ : State} {s s' : List Char} {ts ts' : List Token}

/-- A text leads from one state to another, and these tokens are read on the way. -/
def Reads (st : State) (s : List Char) (st' : State) (ts : List Token) : Prop := st.run s = some (st', ts)

theorem Reads.nil (st : State) : Reads st [] st [] := rfl

theorem run_append (st : State) (s s' : List Char) :
    st.run (s ++ s') = (st.run s).bind fun p => (p.1.run s').map fun r => (r.1, p.2 ++ r.2) := by
  induction s generalizing st with
  | nil => simp [run]
  | cons c s ih =>
    rw [List.cons_append, run, run]
    cases st.step c with
    | none => rfl
    | some p =>
      simp only [Option.bind_some, ih]
      cases p.1.run s with
      | none => rfl
      | some q => cases h : q.1.run s' <;> simp [h]

theorem Reads.append (h : Reads st s st₁ ts) (h' : Reads st₁ s' st₂ ts') :
    Reads st (s ++ s') st₂ (ts ++ ts') := by
  rw [Reads, run_append, h]
  simp only [Option.bind_some]
  rw [h']
  rfl

/-- What is read after a text is read from where the text leads to. -/
theorem Reads.of_append (h : Reads st s st₁ ts) (h' : Reads st (s ++ s') st₂ ts') :
    ∃ us, Reads st₁ s' st₂ us ∧ ts' = ts ++ us := by
  rw [Reads, run_append, h, Option.bind_some, Option.map_eq_some_iff] at h'
  obtain ⟨⟨st', us⟩, hrest, heq⟩ := h'
  obtain ⟨rfl, rfl⟩ := Prod.mk.inj heq
  exact ⟨us, hrest, rfl⟩

theorem Reads.cons {c : Char} (h : st.step c = some (st₁, ts)) (h' : Reads st₁ s st₂ ts') :
    Reads st (c :: s) st₂ (ts ++ ts') := by
  rw [Reads, run, h]
  simp only [Option.bind_some]
  rw [h']
  rfl

theorem Reads.one {c : Char} (h : st.step c = some (st₁, ts)) : Reads st [c] st₁ ts := by
  rw [← List.append_nil ts]
  exact Reads.cons h (.nil st₁)

/-- A reading that comes to its end, with what is to be known of its tokens. -/
theorem exists_reads {α : Type} {f : List Token → α} {x : α}
    (h : (st.run s).map (fun r => (r.1, f r.2)) = some (st₁, x)) :
    ∃ ts, Reads st s st₁ ts ∧ f ts = x := by
  obtain ⟨⟨st', ts⟩, hrun, heq⟩ := Option.map_eq_some_iff.1 h
  obtain ⟨rfl, rfl⟩ := Prod.mk.inj heq
  exact ⟨ts, hrun, rfl⟩

theorem Reads.cons_inv {c : Char} (h : Reads st (c :: s) st₂ ts) :
    ∃ st₁ us us', st.step c = some (st₁, us) ∧ Reads st₁ s st₂ us' ∧ ts = us ++ us' := by
  rw [Reads, run, Option.bind_eq_some_iff] at h
  obtain ⟨⟨st', us⟩, hstep, h⟩ := h
  obtain ⟨⟨st'', us'⟩, hrest, heq⟩ := Option.map_eq_some_iff.1 h
  obtain ⟨rfl, rfl⟩ := Prod.mk.inj heq
  exact ⟨st', us, us', hstep, hrest, rfl⟩

/-! ## Values of attributes -/

/-- What may stand between double quotes as it is. -/
structure IsLiteral (w : List Char) : Prop where
  legal : ∀ c ∈ w, isCharacter c = true
  quote : '"' ∉ w
  less : '<' ∉ w
  ampersand : '&' ∉ w

/-- The blanks of a text are spaces. -/
def Spaced (w : List Char) : Prop := ∀ c ∈ w, isBlank c = true → c = ' '

variable {t : Tag} {n e m raw w s : List Char} {as : Attributes} {stack : List (List Char)}
  {b : Bool} {c : Char}
  {st st' : State} {ts : List Token}

theorem spaces_of_spaced (hw : Spaced w) : spaces w = w := by
  refine (List.map_congr_left fun c hc => ?_).trans (List.map_id w)
  by_cases hb : isBlank c = true
  · rw [if_pos hb, hw c hc hb]
    rfl
  · rw [if_neg hb]
    rfl

theorem step_illegal (st : State) (hc : isCharacter c = false) : st.step c = none := by simp [step, hc]

theorem step_value (hc : isCharacter c = true) (hq : c ≠ '"') (hl : c ≠ '<') :
    step ⟨.value t n '"' raw, stack, b⟩ c = some (⟨.value t n '"' (raw ++ [c]), stack, b⟩, []) := by
  simp [step, hc, hq, hl, goOn]

theorem step_less : step ⟨.value t n '"' raw, stack, b⟩ '<' = none := rfl

theorem step_quote : step ⟨.value t n '"' raw, stack, b⟩ '"' =
    endValue ⟨.value t n '"' raw, stack, b⟩ t n raw := rfl

theorem reads_raw : ∀ {w raw : List Char}, (∀ c ∈ w, isCharacter c = true) → '"' ∉ w → '<' ∉ w →
    Reads ⟨.value t n '"' raw, stack, b⟩ w ⟨.value t n '"' (raw ++ w), stack, b⟩ []
  | [], raw, _, _, _ => by simp [Reads, run]
  | c :: w, raw, hlegal, hquote, hless => by
    obtain ⟨hq, hquote⟩ := List.ne_and_not_mem_of_not_mem_cons hquote
    obtain ⟨hl, hless⟩ := List.ne_and_not_mem_of_not_mem_cons hless
    have ih : Reads ⟨.value t n '"' (raw ++ [c]), stack, b⟩ w
        ⟨.value t n '"' (raw ++ [c] ++ w), stack, b⟩ [] :=
      reads_raw (fun d hd => hlegal d (List.mem_cons_of_mem _ hd)) hquote hless
    rw [List.append_assoc] at ih
    exact Reads.cons (step_value (hlegal c List.mem_cons_self) hq.symm hl.symm) ih

/-- A literal value is read as it stands. -/
theorem reads_value (hw : IsLiteral w) (hspaced : Spaced w) (hn : n ∉ as.map (·.1)) :
    Reads ⟨.value ⟨some e, as⟩ n '"' [], stack, b⟩ (w ++ ['"'])
      ⟨.tag ⟨some e, as ++ [(n, w)]⟩ false, stack, b⟩ [] := by
  have hdecode : decode (spaces w) = some w := by
    rw [spaces_of_spaced hspaced]
    exact decode_of_not_mem hw.ampersand
  have hnew : ¬(n ∈ as.map (·.1) ∨ (some e = none ∧ '&' ∈ w)) := by simpa using hn
  have hraw : Reads ⟨.value ⟨some e, as⟩ n '"' [], stack, b⟩ w
      ⟨.value ⟨some e, as⟩ n '"' w, stack, b⟩ [] :=
    reads_raw hw.legal hw.quote hw.less
  refine hraw.append (Reads.one ?_)
  rw [step_quote, endValue, if_neg hnew]
  exact (congrArg (Option.bind · _) hdecode).trans rfl

/-- A value that is read to its end. -/
theorem value_inv : ∀ {s raw : List Char} {st' : State} {ts : List Token},
    Reads ⟨.value t n '"' raw, stack, b⟩ s st' ts → st'.isEnd = true →
      ∃ v rest d, s = v ++ '"' :: rest ∧ (∀ c ∈ v, isCharacter c = true) ∧ '"' ∉ v ∧ '<' ∉ v ∧
        decode (spaces (raw ++ v)) = some d ∧
        Reads ⟨.tag { t with attributes := t.attributes ++ [(n, d)] } false, stack, b⟩ rest st' ts
  | [], raw, st', ts, h, hend => by
    cases h
    cases hend
  | c :: s, raw, st', ts, h, hend => by
    obtain ⟨st₁, us, us', hstep, hrest, rfl⟩ := h.cons_inv
    have hc : isCharacter c = true := by
      by_contra hc
      rw [step_illegal _ (by simpa using hc)] at hstep
      cases hstep
    have hl : c ≠ '<' := by
      rintro rfl
      cases step_less.symm.trans hstep
    by_cases hq : c = '"'
    · subst hq
      rw [step_quote, endValue] at hstep
      split at hstep
      · cases hstep
      · obtain ⟨d, hd, hstep⟩ := Option.bind_eq_some_iff.1 hstep
        cases hstep
        exact ⟨[], s, d, rfl, by simp, List.not_mem_nil, List.not_mem_nil,
          by rwa [List.append_nil], hrest⟩
    · rw [step_value hc hq hl] at hstep
      cases hstep
      obtain ⟨v, rest, d, rfl, hlegal, hquote, hless, hd, htag⟩ := value_inv hrest hend
      refine ⟨c :: v, rest, d, rfl, ?_, ?_, ?_, ?_, htag⟩
      · exact List.forall_mem_cons.2 ⟨hc, hlegal⟩
      · exact List.not_mem_cons_of_ne_of_not_mem (Ne.symm hq) hquote
      · exact List.not_mem_cons_of_ne_of_not_mem hl.symm hless
      · rwa [List.append_assoc] at hd

theorem inTag_cases {spaced : Bool} {us : List Token}
    (h : st.inTag ⟨some e, as⟩ spaced c = some (st', us)) :
    (us = [] ∧ st'.mode.tag? = some ⟨some e, as⟩) ∨ us = [.start e as] := by
  simp only [inTag, goOn, openElement] at h
  split at h
  · cases h
    exact .inl ⟨rfl, rfl⟩
  split at h
  · cases h
    exact .inl ⟨rfl, rfl⟩
  split at h
  · split at h <;> cases h
    exact .inr rfl
  split at h <;> cases h
  exact .inl ⟨rfl, rfl⟩

theorem afterName_cases {us : List Token} (h : st.afterName t n c = some (st', us)) :
    us = [] ∧ st'.mode.tag? = some t := by
  simp only [afterName, goOn] at h
  split at h
  · cases h
    exact ⟨rfl, rfl⟩
  split at h <;> cases h
  exact ⟨rfl, rfl⟩

/-- A tag goes on with further attributes, or it ends with all that it has. -/
theorem step_tag {m : Mode} {us : List Token} (hm : m.tag? = some ⟨some e, as⟩)
    (h : step ⟨m, stack, b⟩ c = some (st', us)) :
    (us = [] ∧ ∃ as', st'.mode.tag? = some ⟨some e, as ++ as'⟩) ∨
    ∃ us', us = .start e as :: us' := by
  have hstays : ∀ {us : List Token}, us = [] ∧ st'.mode.tag? = some ⟨some e, as⟩ →
      (us = [] ∧ ∃ as', st'.mode.tag? = some ⟨some e, as ++ as'⟩) ∨
        ∃ us', us = .start e as :: us' :=
    fun ⟨hus, htag⟩ => .inl ⟨hus, [], by rw [htag, List.append_nil]⟩
  have hc : isCharacter c = true := by
    by_contra hc
    rw [step_illegal _ (by simpa using hc)] at h
    cases h
  simp only [step, hc, Bool.not_true, Bool.false_eq_true, if_false] at h
  -- only the end of a value adds an attribute, and only `>` and `/>` end the tag
  cases m with
  | tag t spaced =>
    cases hm
    rcases inTag_cases h with hstay | rfl
    · exact hstays hstay
    · exact .inr ⟨[], rfl⟩
  | attributeName t n =>
    cases hm
    dsimp only at h
    split at h
    · cases h
      exact hstays ⟨rfl, rfl⟩
    · exact hstays (afterName_cases h)
  | equals t n =>
    cases hm
    exact hstays (afterName_cases h)
  | quote t n =>
    cases hm
    dsimp only at h
    split at h
    · cases h
      exact hstays ⟨rfl, rfl⟩
    split at h <;> cases h
    exact hstays ⟨rfl, rfl⟩
  | value t n q raw =>
    cases hm
    dsimp only [endValue] at h
    split at h
    · split at h
      · cases h
      · obtain ⟨v, -, h⟩ := Option.bind_eq_some_iff.1 h
        cases h
        exact .inl ⟨rfl, _, rfl⟩
    split at h <;> cases h
    exact hstays ⟨rfl, rfl⟩
  | slash t =>
    cases hm
    simp only [openElement] at h
    split at h
    · split at h <;> cases h
      exact .inr ⟨_, rfl⟩
    · cases h
  | text | opened | startName | question | stopName | stopEnd | bang | comment | characterData |
    target | instruction
  | instructionEnd => cases hm

/-- A tag that is read to its end has all the attributes that have been read before. -/
theorem tag_inv : ∀ {s : List Char} {as : Attributes} {st : State} {ts : List Token},
    st.mode.tag? = some ⟨some e, as⟩ → Reads st s st' ts → st'.isEnd = true →
    ∃ as' us, ts = .start e (as ++ as') :: us
  | [], as, st, ts, hm, h, hend => by
    cases h
    unfold isEnd at hend
    split at hend
    · rename_i hmode
      rw [hmode] at hm
      cases hm
    · cases hend
  | c :: s, as, st, ts, hm, h, hend => by
    obtain ⟨st₁, us, us', hstep, hrest, rfl⟩ := h.cons_inv
    rcases step_tag (m := st.mode) hm hstep with ⟨rfl, as', hm₁⟩ | ⟨more, rfl⟩
    · obtain ⟨as'', us'', rfl⟩ := tag_inv hm₁ hrest hend
      exact ⟨as' ++ as'', us'', by rw [List.append_assoc]; rfl⟩
    · exact ⟨[], more ++ us', by rw [List.append_nil]; rfl⟩

/-- **A value that is read as it stands is literal.**  Where a document goes on with some text as
the value of an attribute, that attribute is read, and it has this text for a value only if the text
is literal. -/
theorem literal_of_reads (hspaced : Spaced w)
    (h : Reads ⟨.value ⟨some e, as⟩ n '"' [], stack, b⟩ (w ++ '"' :: s) st' ts)
    (hend : st'.isEnd = true) :
    ∃ v as' us, ts = .start e (as ++ (n, v) :: as') :: us ∧ (v = w → IsLiteral w) := by
  obtain ⟨v, rest, d, hsplit, hlegal, hquote, hless, hd, htag⟩ := value_inv h hend
  obtain ⟨as', us, rfl⟩ := tag_inv rfl htag hend
  refine ⟨d, as', us, by simp, fun hdw => ?_⟩
  subst hdw
  have hlength : d.length ≤ v.length := by simpa [spaces] using length_decodeFrom_le hd
  -- the value ends at the first quote, so it is all of the text or less
  have hv : v = d := by
    rcases List.append_eq_append_iff.1 hsplit with ⟨more, rfl, hmore⟩ | ⟨more, rfl, hmore⟩
    · cases more with
      | nil => exact List.append_nil d
      | cons c more =>
        cases hmore
        exact absurd (List.mem_append_right d List.mem_cons_self) hquote
    · cases more with
      | nil => exact (List.append_nil v).symm
      | cons c more =>
        rw [List.length_append, List.length_cons] at hlength
        omega
  subst hv
  rw [List.nil_append, spaces_of_spaced hspaced] at hd
  exact ⟨hlegal, hquote, hless, decode_eq_self_iff.1 hd⟩

/-- A tag that ends opens an element in the one around it. -/
theorem reads_open :
    Reads ⟨.tag ⟨some e, as⟩ false, m :: stack, b⟩ ['>'] ⟨.text [], e :: m :: stack, true⟩
      [.start e as] :=
  rfl

theorem reads_openClosed :
    Reads ⟨.tag ⟨some e, as⟩ false, m :: stack, b⟩ ['/', '>'] ⟨.text [], m :: stack, true⟩
      [.start e as, .stop e] := rfl

theorem literal_of_attributeValues {element name : String} (hspaced : Spaced w)
    (h : Reads ⟨.value ⟨some element.toList, as⟩ name.toList '"' [], stack, b⟩ (w ++ '"' :: s) st' ts)
    (hend : st'.isEnd = true) (hvalues : attributeValues element name ts = [w]) : IsLiteral w := by
  obtain ⟨v, as', us, rfl, hv⟩ := literal_of_reads hspaced h hend
  have hmem : v ∈ attributeValues element name
      (.start element.toList (as ++ (name.toList, v) :: as') :: us) :=
    mem_attributeValues (List.mem_append_right as List.mem_cons_self)
  rw [hvalues, List.mem_singleton] at hmem
  exact hv hmem

/-! ## Text -/

theorem step_text (hc : isCharacter c = true) (hl : c ≠ '<') :
    step ⟨.text raw, stack, b⟩ c = some (⟨.text (raw ++ [c]), stack, b⟩, []) := by
  simp [step, hc, hl, goOn]

theorem step_text_less : step ⟨.text raw, stack, b⟩ '<' =
    (endText ⟨.text raw, stack, b⟩ raw).map fun ts => (⟨.opened, stack, b⟩, ts) := rfl

theorem reads_text : ∀ {w raw : List Char}, (∀ c ∈ w, isCharacter c = true) → '<' ∉ w →
    Reads ⟨.text raw, stack, b⟩ w ⟨.text (raw ++ w), stack, b⟩ []
  | [], raw, _, _ => by simp [Reads, run]
  | c :: w, raw, hlegal, hless => by
    obtain ⟨hl, hless⟩ := List.ne_and_not_mem_of_not_mem_cons hless
    have ih : Reads ⟨.text (raw ++ [c]), stack, b⟩ w ⟨.text (raw ++ [c] ++ w), stack, b⟩ [] :=
      reads_text (fun d hd => hlegal d (List.mem_cons_of_mem _ hd)) hless
    rw [List.append_assoc] at ih
    exact Reads.cons (step_text (hlegal c List.mem_cons_self) hl.symm) ih

/-- Literal text without `]]>` is read as it stands. -/
theorem reads_content (hw : IsLiteral w) (hne : w ≠ []) (hclose : ¬"]]>".toList <:+: w) :
    Reads ⟨.text [], e :: stack, b⟩ (w ++ ['<']) ⟨.opened, e :: stack, b⟩ [.text w] := by
  have hraw : Reads ⟨.text [], e :: stack, b⟩ w ⟨.text w, e :: stack, b⟩ [] :=
    reads_text hw.legal hw.less
  refine hraw.append (Reads.one ?_)
  rw [step_text_less, endText, if_neg (by simp), if_neg hclose, if_neg (by simpa using hne)]
  exact (congrArg (Option.map _) (congrArg (Option.map _) (decode_of_not_mem hw.ampersand))).trans rfl

theorem not_infix_of_reads (hw : IsLiteral w)
    (h : Reads ⟨.text [], e :: stack, b⟩ (w ++ '<' :: s) st' ts) :
    ¬"]]>".toList <:+: w := by
  intro hclose
  have hraw : Reads ⟨.text [], e :: stack, b⟩ w ⟨.text w, e :: stack, b⟩ [] :=
    reads_text hw.legal hw.less
  obtain ⟨us, h, -⟩ := hraw.of_append h
  obtain ⟨st₁, us', us'', hstep, -⟩ := h.cons_inv
  rw [step_text_less, endText, if_neg (by simp), if_pos hclose] at hstep
  cases hstep

end State

/-! ## Documents -/

theorem lineEnds_of_not_mem : ∀ {s : List Char}, '\r' ∉ s → lineEnds s = s
  | [], _ => rfl
  | c :: s, h => by
    obtain ⟨hc, hs⟩ := List.ne_and_not_mem_of_not_mem_cons h
    rw [lineEnds.eq_3 c s (fun _ heq => absurd heq.symm hc), lineEnds_of_not_mem hs]
    simp [hc.symm]

theorem first_append {s : List Char} (h : 6 ≤ s.length) (t : List Char) :
    State.first (s ++ t) = ((State.first s).1, (State.first s).2 ++ t) := by
  have hhead : (s.drop 5 ++ t).head? = (s.drop 5).head? := by
    rw [List.head?_append_of_ne_nil]
    rw [ne_eq, List.drop_eq_nil_iff]
    omega
  unfold State.first
  rw [List.take_append_of_le_length (by omega), List.drop_append_of_le_length (by omega),
    List.drop_append_of_le_length (by omega), hhead]
  split <;> rfl

/-- A document that has started goes on from where the start leads to. -/
theorem read_eq_some_iff {document : String} {s t : List Char} {ts : List Token}
    (hdocument : document.toList = s ++ t) (hreturn : '\r' ∉ s ++ t) (hlong : 6 ≤ s.length) :
    read document = some ts ↔
      ∃ st', (State.first s).1.Reads ((State.first s).2 ++ t) st' ts ∧ st'.isEnd = true := by
  rw [read, hdocument, lineEnds_of_not_mem hreturn, first_append hlong]
  simp only [State.Reads, Option.bind_eq_bind, Option.bind_eq_some_iff]
  constructor
  · rintro ⟨⟨st', us⟩, hrun, hend⟩
    dsimp only at hend
    split at hend
    · rename_i hst'
      cases hend
      exact ⟨st', hrun, hst'⟩
    · cases hend
  · rintro ⟨st', hrun, hend⟩
    exact ⟨(st', ts), hrun, by simp [hend]⟩

example : read "<?xml version='1.0'?>\r\n<a b='1 &amp; 2'>x<!-- y --><![CDATA[<]]><c/></a>" =
    some [.start ['a'] [(['b'], "1 & 2".toList)], .text ['x'], .text ['<'], .start ['c'] [],
      .stop ['c'], .stop ['a']] := by
  decide +kernel

/-- A bare ampersand, tags that do not match, an attribute that is given twice, and a second element
outside. -/
example : read "<a>&</a>" = none ∧ read "<a></b>" = none ∧ read "<a b='1' b='2'/>" = none ∧
    read "<a/><b/>" = none := by
  decide +kernel

end PolicyForge.Xml
