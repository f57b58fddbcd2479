import PolicyForge.Data.Yaml.Token
/-!
# Nodes of a YAML document

The tokens of a document make a tree: scalars, sequences and mappings, each perhaps with a tag, and
aliases, which stand for what an anchor has marked before.  An alias inside of what its own anchor
marks has no tree.  A text holds one document.
-/
namespace PolicyForge.Data.Yaml

/-- What anchors have marked so far, last first. -/
abbrev Anchors := List (String × Tree)

/-- What has been marked by the end of a node, and the tokens after it. -/
abbrev Rest := Anchors × List Token

/-- What stands in front of a node. -/
structure Properties where
  anchor : Option String
  tag : Option String

def Properties.isEmpty (p : Properties) : Bool := p.anchor.isNone && p.tag.isNone

/-- What handles stand for. -/
abbrev Handles := List (String × String)

def standardHandles : Handles := [("!", "!"), ("!!", "tag:yaml.org,2002:")]

def fullTag (handles : Handles) (handle suffix : String) : Option String :=
  if handle.isEmpty then some suffix
  else (handles.find? (·.1 == handle)).map fun h => h.2 ++ suffix

/-- The properties in front of a node, in either order, and the tokens after them. -/
def properties (handles : Handles) : List Token → Option (Properties × List Token)
  | .anchor a :: .tag h s :: rest | .tag h s :: .anchor a :: rest =>
    (fullTag handles h s).map fun t => (⟨some a, some t⟩, rest)
  | .anchor a :: rest => some (⟨some a, none⟩, rest)
  | .tag h s :: rest => (fullTag handles h s).map fun t => (⟨none, some t⟩, rest)
  | rest => some (⟨none, none⟩, rest)

def withTag (tag : Option String) (t : Tree) : Tree :=
  match tag with
  | none => t
  | some tag => .tagged tag t

/-- What has been marked once an anchor, if there is one, marks a tree. -/
def mark (anchor : Option String) (t : Tree) (marked : Anchors) : Anchors :=
  match anchor with
  | none => marked
  | some a => (a, t) :: marked

def emptyNode : Tree := .plain ""

/-- Whether the tokens go on with nothing that could be a node in a block. -/
def endsBlockNode (indentless : Bool) : List Token → Bool
  | .key :: _ | .value :: _ | .blockEnd :: _ => true
  | .item :: _ => indentless
  | _ => false

mutual

/-- One node.  `inBlock` allows blocks, and `indentless` sequences that are not indented. -/
def node (handles : Handles) (inBlock indentless : Bool) (fuel : Nat) (marked : Anchors)
    (ts : List Token) : Option (Tree × Rest) :=
  match fuel, ts with
  | 0, _ => none
  | _, .alias a :: rest => (marked.find? (·.1 == a)).map fun m => (m.2, marked, rest)
  | fuel + 1, ts => do
    let (p, ts) ← properties handles ts
    let within := mark p.anchor (.unreadable .endless) marked
    let finish (r : Tree × Rest) : Tree × Rest :=
      let t := withTag p.tag r.1
      (t, mark p.anchor t r.2.1, r.2.2)
    match ts with
    | .scalar text plain :: rest =>
      let t := withTag (p.tag.filter (· != "!")) (if plain then .plain text else .string text)
      return (t, mark p.anchor t marked, rest)
    | .sequenceOpen :: rest => do
      let (items, marked, rest) ← flowItems handles fuel true within rest
      return finish (.sequence items, marked, rest)
    | .mappingOpen :: rest => do
      let (entries, marked, rest) ← flowEntries handles fuel true within rest
      return finish (.mapping entries, marked, rest)
    | _ =>
      match inBlock, ts with
      | true, .blockSequence :: rest => do
        let (items, marked, rest) ← blockItems handles fuel within rest
        return finish (.sequence items, marked, rest)
      | true, .blockMapping :: rest => do
        let (entries, marked, rest) ← blockEntries handles fuel within rest
        return finish (.mapping entries, marked, rest)
      | _, .item :: rest =>
        if indentless then do
          let (items, marked, rest) ← indentlessItems handles fuel within (.item :: rest)
          return finish (.sequence items, marked, rest)
        else if p.isEmpty then none
        else return finish (emptyNode, marked, ts)
      | _, ts => if p.isEmpty then none else return finish (emptyNode, marked, ts)

/-- A node of a block, or the empty one where there is none. -/
def blockNode (handles : Handles) (absent indentless : Bool) (fuel : Nat) (marked : Anchors)
    (ts : List Token) : Option (Tree × Rest) :=
  match fuel with
  | 0 => none
  | fuel + 1 =>
    if absent then some (emptyNode, marked, ts) else node handles true indentless fuel marked ts

def blockItems (handles : Handles) (fuel : Nat) (marked : Anchors) (ts : List Token) :
    Option (List Tree × Rest) :=
  match fuel, ts with
  | fuel + 1, .item :: rest => do
    let absent := match rest with
      | .item :: _ | .blockEnd :: _ => true
      | _ => false
    let (t, marked, rest) ← blockNode handles absent false fuel marked rest
    let (more, marked, rest) ← blockItems handles fuel marked rest
    return (t :: more, marked, rest)
  | _, .blockEnd :: rest => some ([], marked, rest)
  | _, _ => none

/-- The items of a sequence that is not indented. -/
def indentlessItems (handles : Handles) (fuel : Nat) (marked : Anchors) (ts : List Token) :
    Option (List Tree × Rest) :=
  match fuel, ts with
  | 0, _ => none
  | fuel + 1, .item :: rest => do
    let (t, marked, rest) ← blockNode handles (endsBlockNode true rest) false fuel marked rest
    let (more, marked, rest) ← indentlessItems handles fuel marked rest
    return (t :: more, marked, rest)
  | _, ts => some ([], marked, ts)

def blockEntries (handles : Handles) (fuel : Nat) (marked : Anchors) (ts : List Token) :
    Option (List (Tree × Tree) × Rest) :=
  match fuel, ts with
  | 0, _ => none
  | _, .blockEnd :: rest => some ([], marked, rest)
  | fuel + 1, .key :: rest => do
    let (k, marked, rest) ← blockNode handles (endsBlockNode false rest) true fuel marked rest
    let (v, marked, rest) ← blockValue handles fuel marked rest
    let (more, marked, rest) ← blockEntries handles fuel marked rest
    return ((k, v) :: more, marked, rest)
  | _, _ => none

def blockValue (handles : Handles) (fuel : Nat) (marked : Anchors) (ts : List Token) :
    Option (Tree × Rest) :=
  match fuel, ts with
  | 0, _ => none
  | fuel + 1, .value :: rest => blockNode handles (endsBlockNode false rest) true fuel marked rest
  | _, ts => some (emptyNode, marked, ts)

/-- The items of a sequence in brackets. -/
def flowItems (handles : Handles) (fuel : Nat) (first : Bool) (marked : Anchors)
    (ts : List Token) : Option (List Tree × Rest) :=
  match fuel, ts with
  | 0, _ => none
  | _, .sequenceClose :: rest => some ([], marked, rest)
  | fuel + 1, ts => do
    let ts ← match first, ts with
      | true, ts => some ts
      | false, .comma :: rest => some rest
      | false, _ => none
    match ts with
    | .sequenceClose :: rest => return ([], marked, rest)
    | .key :: rest => do
      let (t, marked, rest) ← flowPair handles fuel marked rest
      let (more, marked, rest) ← flowItems handles fuel false marked rest
      return (t :: more, marked, rest)
    | ts => do
      let (t, marked, rest) ← node handles false false fuel marked ts
      let (more, marked, rest) ← flowItems handles fuel false marked rest
      return (t :: more, marked, rest)

/-- A mapping of one entry that is an item of a sequence. -/
def flowPair (handles : Handles) (fuel : Nat) (marked : Anchors) (ts : List Token) :
    Option (Tree × Rest) :=
  match fuel with
  | 0 => none
  | fuel + 1 => do
    let (k, marked, rest) ← match ts with
      | .value :: rest | .comma :: rest | .sequenceClose :: rest => some (emptyNode, marked, rest)
      | ts => node handles false false fuel marked ts
    let (v, marked, rest) ← match rest with
      | .value :: .comma :: more => some (emptyNode, marked, Token.comma :: more)
      | .value :: .sequenceClose :: more => some (emptyNode, marked, Token.sequenceClose :: more)
      | .value :: more => node handles false false fuel marked more
      | rest => some (emptyNode, marked, rest)
    return (.mapping [(k, v)], marked, rest)

/-- The entries of a mapping in braces. -/
def flowEntries (handles : Handles) (fuel : Nat) (first : Bool) (marked : Anchors)
    (ts : List Token) : Option (List (Tree × Tree) × Rest) :=
  match fuel, ts with
  | 0, _ => none
  | _, .mappingClose :: rest => some ([], marked, rest)
  | fuel + 1, ts => do
    let ts ← match first, ts with
      | true, ts => some ts
      | false, .comma :: rest => some rest
      | false, _ => none
    match ts with
    | .mappingClose :: rest => return ([], marked, rest)
    | .key :: rest => do
      let (k, marked, rest) ← match rest with
        | .value :: _ | .comma :: _ | .mappingClose :: _ => some (emptyNode, marked, rest)
        | rest => node handles false false fuel marked rest
      let (v, marked, rest) ← match rest with
        | .value :: .comma :: more => some (emptyNode, marked, Token.comma :: more)
        | .value :: .mappingClose :: more => some (emptyNode, marked, Token.mappingClose :: more)
        | .value :: more => node handles false false fuel marked more
        | rest => some (emptyNode, marked, rest)
      let (more, marked, rest) ← flowEntries handles fuel false marked rest
      return ((k, v) :: more, marked, rest)
    | ts => do
      let (k, marked, rest) ← node handles false false fuel marked ts
      let (more, marked, rest) ← flowEntries handles fuel false marked rest
      return ((k, emptyNode) :: more, marked, rest)

end

/-! ## Documents -/

/-- The handles that directives define in front of a document, and the tokens after them.  A version
may be given once and every handle defined once. -/
def directives (version : Bool) (own : Handles) : List Token → Option (Handles × List Token)
  | .version major minor :: rest =>
    if version || major != 1 || (minor != 1 && minor != 2) then none
    else directives true own rest
  | .handle name stem :: rest =>
    if own.any (·.1 == name) then none else directives version (own ++ [(name, stem)]) rest
  | rest => some (own ++ standardHandles, rest)

def isDirective : Token → Bool
  | .version _ _ | .handle _ _ => true
  | _ => false

/-- Whether the tokens go on with nothing that could be the content of a document. -/
def endsDocument : List Token → Bool
  | [] | .documentStart :: _ | .documentEnd :: _ => true
  | t :: _ => isDirective t

/-- The content of a document whose start is marked. -/
def markedDocument (handles : Handles) (fuel : Nat) (ts : List Token) : Option (Tree × Rest) :=
  if endsDocument ts then some (emptyNode, [], ts) else node handles true false fuel [] ts

/-- The first document, and the tokens after it. -/
def firstDocument (ts : List Token) : Option (Tree × List Token) := do
  let fuel := 8 * ts.length + 8
  match ts with
  | [] => return (emptyNode, [])
  | t :: rest =>
    if isDirective t || t == .documentStart then
      let (handles, ts) ← directives false [] (t :: rest)
      match ts with
      | .documentStart :: rest =>
        let (tree, _, rest) ← markedDocument handles fuel rest
        return (tree, rest)
      | _ => none
    else
      let (tree, _, rest) ← node standardHandles true false fuel [] ts
      return (tree, rest)

/-- The tree of the only document of a text, unless the text is malformed or holds more. -/
def read (text : String) : Option Tree := do
  let (tree, rest) ← firstDocument (← tokens? text)
  if rest.all (· == .documentEnd) then return tree else none

end PolicyForge.Data.Yaml
