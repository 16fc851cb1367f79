import HandlerDocs.Assoc
import HandlerDocs.Yaml.Layout

namespace HandlerDocs.Yaml

/-- A value in a document. A reference stands for the node with a number. -/
inductive Node where
  | scalar (style : Style) (tag : Option String) (text : String)
  | sequence (items : List Node)
  | mapping (entries : List (Node × Node))
  | reference (number : Nat)
deriving Inhabited

namespace Node

def missing (tag : Option String) : Node :=
  .scalar .plain tag ""

end Node

structure Document where
  root : Option Node
  anchors : List (Nat × Node)

namespace Document

def empty : Document := ⟨none, []⟩

def resolve (doc : Document) : Node → Node
  | .reference number => ((doc.anchors.find? (·.1 = number)).map (·.2)).getD (.missing none)
  | node => node

end Document

/-- What is known while a document is read: the tokens to come, the numbers of anchor names, the
nodes with numbers, and the tag handles. -/
structure Reading where
  tokens : List Token
  names : List (String × Nat) := []
  anchors : List (Nat × Node) := []
  handles : List (String × String) := []

abbrev Read := StateT Reading Option

namespace Read

def peek? : Read (Option Token) := do
  return (← get).tokens.head?

def skip : Read Unit :=
  modify fun s ↦ { s with tokens := s.tokens.tail }

def take (t : Token) : Read Bool := do
  if (← peek?) = some t then skip; return true
  else return false

def expect (t : Token) : Read Unit := do
  if !(← take t) then failure

def endsWith (ends : List Token) : Read Bool := do
  match ← peek? with
  | some t => return ends.contains t
  | none => return true

def properties : Read (Option String × Option (String × String)) := do
  match ← peek? with
  | some (.anchor name) =>
    skip
    match ← peek? with
    | some (.tag handle suffix) => skip; return (some name, some (handle, suffix))
    | _ => return (some name, none)
  | some (.tag handle suffix) =>
    skip
    match ← peek? with
    | some (.anchor name) => skip; return (some name, some (handle, suffix))
    | _ => return (none, some (handle, suffix))
  | _ => return (none, none)

def tagOf : String × String → Read String
  | ("", suffix) => return suffix
  | (handle, suffix) => do
    match Assoc.get? handle (← get).handles with
    | some start => return start ++ suffix
    | none => failure

def number (name : String) : Read Nat := do
  let n := (← get).names.length
  modify fun s ↦ { s with names := Assoc.put name n s.names }
  return n

def keep (number : Nat) (node : Node) : Read Unit :=
  modify fun s ↦ { s with anchors := (number, node) :: s.anchors }

mutual

/-- Reads a node. Block collections need `block`, and sequences that are not indented `bare`. The
first argument of this and the next functions bounds the depth and length of what is read. -/
def node : Nat → (block bare : Bool) → Read Node
  | 0, _, _ => failure
  | fuel + 1, block, bare => do
    if let some (.reference name) ← peek? then
      skip
      match Assoc.get? name (← get).names with
      | some n => return .reference n
      | none => failure
    else
      let (anchor, tag) ← properties
      let tag ← tag.mapM tagOf
      let n ← anchor.mapM number
      let node ← content fuel block bare tag (anchor.isSome || tag.isSome)
      if let some n := n then keep n node
      return node

def content : Nat → (block bare : Bool) → Option String → (hasProperties : Bool) → Read Node
  | 0, _, _, _, _ => failure
  | fuel + 1, block, bare, tag, hasProperties => do
    match ← peek? with
    | some (.scalar style text) => skip; return .scalar style tag text
    | some .flowSequence => skip; return .sequence (← flowItems fuel true)
    | some .flowMapping => skip; return .mapping (← flowEntries fuel true)
    | some .entry =>
      if bare then return .sequence (← bareItems fuel)
      else if hasProperties then return .missing tag
      else failure
    | some .blockSequence =>
      if block then skip; return .sequence (← blockItems fuel)
      else if hasProperties then return .missing tag
      else failure
    | some .blockMapping =>
      if block then skip; return .mapping (← blockEntries fuel)
      else if hasProperties then return .missing tag
      else failure
    | _ => if hasProperties then return .missing tag else failure

def nodeUnless : Nat → List Token → (block bare : Bool) → Read Node
  | 0, _, _, _ => failure
  | fuel + 1, ends, block, bare => do
    if ← endsWith ends then return .missing none else node fuel block bare

def blockItems : Nat → Read (List Node)
  | 0 => failure
  | fuel + 1 => do
    if ← take .entry then
      let item ← nodeUnless fuel [.entry, .blockEnd] true false
      return item :: (← blockItems fuel)
    else
      expect .blockEnd
      return []

def bareItems : Nat → Read (List Node)
  | 0 => failure
  | fuel + 1 => do
    if ← take .entry then
      let item ← nodeUnless fuel [.entry, .key, .value, .blockEnd] true false
      return item :: (← bareItems fuel)
    else return []

def blockEntries : Nat → Read (List (Node × Node))
  | 0 => failure
  | fuel + 1 => do
    if ← take .key then
      let key ← nodeUnless fuel [.key, .value, .blockEnd] true true
      let value ←
        if ← take .value then nodeUnless fuel [.key, .value, .blockEnd] true true
        else pure (.missing none)
      return (key, value) :: (← blockEntries fuel)
    else
      expect .blockEnd
      return []

/-- Reads the items of a sequence in brackets; a pair makes a mapping of its own. -/
def flowItems : Nat → (first : Bool) → Read (List Node)
  | 0, _ => failure
  | fuel + 1, first => do
    if ← take .flowSequenceEnd then return []
    if !first then expect .flowEntry
    if ← take .flowSequenceEnd then return []
    let item ←
      if ← take .key then do
        let key ← nodeUnless fuel [.value, .flowEntry, .flowSequenceEnd] false false
        let value ←
          if ← take .value then nodeUnless fuel [.flowEntry, .flowSequenceEnd] false false
          else pure (.missing none)
        pure (.mapping [(key, value)])
      else node fuel false false
    return item :: (← flowItems fuel false)

def flowEntries : Nat → (first : Bool) → Read (List (Node × Node))
  | 0, _ => failure
  | fuel + 1, first => do
    if ← take .flowMappingEnd then return []
    if !first then expect .flowEntry
    if ← take .flowMappingEnd then return []
    let entry ←
      if ← take .key then do
        let key ← nodeUnless fuel [.value, .flowEntry, .flowMappingEnd] false false
        let value ←
          if ← take .value then nodeUnless fuel [.flowEntry, .flowMappingEnd] false false
          else pure (.missing none)
        pure (key, value)
      else do
        pure (← node fuel false false, .missing none)
    return entry :: (← flowEntries fuel false)

end

def standardHandles : List (String × String) :=
  [("!", "!"), ("!!", "tag:yaml.org,2002:")]

def directives : Nat → (version : Bool) → Read Unit
  | 0, _ => failure
  | fuel + 1, version => do
    match ← peek? with
    | some (.version major minor) =>
      if version || major ≠ 1 || (minor ≠ 1 && minor ≠ 2) then failure
      skip
      directives fuel true
    | some (.handle handle start) =>
      if (Assoc.get? handle (← get).handles).isSome then failure
      modify fun s ↦ { s with handles := (handle, start) :: s.handles }
      skip
      directives fuel version
    | _ =>
      modify fun s ↦ { s with handles := s.handles ++ standardHandles }

def skipEnds : Nat → Read Unit
  | 0 => return
  | fuel + 1 => do
    if ← take .documentEnd then skipEnds fuel

def isDirective : Token → Bool
  | .version _ _ => true
  | .handle _ _ => true
  | _ => false

def startsBare : Read Bool := do
  match ← peek? with
  | some t => return !isDirective t && t ≠ .documentStart
  | none => return false

/-- Reads one document, if there is one more; only the first may lack its opening mark. -/
def document (fuel : Nat) (first : Bool) : Read (Option Document) := do
  modify fun s ↦ { s with names := [], anchors := [], handles := [] }
  if !first then skipEnds fuel
  if first && (← startsBare) then
    directives fuel false
    let root ← node fuel true false
    let _ ← take .documentEnd
    return some ⟨root, (← get).anchors⟩
  else if (← peek?).isNone then return none
  else
    directives fuel false
    expect .documentStart
    let next ← peek?
    let bare := next.any fun t ↦ isDirective t || t = .documentStart || t = .documentEnd
    let root ← if bare || next.isNone then pure (.missing none) else node fuel true false
    let _ ← take .documentEnd
    return some ⟨root, (← get).anchors⟩

def only (fuel : Nat) : Read Document := do
  match ← document fuel true with
  | none => return .empty
  | some doc =>
    match ← document fuel false with
    | none => return doc
    | some _ => failure

end Read

def Document.parse? (text : String) : Option Document := do
  let tokens ← tokens? text
  let (doc, _) ← (Read.only (4 * tokens.length + 4)).run { tokens := tokens }
  return doc

end HandlerDocs.Yaml
