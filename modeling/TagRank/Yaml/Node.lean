import TagRank.Yaml.Lexer

/-!
The tree of nodes that a list of tokens describes. An alias stands for a copy of the node that bears
its anchor.
-/

namespace TagRank.Yaml

inductive Tagging
  | byLook
  | asText
  | named (tag : String)
  deriving DecidableEq

inductive Node
  | scalar (tagging : Tagging) (text : String)
  | sequence (tag : Option String) (items : List Node)
  | mapping (tag : Option String) (pairs : List (Node × Node))
  deriving Inhabited

structure Outline where
  rest : List Token
  handles : List (String × String)
  anchors : List (String × Option Node)

abbrev Compose := StateT Outline Option

namespace Compose

def peek : Compose Token := do return (← get).rest.headD .streamEnd

def skip : Compose Unit := modify fun s => { s with rest := s.rest.tail }

def takeOne? (ts : List Token) : Compose Bool := do
  if ts.contains (← peek) then skip; return true else return false

def isOneOf (ts : List Token) : Compose Bool := do return ts.contains (← peek)

def expect (t : Token) : Compose Unit := do
  if (← peek) == t then skip else failure

def empty : Node := .scalar .byLook ""

def takeAnchor? : Compose (Option String) := do
  match ← peek with
  | .anchor name => skip; return some name
  | _ => return none

def resolveTag (handle : Option String) (suffix : String) : Compose String := do
  match handle with
  | none => return suffix
  | some handle => return (← (← get).handles.lookup handle) ++ suffix

def takeTag? : Compose (Option String) := do
  match ← peek with
  | .tag handle suffix => skip; return some (← resolveTag handle suffix)
  | _ => return none

def properties : Compose (Option String × Option String) := do
  match ← takeAnchor? with
  | some name => return (some name, ← takeTag?)
  | none =>
    let tag ← takeTag?
    if tag.isSome then return (← takeAnchor?, tag) else return (none, none)

def declare : Option String → Compose Unit
  | none => pure ()
  | some name => do
    guard !((← get).anchors.any (·.1 == name))
    modify fun s => { s with anchors := (name, none) :: s.anchors }

def define (name : Option String) (node : Node) : Compose Node := do
  match name with
  | none => pure ()
  | some name => modify fun s => { s with anchors := (name, some node) :: s.anchors }
  return node

def aliased (name : String) : Compose Node := do
  match (← get).anchors.lookup name with
  | some (some node) => return node
  | _ => failure

def scalarTagging (plain : Bool) : Option String → Tagging
  | none => if plain then .byLook else .asText
  | some tag => if tag = "!" then .byLook else .named tag

def collectionTag (tag : Option String) : Option String := tag.filter (· != "!")

inductive Place
  | flow
  | block
  | mappingValue
  deriving DecidableEq

mutual

def node (place : Place) : Nat → Compose Node
  | 0 => failure
  | n + 1 => do
    match ← peek with
    | .alias name => skip; aliased name
    | _ =>
      let (anchor, tag) ← properties
      declare anchor
      match ← peek with
      | .scalar text plain => skip; define anchor (.scalar (scalarTagging plain tag) text)
      | .flowSequenceStart =>
        skip
        define anchor (.sequence (collectionTag tag) (← flowItems true [] n))
      | .flowMappingStart =>
        skip
        define anchor (.mapping (collectionTag tag) (← flowPairs true [] n))
      | t =>
        if t == .blockEntry && place == .mappingValue then
          define anchor (.sequence (collectionTag tag) (← looseItems [] n))
        else if t == .blockSequenceStart && place != .flow then
          skip
          define anchor (.sequence (collectionTag tag) (← blockItems [] n))
        else if t == .blockMappingStart && place != .flow then
          skip
          define anchor (.mapping (collectionTag tag) (← blockPairs [] n))
        else if anchor.isSome || tag.isSome then define anchor (.scalar (scalarTagging true tag) "")
        else failure

def nodeUnless (stops : List Token) (place : Place) : Nat → Compose Node
  | 0 => failure
  | n + 1 => do if ← isOneOf stops then return empty else node place n

def blockItems (items : List Node) : Nat → Compose (List Node)
  | 0 => failure
  | n + 1 => do
    if ← takeOne? [.blockEntry] then
      blockItems ((← nodeUnless [.blockEntry, .blockEnd] .block n) :: items) n
    else
      expect .blockEnd
      return items.reverse

def looseItems (items : List Node) : Nat → Compose (List Node)
  | 0 => failure
  | n + 1 => do
    if ← takeOne? [.blockEntry] then
      looseItems ((← nodeUnless [.blockEntry, .key, .value, .blockEnd] .block n) :: items) n
    else return items.reverse

def blockPairs (pairs : List (Node × Node)) : Nat → Compose (List (Node × Node))
  | 0 => failure
  | n + 1 => do
    let stops := [Token.key, .value, .blockEnd]
    if ← isOneOf [.key, .value] then
      let k ← if ← takeOne? [.key] then nodeUnless stops .mappingValue n else pure empty
      let v ← if ← takeOne? [.value] then nodeUnless stops .mappingValue n else pure empty
      blockPairs ((k, v) :: pairs) n
    else
      expect .blockEnd
      return pairs.reverse

def separator (first : Bool) : Nat → Compose Unit
  | 0 => failure
  | _ + 1 => if first then pure () else expect .flowEntry

def flowItems (first : Bool) (items : List Node) : Nat → Compose (List Node)
  | 0 => failure
  | n + 1 => do
    if ← takeOne? [.flowSequenceEnd] then return items.reverse
    separator first n
    if ← takeOne? [.flowSequenceEnd] then return items.reverse
    if ← takeOne? [.key] then
      let k ← nodeUnless [.value, .flowEntry, .flowSequenceEnd] .flow n
      let v ←
        if ← takeOne? [.value] then nodeUnless [.flowEntry, .flowSequenceEnd] .flow n
        else pure empty
      flowItems false (.mapping none [(k, v)] :: items) n
    else flowItems false ((← node .flow n) :: items) n

def flowPairs (first : Bool) (pairs : List (Node × Node)) : Nat → Compose (List (Node × Node))
  | 0 => failure
  | n + 1 => do
    if ← takeOne? [.flowMappingEnd] then return pairs.reverse
    separator first n
    if ← takeOne? [.flowMappingEnd] then return pairs.reverse
    if ← takeOne? [.key] then
      let k ← nodeUnless [.value, .flowEntry, .flowMappingEnd] .flow n
      let v ←
        if ← takeOne? [.value] then nodeUnless [.flowEntry, .flowMappingEnd] .flow n
        else pure empty
      flowPairs false ((k, v) :: pairs) n
    else
      let k ← node .flow n
      flowPairs false ((k, empty) :: pairs) n

end

def defaultHandles : List (String × String) := [("!", "!"), ("!!", "tag:yaml.org,2002:")]

/-- The directives before a document: one version, which must be 1, and every handle once. -/
def directives (version : Bool) (handles : List (String × String)) : List Token →
    Option (List (String × String) × List Token)
  | .versionDirective major :: ts =>
    if version || major != 1 then none else directives true handles ts
  | .tagDirective handle stem :: ts =>
    if handles.any (·.1 == handle) then none else directives version ((handle, stem) :: handles) ts
  | .otherDirective :: ts => directives version handles ts
  | ts => some (handles ++ defaultHandles, ts)

def finish : Compose Unit := do
  let s ← get
  guard (s.rest.dropWhile (· == .documentEnd) == [.streamEnd])

def document (n : Nat) : Compose (Option Node) := do
  match ← peek with
  | .streamEnd => return none
  | .documentStart | .versionDirective _ | .tagDirective _ _ | .otherDirective =>
    let (handles, rest) ← directives false [] (← get).rest
    set { (← get) with handles := handles, rest := rest }
    expect .documentStart
    let root ←
      match ← peek with
      | .documentStart | .documentEnd | .streamEnd
      | .versionDirective _ | .tagDirective _ _ | .otherDirective => pure empty
      | _ => node .block n
    finish
    return some root
  | _ =>
    let root ← node .block n
    finish
    return some root

end Compose

def Node.ofText? (text : String) : Option (Option Node) := do
  let ts ← tokens? text
  let (root, _) ← (Compose.document (4 * ts.length + 8)).run ⟨ts, Compose.defaultHandles, []⟩
  return root

end TagRank.Yaml
