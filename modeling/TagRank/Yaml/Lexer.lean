import TagRank.Yaml.Lexer.Block
import TagRank.Yaml.Lexer.Plain
import TagRank.Yaml.Lexer.Property

/-!
YAML texts cut into tokens.
-/

namespace TagRank.Yaml

namespace Lex

def documentMarker (t : Token) : Lex Unit := do
  unwind (-1)
  dropCandidate
  allowKey false
  skip 3
  emit t

def flowStart (t : Token) : Lex Unit := do
  saveCandidate
  modify fun s => { s with depth := s.depth + 1 }
  allowKey true
  skip 1
  emit t

def flowEnd (t : Token) : Lex Unit := do
  expect (← inFlow)
  dropCandidate
  modify fun s => { s with depth := s.depth - 1 }
  allowKey false
  skip 1
  emit t

def blockEntry : Lex Unit := do
  if !(← inFlow) then
    expect (← get).keyAllowed
    if ← addIndent (← get).column then emit .blockSequenceStart
  allowKey true
  dropCandidate
  skip 1
  emit .blockEntry

def explicitKey : Lex Unit := do
  let flow ← inFlow
  if !flow then
    expect (← get).keyAllowed
    if ← addIndent (← get).column then emit .blockMappingStart
  allowKey !flow
  dropCandidate
  skip 1
  emit .key

def keyValue : Lex Unit := do
  let s ← get
  let flow := s.depth != 0
  match s.candidates.lookup s.depth with
  | some k =>
    set { s with candidates := s.candidates.filter (·.1 != s.depth) }
    let starts ← if flow then pure false else addIndent k.column
    let marks := if starts then #[.blockMappingStart, .key] else #[.key]
    modify fun s =>
      { s with tokens := s.tokens.take k.place ++ marks ++ s.tokens.drop k.place }
    allowKey false
  | none =>
    if !flow then
      expect s.keyAllowed
      if ← addIndent s.column then emit .blockMappingStart
    allowKey !flow
    dropCandidate
  skip 1
  emit .value

def keyed (scan : Lex Token) : Lex Unit := do
  saveCandidate
  allowKey false
  emit (← scan)

def endOfText : Lex Unit := do
  unwind (-1)
  dropCandidate
  emit .streamEnd

def next : Lex Bool := do
  skipGap ((← get).rest.length + 1)
  dropStale
  unwind (← get).column
  let flow ← inFlow
  let atStart := (← get).column == 0
  let blankNext := atBlank (← peek 1)
  match ← peek 0 with
  | none => endOfText; return false
  | some c =>
    if c == '%' && atStart then
      unwind (-1)
      dropCandidate
      allowKey false
      emit (← directive)
    else if atStart && (← atMarker '-') then documentMarker .documentStart
    else if atStart && (← atMarker '.') then documentMarker .documentEnd
    else if c == '[' then flowStart .flowSequenceStart
    else if c == '\x7b' then flowStart .flowMappingStart
    else if c == ']' then flowEnd .flowSequenceEnd
    else if c == '\x7d' then flowEnd .flowMappingEnd
    else if c == ',' then
      allowKey true
      dropCandidate
      skip 1
      emit .flowEntry
    else if c == '-' && blankNext then blockEntry
    else if c == '?' && (flow || blankNext) then explicitKey
    else if c == ':' && (flow || blankNext) then keyValue
    else if c == '*' then keyed (do return .alias (← anchorName))
    else if c == '&' then keyed (do return .anchor (← anchorName))
    else if c == '!' then keyed tagToken
    else if (c == '|' || c == '>') && !flow then
      allowKey true
      dropCandidate
      emit (← blockScalar (c == '>'))
    else if c == '\'' then keyed (quotedScalar false)
    else if c == '"' then keyed (quotedScalar true)
    else if ← atPlain then keyed plainScalar
    else failure
    return true

def all : Nat → Lex Unit
  | 0 => failure
  | n + 1 => do if ← next then all n

end Lex

def tokens? (text : String) : Option (List Token) := do
  let cs := text.toList
  guard (cs.all isPermitted)
  let cs := if cs.head? = some '\uFEFF' then cs.drop 1 else cs
  let start : Lexer := ⟨cs, 0, 0, 0, 0, -1, [], true, [], #[]⟩
  let ((), s) ← (Lex.all (cs.length + 2)).run start
  return s.tokens.toList

end TagRank.Yaml
