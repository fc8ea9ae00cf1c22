import TagRank.Yaml.Lexer.Basic

namespace TagRank.Yaml.Lex

def replacement? : Char → Option Char
  | '0' => some '\x00'
  | 'a' => some '\x07'
  | 'b' => some '\x08'
  | 't' => some '\t'
  | '\t' => some '\t'
  | 'n' => some '\n'
  | 'v' => some '\x0b'
  | 'f' => some '\x0c'
  | 'r' => some '\r'
  | 'e' => some '\x1b'
  | ' ' => some ' '
  | '"' => some '"'
  | '\\' => some '\\'
  | '/' => some '/'
  | 'N' => some '\x85'
  | '_' => some '\u00A0'
  | 'L' => some '\u2028'
  | 'P' => some '\u2029'
  | _ => none

def codeWidth? : Char → Option Nat
  | 'x' => some 2
  | 'u' => some 4
  | 'U' => some 8
  | _ => none

def quotedBreaks : Nat → List Char → Lex (List Char)
  | 0, breaks => return breaks.reverse
  | n + 1, breaks => do
    expect !(← atAnyMarker)
    let _ ← takeWhile fun c => c == ' ' || c == '\t'
    match ← takeBreak? with
    | some b => quotedBreaks n (b :: breaks)
    | none => return breaks.reverse

/-- A line break inside a text becomes a space, unless empty lines follow it. -/
def foldedBreaks (lineBreak : Char) (breaks : List Char) : List Char :=
  if lineBreak != '\n' then lineBreak :: breaks
  else if breaks.isEmpty then [' ']
  else breaks

def escapeSequence : Lex (List Char) := do
  skip 1
  match ← peek 0 with
  | none => failure
  | some c =>
    match replacement? c, codeWidth? c with
    | some d, _ => skip 1; return [d]
    | none, some width =>
      skip 1
      let cs ← take width
      expect (cs.length == width)
      match Text.ofDigits? 16 cs with
      | some n =>
        expect (n < 0x110000)
        -- half a character is replaced; no text that can be stored has one
        return [if n.isValidChar then Char.ofNat n else '\uFFFD']
      | none => failure
    | none, none =>
      match ← takeBreak? with
      | some _ => quotedBreaks ((← get).rest.length + 1) []
      | none => failure

def isQuotedText (c : Char) : Bool :=
  !(c == '\'' || c == '"' || c == '\\' || c == ' ' || c == '\t' || isBreak c)

def quotedText (double : Bool) : Nat → List Char → Lex (List Char)
  | 0, _ => failure
  | n + 1, text => do
    let text := text ++ (← takeWhile isQuotedText)
    match ← peek 0 with
    | none => failure
    | some c =>
      if !double && c == '\'' then
        if (← peek 1) == some '\'' then
          skip 2
          quotedText double n (text ++ ['\''])
        else
          skip 1
          return text
      else if double && c == '"' then
        skip 1
        return text
      else if double && c == '\\' then quotedText double n (text ++ (← escapeSequence))
      else if c == '\'' || c == '"' || c == '\\' then
        skip 1
        quotedText double n (text ++ [c])
      else
        let spaces ← takeWhile fun c => c == ' ' || c == '\t'
        expect (← peek 0).isSome
        match ← takeBreak? with
        | some b =>
          let breaks ← quotedBreaks ((← get).rest.length + 1) []
          quotedText double n (text ++ foldedBreaks b breaks)
        | none => quotedText double n (text ++ spaces)

def quotedScalar (double : Bool) : Lex Token := do
  skip 1
  let text ← quotedText double ((← get).rest.length + 1) []
  return .scalar (String.ofList text) false

end TagRank.Yaml.Lex
