import TagRank.Yaml.Lexer.Quoted

namespace TagRank.Yaml.Lex

def atKeyEnd (flow : Bool) (next : Option Char) : Bool :=
  atBlank next || (flow && isEndOr (",[]\x7b\x7d".toList.contains ·) next)

/-- How many characters a plain scalar takes before a space, a colon that ends a key, or, in flow
context, a bracket or comma. -/
def plainLength (flow : Bool) : List Char → Nat
  | [] => 0
  | c :: cs =>
    if c == ' ' || c == '\t' || isBreak c then 0
    else if c == ':' && atKeyEnd flow cs.head? then 0
    else if flow && ",?[]\x7b\x7d".toList.contains c then 0
    else 1 + plainLength flow cs

def plainBreaks : Nat → List Char → Lex (Option (List Char))
  | 0, breaks => return some breaks.reverse
  | n + 1, breaks => do
    if ← atAnyMarker then return none
    skipSpaces
    match ← takeBreak? with
    | some b => plainBreaks n (b :: breaks)
    | none => return some breaks.reverse

def plainSpaces : Lex (List Char) := do
  let spaces ← takeWhile (· == ' ')
  match ← takeBreak? with
  | some b =>
    allowKey true
    match ← plainBreaks ((← get).rest.length + 1) [] with
    | none => return []
    | some breaks => return foldedBreaks b breaks
  | none => return spaces

def plainText (indent : Int) : Nat → List Char → List Char → Lex (List Char)
  | 0, text, _ => return text
  | n + 1, text, spaces => do
    if (← peek 0) == some '#' then return text
    let flow ← inFlow
    let length := plainLength flow (← get).rest
    if length == 0 then return text
    allowKey false
    let text := text ++ spaces ++ (← take length)
    let spaces ← plainSpaces
    if spaces.isEmpty || (← peek 0) == some '#' || (!flow && ((← get).column : Int) < indent) then
      return text
    plainText indent n text spaces

def plainScalar : Lex Token := do
  let text ← plainText ((← get).indent + 1) ((← get).rest.length + 1) [] []
  return .scalar (String.ofList text) true

def atPlain : Lex Bool := do
  match ← peek 0 with
  | none => return false
  | some c =>
    if !(c == ' ' || c == '\t' || isBreak c ||
        "-?:,[]\x7b\x7d#&*!|>'\"%@\x60".toList.contains c) then return true
    let flow ← inFlow
    return !atBlank (← peek 1) && (c == '-' || (!flow && (c == '?' || c == ':')))

end TagRank.Yaml.Lex
