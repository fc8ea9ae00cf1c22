import TagRank.Text.Digit
import TagRank.Yaml.Token

namespace TagRank.Yaml

/-- A place where a key may have begun: the number of its first token and its position. -/
structure Candidate where
  place : Nat
  required : Bool
  index : Nat
  line : Nat
  column : Nat

structure Lexer where
  rest : List Char
  index : Nat
  line : Nat
  column : Nat
  depth : Nat
  indent : Int
  indents : List Int
  keyAllowed : Bool
  candidates : List (Nat × Candidate)
  tokens : Array Token

def Lexer.step (s : Lexer) (c : Char) : Lexer :=
  if isBreak c then { s with index := s.index + 1, line := s.line + 1, column := 0 }
  else if c = '\uFEFF' then { s with index := s.index + 1 }
  else { s with index := s.index + 1, column := s.column + 1 }

abbrev Lex := StateT Lexer Option

namespace Lex

def peek (n : Nat) : Lex (Option Char) := do return (← get).rest[n]?

def take (n : Nat) : Lex (List Char) := modifyGet fun s =>
  let cs := s.rest.take n
  (cs, { cs.foldl Lexer.step s with rest := s.rest.drop n })

def skip (n : Nat) : Lex Unit := do let _ ← take n

def takeWhile (p : Char → Bool) : Lex (List Char) := do take ((← get).rest.takeWhile p).length

def skipSpaces : Lex Unit := do let _ ← takeWhile (· == ' ')

def expect (b : Bool) : Lex Unit := if b then pure () else failure

def emit (t : Token) : Lex Unit := modify fun s => { s with tokens := s.tokens.push t }

def allowKey (b : Bool) : Lex Unit := modify fun s => { s with keyAllowed := b }

def takeBreak? : Lex (Option Char) := do
  match ← peek 0 with
  | some c => if isBreak c then skip 1; return some (breakText c) else return none
  | none => return none

def inFlow : Lex Bool := do return (← get).depth != 0

def atMarker (mark : Char) : Lex Bool := do
  return (← get).rest.take 3 == [mark, mark, mark] && atBlank (← peek 3)

def atAnyMarker : Lex Bool := do return (← atMarker '-') || (← atMarker '.')

def dropCandidate : Lex Unit := do
  let s ← get
  match s.candidates.lookup s.depth with
  | none => pure ()
  | some k =>
    expect !k.required
    set { s with candidates := s.candidates.filter (·.1 != s.depth) }

/-- A key lies on one line and has at most 1024 characters. -/
def dropStale : Lex Unit := do
  let s ← get
  let fresh := fun (k : Candidate) => k.line == s.line && s.index - k.index ≤ 1024
  expect (s.candidates.all fun (_, k) => fresh k || !k.required)
  set { s with candidates := s.candidates.filter fun (_, k) => fresh k }

def saveCandidate : Lex Unit := do
  if (← get).keyAllowed then
    dropCandidate
    modify fun s =>
      let required := s.depth == 0 && s.indent == (s.column : Int)
      let k := ⟨s.tokens.size, required, s.index, s.line, s.column⟩
      { s with candidates := (s.depth, k) :: s.candidates }

def unwindFrom (column : Int) : List Int → Lex Unit
  | [] => pure ()
  | outer :: more => do
    if column < (← get).indent then
      modify fun s => { s with indent := outer, indents := more, tokens := s.tokens.push .blockEnd }
      unwindFrom column more

def unwind (column : Int) : Lex Unit := do
  if !(← inFlow) then unwindFrom column (← get).indents

def addIndent (column : Nat) : Lex Bool := modifyGet fun s =>
  if s.indent < (column : Int) then
    (true, { s with indents := s.indent :: s.indents, indent := (column : Int) })
  else (false, s)

def skipGap : Nat → Lex Unit
  | 0 => pure ()
  | n + 1 => do
    skipSpaces
    if (← peek 0) == some '#' then let _ ← takeWhile (!isBreak ·)
    if (← takeBreak?).isSome then
      if !(← inFlow) then allowKey true
      skipGap n

def skipComment : Lex Unit := do
  skipSpaces
  if (← peek 0) == some '#' then let _ ← takeWhile (!isBreak ·)
  expect (atBreak (← peek 0))
  let _ ← takeBreak?

def takeName : Lex String := do
  let cs ← takeWhile isNameChar
  expect !cs.isEmpty
  return String.ofList cs

def takeNumber : Lex Nat := do
  let cs ← takeWhile Char.isDigit
  expect !cs.isEmpty
  return (Text.ofDigits? 10 cs).getD 0

end Lex

end TagRank.Yaml
