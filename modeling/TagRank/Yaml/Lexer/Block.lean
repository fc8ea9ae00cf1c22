import TagRank.Yaml.Lexer.Basic

namespace TagRank.Yaml.Lex

inductive Chomping
  | strip
  | clip
  | keep

def takeChomping? : Lex (Option Chomping) := do
  match ← peek 0 with
  | some '+' => skip 1; return some .keep
  | some '-' => skip 1; return some .strip
  | _ => return none

def takeIncrement? : Lex (Option Nat) := do
  match ← peek 0 with
  | some c =>
    if c.isDigit then
      expect (c != '0')
      skip 1
      return some (c.toNat - 48)
    else return none
  | none => return none

def blockHeader : Lex (Chomping × Option Nat) := do
  let before ← takeChomping?
  let increment ← takeIncrement?
  let after ← if before.isNone && increment.isSome then takeChomping? else pure none
  expect (atSpaceOrBreak (← peek 0))
  return ((before.or after).getD .clip, increment)

def leadingLines : Nat → Nat → List Char → Lex (List Char × Nat)
  | 0, width, breaks => return (breaks.reverse, width)
  | n + 1, width, breaks => do
    skipSpaces
    let width := max width (← get).column
    match ← takeBreak? with
    | some b => leadingLines n width (b :: breaks)
    | none => return (breaks.reverse, width)

def skipIndent (indent : Nat) : Lex Unit := do
  let s ← get
  skip (min (indent - s.column) (s.rest.takeWhile (· == ' ')).length)

def emptyLines (indent : Nat) : Nat → List Char → Lex (List Char)
  | 0, breaks => return breaks.reverse
  | n + 1, breaks => do
    skipIndent indent
    match ← takeBreak? with
    | some b => emptyLines indent n (b :: breaks)
    | none => return breaks.reverse

def isSpaceOrTab : Option Char → Bool
  | some c => c == ' ' || c == '\t'
  | none => false

/-- The lines of a block scalar: its text so far, the last line break and the empty lines after. -/
def blockLines (folded : Bool) (indent : Nat) :
    Nat → List Char → List Char → Lex (List Char × List Char × List Char)
  | 0, text, breaks => return (text, [], breaks)
  | n + 1, text, breaks => do
    if (← get).column == indent && (← peek 0).isSome then
      let flush := !isSpaceOrTab (← peek 0)
      let line ← takeWhile (!isBreak ·)
      let text := text ++ breaks ++ line
      let lineBreak := (← takeBreak?).toList
      let breaks ← emptyLines indent ((← get).rest.length + 1) []
      if (← get).column == indent && (← peek 0).isSome then
        let joint :=
          if folded && lineBreak == ['\n'] && flush && !isSpaceOrTab (← peek 0) then
            if breaks.isEmpty then [' '] else []
          else lineBreak
        blockLines folded indent n (text ++ joint) breaks
      else return (text, lineBreak, breaks)
    else return (text, [], breaks)

def blockScalar (folded : Bool) : Lex Token := do
  skip 1
  let (chomping, increment) ← blockHeader
  skipComment
  let least := (max ((← get).indent + 1) 1).toNat
  let size := (← get).rest.length + 1
  let (breaks, indent) ← match increment with
    | none => do
      let (breaks, width) ← leadingLines size 0 []
      pure (breaks, max least width)
    | some k => do
      let indent := least + k - 1
      pure (← emptyLines indent size [], indent)
  let (text, lineBreak, breaks) ← blockLines folded indent size [] breaks
  let tail := match chomping with
    | .strip => []
    | .clip => lineBreak
    | .keep => lineBreak ++ breaks
  return .scalar (String.ofList (text ++ tail)) false

end TagRank.Yaml.Lex
