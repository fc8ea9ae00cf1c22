import TagRank.Decimal.Binary
import TagRank.Text.Blank
import TagRank.Text.Digit

namespace TagRank.Decimal

/-- Blanks around a number; the four ASCII information separators are not among them. -/
def isPadding (c : Char) : Bool :=
  Text.isBlank c && !(28 ≤ c.toNat && c.toNat ≤ 31)

def plainDigit (c : Char) : Char :=
  match Text.digitValue? c with
  | some d => Text.digitChar d
  | none => c

def body (s : String) : List Char :=
  let cs := s.toList.dropWhile isPadding
  (cs.reverse.dropWhile isPadding).reverse.map plainDigit

def takeSign : List Char → Bool × List Char
  | '-' :: cs => (true, cs)
  | '+' :: cs => (false, cs)
  | cs => (false, cs)

def dropUnderscores? (digit : Bool) : List Char → Option (List Char)
  | [] => some []
  | '_' :: c :: cs =>
    if digit && c.isDigit then (dropUnderscores? true cs).map (c :: ·) else none
  | c :: cs => if c = '_' then none else (dropUnderscores? c.isDigit cs).map (c :: ·)

inductive IntError
  | malformed
  | tooManyDigits (count : Nat)

def maxDigits : Nat := 4300

def readInt (s : String) : Except IntError Int :=
  let (negative, cs) := takeSign (body s)
  match dropUnderscores? false cs with
  | none => throw .malformed
  | some ds =>
    if maxDigits < (ds.takeWhile Char.isDigit).length then
      throw (.tooManyDigits (ds.takeWhile Char.isDigit).length)
    else if ds.isEmpty || !ds.all Char.isDigit then throw .malformed
    else
      let n := (Text.ofDigits? 10 ds).getD 0
      return if negative then -(n : Int) else n

/-- The float nearest to `digits · 10 ^ exponent`. Beyond the four hundredth power of ten the
answer is infinity or zero, whatever the digits. -/
def toFloat (digits : Nat) (exponent : Int) : Float :=
  let top := exponent + digitCount digits
  if digits = 0 then 0
  else if 400 < top then 1 / 0
  else if top < -400 then 0
  else Float.ofScientific digits (exponent < 0) exponent.natAbs

def readDecimal? (cs : List Char) : Option Float := do
  let whole := cs.takeWhile Char.isDigit
  let rest := cs.dropWhile Char.isDigit
  let (fraction, rest) := match rest with
    | '.' :: r => (r.takeWhile Char.isDigit, r.dropWhile Char.isDigit)
    | r => ([], r)
  guard !(whole ++ fraction).isEmpty
  let digits ← Text.ofDigits? 10 (whole ++ fraction)
  match rest with
  | [] => return toFloat digits (-fraction.length)
  | c :: r =>
    guard (c == 'e' || c == 'E')
    let (negative, ds) := takeSign r
    guard (!ds.isEmpty && ds.all Char.isDigit)
    let e ← Text.ofDigits? 10 ds
    return toFloat digits ((if negative then -(e : Int) else e) - fraction.length)

def readMagnitude? (cs : List Char) : Option Float :=
  let word := cs.map Char.toLower
  if word = "inf".toList ∨ word = "infinity".toList then some (1 / 0)
  else if word = "nan".toList then some (0 / 0)
  else (dropUnderscores? false cs).bind readDecimal?

def readFloat? (s : String) : Option Float :=
  let (negative, cs) := takeSign (body s)
  (readMagnitude? cs).map fun x => if negative then -x else x

end TagRank.Decimal
