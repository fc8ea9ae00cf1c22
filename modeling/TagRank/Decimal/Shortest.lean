import TagRank.Decimal.Binary

/-!
The fewest digits that read back as the same float.
-/

namespace TagRank.Decimal

structure Digits where
  digits : Nat
  scale : Int

/-- The numbers that round to `mantissa · 2 ^ exponent`: from `low` to `high`, ends included when
the mantissa is even. -/
structure Interval where
  low : Ratio
  high : Ratio
  closed : Bool

def Interval.around (mantissa : Nat) (exponent : Int) : Interval where
  low :=
    if mantissa = twoPow 52 ∧ -1074 < exponent then .ofBinary (4 * mantissa - 1) (exponent - 2)
    else .ofBinary (4 * mantissa - 2) (exponent - 2)
  high := .ofBinary (4 * mantissa + 2) (exponent - 2)
  closed := mantissa % 2 == 0

def Interval.contains (i : Interval) (r : Ratio) : Bool :=
  if i.closed then i.low.le r && r.le i.high else i.low.lt r && r.lt i.high

def Digits.ratio (d : Digits) : Ratio := Ratio.timesTenPow ⟨d.digits, 1⟩ d.scale

def nearest? (i : Interval) (r : Ratio) (scale : Int) : Option Digits :=
  let s := r.timesTenPow (-scale)
  let below : Digits := ⟨s.floor, scale⟩
  let above : Digits := ⟨s.floor + 1, scale⟩
  match i.contains below.ratio, i.contains above.ratio with
  | true, true => some (if s.round = s.floor then below else above)
  | true, false => some below
  | false, true => some above
  | false, false => none

def shortestFrom (i : Interval) (r : Ratio) (n : Nat) : Nat → Digits
  | 0 => ⟨(r.timesTenPow (n - r.point)).round, r.point - n⟩
  | k + 1 => (nearest? i r (r.point - n)).getD (shortestFrom i r (n + 1) k)

def Digits.dropZero (d : Digits) : Digits :=
  if d.digits % 10 = 0 then ⟨d.digits / 10, d.scale + 1⟩ else d

def shortestDigits (mantissa : Nat) (exponent : Int) : Digits :=
  (shortestFrom (.around mantissa exponent) (.ofBinary mantissa exponent) 1 17).dropZero

end TagRank.Decimal
