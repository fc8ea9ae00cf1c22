import TagRank.Decimal.Binary

namespace TagRank

class Scalar (α : Type) extends Add α, Sub α, Mul α, Div α, Neg α, Zero α, One α, NatCast α,
    LT α, LE α where
  decidableLT (x y : α) : Decidable (x < y)
  decidableLE (x y : α) : Decidable (x ≤ y)
  /-- The number nearest to a whole one, if it lies within the range. -/
  ofInt? : Int → Option α

attribute [reducible, instance] Scalar.decidableLT Scalar.decidableLE

instance : Scalar Float where
  zero := 0.0
  one := 1.0
  natCast n := Float.ofScientific n false 0
  decidableLT x y := inferInstanceAs (Decidable (x < y))
  decidableLE x y := inferInstanceAs (Decidable (x ≤ y))
  ofInt? := Decimal.ofInt?

instance : Scalar Rat where
  zero := 0
  one := 1
  decidableLT x y := inferInstanceAs (Decidable (x < y))
  decidableLE x y := inferInstanceAs (Decidable (x ≤ y))
  ofInt? i := some i

namespace Scalar

variable {α : Type} [Scalar α]

def abs (x : α) : α := if x < 0 then -x else x

def sum (xs : List α) : α := xs.foldl (· + ·) 0

def greatest? : List α → Option α
  | [] => none
  | x :: xs => some (xs.foldl (fun m y => if m < y then y else m) x)

end Scalar

end TagRank
