namespace TagRank.Decimal

def twoPow (n : Nat) : Nat := Nat.pow 2 n

def tenPow (n : Nat) : Nat := Nat.pow 10 n

def fitsWord (i : Int) : Bool := -0x8000000000000000 ≤ i && i < 0x8000000000000000

/-- What a float stands for. A finite one is `mantissa · 2 ^ exponent` with its sign. -/
inductive Meaning
  | nan
  | infinite (negative : Bool)
  | finite (negative : Bool) (mantissa : Nat) (exponent : Int)

def Meaning.ofBits (u : Nat) : Meaning :=
  let negative := u / twoPow 63 == 1
  let biased : Nat := u / twoPow 52 % twoPow 11
  let fraction : Nat := u % twoPow 52
  if biased = 2047 then if fraction = 0 then .infinite negative else .nan
  else if biased = 0 then .finite negative fraction (-1074)
  else .finite negative (twoPow 52 + fraction) ((biased : Int) - 1075)

def meaning (x : Float) : Meaning := .ofBits x.toBits.toNat

structure Ratio where
  num : Nat
  den : Nat

def Ratio.ofBinary (mantissa : Nat) (exponent : Int) : Ratio :=
  if 0 ≤ exponent then ⟨mantissa * twoPow exponent.toNat, 1⟩
  else ⟨mantissa, twoPow (-exponent).toNat⟩

def Ratio.timesTenPow (r : Ratio) (k : Int) : Ratio :=
  if 0 ≤ k then ⟨r.num * tenPow k.toNat, r.den⟩ else ⟨r.num, r.den * tenPow (-k).toNat⟩

def Ratio.floor (r : Ratio) : Nat := r.num / r.den

def Ratio.le (r s : Ratio) : Bool := r.num * s.den ≤ s.num * r.den

def Ratio.lt (r s : Ratio) : Bool := r.num * s.den < s.num * r.den

def Ratio.round (r : Ratio) : Nat :=
  let q := r.num / r.den
  let twice := 2 * (r.num % r.den)
  if twice < r.den then q
  else if r.den < twice then q + 1
  else if q % 2 = 0 then q else q + 1

def digitCount (n : Nat) : Nat := (Nat.toDigits 10 n).length

def Ratio.point (r : Ratio) : Int :=
  if r.den ≤ r.num then digitCount (r.num / r.den)
  else
    let j := digitCount (r.den / r.num)
    if r.den ≤ r.num * tenPow (j - 1) then 2 - (j : Int) else 1 - (j : Int)

def truncate? (x : Float) : Option Int :=
  match meaning x with
  | .finite negative m e =>
    let n := (Ratio.ofBinary m e).floor
    some (if negative then -(n : Int) else n)
  | _ => none

def isWhole (x : Float) : Bool :=
  match meaning x with
  | .finite _ m e => let r := Ratio.ofBinary m e; r.num % r.den == 0
  | _ => false

def ofInt? (i : Int) : Option Float :=
  let x := Float.ofScientific i.natAbs false 0
  if x.isInf then none else some (if i < 0 then -x else x)

end TagRank.Decimal
