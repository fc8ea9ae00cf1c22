import TagRank.Decimal.Shortest

namespace TagRank.Decimal

def padLeft (width : Nat) (s : String) : String :=
  String.ofList (List.replicate (width - s.length) '0') ++ s

def exponentText (e : Int) : String :=
  (if e < 0 then "e-" else "e+") ++ padLeft 2 (toString e.natAbs)

def placed (digits places : Nat) : String :=
  if places = 0 then toString digits
  else
    let unit := tenPow places
    toString (digits / unit) ++ "." ++ padLeft places (toString (digits % unit))

def pointed (digits : Nat) : String :=
  match (toString digits).toList with
  | [] => ""
  | [c] => String.ofList [c]
  | c :: cs => String.ofList (c :: '.' :: cs)

def signed (negative : Bool) (s : String) : String := if negative then "-" ++ s else s

structure Positional where
  least : Int
  bound : Int

def positional : Positional := ⟨-4, 16⟩

def Digits.text (d : Digits) : String :=
  let count := digitCount d.digits
  let e : Int := d.scale + count - 1
  if positional.least ≤ e ∧ e < positional.bound then
    if 0 ≤ d.scale then toString (d.digits * tenPow d.scale.toNat) ++ ".0"
    else placed d.digits (-d.scale).toNat
  else pointed d.digits ++ exponentText e

def shortest (x : Float) : String :=
  match meaning x with
  | .nan => "nan"
  | .infinite negative => signed negative "inf"
  | .finite negative 0 _ => signed negative "0.0"
  | .finite negative m e => signed negative (shortestDigits m e).text

def fixed (places : Nat) (x : Float) : String :=
  match meaning x with
  | .nan => "nan"
  | .infinite negative => signed negative "inf"
  | .finite negative m e =>
    signed negative (placed ((Ratio.ofBinary m e).timesTenPow places).round places)

def scientific (places : Nat) (x : Float) : String :=
  match meaning x with
  | .nan => "nan"
  | .infinite negative => signed negative "inf"
  | .finite negative 0 _ => signed negative (placed 0 places ++ "e+00")
  | .finite negative m e =>
    let r := Ratio.ofBinary m e
    let k := r.point - 1
    let n := (r.timesTenPow (places - k)).round
    if n < tenPow (places + 1) then signed negative (placed n places ++ exponentText k)
    else signed negative (placed (n / 10) places ++ exponentText (k + 1))

def roundTo (places : Nat) (x : Float) : Float :=
  match meaning x with
  | .finite negative m e =>
    let y := Float.ofScientific ((Ratio.ofBinary m e).timesTenPow places).round true places
    if negative then -y else y
  | _ => x

end TagRank.Decimal
