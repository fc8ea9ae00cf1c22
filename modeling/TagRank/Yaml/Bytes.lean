import TagRank.Text.Digit
import TagRank.Text.Quoted

namespace TagRank.Yaml.Bytes

def sextet? (c : Char) : Option Nat :=
  if c.isUpper then some (c.toNat - 65)
  else if c.isLower then some (c.toNat - 71)
  else if c.isDigit then some (c.toNat + 4)
  else if c = '+' then some 62
  else if c = '/' then some 63
  else none

def sextets? (read : List Nat) (pads : Nat) : List Char → Option (List Nat)
  | [] => if read.length % 4 = 0 then some read.reverse else none
  | '=' :: cs =>
    let filled := read.length % 4
    if 2 ≤ filled && 4 ≤ filled + pads + 1 then some read.reverse
    else sextets? read (if 2 ≤ filled then pads + 1 else pads) cs
  | c :: cs => match sextet? c with
    | some v => sextets? (v :: read) 0 cs
    | none => sextets? read pads cs

def ofSextets : List Nat → List Nat
  | a :: b :: c :: d :: r =>
    [a * 4 + b / 16, b % 16 * 16 + c / 4, c % 4 * 64 + d] ++ ofSextets r
  | [a, b, c] => [a * 4 + b / 16, b % 16 * 16 + c / 4]
  | [a, b] => [a * 4 + b / 16]
  | _ => []

def ofBase64? (s : String) : Option (List Nat) := do
  guard (s.toList.all fun c => c.toNat < 128)
  return ofSextets (← sextets? [] 0 s.toList)

def escaped (quote : Char) (b : Nat) : List Char :=
  if 127 ≤ b then ['\\', 'x'] ++ (Text.hex 2 b).toList
  else Text.escaped quote (Char.ofNat b)

def shown (bs : List Nat) : String :=
  let q := Text.delimiter (bs.map Char.ofNat)
  String.ofList ('b' :: q :: bs.flatMap (escaped q) ++ [q])

end TagRank.Yaml.Bytes
