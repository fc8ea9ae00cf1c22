import TagRank.Text.Quoted

/-!
Texts as callers give them. In some of them stand halves of the pairs that UTF-16 has for a
character; such texts have no encoding, so no store can hold them.
-/

namespace TagRank

/-- A place of a text: a character, or one of the code points from `0xD800` on that are halves. -/
inductive CodePoint
  | char (c : Char)
  | half (n : Fin 0x800)
  deriving DecidableEq

namespace CodePoint

def isHalf : CodePoint → Bool
  | char _ => false
  | half _ => true

def ofCode (n : Nat) : CodePoint :=
  if h : 0xD800 ≤ n ∧ n < 0xE000 then half ⟨n - 0xD800, by omega⟩ else char (Char.ofNat n)

def legible : CodePoint → Char
  | char c => c
  | half _ => '\uFFFD'

def escapedHalf (n : Fin 0x800) : List Char := ['\\', 'u'] ++ (Text.hex 4 (0xD800 + n)).toList

end CodePoint

/-- A text with a half in it. -/
structure TornText where
  points : List CodePoint
  torn : points.any CodePoint.isHalf = true
  deriving DecidableEq

namespace TornText

def legible (t : TornText) : String := String.ofList (t.points.map CodePoint.legible)

def quoted (t : TornText) : String :=
  let q := Text.delimiter (t.points.map CodePoint.legible)
  String.ofList (q :: t.points.flatMap (fun
    | .char c => Text.escaped q c
    | .half n => CodePoint.escapedHalf n) ++ [q])

def after (s : String) (t : TornText) : TornText :=
  ⟨s.toList.map .char ++ t.points, by rw [List.any_append, t.torn, Bool.or_true]⟩

def firstTear (t : TornText) : Nat × List CodePoint :=
  let start := t.points.findIdx CodePoint.isHalf
  (start, (t.points.drop start).takeWhile CodePoint.isHalf)

end TornText

inductive Spelling
  | text (s : String)
  | torn (t : TornText)
  deriving DecidableEq

namespace Spelling

def IsTorn : Spelling → Prop
  | text _ => False
  | torn _ => True

instance : DecidablePred IsTorn
  | text _ => .isFalse id
  | torn _ => .isTrue trivial

def ofCodePoints (cs : List CodePoint) : Spelling :=
  if h : cs.any CodePoint.isHalf = true then .torn ⟨cs, h⟩
  else .text (String.ofList (cs.map CodePoint.legible))

def legible : Spelling → String
  | text s => s
  | torn t => t.legible

def quoted : Spelling → String
  | text s => Text.quoted s
  | torn t => t.quoted

end Spelling

end TagRank
