import TagRank.Json.Access
import TagRank.Text.Case
import TagRank.Yaml.Moment

namespace TagRank.Yaml

def schemaStem : String := "tag:yaml.org,2002:"

namespace Plain

def trueWords : List String := ["yes", "true", "on"]

def falseWords : List String := ["no", "false", "off"]

def boolWords : List String := trueWords ++ falseWords

def capitalized (s : String) : String :=
  match s.toList with
  | [] => s
  | c :: cs => String.ofList (c.toUpper :: cs)

def isSpelling (words : List String) (s : String) : Bool :=
  words.any fun w => s == w || s == capitalized w || s == String.ofList (w.toList.map Char.toUpper)

def isNull (s : String) : Bool := s == "" || s == "~" || isSpelling ["null"] s

def isDigits (base : Nat) (cs : List Char) : Bool :=
  !cs.isEmpty && cs.all fun c => c == '_' || (Text.baseDigit? c).any (· < base)

def isRun (cs : List Char) : Bool := cs.head?.any Char.isDigit && isDigits 10 cs

def isSixtieth (cs : List Char) : Bool :=
  cs.all Char.isDigit && (cs.length == 1 || (cs.length == 2 && cs.head?.any (· < '6')))

def unsigned (cs : List Char) : List Char := (Decimal.takeSign cs).2

def isInt (cs : List Char) : Bool :=
  match unsigned cs with
  | ['0'] => true
  | '0' :: 'b' :: ds => isDigits 2 ds
  | '0' :: 'x' :: ds => isDigits 16 ds
  | '0' :: ds => isDigits 8 ds
  | ds => match Text.pieces ':' ds with
    | [] => false
    | whole :: sixtieths => isRun whole && sixtieths.all isSixtieth

def isExponentPart : List Char → Bool
  | [] => true
  | e :: sign :: ds =>
    (e == 'e' || e == 'E') && (sign == '+' || sign == '-') && !ds.isEmpty && ds.all Char.isDigit
  | _ => false

def isFractionChar (c : Char) : Bool := c.isDigit || c == '_'

def isReal (cs : List Char) : Bool :=
  let ds := unsigned cs
  let afterPoint := (ds.dropWhile (· != '.')).tail
  let tail := afterPoint.dropWhile isFractionChar
  if !ds.contains '.' then false
  else if ds.head? = some '.' then
    isSpelling ["inf"] (String.ofList afterPoint) ||
      (cs.head? == some '.' &&
        (["nan", "NaN", "NAN"].contains (String.ofList afterPoint) ||
          (afterPoint.head?.any Char.isDigit && isExponentPart tail)))
  else match Text.pieces ':' (ds.takeWhile (· != '.')) with
    | [] => false
    | [whole] => isRun whole && isExponentPart tail
    | whole :: sixtieths => isRun whole && sixtieths.all isSixtieth && tail.isEmpty

def look (s : String) : String :=
  let cs := s.toList
  if isNull s then "null"
  else if isSpelling boolWords s then "bool"
  else if isInt cs then "int"
  else if isReal cs then "float"
  else if Moment.looksLike cs then "timestamp"
  else if s = "<<" then "merge"
  else if s = "=" then "value"
  else if s = "!" ∨ s = "&" ∨ s = "*" then "yaml"
  else "str"

def bool (s : String) : Except Error Bool :=
  let w := Text.lower s
  if trueWords.contains w then return true
  else if falseWords.contains w then return false
  else throw (.missingKey w)

def withoutUnderscores (cs : List Char) : List Char := cs.filter (· != '_')

def baseMark : Nat → List Char
  | 2 => ['b']
  | 8 => ['o']
  | _ => ['x']

def readBase (base : Nat) (cs : List Char) : Except Error Nat :=
  let ds := match cs with
    | '0' :: c :: r => if [c.toLower] = baseMark base then r else cs
    | _ => cs
  match if ds.isEmpty then none else Text.ofDigits? base ds with
  | some n => return n
  | none => throw (.malformedInt base (.text (String.ofList cs)))

def readTen (cs : List Char) : Except Error Int := (Json.text (String.ofList cs)).toInt

def sixtyfold {α : Type} [Add α] [Mul α] (zero one sixty : α) (parts : List α) : α :=
  (parts.foldr (fun p (sum, unit) => (sum + p * unit, unit * sixty)) (zero, one)).1

def int (s : String) : Except Error Int := do
  let cs := withoutUnderscores s.toList
  if cs.isEmpty then throw .noDigits
  let (negative, ds) := Decimal.takeSign cs
  let n : Int ← match ds with
    | '0' :: 'b' :: r => Int.ofNat <$> readBase 2 r
    | '0' :: 'x' :: r => Int.ofNat <$> readBase 16 r
    | ['0'] => pure 0
    | '0' :: _ => Int.ofNat <$> readBase 8 ds
    | [] => throw .noDigits
    | _ => (sixtyfold 0 1 60) <$> (Text.pieces ':' ds).mapM readTen
  return if negative then -n else n

def real (s : String) : Except Error Float := do
  let cs := (Text.lower (String.ofList (withoutUnderscores s.toList))).toList
  if cs.isEmpty then throw .noDigits
  let (negative, ds) := Decimal.takeSign cs
  let x ← if String.ofList ds = ".inf" then pure (1 / 0)
    else if String.ofList ds = ".nan" then pure (0 / 0)
    else (sixtyfold 0 1 60) <$> (Text.pieces ':' ds).mapM fun p =>
      (Json.text (String.ofList p)).toFloat
  return if negative then -x else x

def moment (s : String) : Except Error Moment :=
  match Moment.ofChars? s.toList with
  | none => throw .notAnObject
  | some m => match m.fault? with
    | some fault => throw (.badMoment fault)
    | none => return m

end Plain

end TagRank.Yaml
