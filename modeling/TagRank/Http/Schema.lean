import TagRank.Json.Access
import TagRank.Text.Case
import TagRank.Token.Payload

namespace TagRank.Http

abbrev Reader (α : Type) := Json → Option α

namespace Reader

def text : Reader String
  | .text s => some s
  | _ => none

def dropUnderscores (cs : List Char) : Option (List Char) := Decimal.dropUnderscores? false cs

def withoutZeroFraction (cs : List Char) : List Char :=
  let whole := cs.takeWhile (· != '.')
  if (cs.drop (whole.length + 1)).all (· == '0') then whole else cs

def isAscii (s : String) : Bool := s.toList.all fun c => c.toNat < 128

def trimmed (s : String) : List Char :=
  let cs := s.toList.dropWhile Decimal.isPadding
  (cs.reverse.dropWhile Decimal.isPadding).reverse

def intText (s : String) : Option Int := do
  guard (s.length ≤ Decimal.maxDigits)
  let (negative, cs) := Decimal.takeSign (trimmed s)
  let ds ← dropUnderscores (withoutZeroFraction cs)
  guard (!ds.isEmpty && ds.all Char.isDigit)
  let n ← Text.ofDigits? 10 ds
  return if negative then -(n : Int) else n

/-- Whole numbers, also as texts, or as floats that are less than `2 ^ 63` from zero. -/
def int : Reader Int
  | .int i => some i
  | .bool b => some (if b then 1 else 0)
  | .real x => do
    guard (Decimal.isWhole x)
    let i ← Decimal.truncate? x
    guard (i.natAbs < 0x8000000000000000)
    return i
  | .text s => intText s
  | _ => none

def float : Reader Float
  | .text s => if isAscii (String.ofList (trimmed s)) then Decimal.readFloat? s else none
  | v => v.toFloat.toOption

def trueTexts : List String := ["1", "on", "t", "true", "y", "yes"]

def falseTexts : List String := ["0", "off", "f", "false", "n", "no"]

def bool : Reader Bool
  | .bool b => some b
  | .int i => if i = 1 then some true else if i = 0 then some false else none
  | .real x => if x == 1 then some true else if x == 0 then some false else none
  | .text s =>
    let w := Text.lower s
    if trueTexts.contains w then some true
    else if falseTexts.contains w then some false
    else none
  | _ => none

def listOf {α : Type} (read : Reader α) : Reader (List α)
  | .list xs => xs.mapM read
  | _ => none

def orNull {α : Type} (read : Reader α) : Reader (Option α)
  | .null => some none
  | v => (read v).map some

def isObject : Json → Bool
  | .object _ => true
  | _ => false

def required {α : Type} (key : String) (read : Reader α) : Reader α := fun v =>
  (v.field? key).bind read

def optional {α : Type} (key : String) (default : α) (read : Reader α) : Reader α := fun v =>
  match v.field? key with
  | some x => read x
  | none => some default

end Reader

open Reader

def posReader : Reader Json := fun v =>
  match v with
  | .text _ => some v
  | _ => (listOf text v).map fun _ => v

def tokenReader : Reader Json := fun v => do
  let word ← required "text" text v
  let pos ← required "pos" posReader v
  let start ← required "start" int v
  let stop ← required "end" int v
  let language ← optional "language" none (orNull text) v
  return .object [("text", .text word), ("pos", pos), ("start", .int start), ("end", .int stop),
    ("language", .ofOption .text language)]

def sentenceReader : Reader Json := fun v => do
  guard (isObject v)
  let tokens ← optional "tokens" [] (listOf tokenReader) v
  let language ← optional "language" none (orNull text) v
  return .object [("tokens", .list tokens), ("language", .ofOption .text language)]

structure DocumentBody where
  id : String
  language : String
  sentences : List Json

def DocumentBody.reader : Reader DocumentBody := fun v => do
  let id ← required "id" text v
  guard (id ≠ "")
  let language ← optional "language" Token.defaultLanguage text v
  let sentences ← optional "sentences" [] (listOf sentenceReader) v
  return ⟨id, language, sentences⟩

structure EvaluationBody where
  relation : Option String := none
  field : Option String := none
  iterations : Option Int := none
  damping : Option Float := none
  stopwords : Option String := none
  removeStopwords : Option Bool := none
  rebuild : Bool := false

def EvaluationBody.reader : Reader EvaluationBody := fun v => do
  guard (isObject v)
  let relation ← optional "relation_kind" none (orNull text) v
  let field ← optional "weight_field" none (orNull text) v
  let iterations ← optional "iterations" none (orNull int) v
  guard (iterations.all (1 ≤ ·))
  let damping ← optional "damping" none (orNull float) v
  guard (damping.all fun d => !(d < 0 || 1 < d))
  let stopwords ← optional "stopwords" none (orNull text) v
  let removeStopwords ← optional "remove_stopwords" none (orNull bool) v
  let rebuild ← optional "rebuild" false bool v
  return { relation, field, iterations, damping, stopwords, removeStopwords, rebuild }

end TagRank.Http
