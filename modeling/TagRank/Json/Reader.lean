import TagRank.Decimal.Reader
import TagRank.Json.Basic

namespace TagRank.Json

inductive ReadError
  | malformed
  | tooManyDigits (count : Nat)

abbrev Reading := Except ReadError

def skipSpace (cs : List Char) : List Char :=
  cs.dropWhile fun c => c == ' ' || c == '\t' || c == '\n' || c == '\r'

def after? (word : String) (cs : List Char) : Option (List Char) :=
  if word.toList.isPrefixOf cs then some (cs.drop word.length) else none

def hexUnit? (cs : List Char) : Option (Nat × List Char) :=
  if (cs.take 4).length = 4 then (Text.ofDigits? 16 (cs.take 4)).map (·, cs.drop 4) else none

def isHigh (unit : Nat) : Bool := 0xD800 ≤ unit && unit < 0xDC00

def isLow (unit : Nat) : Bool := 0xDC00 ≤ unit && unit < 0xE000

/-- What the units after a backslash and `u` stand for: two halves of a pair form one character, and
a half without the other stays one. -/
def codePoint? (cs : List Char) : Option (CodePoint × List Char) := do
  let (unit, rest) ← hexUnit? cs
  match isHigh unit, rest with
  | true, '\\' :: 'u' :: more =>
    let (low, rest') ← hexUnit? more
    if isLow low then
      return (.char (Char.ofNat (0x10000 + (unit - 0xD800) * 0x400 + (low - 0xDC00))), rest')
    else return (.ofCode unit, rest)
  | _, _ => return (.ofCode unit, rest)

def simpleEscape? : Char → Option Char
  | '"' => some '"'
  | '\\' => some '\\'
  | '/' => some '/'
  | 'b' => some '\x08'
  | 'f' => some '\x0c'
  | 'n' => some '\n'
  | 'r' => some '\r'
  | 't' => some '\t'
  | _ => none

def readString (acc : List CodePoint) : Nat → List Char → Reading (Spelling × List Char)
  | 0, _ => throw .malformed
  | _ + 1, [] => throw .malformed
  | n + 1, c :: cs =>
    if c = '"' then return (.ofCodePoints acc.reverse, cs)
    else if c = '\\' then
      match cs with
      | 'u' :: more => match codePoint? more with
        | some (d, rest) => readString (d :: acc) n rest
        | none => throw .malformed
      | e :: more => match simpleEscape? e with
        | some d => readString (.char d :: acc) n more
        | none => throw .malformed
      | [] => throw .malformed
    else if c.toNat < 32 then throw .malformed
    else readString (.char c :: acc) n cs

def takeDigits (cs : List Char) : List Char × List Char :=
  (cs.takeWhile Char.isDigit, cs.dropWhile Char.isDigit)

def takeFraction : List Char → List Char × List Char
  | '.' :: cs =>
    let (ds, rest) := takeDigits cs
    if ds.isEmpty then ([], '.' :: cs) else ('.' :: ds, rest)
  | cs => ([], cs)

def takeExponent : List Char → List Char × List Char
  | c :: cs =>
    if c = 'e' ∨ c = 'E' then
      let (sign, body) := match cs with
        | '+' :: r => (['+'], r)
        | '-' :: r => (['-'], r)
        | r => ([], r)
      let (ds, rest) := takeDigits body
      if ds.isEmpty then ([], c :: cs) else (c :: sign ++ ds, rest)
    else ([], c :: cs)
  | [] => ([], [])

def takeWhole : List Char → List Char × List Char
  | '0' :: cs => (['0'], cs)
  | cs => takeDigits cs

def readNumber (cs : List Char) : Reading (Json × List Char) :=
  let (minus, body) := match cs with
    | '-' :: r => (true, r)
    | r => (false, r)
  let (whole, rest) := takeWhole body
  if whole.isEmpty then throw .malformed
  else
    let (fraction, rest) := takeFraction rest
    let (exponent, rest) := takeExponent rest
    if fraction.isEmpty && exponent.isEmpty then
      if Decimal.maxDigits < whole.length then throw (.tooManyDigits whole.length)
      else
        let n := (Text.ofDigits? 10 whole).getD 0
        return (.int (if minus then -(n : Int) else n), rest)
    else match Decimal.readDecimal? (whole ++ fraction ++ exponent) with
      | some x => return (.real (if minus then -x else x), rest)
      | none => throw .malformed

def words : List (String × Json) :=
  [("null", .null), ("true", .bool true), ("false", .bool false), ("NaN", .real (0 / 0)),
    ("Infinity", .real (1 / 0)), ("-Infinity", .real (-1 / 0))]

def readWord? (cs : List Char) : Option (Json × List Char) :=
  words.findSome? fun (word, value) => (after? word cs).map (value, ·)

mutual

def readValue : Nat → List Char → Reading (Json × List Char)
  | 0, _ => throw .malformed
  | n + 1, cs =>
    match cs with
    | '"' :: r => do
      let (s, rest) ← readString [] n r
      return (.ofSpelling s, rest)
    | '[' :: r =>
      match skipSpace r with
      | ']' :: rest => return (.list [], rest)
      | r => readElements [] n r
    | '{' :: r =>
      match skipSpace r with
      | '}' :: rest => return (.object [], rest)
      | r => readFields [] n r
    | cs => match readWord? cs with
      | some found => return found
      | none => readNumber cs

def readElements (acc : List Json) : Nat → List Char → Reading (Json × List Char)
  | 0, _ => throw .malformed
  | n + 1, cs => do
    let (v, rest) ← readValue n cs
    match skipSpace rest with
    | ',' :: r => readElements (v :: acc) n (skipSpace r)
    | ']' :: r => return (.list (v :: acc).reverse, r)
    | _ => throw .malformed

def readFields (acc : List (String × Json)) : Nat → List Char → Reading (Json × List Char)
  | 0, _ => throw .malformed
  | n + 1, cs =>
    match cs with
    | '"' :: r => do
      let (key, rest) ← readString [] n r
      match skipSpace rest with
      | ':' :: r => do
        let (v, rest) ← readValue n (skipSpace r)
        match skipSpace rest with
        | ',' :: r => readFields ((key.legible, v) :: acc) n (skipSpace r)
        | '}' :: r => return (.object (Assoc.ofList ((key.legible, v) :: acc).reverse), r)
        | _ => throw .malformed
      | _ => throw .malformed
    | _ => throw .malformed

end

/-- Every step takes at least one character, so the length of the text bounds their number. -/
def read (s : String) : Except ReadError Json := do
  let cs := s.toList
  let (v, rest) ← readValue (cs.length + 1) (skipSpace cs)
  if (skipSpace rest).isEmpty then return v else throw .malformed

end TagRank.Json
