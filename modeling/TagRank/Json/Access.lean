import TagRank.Decimal.Reader
import TagRank.Error
import TagRank.Json.Writer

namespace TagRank.Json

def toInt : Json → Except Error Int
  | .int i => return i
  | .bool b => return if b then 1 else 0
  | .real x => match Decimal.truncate? x with
    | some i => return i
    | none => throw (if x.isNaN then .undefinedInt else .infiniteInt)
  | .text s => match Decimal.readInt s with
    | .ok i => return i
    | .error .malformed => throw (.malformedInt 10 (.text s))
    | .error (.tooManyDigits count) => throw (.tooManyDigits count)
  | .torn t => throw (.malformedInt 10 (.torn t))
  | _ => throw .wrongType

def toFloat : Json → Except Error Float
  | .real x => return x
  | .int i => match Decimal.ofInt? i with
    | some x => return x
    | none => throw .intBeyondFloat
  | .bool b => return if b then 1 else 0
  | .text s => match Decimal.readFloat? s with
    | some x => return x
    | none => throw (.malformedFloat (.text s))
  | .torn t => throw (.malformedFloat (.torn t))
  | _ => throw .wrongType

/-- What a value yields when it is gone through: a list its elements, a text its characters, an
object its keys. -/
def elements : Json → Except Error (List Json)
  | .list xs => return xs
  | .text s => return s.toList.map fun c => .text (String.singleton c)
  | .torn t => return t.points.map fun p => .ofSpelling (.ofCodePoints [p])
  | .object fields => return (Assoc.keys fields).map .text
  | _ => throw .wrongType

def require (key : String) (v : Json) : Except Error Json :=
  match v.field? key with
  | some x => return x
  | none => throw (.missingKey key)

def given? (key : String) (v : Json) : Option Json := (v.field? key).filter isGiven

end TagRank.Json
