import TagRank.Assoc
import TagRank.Text.Spelling

/-!
JSON values. Whole numbers of any size and floats are told apart; an object keeps its fields in the
order of first mention. In the names of fields a half of a pair is replaced: no name that is looked
for has one.
-/

namespace TagRank

inductive Json
  | null
  | bool (b : Bool)
  | int (i : Int)
  | real (x : Float)
  | text (s : String)
  | torn (t : TornText)
  | list (xs : List Json)
  | object (fields : List (String × Json))
  deriving Inhabited

namespace Json

def ofSpelling : Spelling → Json
  | .text s => .text s
  | .torn t => .torn t

def field? (key : String) : Json → Option Json
  | .object fields => Assoc.get? key fields
  | _ => none

/-- Null, false, zero and whatever is empty do not count as given. -/
def isGiven : Json → Bool
  | .null => false
  | .bool b => b
  | .int i => i != 0
  | .real x => x != 0
  | .text s => !s.isEmpty
  | .torn _ => true
  | .list xs => !xs.isEmpty
  | .object fields => !fields.isEmpty

def ofOption {α : Type} (f : α → Json) : Option α → Json
  | none => .null
  | some a => f a

end TagRank.Json
