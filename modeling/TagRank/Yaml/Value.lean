import TagRank.Yaml.Bytes
import TagRank.Yaml.Node
import TagRank.Yaml.Plain

namespace TagRank.Yaml

inductive Value
  | null
  | bool (b : Bool)
  | int (i : Int)
  | real (x : Float)
  | text (s : String)
  | moment (m : Moment)
  | bytes (bs : List Nat)
  | pair (k v : Value)
  | list (xs : List Value)
  | set (xs : List Value)
  | map (pairs : List (Value × Value))
  deriving Inhabited

inductive Refusal
  | malformed
  | fault (e : Error)

namespace Value

mutual

def shown : Value → String
  | null => "None"
  | bool b => if b then "True" else "False"
  | int i => toString i
  | real x => Decimal.shortest x
  | text s => Text.quoted s
  | moment m => m.shown
  | bytes bs => Bytes.shown bs
  | pair k v => "(" ++ shown k ++ ", " ++ shown v ++ ")"
  | list xs => "[" ++ Text.join ", " (shownItems xs) ++ "]"
  | set xs =>
    if xs.isEmpty then "set()" else "\x7b" ++ Text.join ", " (shownItems xs) ++ "\x7d"
  | map pairs => "\x7b" ++ Text.join ", " (shownPairs pairs) ++ "\x7d"

def shownItems : List Value → List String
  | [] => []
  | x :: xs => shown x :: shownItems xs

def shownPairs : List (Value × Value) → List String
  | [] => []
  | (k, v) :: ps => (shown k ++ ": " ++ shown v) :: shownPairs ps

end

def spoken : Value → String
  | text s => s
  | moment m => m.text
  | v => shown v

def isGiven : Value → Bool
  | null => false
  | bool b => b
  | int i => i != 0
  | real x => x != 0
  | text s => !s.isEmpty
  | moment _ => true
  | bytes bs => !bs.isEmpty
  | pair _ _ => true
  | list xs | set xs => !xs.isEmpty
  | map ps => !ps.isEmpty

def asWhole? : Value → Option Int
  | bool b => some (if b then 1 else 0)
  | int i => some i
  | real x => if Decimal.isWhole x then Decimal.truncate? x else none
  | _ => none

/-- Whether two keys are one: numbers are compared by their size. -/
def isSameKey (v w : Value) : Bool :=
  match v.asWhole?, w.asWhole? with
  | some i, some j => i == j
  | none, none => match v, w with
    | null, null => true
    | text s, text t => s == t
    | real x, real y => x == y
    | moment m, moment n => m == n
    | bytes bs, bytes cs => bs == cs
    | _, _ => false
  | _, _ => false

def isKey : Value → Bool
  | list _ | set _ | map _ => false
  | _ => true

/-- The last value of a key wins, at the place of its first. -/
def insertPair (k v : Value) : List (Value × Value) → List (Value × Value)
  | [] => [(k, v)]
  | (k', v') :: ps => if isSameKey k' k then (k', v) :: ps else (k', v') :: insertPair k v ps

def mapOf (ps : List (Value × Value)) : List (Value × Value) :=
  ps.foldl (fun m (k, v) => insertPair k v m) []

def field? (key : String) (ps : List (Value × Value)) : Option Value :=
  (ps.find? fun (k, _) => isSameKey k (text key)).map Prod.snd

end Value

abbrev Result := Except Refusal

def orFault {α β : Type} (f : α → β) : Except Error α → Result β
  | .ok a => .ok (f a)
  | .error e => .error (.fault e)

def schemaTag? (tag : String) : Option String :=
  let stem := schemaStem.toList
  if stem.isPrefixOf tag.toList then some (String.ofList (tag.toList.drop stem.length)) else none

def scalarTag? (tagging : Tagging) (s : String) : Option String :=
  match tagging with
  | .byLook => some (Plain.look s)
  | .asText => some "str"
  | .named tag => schemaTag? tag

def collectionTag? (default : String) : Option String → Option String
  | none => some default
  | some tag => schemaTag? tag

def scalarValue (tag s : String) : Result Value :=
  match tag with
  | "null" => .ok .null
  | "bool" => orFault .bool (Plain.bool s)
  | "int" => orFault .int (Plain.int s)
  | "float" => orFault .real (Plain.real s)
  | "timestamp" => orFault .moment (Plain.moment s)
  | "binary" => match Bytes.ofBase64? s with
    | some bs => .ok (.bytes bs)
    | none => .error .malformed
  | "str" => .ok (.text s)
  | _ => .error .malformed

def Node.hasScalarTag (tag : String) : Node → Bool
  | .scalar tagging s => scalarTag? tagging s == some tag
  | _ => false

mutual

def defaultScalar? : Node → Option String
  | .scalar _ s => some s
  | .sequence _ _ => none
  | .mapping _ ps => defaultOfPairs? ps

def defaultOfPairs? : List (Node × Node) → Option String
  | [] => none
  | (k, v) :: ps => if k.hasScalarTag "value" then defaultScalar? v else defaultOfPairs? ps

end

mutual

def valueOf : Node → Result Value
  | .scalar tagging s => match scalarTag? tagging s with
    | some tag => scalarValue tag s
    | none => .error .malformed
  | .sequence tag items => match collectionTag? "seq" tag with
    | some "seq" => do return .list (← valuesOf items)
    | some "omap" | some "pairs" => do return .list (← singlePairs items)
    | _ => .error .malformed
  | .mapping tag ps => match collectionTag? "map" tag with
    | some "map" => do
      let (merged, own) ← pairsOf ps
      return .map (Value.mapOf (merged ++ own))
    | some "set" => do
      let (merged, own) ← pairsOf ps
      return .set ((Value.mapOf (merged ++ own)).map Prod.fst)
    | some tag => match defaultOfPairs? ps with
      | some s => scalarValue tag s
      | none => .error .malformed
    | none => .error .malformed

def valuesOf : List Node → Result (List Value)
  | [] => return []
  | n :: ns => do
    let v ← valueOf n
    return v :: (← valuesOf ns)

def pairsOf : List (Node × Node) → Result (List (Value × Value) × List (Value × Value))
  | [] => return ([], [])
  | (k, v) :: ps => do
    if k.hasScalarTag "merge" then
      let (merged, own) ← pairsOf ps
      return ((← mergedPairs v) ++ merged, own)
    else
      let key ← if k.hasScalarTag "value" then pure (.text "=") else valueOf k
      if !key.isKey then throw .malformed
      let value ← valueOf v
      let (merged, own) ← pairsOf ps
      return (merged, (key, value) :: own)

def mergedPairs : Node → Result (List (Value × Value))
  | .mapping _ ps => do
    let (merged, own) ← pairsOf ps
    return merged ++ own
  | .sequence _ items => mergedItems items
  | .scalar _ _ => throw .malformed

def mergedItems : List Node → Result (List (Value × Value))
  | [] => return []
  | .mapping _ ps :: ns => do
    let (merged, own) ← pairsOf ps
    return (← mergedItems ns) ++ (merged ++ own)
  | _ :: _ => throw .malformed

def singlePairs : List Node → Result (List Value)
  | [] => return []
  | .mapping _ [(k, v)] :: ns => do
    let key ← valueOf k
    let value ← valueOf v
    return .pair key value :: (← singlePairs ns)
  | _ :: _ => throw .malformed

end

/-- The value of the only document of a text; a text without content has the value null. -/
def Value.ofText (text : String) : Result Value :=
  match Node.ofText? text with
  | none => throw .malformed
  | some none => return .null
  | some (some n) => valueOf n

end TagRank.Yaml
