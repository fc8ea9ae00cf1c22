import TagRank.Service.Operation

/-!
Transactions given as lists of calls. The first call that fails ends its transaction and undoes it;
the replies so far stay known.
-/

namespace TagRank

inductive Call
  | documentExists (document : String)
  | addDocument (document : String)
  | addSentences (document : String) (sentences : List Sentence)
  | documentSentences (document : String)
  | tagOccurrences (document : String) (tags : List String)
  | upsertEdge (document relation field first second : String)
  | deleteEdges (document relation : String)
  | edges (document relation : String) (field : Option String)
  | getKeyword (id : String)
  | findOrCreateKeyword (id value : String)
  | createAssociation (keyword document : String) (count : Except Error Int)
  | upsertAssociation (keyword document : String) (count : Except Error Int)
  | associations (document : String)
  | countKeywords
  /-- Fails on its own account. -/
  | fail (e : Error)

inductive Reply
  | done
  | flag (b : Bool)
  | count (n : Nat)
  | sentences (ss : List (List Token))
  | occurrences (os : List Occurrence)
  | edges (es : List Edge)
  | keyword (k : Option Keyword)
  | found (k : Keyword) (created : Bool)
  | association (a : Association)
  | associations (as : List Association)

namespace Call

variable {α : Type}

def run : Call → Action α Reply
  | documentExists document => .flag <$> Action.documentExists document
  | addDocument document => .flag <$> Action.addDocument document
  | addSentences document sentences => .count <$> Action.addSentences document sentences
  | documentSentences document => .sentences <$> Action.documentSentences document
  | tagOccurrences document tags => .occurrences <$> Action.tagOccurrences document tags
  | upsertEdge document relation field first second => do
    Action.upsertEdge document relation field first second
    return .done
  | deleteEdges document relation => .count <$> Action.deleteEdges document relation
  | edges document relation field => .edges <$> Action.edges document relation field
  | getKeyword id => .keyword <$> Action.getKeyword id
  | findOrCreateKeyword id value => do
    let (keyword, created) ← Action.findOrCreateKeyword id value
    return .found keyword created
  | createAssociation keyword document count =>
    .association <$> Action.createAssociation keyword document count
  | upsertAssociation keyword document count =>
    .association <$> Action.upsertAssociation keyword document count
  | associations document => .associations <$> Action.associations document
  | countKeywords => .count <$> Action.countKeywords
  | fail e => throw e

def runAll : List Call → Action α (List Reply × Option Error)
  | [] => do
    match ← Action.outcome (Action.gate .commit) with
    | .error e => return ([], some e)
    | .ok () => return ([], none)
  | c :: cs => do
    match ← Action.outcome c.run with
    | .error e => return ([], some e)
    | .ok reply =>
      let (replies, error) ← runAll cs
      return (reply :: replies, error)

def transact (cs : List Call) : Action α (List Reply × Option Error) := do
  match ← Action.outcome (Action.gate .transaction) with
  | .error e => return ([], some e)
  | .ok () =>
    let before := (← get).store
    let (replies, error) ← runAll cs
    if error.isSome then modify fun s => { s with store := before }
    return (replies, error)

end Call

end TagRank
