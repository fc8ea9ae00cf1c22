import TagRank.Http.Schema
import TagRank.Http.Target
import TagRank.Json.Reader
import TagRank.Metrics.Exposition
import TagRank.Service.Evaluate

namespace TagRank.Http

structure Request where
  method : String
  target : Target
  /-- The text of the body, if there is one. -/
  body : Option String

inductive Response
  | json (status : Nat) (body : Json)
  | lines (status : Nat) (lines : List String)
  /-- The request does not have the shape that its route wants. -/
  | invalid

structure App where
  settings : Settings
  pipeline : Pipeline Float

abbrev Handler := Action Float Response

def App.ofSettings (files : Files) (s : Settings) : Except Error App :=
  return ⟨s, ← Pipeline.ofSettings files s⟩

def App.service (app : App) : Service Float :=
  let s := app.settings
  let started : Log.Line :=
    ⟨.info, "app", s!"app.start graph_db={s.storePath} kernel={s.kernel}"⟩
  { Service.new Float with
    recorder := some (.new s.metricsEnabled s.metricsNamespace s.exportEnabled)
    log := [started] }

def detail (status : Nat) (text : String) : Response :=
  .json status (.object [("detail", .text text)])

inductive BodyResult
  | none
  | value (v : Json)
  | malformed
  | unreadable

def withoutMark : List Char → List Char
  | '\ufeff' :: cs => cs
  | cs => cs

def readBody : Option String → BodyResult
  | none => .none
  | some s => match Json.read (String.ofList (withoutMark s.toList)) with
    | .ok v => .value v
    | .error .malformed => .malformed
    | .error (.tooManyDigits _) => .unreadable

def Request.value? (r : Request) (name : String) : Option String :=
  ((r.target.query.filter (·.1 == name)).getLast?).map Prod.snd

def orDefault (given : Option String) (default : String) : String :=
  (given.filter (· != "")).getD default

def onError {β : Type} (a : Action Float β) (kind : Kind) (status : Nat) :
    Action Float (Except Response β) := do
  match ← Action.outcome a with
  | .ok b => return .ok b
  | .error e => if e.kind = kind then return .error (detail status e.message) else throw e

def withDocument (document : String) (next : Handler) : Handler := do
  match ← onError (Action.transaction (Action.documentExists document)) .store 503 with
  | .error r => return r
  | .ok false => return detail 404 "Document not found"
  | .ok true => next

def loadDocument (b : DocumentBody) : Handler := do
  let sentences ← Action.ofExcept (sentencesOfPayload (.list b.sentences) b.language)
  match ← Action.outcome (Action.loadDocument b.id sentences) with
  | .ok count =>
    return .json 201 (.object [("documentId", .text b.id), ("sentences", .int sentences.length),
      ("tokens", .int count)])
  | .error e => match e.kind with
    | .store | .missingDocument => return detail 503 e.message
    | .invalidValue | .unencodable => return detail 400 e.message
    | _ => throw e

def buildEdges (app : App) (r : Request) (document : String) (rebuild : Bool) : Handler :=
  let relation := orDefault (r.value? "relation_kind") app.settings.relationKind
  let field := orDefault (r.value? "weight_field") app.settings.weightField
  withDocument document do
    let build := if rebuild then Action.rebuild document relation field
      else Action.build document relation field
    match ← onError build .invalidValue 400 with
    | .error response => return response
    | .ok false => return detail 500 "Building co-occurrences failed"
    | .ok true =>
      let edges ← Action.transaction (Action.edges document relation (some field))
      return .json 200 (.object [("documentId", .text document), ("relationKind", .text relation),
        ("edges", .int edges.length)])

def edgeJson (e : Edge) : Json :=
  .object [("a", .text e.a), ("b", .text e.b), ("weightField", .text e.field),
    ("weight", .int e.weight)]

def listEdges (app : App) (r : Request) (document : String) : Handler :=
  let relation := orDefault (r.value? "relation_kind") app.settings.relationKind
  withDocument document do
    let edges ← Action.transaction (Action.edges document relation (r.value? "weight_field"))
    return .json 200 (.object [("documentId", .text document), ("relationKind", .text relation),
      ("edges", .list (edges.map edgeJson))])

def clearEdges (app : App) (r : Request) (document : String) : Handler := do
  let relation := orDefault (r.value? "relation_kind") app.settings.relationKind
  match ← onError (Action.clear document relation) .invalidValue 400 with
  | .error response => return response
  | .ok false => return detail 500 "Clearing co-occurrences failed"
  | .ok true =>
    return .json 200 (.object [("documentId", .text document), ("relationKind", .text relation),
      ("cleared", .bool true)])

def filterFor (p : Pipeline Float) (b : EvaluationBody) : Filter :=
  match b.stopwords, b.removeStopwords with
  | some s, remove => .ofStopwords (some (.line s)) remove
  | none, some remove => p.filter.withEnabled remove
  | none, none => p.filter

def keywordJson (id : String) (value : Option String) (count : Int) : Json :=
  .object [("id", .text id), ("value", .ofOption .text value), ("count", .int count)]

def rankedJson (n : RankedNode Float) : Json :=
  .object [("tag", .text n.tag), ("score", .real (Decimal.roundTo 6 n.score)),
    ("weight", .real n.strength)]

def evaluationJson (e : Evaluation Float) : Json :=
  .object ([("documentId", .text e.document), ("status", .text e.status.name),
    ("keywords", .list (e.keywords.map fun c => keywordJson c.key (some c.display) c.count)),
    ("ranked", .list (e.ranked.map rankedJson))] ++
    (match e.aggregation with
      | some a => [("stopwordFilterEnabled", .bool a.filtered)]
      | none => []) ++
    match e.error.filter (· != "") with
      | some error => [("error", .text error)]
      | none => [])

def evaluate (app : App) (document : String) (b : EvaluationBody) : Handler := do
  let relation := orDefault b.relation app.settings.relationKind
  let field := orDefault b.field app.settings.weightField
  let run : Action Float (Option (Evaluation Float)) := do
    if b.rebuild then
      if !(← Action.rebuild document relation field) then return none
    some <$> Action.evaluate app.pipeline (filterFor app.pipeline b) document relation field
      (b.iterations.getD app.settings.iterations) (b.damping.getD app.settings.damping)
  match ← onError run .invalidValue 400 with
  | .error response => return response
  | .ok none => return detail 500 "Building co-occurrences failed"
  | .ok (some e) => match e.status with
    | .missingDocument => return detail 404 "Document not found"
    | .success => return .json 200 (evaluationJson e)
    | _ => return .json 500 (evaluationJson e)

def listKeywords (document : String) : Handler :=
  withDocument document do
    let items ← Action.transaction do
      let associations ← Action.associations document
      associations.mapM fun a => do
        let keyword ← Action.getKeyword a.keyword
        return keywordJson a.keyword (keyword.map Keyword.value) a.count
    return .json 200 (.object [("documentId", .text document), ("keywords", .list items)])

def exportMetrics : Handler := do
  match (← get).recorder with
  | none => return detail 404 "Metrics export disabled"
  | some r => match r.lines with
    | .ok lines => return .lines 200 (Metrics.stableLines lines)
    | .error _ => return detail 404 "Metrics export disabled"

def unreadableBody : Response := detail 400 "There was an error parsing the body"

def postDocument (r : Request) : Handler :=
  match readBody r.body with
  | .unreadable => return unreadableBody
  | .none | .malformed => return .invalid
  | .value v => match DocumentBody.reader v with
    | some b => loadDocument b
    | none => return .invalid

def postEdges (app : App) (r : Request) (document : String) : Handler :=
  match r.value? "rebuild" with
  | none => buildEdges app r document false
  | some s => match Reader.bool (.text s) with
    | some rebuild => buildEdges app r document rebuild
    | none => return .invalid

def postKeywords (app : App) (r : Request) (document : String) : Handler :=
  match readBody r.body with
  | .unreadable => return unreadableBody
  | .malformed => return .invalid
  | .none | .value .null => evaluate app document {}
  | .value v => match EvaluationBody.reader v with
    | some b => evaluate app document b
    | none => return .invalid

def handle (app : App) (r : Request) : Handler :=
  match Route.find? r.target.path with
  | none => return detail 404 "Not Found"
  | some route => match r.method, route with
    | "GET", .health => return .json 200 (.object [("status", .text "ok")])
    | "POST", .documents => postDocument r
    | "POST", .cooccurrences document => postEdges app r document
    | "GET", .cooccurrences document => listEdges app r document
    | "DELETE", .cooccurrences document => clearEdges app r document
    | "POST", .keywords document => postKeywords app r document
    | "GET", .keywords document => listKeywords document
    | "GET", .metrics => exportMetrics
    | _, _ => return detail 405 "Method Not Allowed"

end TagRank.Http
