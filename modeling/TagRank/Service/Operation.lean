import TagRank.Service.Basic

namespace TagRank.Action

variable {α : Type}

def documentExists (document : String) : Action α Bool := do
  gate .documentExists
  return (← get).store.hasDocument document

def addDocument (document : String) : Action α Bool := do
  gate .addDocument
  apply fun s => (!s.hasDocument document, s.addDocument document)

/-- Replaces the tokens of a document; its edges were built from the old ones and go with them. -/
def addGiven (document : String) (sentences : List GivenSentence) : Action α Nat := do
  gate .addSentences
  if !(← documentExists document) then throw (.documentNotFound document)
  let rows ← ofExcept (Row.ofSentences document sentences)
  change (·.withoutTokens document)
  let removed := (← get).store.countEdges document
  change (·.withoutEdges document)
  if removed ≠ 0 then
    log .info "graph_store"
      s!"graph_store.document.reloaded doc_id={document} edges_removed={removed}"
  attemptChange (·.putRows rows)
  return rows.length

def addSentences (document : String) (sentences : List Sentence) : Action α Nat :=
  addGiven document (sentences.map Sentence.given)

def documentSentences (document : String) : Action α (List (List Token)) := do
  gate .documentSentences
  return (← get).store.sentencesOf document

def tagOccurrences (document : String) (tags : List String) : Action α (List Occurrence) := do
  gate .tagOccurrences
  return (← get).store.occurrencesOf document tags

def upsertEdge (document relation field first second : String) : Action α Unit := do
  gate .upsertEdge
  attemptChange (·.upsertEdge document relation field first second)

def deleteEdges (document relation : String) : Action α Nat := do
  gate .deleteEdges
  apply fun s => ((s.edgesOf document relation none).length, s.removeEdges document relation)

def edges (document relation : String) (field : Option String) : Action α (List Edge) := do
  gate .edges
  return (← get).store.edgesOf document relation field

def getKeyword (id : String) : Action α (Option Keyword) := do
  gate .getKeyword
  return (← get).store.keyword? id

def findOrCreateKeyword (id value : String) : Action α (Keyword × Bool) := do
  gate .findOrCreateKeyword
  let created ← apply (·.addKeyword id value)
  return ((← getKeyword id).getD ⟨id, value⟩, created)

/-- The count is looked at only when the operation is let through. -/
def createAssociation (keyword document : String) (count : Except Error Int) :
    Action α Association := do
  gate .createAssociation
  attempt fun s => do s.createAssociation keyword document (← count)

def upsertAssociation (keyword document : String) (count : Except Error Int) :
    Action α Association := do
  gate .upsertAssociation
  match (← get).store.oldestAssociation? keyword document with
  | none => createAssociation keyword document count
  | some a => attempt fun s => do s.setCount a (← count)

def associations (document : String) : Action α (List Association) := do
  gate .associations
  return (← get).store.associationsOf document

def countKeywords : Action α Nat := do
  gate .countKeywords
  return (← get).store.keywords.length

def addGivenDocument : Spelling → Action α String
  | .text document => do
    let _ ← addDocument document
    return document
  | .torn t => do
    gate .addDocument
    throw (.unencodable t)

def loading (document : Spelling) (sentences : List GivenSentence) : Action α Nat := do
  let document ← addGivenDocument document
  if sentences.isEmpty then return 0 else addGiven document sentences

def loadGiven (document : Spelling) (sentences : List GivenSentence) : Action α Nat := do
  let count ← transaction (loading document sentences)
  log .info "graph_store" s!"graph_store.document.added doc_id={document.legible} tokens={count}"
  return count

def loadDocument (document : String) (sentences : List Sentence) : Action α Nat :=
  loadGiven (.text document) (sentences.map Sentence.given)

end TagRank.Action
