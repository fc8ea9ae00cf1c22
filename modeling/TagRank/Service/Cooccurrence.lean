import TagRank.Label
import TagRank.Service.Measure
import TagRank.Service.Operation

namespace TagRank.Action

variable {α : Type} [Scalar α]

def onStoreFailure {β : Type} (a : Action α β) (handle : Error → Action α β) : Action α β :=
  tryCatch a fun e => if e.kind = .store then handle e else throw e

def addPair (document relation field : String) (pair : Token × Token) : Action α Unit := do
  let first ← ofExcept pair.1.tag
  let second ← ofExcept pair.2.tag
  upsertEdge document relation field first.key second.key

def pairs (tokens : List Token) : List (Token × Token) := neighbours (Token.candidates tokens)

def addPairs (document relation field : String) : Action α (Nat × Nat) := do
  let sentences ← documentSentences document
  let all := sentences.flatMap pairs
  all.forM (addPair document relation field)
  return (sentences.length, all.length)

def build (document relation field : String) : Action α Bool := do
  ofExcept (Label.check .relationKind relation)
  ofExcept (Label.check .weightField field)
  let counts ← onStoreFailure (some <$> transaction (addPairs document relation field)) fun e => do
    log .error "cooccurrence"
      s!"cooccurrence.build.failed doc_id={document} relation={relation} error={e.message}"
    increment "cooccurrence.build.failed" (.ok 1) [("relation_kind", .text relation)]
    return none
  match counts with
  | none => return false
  | some (sentences, pairs) =>
    log .info "cooccurrence"
      (s!"cooccurrence.build.completed doc_id={document} relation={relation} " ++
        s!"sentences={sentences} pairs={pairs}")
    increment "cooccurrence.pairs" (.ok pairs) [("relation_kind", .text relation)]
    return true

def clear (document relation : String) : Action α Bool := do
  ofExcept (Label.check .relationKind relation)
  let removed ← onStoreFailure (some <$> transaction (deleteEdges document relation)) fun e => do
    log .error "cooccurrence"
      s!"cooccurrence.clear.failed doc_id={document} relation={relation} error={e.message}"
    increment "cooccurrence.clear.failed" (.ok 1) [("relation_kind", .text relation)]
    return none
  match removed with
  | none => return false
  | some removed =>
    log .info "cooccurrence"
      s!"cooccurrence.clear.completed doc_id={document} relation={relation} removed={removed}"
    return true

/-- Clears, then builds, so that weights do not add up. -/
def rebuild (document relation field : String) : Action α Bool := do
  if ← clear document relation then build document relation field else return false

end TagRank.Action
