import TagRank.Ranking.Ranked
import TagRank.Service.Cooccurrence

namespace TagRank.Action

variable {α : Type} [Scalar α]

/-- Kernels that fail by their numbers fail the ranking; other failures are passed on. -/
def kernelError (e : Error) : Error :=
  match e.kind with
  | .invalidValue | .outOfRange | .arithmetic | .graph => .kernelFailed e.message
  | _ => e

def score (kernel : Kernel α) (v : View α) (rounds : Int) (damping : α) : Action α (Scores α) :=
  ofExcept ((kernel v v.field rounds damping).mapError kernelError)

def rank (kernel : Kernel α) (count : Int) (document relation field : String) (rounds : Int)
    (damping : α) : Action α (List (RankedNode α)) := do
  ofExcept (Label.check .relationKind relation)
  ofExcept (Label.check .weightField field)
  if rounds < 1 then throw .iterationsBelowOne
  if !(decide (0 ≤ damping) && decide (damping ≤ 1)) then throw .dampingOutOfRange
  let edges ← onStoreFailure (transaction (edges document relation (some field))) fun e => do
    log .error "ranking"
      s!"ranking.edges.failed doc_id={document} relation={relation} error={e.message}"
    throw (.edgesUnreadable document)
  let view ← ofExcept (View.ofEdges field edges)
  let tags := [("relation_kind", Json.text relation)]
  let scores ← tryCatch (timed "ranking.duration" tags (score kernel view rounds damping))
    fun e => do
      if e.kind = .ranking then
        log .error "ranking" s!"ranking.kernel.failed doc_id={document} error={e.message}"
      throw e
  let ranked := RankedNode.best count view scores
  log .info "ranking"
    (s!"ranking.completed doc_id={document} nodes={view.rows.length} edges={view.size} " ++
      s!"top={ranked.length}")
  return ranked

def spans (document : String) (ranked : List (RankedNode α)) : Action α (List (Span α)) := do
  if ranked.isEmpty then return []
  let scores := RankedNode.scores ranked
  let read := transaction (tagOccurrences document (Assoc.keys scores))
  let occurrences ← onStoreFailure read fun e => do
    log .error "ranking" s!"ranking.spans.failed doc_id={document} error={e.message}"
    throw (.occurrencesUnreadable document)
  return occurrences.map (Span.ofOccurrence scores)

end TagRank.Action
