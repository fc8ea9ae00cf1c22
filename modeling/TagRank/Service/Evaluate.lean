import TagRank.Aggregation.Basic
import TagRank.Service.Persist
import TagRank.Service.Ranking
import TagRank.Settings

namespace TagRank

structure Pipeline (α : Type) where
  kernel : Kernel α
  topNodes : Int
  policy : Policy
  filter : Filter
  trailing : Trailing
  wordLimit : Int

namespace Pipeline

def ofSettings (files : Files) (s : Settings) : Except Error (Pipeline Float) := do
  let kernel ← Kernel.ofName s.kernel s.tolerance
  let policy ← Policy.ofName s.policy
  let filter ← s.filter files
  return {
    kernel, policy, filter
    topNodes := s.topNodes
    trailing := if s.flushTrailing then .flush else .drop
    wordLimit := s.wordLimit }

end Pipeline

inductive EvaluationStatus
  | success
  | missingDocument
  | persistFailed
  | rankingFailed
  deriving DecidableEq

def EvaluationStatus.name : EvaluationStatus → String
  | .success => "success"
  | .missingDocument => "missing_document"
  | .persistFailed => "persist_failed"
  | .rankingFailed => "ranking_failed"

def EvaluationStatus.ofPersist : PersistStatus → EvaluationStatus
  | .success => .success
  | .missingDocument => .missingDocument
  | .failed => .persistFailed

structure Evaluation (α : Type) where
  document : String
  status : EvaluationStatus
  keywords : List Candidate
  ranked : List (RankedNode α)
  aggregation : Option Aggregation
  persisted : Option PersistOutcome
  error : Option String

namespace Action

variable {α : Type} [Scalar α]

def finish (e : Evaluation α) : Action α (Evaluation α) := do
  let status := e.status.name
  log .info "pipeline"
    (s!"pipeline.evaluate.{status} doc_id={e.document} keywords={e.keywords.length} " ++
      "duration_ms=*")
  let tags := [("status", Json.text status)]
  increment "pipeline.evaluations" (.ok 1) tags
  recordTiming "pipeline.evaluation_duration" (.ok unmeasured) tags
  return e

def conclude (p : Pipeline α) (f : Filter) (document : String) (ranked : List (RankedNode α))
    (found : List (Span α)) : Action α (Evaluation α) := do
  logAll (Aggregation.warnings found)
  let aggregation := Aggregation.ofSpans f p.trailing p.wordLimit found
  let counts := aggregation.counts.map fun (key, n) => (key, .ok (n : Int))
  let persisted ← persist p.policy f document counts
  logAll aggregation.candidateWarnings
  let keywords := aggregation.candidates.filter fun c => !f.isStopword c.display
  finish {
    document, ranked
    status := .ofPersist persisted.status
    keywords := if persisted.status = .success then keywords else []
    aggregation := some aggregation
    persisted := some persisted
    error := persisted.error }

/-- A ranking that fails is an answer; every other failure is passed on. -/
def evaluate (p : Pipeline α) (f : Filter) (document relation field : String) (rounds : Int)
    (damping : α) : Action α (Evaluation α) := do
  let found ← outcome do
    let ranked ← rank p.kernel p.topNodes document relation field rounds damping
    return (ranked, ← spans document ranked)
  match found with
  | .ok (ranked, found) => conclude p f document ranked found
  | .error e =>
    if e.kind = .ranking then
      log .error "pipeline"
        s!"pipeline.evaluate.ranking_failed doc_id={document} error={e.message}"
      finish ⟨document, .rankingFailed, [], [], none, none, some e.message⟩
    else throw e

end Action

end TagRank
