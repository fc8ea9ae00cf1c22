import TagRank.Ranking.Kernel
import TagRank.Store.Occurrence

namespace TagRank

structure RankedNode (α : Type) where
  tag : String
  score : α
  strength : α

structure Span (α : Type) where
  tag : String
  start : Int
  stop : Int
  score : α

variable {α : Type} [Scalar α]

def Scores.descending (scores : Scores α) : Scores α :=
  scores.mergeSort fun a b => decide (b.2 ≤ a.2)

namespace RankedNode

/-- The best nodes of a view, at least one if there is any; a node without a score has zero. -/
def best (count : Int) (v : View α) (scores : Scores α) : List (RankedNode α) :=
  let ordered := Scores.descending (v.nodes.map fun a => (a, scores.get a))
  (ordered.take (max 1 count).toNat).map fun (a, score) => ⟨a, score, v.strength a⟩

def scores (nodes : List (RankedNode α)) : Scores α :=
  Assoc.ofList (nodes.map fun n => (n.tag, n.score))

end RankedNode

def Span.ofOccurrence (scores : Scores α) (o : Occurrence) : Span α :=
  ⟨o.tag, o.token.start, o.token.stop, scores.get o.tag⟩

end TagRank
