import Mathlib.Algebra.BigOperators.Ring.Finset
import Mathlib.Algebra.Order.Ring.Rat
import TagRank.Proofs.Ranking.Mention
import TagRank.Proofs.Store.Edge

namespace TagRank

namespace Edge

end Edge

namespace View

section

variable {α : Type} {es : List (String × String × α)}

end

section

variable {document relation field : String} {k : Nat} {pairs : List (String × String)}
  {v : View Rat} (h : ofEdges field (Edge.tally document relation field k pairs) = .ok v)
  (hd : ((Edge.tally document relation field k pairs).map Edge.pair).Nodup)

include h hd

end

end View

end TagRank
