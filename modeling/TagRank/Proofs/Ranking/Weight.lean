import TagRank.Proofs.Scalar
import TagRank.Ranking.Kernel
import TagRank.Ranking.Ranked

namespace TagRank

def Edge.times (k : Nat) (e : Edge) : Edge := { e with weight := k * e.weight }

def RankedNode.times (c : Rat) (n : RankedNode Rat) : RankedNode Rat :=
  { n with strength := c * n.strength }

theorem Scores.get_times (c : Rat) (scores : Scores Rat) (a : String) :
    Scores.get (Assoc.mapValues (c * ·) scores) a = c * scores.get a := by
  simp only [Scores.get, Assoc.getD, Assoc.get?_mapValues]
  cases Assoc.get? a scores with
  | none => exact (mul_zero c).symm
  | some x => rfl

namespace View

def times (c : Rat) (v : View Rat) : View Rat :=
  { v with rows := Assoc.mapValues (Assoc.mapValues (c * ·)) v.rows }

variable (c : Rat) (v : View Rat)

@[simp] theorem nodes_times : (v.times c).nodes = v.nodes := by simp [nodes, times]

@[simp] theorem row_times (a : String) :
    (v.times c).row a = Assoc.mapValues (c * ·) (v.row a) := by
  simp only [row, times, Assoc.getD, Assoc.get?_mapValues]
  cases Assoc.get? a v.rows <;> rfl

theorem addNode_times (a : String) : (v.times c).addNode a = (v.addNode a).times c := by
  have hc : Assoc.contains a (v.times c).rows = Assoc.contains a v.rows := by
    simp [Assoc.contains, times]
  simp only [addNode, hc]
  split
  · rfl
  · exact congrArg (View.mk v.field) (Assoc.insert_mapValues (Assoc.mapValues (c * ·)) v.rows a [])

theorem link_times (a b : String) (w : Rat) :
    (v.times c).link a b (c * w) = (v.link a b w).times c := by
  simp only [link, row_times]
  rw [Assoc.insert_mapValues (c * ·)]
  exact congrArg (View.mk v.field) (Assoc.insert_mapValues _ v.rows a _)

theorem addEdge_times (a b : String) (w : Rat) :
    (v.times c).addEdge a b (c * w) = (v.addEdge a b w).times c := by
  simp only [addEdge, addNode_times, link_times]

theorem foldl_addEdge_times (edges : List (String × String × Rat)) :
    (edges.map fun e => (e.1, e.2.1, c * e.2.2)).foldl
        (fun v (a, b, weight) => v.addEdge a b weight) (v.times c) =
      (edges.foldl (fun v (a, b, weight) => v.addEdge a b weight) v).times c := by
  induction edges generalizing v with
  | nil => rfl
  | cons e edges ih =>
    simp only [List.map_cons, List.foldl_cons] at ih ⊢
    rw [addEdge_times, ih]

theorem ofEdges_times (k : Nat) (field : String) (edges : List Edge) :
    ofEdges field (edges.map (Edge.times k)) =
      (ofEdges (α := Rat) field edges).map (times k) := by
  have hmap : ((edges.map (Edge.times k)).map fun e => (e.a, e.b, (e.weight : Rat))) =
      (edges.map fun e => (e.a, e.b, (e.weight : Rat))).map
        fun e => (e.1, e.2.1, (k : Rat) * e.2.2) := by
    rw [List.map_map, List.map_map]
    apply List.map_congr_left
    intro e _
    exact congrArg (fun w => (e.a, e.b, w)) (Nat.cast_mul k e.weight)
  have hempty (es : List (String × String × Rat)) :
      (es.map fun e => (e.1, e.2.1, (k : Rat) * e.2.2)).isEmpty = es.isEmpty := by
    cases es <;> rfl
  simp only [ofEdges, ofWeighted?, hmap, hempty]
  split
  · rfl
  · exact congrArg Except.ok (foldl_addEdge_times k ⟨field, []⟩ _)

theorem strength_times (a : String) : (v.times c).strength a = c * v.strength a := by
  simp only [strength, row_times, Scalar.sum_eq, Assoc.mapValues]
  rw [List.map_map, ← List.sum_map_mul_left]
  rfl

end View

namespace Kernel.Power

variable {c : Rat}

theorem strengths_times (c : Rat) (v : View Rat) :
    strengths (v.times c) = Assoc.mapValues (c * ·) (strengths v) := by
  simp only [strengths, View.times, Assoc.mapValues, List.map_map]
  apply List.map_congr_left
  intro p _
  simp [Scalar.sum_eq, ← List.sum_map_mul_left, Function.comp_def]

theorem received_times (hc : 0 < c) (strengths scores : Scores Rat) (row : List (String × Rat)) :
    received (Assoc.mapValues (c * ·) strengths) scores (Assoc.mapValues (c * ·) row) =
      received strengths scores row := by
  simp only [received, Assoc.mapValues]
  rw [List.foldl_map]
  apply List.foldl_ext
  intro sum p _
  have hget := Scores.get_times c strengths p.1
  simp only [Assoc.mapValues] at hget
  simp only [hget, mul_pos_iff_of_pos_left hc]
  split
  · rw [mul_div_mul_left _ _ hc.ne']
  · rfl

theorem round_times (hc : 0 < c) (v : View Rat) (damping : Rat) (scores : Scores Rat) :
    round (v.times c) (strengths (v.times c)) damping scores =
      round v (strengths v) damping scores := by
  rw [strengths_times]
  simp only [round, View.times, Assoc.mapValues, List.map_map]
  apply List.map_congr_left
  intro p _
  exact congrArg (fun x => (p.1, 1 - damping + damping * x))
    (received_times hc (strengths v) scores p.2)

theorem run_times (hc : 0 < c) (v : View Rat) (damping tolerance : Rat) (rounds : Nat)
    (scores : Scores Rat) :
    run (v.times c) damping tolerance rounds scores = run v damping tolerance rounds scores := by
  induction rounds generalizing scores with
  | zero => rfl
  | succ rounds ih => simp only [run, round_times hc, ih]

end Kernel.Power

theorem Kernel.power_times {c : Rat} (hc : 0 < c) (v : View Rat) (tolerance damping : Rat)
    (rounds : Int) :
    power tolerance (v.times c) v.field rounds damping =
      power tolerance v v.field rounds damping := by
  have hthrough (v : View Rat) : v.through v.field = v := if_pos rfl
  have htimes : (v.times c).through v.field = v.times c := hthrough (v.times c)
  simp only [power]
  rw [hthrough, htimes, Power.run_times hc, Power.start, Power.start, View.nodes_times]

theorem RankedNode.best_times (c : Rat) (count : Int) (v : View Rat) (scores : Scores Rat) :
    best count (v.times c) scores = (best count v scores).map (times c) := by
  simp only [best, View.nodes_times, List.map_map]
  apply List.map_congr_left
  intro p _
  exact congrArg (RankedNode.mk p.1 p.2) (View.strength_times c v p.1)

end TagRank
