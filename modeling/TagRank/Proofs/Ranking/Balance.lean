import Mathlib.Algebra.BigOperators.Group.Multiset.Basic
import TagRank.Proofs.Ranking.Proportion

namespace TagRank

theorem Scalar.sum_comm {β γ : Type} (xs : List β) (ys : List γ) (f : β → γ → Rat) :
    (xs.map fun x => (ys.map (f x)).sum).sum = (ys.map fun y => (xs.map fun x => f x y).sum).sum := by
  simpa using Multiset.sum_map_sum_map (xs : Multiset β) (ys : Multiset γ) (f := f)

namespace View

variable {v : View Rat}

theorem IsGraph.sum_shares (h : v.IsGraph) {b : String} (hb : b ∈ v.nodes) (x : Rat) :
    (v.nodes.map fun a => (v.weight? a b).elim 0 fun w => w / v.strength b * x).sum = x := by
  have hrow : ((v.row b).map fun p => p.2 / v.strength b * x).sum =
      (v.nodes.map fun a => (v.weight? a b).elim 0 fun w => w / v.strength b * x).sum := by
    simp only [h.symm _ b]
    exact Assoc.sum_map (h.nodup_row b) h.nodup_nodes (fun a => h.mem_nodes_of_mem_row)
      fun _ w => w / v.strength b * x
  have hstrength : ((v.row b).map Prod.snd).sum = v.strength b := by
    rw [strength, Scalar.sum_eq]
  calc
    _ = ((v.row b).map fun p => p.2 * (x / v.strength b)).sum := by
      rw [← hrow]
      refine congrArg List.sum (List.map_congr_left fun p _ => ?_)
      ring
    _ = v.strength b * (x / v.strength b) := by
      rw [List.sum_map_mul_right, hstrength]
    _ = x := mul_div_cancel₀ x (h.strength_pos hb).ne'

theorem IsGraph.sum_inflow (h : v.IsGraph) (scores : Scores Rat) :
    (v.nodes.map (v.inflow scores)).sum = (v.nodes.map scores.get).sum := by
  change (v.nodes.map fun a => (v.nodes.map fun b => _).sum).sum = _
  rw [Scalar.sum_comm]
  exact congrArg List.sum (List.map_congr_left fun b hb => h.sum_shares hb _)

theorem IsGraph.inflow_nonneg (h : v.IsGraph) {scores : Scores Rat}
    (hs : ∀ a ∈ v.nodes, 0 ≤ scores.get a) (a : String) : 0 ≤ v.inflow scores a := by
  refine List.sum_nonneg (List.forall_mem_map.2 fun b hb => ?_)
  cases hw : v.weight? a b with
  | none => exact le_refl 0
  | some w =>
    have hw : 0 ≤ w := (h.weight_pos a b w hw).le
    exact mul_nonneg (div_nonneg hw (h.strength_pos hb).le) (hs b hb)

end View

/-- Scores of the nodes that come to one for each, none of which lacks what damping spares. -/
structure Scores.Balanced (v : View Rat) (damping : Rat) (scores : Scores Rat) : Prop where
  nodes : Assoc.keys scores = v.nodes
  total : (scores.map Prod.snd).sum = v.nodes.length
  least : ∀ p ∈ scores, 1 - damping ≤ p.2

namespace Kernel.Power

variable {v : View Rat} {damping : Rat}

theorem balanced_start (hlow : 0 ≤ damping) : (start v).Balanced v damping where
  nodes := Assoc.keys_map _ _
  total := by simp [start, Function.comp_def]
  least := List.forall_mem_map.2 fun _ _ => sub_le_self 1 hlow

theorem balanced_round (hg : v.IsGraph) (hlow : 0 ≤ damping) (hhigh : damping ≤ 1)
    {scores : Scores Rat} (h : scores.Balanced v damping) :
    (round v (strengths v) damping scores).Balanced v damping := by
  have hscores := Scores.eq_map hg h.nodes
  have htotal : (v.nodes.map scores.get).sum = v.nodes.length := by
    conv_rhs => rw [← h.total, hscores, List.map_map]
    rfl
  have hpos : ∀ a ∈ v.nodes, 0 ≤ scores.get a := by
    intro a ha
    have hmem : (a, scores.get a) ∈ v.nodes.map fun a => (a, scores.get a) :=
      List.mem_map_of_mem ha
    rw [← hscores] at hmem
    exact (sub_nonneg.2 hhigh).trans (h.least _ hmem)
  rw [round_eq hg]
  refine ⟨Assoc.keys_map _ _, ?_, List.forall_mem_map.2 fun a _ => ?_⟩
  · rw [List.map_map]
    calc
      (v.nodes.map fun a => (1 - damping) + damping * v.inflow scores a).sum
        = v.nodes.length * (1 - damping) + damping * (v.nodes.map (v.inflow scores)).sum := by
          rw [List.sum_map_add, List.sum_map_mul_left]
          simp
      _ = v.nodes.length := by
          rw [hg.sum_inflow, htotal]
          ring
  · exact le_add_of_nonneg_right (mul_nonneg hlow (hg.inflow_nonneg hpos a))

theorem balanced_after (hg : v.IsGraph) (hlow : 0 ≤ damping) (hhigh : damping ≤ 1) (n : Nat) :
    (after v damping n).Balanced v damping := by
  induction n with
  | zero => exact balanced_start hlow
  | succ n ih => exact balanced_round hg hlow hhigh ih

theorem strengths_pos (hg : v.IsGraph) {a b : String} {w : Rat} (hrow : (b, w) ∈ v.row a) :
    0 < (strengths v).get b := by
  have hb : b ∈ v.nodes := hg.mem_nodes_of_mem_row (List.mem_map_of_mem hrow)
  rw [get_strengths hg hb]
  exact hg.strength_pos hb

end Kernel.Power

namespace Kernel

open Power

/-- After every round of the power kernel on stored edges, and so when it ends, the scores sum to
the number of nodes and none is below what damping spares. Every neighbour that is met on the way
has a strength to be divided by. -/
theorem power_balanced {field : String} {edges : List Edge} {v : View Rat}
    (hv : View.ofEdges field edges = .ok v) (hw : ∀ e ∈ edges, 1 ≤ e.weight) {damping : Rat}
    (hlow : 0 ≤ damping) (hhigh : damping ≤ 1) :
    (∀ n, (after v damping n).Balanced v damping) ∧
    (∀ (tolerance : Rat) (rounds : Int), ∃ n ≤ rounds.toNat,
      power tolerance v field rounds damping = .ok (after v damping n)) ∧
    ∀ a, ∀ p ∈ v.row a, 0 < (strengths v).get p.1 := by
  have hg := View.isGraph_ofEdges hv hw
  refine ⟨balanced_after hg hlow hhigh, fun tolerance rounds => ?_, fun a p hp =>
    strengths_pos hg hp⟩
  refine ⟨_, ?_, power_eq (View.field_ofEdges hv) tolerance damping rounds⟩
  cases hn : stop? (settles v damping tolerance) 0 rounds.toNat with
  | none => exact le_refl _
  | some n => simpa using le_of_stop? hn

theorem power_balanced_loop :
    let edges : List Edge :=
      [⟨"d", "near", "weight", "a", "b", 2⟩, ⟨"d", "near", "weight", "b", "b", 1⟩]
    let v : View Rat := .ofWeighted "weight" [("a", "b", 2), ("b", "b", 1)]
    View.ofEdges "weight" edges = .ok v ∧ (∀ e ∈ edges, 1 ≤ e.weight) ∧
      after v (17 / 20) 1 = [("a", 43 / 60), ("b", 77 / 60)] ∧
      (after v (17 / 20) 1).Balanced v (17 / 20) := by
  intro edges v
  have hv : View.ofEdges "weight" edges = .ok v := rfl
  have hw : ∀ e ∈ edges, 1 ≤ e.weight := by decide
  have hbalanced := (power_balanced hv hw (by decide +kernel : (0 : Rat) ≤ 17 / 20)
    (by decide +kernel)).1 1
  exact ⟨hv, hw, by decide +kernel, hbalanced⟩

end Kernel

end TagRank
