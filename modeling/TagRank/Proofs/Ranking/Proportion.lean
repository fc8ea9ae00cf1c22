import Mathlib.Algebra.Order.Ring.Abs
import Mathlib.Tactic.Ring
import TagRank.Proofs.Ranking.Kernel
import TagRank.Ranking.Ranked

/-!
On a graph both kernels hand on the same shares of scores. So the scores of the power kernel are
those of the stationary kernel times the number of nodes, after every round.
-/

namespace TagRank

theorem Scores.get_map (f : String → Rat) (nodes : List String) (a : String) :
    Scores.get (nodes.map fun a => (a, f a)) a = if a ∈ nodes then f a else 0 := by
  simp only [Scores.get, Assoc.getD]
  rw [Assoc.get?_map]
  split
  · rfl
  · rfl

theorem Scores.eq_map {v : View Rat} (hg : v.IsGraph) {x : Scores Rat}
    (hx : Assoc.keys x = v.nodes) : x = v.nodes.map fun a => (a, x.get a) := by
  have h := Assoc.eq_map_keys (hx ▸ hg.nodup_nodes) 0
  rwa [hx] at h

def View.inflow (v : View Rat) (scores : Scores Rat) (a : String) : Rat :=
  (v.nodes.map fun b => (v.weight? a b).elim 0 fun w => w / v.strength b * scores.get b).sum

def View.distance (v : View Rat) (old new : Scores Rat) : Rat :=
  (v.nodes.map fun a => |new.get a - old.get a|).sum

/-- One kernel's scores are the other's times the number of nodes. -/
def View.Scaled (v : View Rat) (scores shares : Scores Rat) : Prop :=
  ∀ a, scores.get a = v.nodes.length * shares.get a

variable {v : View Rat}

namespace Kernel

namespace Power

theorem get_strengths (h : v.IsGraph) {a : String} (ha : a ∈ v.nodes) :
    (strengths v).get a = v.strength a := by
  have hs : strengths v = v.nodes.map fun a => (a, v.strength a) := by
    rw [strengths, h.rows_eq, List.map_map]
    rfl
  rw [hs, Scores.get_map, if_pos ha]

theorem received_eq (h : v.IsGraph) (scores : Scores Rat) (a : String) :
    received (strengths v) scores (v.row a) = v.inflow scores a := by
  have hfold : received (strengths v) scores (v.row a) = ((v.row a).map fun p =>
      if 0 < (strengths v).get p.1 then p.2 / (strengths v).get p.1 * scores.get p.1
      else 0).sum := by
    rw [List.sum_eq_foldl, List.foldl_map]
    apply congrArg fun f => (v.row a).foldl f 0
    funext sum p
    dsimp only
    split
    · rfl
    · exact (add_zero sum).symm
  have hrow : ((v.row a).map fun p =>
      if 0 < (strengths v).get p.1 then p.2 / (strengths v).get p.1 * scores.get p.1 else 0) =
      (v.row a).map fun p => p.2 / v.strength p.1 * scores.get p.1 := by
    apply List.map_congr_left
    intro p hp
    have hb := h.mem_nodes_of_mem_row (List.mem_map_of_mem hp)
    rw [get_strengths h hb, if_pos (h.strength_pos hb)]
  rw [hfold, hrow]
  exact Assoc.sum_map (h.nodup_row a) h.nodup_nodes (fun b => h.mem_nodes_of_mem_row)
    fun b w => w / v.strength b * scores.get b

theorem round_eq (h : v.IsGraph) (damping : Rat) (scores : Scores Rat) :
    round v (strengths v) damping scores =
      v.nodes.map fun a => (a, (1 - damping) + damping * v.inflow scores a) := by
  simp only [round]
  rw [h.rows_eq, List.map_map]
  apply List.map_congr_left
  intro a _
  exact congrArg (fun x => (a, 1 - damping + damping * x)) (received_eq h scores a)

end Power

namespace Stationary

theorem inverse_strength (h : v.IsGraph) {a : String} (ha : a ∈ v.nodes) :
    inverse (v.strength a) = 1 / v.strength a := if_pos (.inr (h.strength_pos ha))

theorem received_eq (h : v.IsGraph) (scores : Scores Rat) (a : String) :
    received v scores a = v.inflow scores a := by
  simp only [received, View.inflow]
  rw [List.sum_eq_foldl, List.foldl_map]
  conv_lhs => rw [h.rows_eq]
  rw [List.foldl_map]
  apply List.foldl_ext
  intro sum b hb
  have hw : v.weight? a b = Assoc.get? a (v.row b) := h.symm a b
  have hs : inverse (Scalar.sum ((v.row b).map Prod.snd)) = 1 / v.strength b :=
    inverse_strength h hb
  dsimp only
  rw [hw, hs]
  cases Assoc.get? a (v.row b) with
  | none => exact (add_zero sum).symm
  | some w =>
    dsimp only [Option.elim]
    rw [one_div_mul_eq_div]

theorem dangling_eq_zero (h : v.IsGraph) (scores : Scores Rat) : dangling v scores = 0 := by
  have none : (v.rows.filter fun (_, row) =>
      let s := Scalar.sum (row.map Prod.snd)
      !(decide (s < 0) || decide (0 < s))) = [] := by
    rw [h.rows_eq, List.filter_map, List.map_eq_nil_iff, List.filter_eq_nil_iff]
    intro a ha
    have := h.strength_pos ha
    simp_all [View.strength]
  simp only [dangling]
  rw [none]
  rfl

theorem round_eq (h : v.IsGraph) (damping : Rat) (scores : Scores Rat) :
    round v damping scores =
      v.nodes.map fun a => (a, damping * v.inflow scores a + (1 - damping) * share v) := by
  simp only [round]
  simp only [dangling_eq_zero h, received_eq h, zero_mul, add_zero]

theorem nodes_mul_share (hne : v.nodes ≠ []) : v.nodes.length * share v = 1 := by
  have hn : (v.nodes.length : Rat) ≠ 0 := by simpa using hne
  have hl : v.rows.length = v.nodes.length := by simp [View.nodes, Assoc.keys]
  rw [share, hl]
  exact mul_one_div_cancel hn

end Stationary

variable {old new old' new' x y : Scores Rat}

theorem inflow_scaled (h : v.Scaled x y) (a : String) :
    v.inflow x a = v.nodes.length * v.inflow y a := by
  simp only [View.inflow]
  rw [← List.sum_map_mul_left]
  apply congrArg List.sum
  apply List.map_congr_left
  intro b _
  cases v.weight? a b with
  | none => exact (mul_zero _).symm
  | some w =>
    dsimp only [Option.elim]
    rw [h b]
    ring

theorem scaled_start (hne : v.nodes ≠ []) : v.Scaled (Power.start v) (Stationary.start v) := by
  intro a
  rw [Power.start, Stationary.start, Scores.get_map, Scores.get_map]
  split
  · exact (Stationary.nodes_mul_share hne).symm
  · exact (mul_zero _).symm

theorem scaled_round (hg : v.IsGraph) (hne : v.nodes ≠ []) (damping : Rat) (h : v.Scaled x y) :
    v.Scaled (Power.round v (Power.strengths v) damping x) (Stationary.round v damping y) := by
  intro a
  rw [Power.round_eq hg, Stationary.round_eq hg, Scores.get_map, Scores.get_map]
  split
  · rw [inflow_scaled h]
    calc
      1 - damping + damping * (v.nodes.length * v.inflow y a)
        = damping * (v.nodes.length * v.inflow y a) +
            (1 - damping) * (v.nodes.length * Stationary.share v) := by
          rw [Stationary.nodes_mul_share hne]
          ring
      _ = v.nodes.length * (damping * v.inflow y a + (1 - damping) * Stationary.share v) := by
          ring
  · exact (mul_zero _).symm

theorem scaled_after (hg : v.IsGraph) (hne : v.nodes ≠ []) (damping : Rat) (n : Nat) :
    v.Scaled (Power.after v damping n) (Stationary.after v damping n) := by
  induction n with
  | zero => exact scaled_start hne
  | succ n ih => exact scaled_round hg hne damping ih

theorem le_change (hg : v.IsGraph) (hnew : Assoc.keys new = v.nodes) {a : String}
    (ha : a ∈ v.nodes) : |new.get a - old.get a| ≤ Power.change old new := by
  simp only [Power.change]
  rw [Scores.eq_map hg hnew, List.map_map]
  apply Scalar.le_greatest?
  rw [← Scores.eq_map hg hnew]
  exact List.mem_map.2 ⟨a, ha, Scalar.abs_eq _⟩

theorem distance_le (hg : v.IsGraph) (hnew : Assoc.keys new = v.nodes) :
    v.distance old new ≤ v.nodes.length * Power.change old new := by
  have hsum := List.sum_le_card_nsmul (v.nodes.map fun a => |new.get a - old.get a|) _
    (List.forall_mem_map.2 fun a ha => le_change hg hnew ha)
  rwa [List.length_map, nsmul_eq_mul] at hsum

theorem change_eq (hg : v.IsGraph) (hnew : Assoc.keys new = v.nodes) :
    Stationary.change old new = v.distance old new := by
  simp only [Stationary.change]
  conv_lhs => rw [Scores.eq_map hg hnew]
  rw [Scalar.sum_eq, List.map_map]
  apply congrArg List.sum
  apply List.map_congr_left
  intro a _
  exact Scalar.abs_eq _

theorem change_le (hg : v.IsGraph) (hne : v.nodes ≠ []) (hnew : Assoc.keys new = v.nodes)
    (hnew' : Assoc.keys new' = v.nodes) (hold : v.Scaled old old') (hscaled : v.Scaled new new') :
    Stationary.change old' new' ≤ Power.change old new := by
  have hn : 0 < (v.nodes.length : Rat) := Nat.cast_pos.2 (List.length_pos_iff.2 hne)
  refine le_of_mul_le_mul_left ?_ hn
  calc
    v.nodes.length * Stationary.change old' new' = v.distance old new := by
        rw [change_eq hg hnew', View.distance, View.distance, ← List.sum_map_mul_left]
        apply congrArg fun f => (v.nodes.map f).sum
        funext a
        rw [hscaled a, hold a, ← mul_sub, abs_mul, abs_of_pos hn]
    _ ≤ v.nodes.length * Power.change old new := distance_le hg hnew

theorem change_nonneg (hg : v.IsGraph) (hne : v.nodes ≠ []) (hnew : Assoc.keys new = v.nodes) :
    0 ≤ Power.change old new := by
  cases hv : v.nodes with
  | nil => exact absurd hv hne
  | cons a nodes =>
    have ha : a ∈ v.nodes := hv ▸ List.mem_cons_self
    exact le_trans (abs_nonneg _) (le_change hg hnew ha)

theorem settles_of_power (hg : v.IsGraph) (hne : v.nodes ≠ []) {damping tolerance : Rat} {n : Nat}
    (h : Power.settles v damping tolerance n) : Stationary.settles v damping tolerance n := by
  have hlt : Power.change (Power.after v damping (n - 1)) (Power.after v damping n) < tolerance :=
    of_decide_eq_true h
  have hle := change_le hg hne (Power.keys_after v damping n) (Stationary.keys_after v damping n)
    (scaled_after hg hne damping (n - 1)) (scaled_after hg hne damping n)
  have hpos : 0 < tolerance :=
    lt_of_le_of_lt (change_nonneg hg hne (Power.keys_after v damping n)) hlt
  have hone : 1 ≤ (v.rows.length : Rat) := by
    have : v.rows.length ≠ 0 := by simpa [View.nodes, Assoc.keys] using hne
    exact Nat.one_le_cast.2 (Nat.one_le_iff_ne_zero.2 this)
  apply decide_eq_true
  calc
    _ ≤ _ := hle
    _ < tolerance := hlt
    _ ≤ v.rows.length * tolerance := le_mul_of_one_le_left hpos.le hone

theorem descending_scaled (hne : v.nodes ≠ []) (h : v.Scaled x y) :
    Scores.descending (v.nodes.map fun a => (a, x.get a)) =
      (Scores.descending (v.nodes.map fun a => (a, y.get a))).map fun p =>
        (p.1, (v.nodes.length : Rat) * p.2) := by
  have hn : 0 < (v.nodes.length : Rat) := Nat.cast_pos.2 (List.length_pos_iff.2 hne)
  have hmap : (v.nodes.map fun a => (a, x.get a)) =
      (v.nodes.map fun a => (a, y.get a)).map fun p =>
        (p.1, (v.nodes.length : Rat) * p.2) := by
    rw [List.map_map]
    apply List.map_congr_left
    intro a _
    exact congrArg (a, ·) (h a)
  simp only [Scores.descending]
  rw [hmap]
  refine (List.map_mergeSort fun p _ q _ => ?_).symm
  exact decide_eq_decide.2 (mul_le_mul_iff_right₀ hn).symm

theorem best_scaled (hne : v.nodes ≠ []) (h : v.Scaled x y) (count : Int) :
    (RankedNode.best count v x).map RankedNode.tag =
      (RankedNode.best count v y).map RankedNode.tag := by
  simp only [RankedNode.best]
  rw [descending_scaled hne h]
  simp [← List.map_take, Function.comp_def]

/-- On the view of stored edges the kernels go round by round together: the scores are proportional,
so the nodes have one order, and a tolerance that ends the power kernel has ended the other one. -/
theorem power_proportional {field : String} {edges : List Edge} {v : View Rat}
    (hv : View.ofEdges field edges = .ok v) (hne : edges ≠ []) (hw : ∀ e ∈ edges, 1 ≤ e.weight)
    (damping : Rat) :
    (∀ n a, (Power.after v damping n).get a =
      v.nodes.length * (Stationary.after v damping n).get a) ∧
    (∀ (tolerance tolerance' : Rat) (rounds rounds' : Int) (n : Nat),
      (stop? (Power.settles v damping tolerance) 0 rounds.toNat).getD rounds.toNat = n →
      stop? (Stationary.settles v damping tolerance') 0 rounds'.toNat = some n →
      ∃ scores shares, power tolerance v field rounds damping = .ok scores ∧
        stationary tolerance' v field rounds' damping = .ok shares ∧
        ∀ count, (RankedNode.best count v scores).map RankedNode.tag =
          (RankedNode.best count v shares).map RankedNode.tag) ∧
    ∀ (tolerance : Rat) (rounds : Int) (n : Nat),
      stop? (Power.settles v damping tolerance) 0 rounds.toNat = some n →
      power tolerance v field rounds damping = .ok (Power.after v damping n) ∧
      ∃ m ≤ n, stop? (Stationary.settles v damping tolerance) 0 rounds.toNat = some m ∧
        stationary tolerance v field rounds damping = .ok (Stationary.after v damping m) := by
  have hg := View.isGraph_ofEdges hv hw
  have hnodes := View.nodes_ofEdges_ne_nil hv hne
  have hfield := View.field_ofEdges hv
  have hscaled := scaled_after hg hnodes damping
  refine ⟨hscaled, ?_, ?_⟩
  · intro tolerance tolerance' rounds rounds' n hn hn'
    refine ⟨Power.after v damping n, Stationary.after v damping n, ?_, ?_, ?_⟩
    · rw [power_eq hfield, hn]
    · rw [stationary_eq hfield hnodes, hn']
      rfl
    · exact best_scaled hnodes (hscaled n)
  · intro tolerance rounds n hn
    obtain ⟨m, hm, hstop⟩ := stop?_le_of_imp (fun _ => settles_of_power hg hnodes) hn
    refine ⟨?_, m, hm, hstop, ?_⟩
    · rw [power_eq hfield, hn]
      rfl
    · rw [stationary_eq hfield hnodes, hstop]
      rfl

theorem power_proportional_loop :
    let edges : List Edge :=
      [⟨"d", "near", "weight", "a", "b", 2⟩, ⟨"d", "near", "weight", "b", "b", 1⟩]
    let v : View Rat := .ofWeighted "weight" [("a", "b", 2), ("b", "b", 1)]
    let damping : Rat := 17 / 20
    View.ofEdges "weight" edges = .ok v ∧ edges ≠ [] ∧ (∀ e ∈ edges, 1 ≤ e.weight) ∧
      (Power.after v damping 1).get "b" = 2 * (Stationary.after v damping 1).get "b" ∧
      stop? (Power.settles v damping (1 / 5)) 0 10 = some 2 ∧
      stationary (1 / 5) v "weight" 10 damping = .ok (Stationary.after v damping 1) := by
  intro edges v damping
  have hv : View.ofEdges "weight" edges = .ok v := rfl
  have hne : edges ≠ [] := by decide
  have hw : ∀ e ∈ edges, 1 ≤ e.weight := by decide
  have hpower : stop? (Power.settles v damping (1 / 5)) 0 10 = some 2 := by decide +kernel
  have hfirst : stop? (Stationary.settles v damping (1 / 5)) 0 10 = some 1 := by decide +kernel
  obtain ⟨hscores, -, hstop⟩ := power_proportional hv hne hw damping
  obtain ⟨-, m, -, hm, hstationary⟩ := hstop (1 / 5) 10 2 hpower
  cases hm.symm.trans hfirst
  exact ⟨hv, hne, hw, hscores 1 "b", hpower, hstationary⟩

end Kernel

end TagRank
