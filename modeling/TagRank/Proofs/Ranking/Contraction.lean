import Mathlib.Algebra.Order.BigOperators.Group.Multiset
import Mathlib.Tactic.Linarith
import TagRank.Proofs.Ranking.Balance

/-!
Nodes hand on their scores in shares that make a whole, so a damped round brings any two lists of
scores closer together. The changes of the power kernel shrink from round to round; a tolerance that
is not too small ends the rounds, and what is returned then is near every solution of the equations
that the rounds are meant to solve.
-/

namespace TagRank

theorem Scalar.greatest?_le {xs : List Rat} {c : Rat} (hc : 0 ≤ c) (h : ∀ x ∈ xs, x ≤ c) :
    (greatest? xs).getD 0 ≤ c := by
  have below (ys : List Rat) (m : Rat) (hm : m ≤ c) (hy : ∀ y ∈ ys, y ≤ c) :
      ys.foldl (fun m y => if m < y then y else m) m ≤ c := by
    induction ys generalizing m with
    | nil => exact hm
    | cons z ys ih =>
      obtain ⟨hz, hy⟩ := List.forall_mem_cons.1 hy
      refine ih _ ?_ hy
      dsimp only
      split
      · exact hz
      · exact hm
  cases xs with
  | nil => exact hc
  | cons m ys =>
    obtain ⟨hm, hy⟩ := List.forall_mem_cons.1 h
    exact below ys m hm hy

namespace View

variable {v : View Rat} {damping : Rat} {x y x' y' : Scores Rat}

theorem distance_nonneg (v : View Rat) (x y : Scores Rat) : 0 ≤ v.distance x y :=
  List.sum_nonneg (List.forall_mem_map.2 fun _ _ => abs_nonneg _)

theorem distance_triangle (v : View Rat) (x y z : Scores Rat) :
    v.distance x z ≤ v.distance x y + v.distance y z := by
  simp only [distance]
  rw [← List.sum_map_add]
  refine List.sum_le_sum fun a _ => ?_
  rw [add_comm]
  exact abs_sub_le _ _ _

def IsRound (v : View Rat) (damping : Rat) (old new : Scores Rat) : Prop :=
  ∀ a ∈ v.nodes, new.get a = (1 - damping) + damping * v.inflow old a

def gaps (v : View Rat) (x y : Scores Rat) : Scores Rat :=
  v.nodes.map fun a => (a, |y.get a - x.get a|)

theorem get_gaps {a : String} (ha : a ∈ v.nodes) : (v.gaps x y).get a = |y.get a - x.get a| := by
  rw [gaps, Scores.get_map, if_pos ha]

theorem IsGraph.abs_inflow_sub_le (h : v.IsGraph) (x y : Scores Rat) (a : String) :
    |v.inflow y a - v.inflow x a| ≤ v.inflow (v.gaps x y) a := by
  let part (s : Scores Rat) (b : String) : Rat :=
    (v.weight? a b).elim 0 fun w => w / v.strength b * s.get b
  have hdiff : v.inflow y a - v.inflow x a = (v.nodes.map fun b => part y b - part x b).sum := by
    rw [sub_eq_iff_eq_add]
    change (v.nodes.map (part y)).sum = _ + (v.nodes.map (part x)).sum
    rw [← List.sum_map_add]
    simp
  have hpart : ∀ b ∈ v.nodes, |part y b - part x b| = part (v.gaps x y) b := by
    intro b hb
    dsimp only [part]
    cases hw : v.weight? a b with
    | none => exact abs_eq_zero.2 (sub_self 0)
    | some w =>
      have hshare : 0 ≤ w / v.strength b :=
        div_nonneg (h.weight_pos a b w hw).le (h.strength_pos hb).le
      dsimp only [Option.elim]
      rw [get_gaps hb, ← mul_sub, abs_mul, abs_of_nonneg hshare]
  calc
    |v.inflow y a - v.inflow x a| ≤ (v.nodes.map fun b => |part y b - part x b|).sum := by
      rw [hdiff]
      simpa [Function.comp_def] using Multiset.abs_sum_le_sum_abs
        (s := ((v.nodes.map fun b => part y b - part x b : List Rat) : Multiset Rat))
    _ = v.inflow (v.gaps x y) a := congrArg List.sum (List.map_congr_left hpart)

theorem IsGraph.distance_round_le (h : v.IsGraph) (hlow : 0 ≤ damping)
    (hx : v.IsRound damping x x') (hy : v.IsRound damping y y') :
    v.distance x' y' ≤ damping * v.distance x y := by
  have hgap : ∀ a ∈ v.nodes,
      |y'.get a - x'.get a| = damping * |v.inflow y a - v.inflow x a| := by
    intro a ha
    rw [hx a ha, hy a ha, add_sub_add_left_eq_sub, ← mul_sub, abs_mul, abs_of_nonneg hlow]
  calc
    v.distance x' y' = damping * (v.nodes.map fun a => |v.inflow y a - v.inflow x a|).sum := by
      rw [distance, List.map_congr_left hgap, List.sum_map_mul_left]
    _ ≤ damping * (v.nodes.map (v.inflow (v.gaps x y))).sum :=
      mul_le_mul_of_nonneg_left (List.sum_le_sum fun a _ => h.abs_inflow_sub_le x y a) hlow
    _ = damping * v.distance x y := by
      rw [h.sum_inflow, distance, List.map_congr_left fun a ha => get_gaps ha]

theorem IsGraph.distance_solution_le (h : v.IsGraph) (hlow : 0 ≤ damping) (hhigh : damping < 1)
    (hx : v.IsRound damping x x') (hy : v.IsRound damping y y) :
    v.distance x' y ≤ damping * v.distance x x' / (1 - damping) := by
  have hround := h.distance_round_le hlow hx hy
  have hpath := mul_le_mul_of_nonneg_left (v.distance_triangle x x' y) hlow
  rw [le_div_iff₀ (sub_pos.2 hhigh)]
  linarith

theorem change_le_distance (hg : v.IsGraph) (hnew : Assoc.keys y = v.nodes) :
    Kernel.Power.change x y ≤ v.distance x y := by
  have hmem : ∀ g ∈ v.nodes.map (fun a => |y.get a - x.get a|), g ≤ v.distance x y :=
    List.single_le_sum (List.forall_mem_map.2 fun _ _ => abs_nonneg _)
  simp only [Kernel.Power.change]
  refine Scalar.greatest?_le (distance_nonneg v x y) ?_
  rw [Scores.eq_map hg hnew, List.map_map, ← Scores.eq_map hg hnew]
  refine List.forall_mem_map.2 fun a ha => ?_
  exact (Scalar.abs_eq _).trans_le (hmem _ (List.mem_map_of_mem ha))

end View

namespace Kernel.Power

variable {v : View Rat} {damping tolerance : Rat}

theorem isRound_after (hg : v.IsGraph) (damping : Rat) (n : Nat) :
    v.IsRound damping (after v damping n) (after v damping (n + 1)) := by
  intro a ha
  rw [after, round_eq hg, Scores.get_map, if_pos ha]

theorem distance_after_succ_le (hg : v.IsGraph) (hlow : 0 ≤ damping) (n : Nat) :
    v.distance (after v damping (n + 1)) (after v damping (n + 2)) ≤
      damping * v.distance (after v damping n) (after v damping (n + 1)) :=
  hg.distance_round_le hlow (isRound_after hg damping n) (isRound_after hg damping (n + 1))

theorem distance_start_le (hg : v.IsGraph) (hlow : 0 ≤ damping) :
    v.distance (start v) (after v damping 1) ≤ 2 * v.nodes.length * damping := by
  have hone : ∀ a ∈ v.nodes, (start v).get a = 1 := by
    intro a ha
    rw [start, Scores.get_map, if_pos ha]
  have hgap : ∀ a ∈ v.nodes, |(after v damping 1).get a - (start v).get a| ≤
      damping * (v.inflow (start v) a + 1) := by
    intro a ha
    have hpos : 0 ≤ v.inflow (start v) a :=
      hg.inflow_nonneg (fun b hb => (hone b hb).symm ▸ zero_le_one) a
    have hround : (after v damping 1).get a = (1 - damping) + damping * v.inflow (start v) a :=
      isRound_after hg damping 0 a ha
    rw [hround, hone a ha, abs_le]
    constructor <;> linarith [mul_nonneg hlow hpos]
  have htotal : (v.nodes.map (start v).get).sum = v.nodes.length := by
    rw [List.map_congr_left hone]
    simp
  calc
    v.distance (start v) (after v damping 1)
      ≤ (v.nodes.map fun a => damping * (v.inflow (start v) a + 1)).sum := List.sum_le_sum hgap
    _ = damping * ((v.nodes.map (v.inflow (start v))).sum + v.nodes.length) := by
      rw [List.sum_map_mul_left, List.sum_map_add]
      simp
    _ = 2 * v.nodes.length * damping := by
      rw [hg.sum_inflow, htotal]
      ring

theorem distance_after_le (hg : v.IsGraph) (hlow : 0 ≤ damping) (n : Nat) :
    v.distance (after v damping n) (after v damping (n + 1)) ≤
      2 * v.nodes.length * damping ^ (n + 1) := by
  induction n with
  | zero =>
    rw [Nat.zero_add, pow_one]
    exact distance_start_le hg hlow
  | succ n ih =>
    calc
      _ ≤ damping * v.distance (after v damping n) (after v damping (n + 1)) :=
        distance_after_succ_le hg hlow n
      _ ≤ damping * (2 * v.nodes.length * damping ^ (n + 1)) := mul_le_mul_of_nonneg_left ih hlow
      _ = 2 * v.nodes.length * damping ^ (n + 1 + 1) := by ring

theorem change_after_le (hg : v.IsGraph) (hlow : 0 ≤ damping) (n : Nat) :
    change (after v damping n) (after v damping (n + 1)) ≤
      2 * v.nodes.length * damping ^ (n + 1) :=
  (View.change_le_distance hg (keys_after v damping _)).trans (distance_after_le hg hlow n)

theorem settles_of_lt (hg : v.IsGraph) (hlow : 0 ≤ damping) {n : Nat} (hn : n ≠ 0)
    (h : 2 * v.nodes.length * damping ^ n < tolerance) : settles v damping tolerance n := by
  obtain ⟨n, rfl⟩ := Nat.exists_eq_succ_of_ne_zero hn
  exact decide_eq_true ((change_after_le hg hlow n).trans_lt h)

theorem distance_solution_le (hg : v.IsGraph) (hlow : 0 ≤ damping) (hhigh : damping < 1) {n : Nat}
    (hn : n ≠ 0) (h : settles v damping tolerance n) {s : Scores Rat}
    (hs : v.IsRound damping s s) :
    v.distance (after v damping n) s ≤ damping * v.nodes.length * tolerance / (1 - damping) := by
  obtain ⟨n, rfl⟩ := Nat.exists_eq_succ_of_ne_zero hn
  have hchange : change (after v damping n) (after v damping (n + 1)) < tolerance :=
    of_decide_eq_true h
  have hmoved : v.distance (after v damping n) (after v damping (n + 1)) ≤
      v.nodes.length * tolerance :=
    (distance_le hg (keys_after v damping _)).trans
      (mul_le_mul_of_nonneg_left hchange.le (Nat.cast_nonneg _))
  refine (hg.distance_solution_le hlow hhigh (isRound_after hg damping n) hs).trans ?_
  rw [mul_assoc]
  exact div_le_div_of_nonneg_right (mul_le_mul_of_nonneg_left hmoved hlow) (sub_pos.2 hhigh).le

end Kernel.Power

namespace Kernel

open Power

/-- On the view of weighted edges the changes shrink by the damping from round to round, so the
tolerance ends the rounds before they run out if it is above what is left of the change by then.
When it has ended them, the scores are near every solution of the equations of the rounds. -/
theorem power_contracts {field : String} {edges : List (String × String × Rat)} {v : View Rat}
    (hv : View.ofWeighted? field edges = .ok v) (hw : ∀ e ∈ edges, 1 ≤ e.2.2) {damping : Rat}
    (hlow : 0 ≤ damping) (hhigh : damping < 1) :
    (∀ n, v.distance (after v damping (n + 1)) (after v damping (n + 2)) ≤
      damping * v.distance (after v damping n) (after v damping (n + 1))) ∧
    (∀ n, change (after v damping n) (after v damping (n + 1)) ≤
      2 * v.nodes.length * damping ^ (n + 1)) ∧
    (∀ (tolerance : Rat) (rounds : Int), 1 ≤ rounds →
      2 * v.nodes.length * damping ^ rounds.toNat < tolerance →
      ∃ n, stop? (settles v damping tolerance) 0 rounds.toNat = some n) ∧
    ∀ (tolerance : Rat) (rounds : Int) (n : Nat),
      stop? (settles v damping tolerance) 0 rounds.toNat = some n →
      power tolerance v field rounds damping = .ok (after v damping n) ∧
      ∀ s : Scores Rat,
        (∀ a ∈ v.nodes, s.get a = (1 - damping) + damping * v.inflow s a) →
        v.distance (after v damping n) s ≤
          damping * v.nodes.length * tolerance / (1 - damping) := by
  have hg := View.isGraph_ofWeighted? hv fun e he => zero_lt_one.trans_le (hw e he)
  have hfield := View.field_ofWeighted? hv
  refine ⟨distance_after_succ_le hg hlow, change_after_le hg hlow, ?_, ?_⟩
  · intro tolerance rounds hrounds hlt
    have hne : rounds.toNat ≠ 0 := by omega
    refine exists_stop? hne ?_
    rw [Nat.zero_add]
    exact settles_of_lt hg hlow hne hlt
  · intro tolerance rounds n hn
    refine ⟨?_, fun s hs => ?_⟩
    · rw [power_eq hfield, hn]
      rfl
    · exact distance_solution_le hg hlow hhigh (lt_of_stop? hn).ne' (of_stop? hn) hs

theorem power_contracts_loop :
    let edges : List (String × String × Rat) := [("a", "b", 2), ("b", "b", 1)]
    let v : View Rat := .ofWeighted "weight" edges
    View.ofWeighted? "weight" edges = .ok v ∧ (∀ e ∈ edges, 1 ≤ e.2.2) ∧
      2 * (v.nodes.length : Rat) * (1 / 2) ^ 2 < 4 / 3 ∧
      (∃ n, stop? (settles v (1 / 2) (4 / 3)) 0 2 = some n) ∧
      v.distance (after v (1 / 2) 1) [("a", 7 / 8), ("b", 9 / 8)] ≤ 8 / 3 := by
  intro edges v
  have hv : View.ofWeighted? "weight" edges = .ok v := rfl
  have hw : ∀ e ∈ edges, 1 ≤ e.2.2 := by decide +kernel
  have hlt : 2 * (v.nodes.length : Rat) * (1 / 2) ^ 2 < 4 / 3 := by decide +kernel
  have hfirst : stop? (settles v (1 / 2) (4 / 3)) 0 2 = some 1 := by decide +kernel
  obtain ⟨-, -, hends, hnear⟩ := power_contracts hv hw (by decide +kernel : (0 : Rat) ≤ 1 / 2)
    (by decide +kernel)
  have hdistance := (hnear (4 / 3) 2 1 hfirst).2 [("a", 7 / 8), ("b", 9 / 8)] (by decide +kernel)
  exact ⟨hv, hw, hlt, hends (4 / 3) 2 (by decide) hlt, hdistance.trans (by decide +kernel)⟩

end Kernel

end TagRank
