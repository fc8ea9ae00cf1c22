import Mathlib.Algebra.Order.Ring.Rat
import TagRank.Proofs.Ranking.View
import TagRank.Proofs.Sorted
import TagRank.Ranking.Ranked

namespace TagRank

variable {α : Type} [Scalar α]

/-- Any two of these numbers can be compared. Floats can, unless one is not a number or there are
both zeros. -/
structure Comparable (xs : List α) : Prop where
  total : ∀ x ∈ xs, ∀ y ∈ xs, x ≤ y ∨ y ≤ x
  trans : ∀ x ∈ xs, ∀ y ∈ xs, ∀ z ∈ xs, x ≤ y → y ≤ z → x ≤ z
  antisymm : ∀ x ∈ xs, ∀ y ∈ xs, x ≤ y → y ≤ x → x = y

theorem comparable_rat (xs : List Rat) : Comparable xs where
  total x _ y _ := le_total x y
  trans _ _ _ _ _ _ := le_trans
  antisymm _ _ _ _ := le_antisymm

theorem Comparable.mono {xs ys : List α} (h : Comparable ys) (hs : xs ⊆ ys) : Comparable xs where
  total x hx y hy := h.total x (hs hx) y (hs hy)
  trans x hx y hy z hz := h.trans x (hs hx) y (hs hy) z (hs hz)
  antisymm x hx y hy := h.antisymm x (hs hx) y (hs hy)

namespace Scores

theorem perm_descending (scores : Scores α) : (descending scores).Perm scores :=
  List.mergeSort_perm _ _

theorem pairwise_descending_of_pairwise {scores : Scores α} {P : String × α → String × α → Prop}
    (h : Comparable (scores.map Prod.snd)) (hP : scores.Pairwise P) :
    (descending scores).Pairwise fun p q => q.2 ≤ p.2 ∧ (p.2 = q.2 → P p q) := by
  have hmem {p : String × α} (hp : p ∈ scores) : p.2 ∈ scores.map Prod.snd :=
    List.mem_map_of_mem hp
  refine (pairwise_mergeSort_of_pairwise (fun p hp q hq r hr hpq hqr => ?_) (fun p hp q hq => ?_)
    hP).imp fun {p q} hpq => ⟨of_decide_eq_true hpq.1, fun he => hpq.2 ?_⟩
  · exact decide_eq_true (h.trans _ (hmem hr) _ (hmem hq) _ (hmem hp) (of_decide_eq_true hqr)
      (of_decide_eq_true hpq))
  · simpa using h.total _ (hmem hq) _ (hmem hp)
  · simpa [he] using hpq.1

theorem pairwise_descending {scores : Scores α} (h : Comparable (scores.map Prod.snd)) :
    (descending scores).Pairwise fun p q => q.2 ≤ p.2 :=
  (pairwise_descending_of_pairwise h (List.pairwise_of_forall fun _ _ => trivial)).imp And.left

theorem map_descending_eq {scores : Scores α} {xs : List α} (hp : (scores.map Prod.snd).Perm xs)
    (hs : xs.Pairwise fun x y => y ≤ x) (hc : Comparable xs) :
    (descending scores).map Prod.snd = xs := by
  have hperm := ((perm_descending scores).map Prod.snd).trans hp
  refine List.Perm.eq_of_pairwise (fun x y hx hy hxy hyx => ?_) ?_ hs hperm
  · exact hc.antisymm x (hperm.subset hx) y hy hyx hxy
  · exact List.pairwise_map.2 (pairwise_descending (hc.mono hp.subset))

end Scores

def View.scored (v : View α) (scores : Scores α) : Scores α := v.nodes.map fun a => (a, scores.get a)

theorem View.map_fst_scored (v : View α) (scores : Scores α) :
    (v.scored scores).map Prod.fst = v.nodes := by
  simp [scored, Function.comp_def]

theorem View.map_snd_scored (v : View α) (scores : Scores α) :
    (v.scored scores).map Prod.snd = v.nodes.map scores.get := by
  simp [scored, Function.comp_def]

namespace RankedNode

variable {count : Int} {v : View α} {scores : Scores α} {n : RankedNode α}

def pair (n : RankedNode α) : String × α := (n.tag, n.score)

omit [Scalar α] in
theorem mem_keys_scores {nodes : List (RankedNode α)} {key : String} :
    key ∈ Assoc.keys (RankedNode.scores nodes) ↔ ∃ n ∈ nodes, n.tag = key := by
  rw [RankedNode.scores, Assoc.mem_keys_ofList, List.map_map]
  exact List.mem_map

theorem map_pair_best (count : Int) (v : View α) (scores : Scores α) :
    (best count v scores).map pair =
      (Scores.descending (v.scored scores)).take (max 1 count).toNat := by
  simp [best, pair, View.scored, Function.comp_def]

theorem nodup_tags_best (h : v.nodes.Nodup) : ((best count v scores).map tag).Nodup := by
  have htags : (best count v scores).map tag =
      ((Scores.descending (v.scored scores)).take (max 1 count).toNat).map Prod.fst := by
    rw [← map_pair_best, List.map_map]
    rfl
  have hperm := (Scores.perm_descending (v.scored scores)).map Prod.fst
  rw [View.map_fst_scored] at hperm
  rw [htags]
  exact (hperm.nodup_iff.2 h).sublist ((List.take_sublist _ _).map _)

theorem best_ne_nil (h : v.nodes ≠ []) : best count v scores ≠ [] := by
  have hlength : 0 < (best count v scores).length := by
    rw [best, List.length_map, List.length_take, (Scores.perm_descending _).length_eq,
      List.length_map]
    have := List.length_pos_iff.2 h
    omega
  exact List.length_pos_iff.1 hlength

theorem mem_nodes_of_mem_best (h : n ∈ best count v scores) : n.tag ∈ v.nodes := by
  obtain ⟨p, hp, rfl⟩ := List.mem_map.1 h
  obtain ⟨a, ha, rfl⟩ := List.mem_map.1 (List.mem_mergeSort.1 (List.mem_of_mem_take hp))
  exact ha

theorem score_mem_of_mem_best (h : n ∈ best count v scores) : n.score ∈ v.nodes.map scores.get := by
  have hpair : n.pair ∈ (best count v scores).map pair := List.mem_map_of_mem h
  rw [map_pair_best] at hpair
  rw [← View.map_snd_scored]
  exact List.mem_map_of_mem ((Scores.perm_descending _).subset (List.mem_of_mem_take hpair))

theorem pairwise_best (h : Comparable (v.nodes.map scores.get)) :
    (best count v scores).Pairwise fun m n => n.score ≤ m.score := by
  rw [← View.map_snd_scored] at h
  have hsorted := (Scores.pairwise_descending h).sublist (List.take_sublist (max 1 count).toNat _)
  rw [← map_pair_best] at hsorted
  exact List.pairwise_map.1 hsorted

theorem get_scores {nodes : List (RankedNode α)} (h : (nodes.map tag).Nodup) (hn : n ∈ nodes) :
    (RankedNode.scores nodes).get n.tag = n.score := by
  have hkey := mem_keys_scores.2 ⟨n, hn, rfl⟩
  cases hg : Assoc.get? n.tag (RankedNode.scores nodes) with
  | none => exact absurd hkey (Assoc.get?_eq_none.1 hg)
  | some x =>
    obtain ⟨m, hm, hpair⟩ := List.mem_map.1 (Assoc.mem_of_mem_ofList (Assoc.mem_of_get? hg))
    obtain ⟨htag, rfl⟩ := Prod.mk.inj hpair
    obtain rfl := List.inj_on_of_nodup_map h hm hn htag
    simp [Scores.get, Assoc.getD, hg]

end RankedNode

end TagRank
