import TagRank.Proofs.Ranking.Mention
import TagRank.Proofs.Ranking.Ranked

namespace TagRank

theorem take_of_pairwise {β : Type} {R : β → β → Prop} {xs ys : List β} (hp : ys.Perm xs)
    (hr : ys.Pairwise R) (n : Nat) : (ys.take n).length = min n xs.length ∧
      (ys.take n).Pairwise R ∧ ∀ x ∈ ys.take n, ∀ y ∈ xs, y ∉ ys.take n → R x y := by
  refine ⟨by rw [List.length_take, hp.length_eq], hr.sublist (List.take_sublist n ys),
    fun x hx y hy hn => ?_⟩
  rw [← List.take_append_drop n ys] at hp hr
  exact (List.pairwise_append.1 hr).2.2 x hx y
    ((List.mem_append.1 (hp.mem_iff.2 hy)).resolve_left hn)

variable {α : Type} [Scalar α]

def Scores.Precedes (mentions : List String) (scores : Scores α) (a b : String) : Prop :=
  scores.get b ≤ scores.get a ∧
    (scores.get a = scores.get b → mentions.idxOf a < mentions.idxOf b)

/-- As many of the nodes that edges mention as may be ranked, best first. -/
structure RankedNode.AreBest (count : Int) (edges : List Edge) (scores : Scores α)
    (ranked : List (RankedNode α)) : Prop where
  length : (ranked.length : Int) = min (max 1 count) (Edge.mentions edges).eraseDups.length
  nodup : (ranked.map tag).Nodup
  node : ∀ n ∈ ranked, n.tag ∈ Edge.mentions edges
  score : ∀ n ∈ ranked, n.score = scores.get n.tag
  sorted : (ranked.map tag).Pairwise (scores.Precedes (Edge.mentions edges))
  rest : ∀ n ∈ ranked, ∀ a ∈ Edge.mentions edges, a ∉ ranked.map tag →
    scores.Precedes (Edge.mentions edges) n.tag a

namespace View

variable {field : String} {edges : List Edge} {v : View α}

def descending (v : View α) (scores : Scores α) : List String :=
  (Scores.descending (v.scored scores)).map Prod.fst

theorem perm_descending (v : View α) (scores : Scores α) : (v.descending scores).Perm v.nodes :=
  ((Scores.perm_descending _).map Prod.fst).trans (.of_eq (map_fst_scored v scores))

theorem pairwise_descending (h : ofEdges field edges = .ok v) {scores : Scores α}
    (hc : Comparable (v.nodes.map scores.get)) :
    (v.descending scores).Pairwise (scores.Precedes (Edge.mentions edges)) := by
  have hplaces := pairwise_idxOf_eraseDups (fun _ => true) (Edge.mentions edges)
  rw [List.filter_true, ← nodes_ofEdges h] at hplaces
  have hscored : (v.scored scores).Pairwise fun p q =>
      (Edge.mentions edges).idxOf p.1 < (Edge.mentions edges).idxOf q.1 :=
    List.pairwise_map.2 hplaces
  have hget {p : String × α} (hp : p ∈ Scores.descending (v.scored scores)) :
      scores.get p.1 = p.2 := by
    obtain ⟨a, -, rfl⟩ := List.mem_map.1 ((Scores.perm_descending _).subset hp)
    rfl
  rw [← map_snd_scored] at hc
  refine List.pairwise_map.2 ((Scores.pairwise_descending_of_pairwise hc hscored).imp_of_mem
    fun {p q} hp hq hpq => ?_)
  rwa [Scores.Precedes, hget hp, hget hq]

end View

theorem RankedNode.map_tag_best (count : Int) (v : View α) (scores : Scores α) :
    (best count v scores).map tag = (v.descending scores).take (max 1 count).toNat := by
  rw [View.descending, ← List.map_take, ← map_pair_best, List.map_map]
  rfl

theorem RankedNode.areBest_best {field : String} {edges : List Edge} {v : View α}
    (h : View.ofEdges field edges = .ok v) {scores : Scores α}
    (hc : Comparable (v.nodes.map scores.get)) (count : Int) :
    AreBest count edges scores (best count v scores) := by
  obtain ⟨hlength, hsorted, hrest⟩ := take_of_pairwise (v.perm_descending scores)
    (View.pairwise_descending h hc) (max 1 count).toNat
  rw [← map_tag_best] at hlength hsorted hrest
  have hnodes := View.nodes_ofEdges h
  rw [hnodes] at hlength hrest
  refine ⟨?_, nodup_tags_best (View.nodup_nodes_ofEdges h), fun n hn => ?_, fun n hn => ?_, hsorted,
    fun n hn a ha hna => hrest n.tag (List.mem_map_of_mem hn) a (List.mem_eraseDups.2 ha) hna⟩
  · rw [List.length_map] at hlength
    omega
  · rw [← List.mem_eraseDups, ← hnodes]
    exact mem_nodes_of_mem_best hn
  · obtain ⟨p, hp, rfl⟩ := List.mem_map.1 hn
    obtain ⟨a, -, rfl⟩ := List.mem_map.1 ((Scores.perm_descending _).subset (List.mem_of_mem_take hp))
    rfl

end TagRank
