import TagRank.Proofs.Ranking.Choice
import TagRank.Proofs.Ranking.Strength
import TagRank.Proofs.Service.Answer

namespace TagRank

open TagRank.Action

theorem Store.Sound.nodup_pairs {s : Store} (h : s.Sound) (document relation field : String) :
    ((s.edgesOf document relation (some field)).map Edge.pair).Nodup := by
  have hends : ((s.edgesOf document relation (some field)).map Edge.ends).Nodup :=
    h.ends.sublist (List.filter_sublist.map _)
  have hplace : (s.edgesOf document relation (some field)).map Edge.ends =
      ((s.edgesOf document relation (some field)).map Edge.pair).map
        fun p => (document, relation, field, p) := by
    rw [List.map_map]
    refine List.map_congr_left fun e he => ?_
    have hplace := (List.mem_filter.1 he).2
    simp only [Option.all_some, Bool.and_eq_true, beq_iff_eq] at hplace
    obtain ⟨⟨rfl, rfl⟩, rfl⟩ := hplace
    rfl
  rw [hplace] at hends
  exact hends.of_map _

end TagRank
