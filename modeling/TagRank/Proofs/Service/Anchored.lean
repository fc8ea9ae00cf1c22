import Mathlib
import TagRank.Proofs.Service.Own
import TagRank.Proofs.Service.Rebuild
import TagRank.Proofs.Service.Ranking
import TagRank.Proofs.Store.Held

namespace TagRank

open Metrics TagRank.Action

variable {α : Type} [Scalar α]

theorem Store.Sound.span_of_mem_best {s : Store} (h : s.Sound) {es : List Event}
    (he : s.Tallied es) {document relation field : String} {view : View α}
    (hv : View.ofEdges field (s.edgesOf document relation (some field)) = .ok view) {count : Int}
    {scores : Scores α} {n : RankedNode α} (hn : n ∈ RankedNode.best count view scores) :
    ∃ span ∈ s.spansOf document (RankedNode.best count view scores), span.tag = n.tag := by
  obtain ⟨e, he', hends⟩ := View.mem_ends_of_ofEdges hv (RankedNode.mem_nodes_of_mem_best hn)
  obtain ⟨hmem, hd⟩ := List.mem_filter.1 he'
  have hd : e.document = document := by
    simp only [Bool.and_eq_true, beq_iff_eq] at hd
    exact hd.1.1
  obtain ⟨ha, hb⟩ := h.holds_ends he hmem
  have held : s.Holds document n.tag := by
    rcases hends with hk | hk
    · rw [hk, ← hd]
      exact ha
    · rw [hk, ← hd]
      exact hb
  obtain ⟨o, ho, hod, hot, -⟩ := held
  refine ⟨Span.ofOccurrence _ o, List.mem_map_of_mem ?_, hot⟩
  refine List.mem_mergeSort.2 (List.mem_filter.2 ⟨ho, ?_⟩)
  simpa [hod, hot] using RankedNode.mem_keys_scores.2 ⟨n, hn, rfl⟩

end TagRank
