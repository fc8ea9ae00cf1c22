import TagRank.Proofs.Ranking.Choice
import TagRank.Proofs.Service.Answer

namespace TagRank

open TagRank.Action

variable {α : Type} [Scalar α]

/-- A ranking chooses by the scores of its kernel, of which some may be missing and others may be
those of no node. Edges whose weight field bears a reserved name are not ranked. -/
theorem Service.rank_chooses {s : Service α} (hs : s.Ready) (document : String)
    {relation field : String} (hr : Label.isValid relation = true)
    (hf : Label.isValid field = true) {rounds : Int} (hrounds : 1 ≤ rounds) {damping : α}
    (hlow : 0 ≤ damping) (hhigh : damping ≤ 1) {kernel : Kernel α} {scores : Scores α}
    (hk : ∀ v, View.ofEdges field (s.store.edgesOf document relation (some field)) = .ok v →
      kernel v v.field rounds damping = .ok scores)
    (hc : Comparable
      ((Edge.mentions (s.store.edgesOf document relation (some field))).map scores.get))
    (count : Int) :
    let edges := s.store.edgesOf document relation (some field)
    let answered := (perform (rank kernel count document relation field rounds damping) s).1
    (edges ≠ [] ∧ field ∈ View.reservedFields → answered = .error .reservedField) ∧
    (¬(edges ≠ [] ∧ field ∈ View.reservedFields) → ∃ (v : View α) (ranked : _),
      View.ofEdges field edges = .ok v ∧ v.nodes = (Edge.mentions edges).eraseDups ∧
      answered = .ok ranked ∧ RankedNode.AreBest count edges scores ranked) := by
  intro edges answered
  have hanswered : answered =
      (View.ofEdges field edges).map fun v => RankedNode.best count v scores :=
    (ends_rank hk count hr hf hrounds hlow hhigh).answer hs
  rw [hanswered]
  refine ⟨fun hreserved => ?_, fun hfree => ?_⟩
  · rw [View.ofEdges_eq, if_pos hreserved]
    rfl
  · have hview := View.ofEdges_eq (α := α) field edges
    rw [if_neg hfree] at hview
    have hnodes := View.nodes_ofEdges hview
    refine ⟨_, _, hview, hnodes, congrArg (Except.map _) hview,
      RankedNode.areBest_best hview (hc.mono ?_) count⟩
    rw [hnodes]
    exact List.map_subset _ fun a => List.mem_eraseDups.1

theorem Service.rank_chooses_sameScore :
    let edges : List Edge :=
      [⟨"d", "near", "weight", "a", "c", 1⟩, ⟨"d", "near", "weight", "b", "c", 2⟩]
    let s : Service Rat := ⟨{ Store.empty with edges }, none, none, []⟩
    let scores : Scores Rat := [("z", 2), ("b", 1), ("c", 1)]
    let kernel : Kernel Rat := fun _ _ _ _ => .ok scores
    ∃ ranked, (perform (rank kernel 2 "d" "near" "weight" 1 0) s).1 = .ok ranked ∧
      RankedNode.AreBest 2 edges scores ranked ∧ ranked.map RankedNode.tag = ["c", "b"] := by
  intro edges s scores kernel
  have hs : s.Ready := ⟨rfl, by simp [s, Service.IsOwn], by simp [s]⟩
  have hedges : s.store.edgesOf "d" "near" (some "weight") = edges := by decide
  have hk : ∀ v, View.ofEdges "weight" (s.store.edgesOf "d" "near" (some "weight")) = .ok v →
      kernel v v.field 1 0 = .ok scores := fun _ _ => rfl
  obtain ⟨-, hfree⟩ := rank_chooses hs "d" (by decide : Label.isValid "near" = true)
    (by decide : Label.isValid "weight" = true) (le_refl 1) (le_refl 0) zero_le_one hk
    (comparable_rat _) 2
  rw [hedges] at hfree
  obtain ⟨v, ranked, hv, -, hranked, hbest⟩ := hfree fun h => absurd h.2 (by decide)
  have htags : (perform (rank kernel 2 "d" "near" "weight" 1 0) s).1.map
      (List.map RankedNode.tag) = .ok ["c", "b"] := by cbv
  rw [hranked] at htags
  exact ⟨ranked, hranked, hbest, Except.ok.inj htags⟩

end TagRank
