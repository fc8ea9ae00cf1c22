import Mathlib
import TagRank.Proofs.Service.Step

namespace TagRank

theorem Store.removeEdges_eq_self {s : Store} {document relation : String} :
    s.removeEdges document relation = s ↔ s.edgesOf document relation none = [] := by
  have hedges : s.removeEdges document relation = s ↔
      (s.removeEdges document relation).edges = s.edges :=
    ⟨congrArg Store.edges, fun h => congrArg (fun es => { s with edges := es }) h⟩
  rw [hedges]
  simp [Store.removeEdges, Store.edgesOf, List.filter_eq_self, imp_iff_not_or]

open TagRank.Action

variable {α : Type}

theorem Action.clears_of_no_fault {s : Service α} (h : s.fault = none)
    (document relation : String) : clears document relation s = Label.isValid relation := by
  obtain ⟨t, _, hp⟩ := transaction_calm (means_deleteEdges document relation) h
  simp [clears, commits, hp, StateT.run, Except.isOk, Except.toBool]

variable [Scalar α]

theorem Action.perform_build_of_not_valid {relation field : String}
    (hr : Label.isValid relation = true) (hf : Label.isValid field = false) (document : String)
    (s : Service α) : perform (build document relation field) s =
      (.error (.invalidLabel "weight field" field), s) := by
  simp only [build]
  rw [perform_bind, perform_ofExcept, check_of_valid hr]
  dsimp only
  rw [perform_bind, perform_ofExcept, check_of_not_valid hf]
  rfl

/-- What comes of a rebuild that a label does not allow, or that answers that it has failed. -/
theorem Action.rebuild_refused {s : Service α} {document relation field : String}
    (h : Label.isValid relation = false ∨ Label.isValid field = false ∨
      (perform (rebuild document relation field) s).1 = .ok false) :
    let t := (perform (rebuild document relation field) s).2
    t.store = (if clears document relation s then s.store.removeEdges document relation
        else s.store) ∧
      (t.store = s.store ↔
        clears document relation s = false ∨ s.store.edgesOf document relation none = []) := by
  intro t
  have hc := clear_carries document relation s
  have hstore : t.store = if clears document relation s then
      s.store.removeEdges document relation else s.store := by
    simp only [t]
    rw [perform_rebuild] at h ⊢
    cases hb : clears document relation s with
    | false => simpa [hb] using hc.store
    | true =>
      rw [hb] at hc
      rw [hb, if_pos rfl] at h
      have hu := build_carries document relation field (perform (clear document relation) s).2
      have hn : builds document relation field (perform (clear document relation) s).2 = false := by
        rcases h with h | h | h
        · simp [builds, h]
        · simp [builds, h]
        · exact (hu.answer false h).symm
      rw [hn] at hu
      exact hu.store.trans hc.store
  refine ⟨hstore, ?_⟩
  rw [hstore]
  cases clears document relation s with
  | false => simp
  | true => simpa using Store.removeEdges_eq_self

def oneEdge : Service Rat :=
  Service.run [.load "d" [neighbouring "abc" "abd"], .build "d" "near" "weight"] (.new Rat)

set_option maxRecDepth 4096 in
theorem Action.rebuild_refused_oneEdge :
    (perform (rebuild "d" "near" "bad-field") oneEdge).1 =
        .error (.invalidLabel "weight field" "bad-field") ∧
      (perform (rebuild "d" "near" "bad-field") oneEdge).2.store ≠ oneEdge.store := by
  have hfield : Label.isValid "bad-field" = false := by decide
  have hclears : clears "d" "near" oneEdge = true :=
    (clears_of_no_fault (by cbv) "d" "near").trans (by decide)
  have hedges : (oneEdge.store.edgesOf "d" "near" none).length = 1 := by cbv
  constructor
  · rw [perform_rebuild, if_pos hclears, perform_build_of_not_valid (by decide) hfield]
  · intro h
    rcases (rebuild_refused (.inr (.inl hfield))).2.1 h with hs | hs
    · rw [hclears] at hs
      cases hs
    · rw [hs] at hedges
      cases hedges

end TagRank
