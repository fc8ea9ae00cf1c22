import Mathlib.Data.List.DropRight
import TagRank.Proofs.Store.Occurrence
import TagRank.Proofs.Store.Sentence

/-!
The edges of a store as a tally: how often they have been built since they were last gone, and how
often each pair is met in the text.
-/

namespace TagRank

/-- A change of edges or of the tokens that they are made from. -/
inductive Event
  | loaded (document : String)
  | built (document relation field : String)
  | cleared (document relation : String)
  deriving DecidableEq

namespace Event

def resets (document relation : String) : Event → Bool
  | loaded d => d == document
  | built .. => false
  | cleared d r => d == document && r == relation

/-- How often the edges have been built since they were last gone. -/
def buildCount (document relation field : String) (es : List Event) : Nat :=
  (es.rtakeWhile fun e => !e.resets document relation).count (.built document relation field)

theorem buildCount_concat (document relation field : String) (es : List Event) (e : Event) :
    buildCount document relation field (es ++ [e]) =
      if e.resets document relation then 0
      else buildCount document relation field es +
        if e = .built document relation field then 1 else 0 := by
  simp only [buildCount]
  by_cases h : e.resets document relation
  · rw [List.rtakeWhile_concat_neg _ _ _ (by simpa using h), if_pos h]
    rfl
  · rw [List.rtakeWhile_concat_pos _ _ _ (by simpa using h), if_neg h, List.count_append,
      List.count_singleton]
    simp only [beq_iff_eq]

end Event

namespace Store

/-- Every edge weighs as often the count of its pair as there have been builds. -/
def Tallied (s : Store) (es : List Event) : Prop :=
  ∀ document relation field, s.edgesOf document relation (some field) =
    Edge.tally document relation field (Event.buildCount document relation field es)
      (s.scan document)

variable {s t : Store} {es : List Event} {document relation field : String}

theorem tokensOf_congr (h : t.occurrences.filter (·.document == document) =
    s.occurrences.filter (·.document == document)) : t.tokensOf document = s.tokensOf document :=
  congrArg (·.map Occurrence.token) h

theorem scan_congr (h : t.occurrences.filter (·.document == document) =
    s.occurrences.filter (·.document == document)) : t.scan document = s.scan document := by
  simp only [scan, sentenceIndices, sentenceAt]
  rw [tokensOf_congr h]

def isAt (document relation field : String) (e : Edge) : Bool :=
  e.document == document && e.relation == relation && e.field == field

theorem edgesOf_eq (s : Store) (document relation field : String) :
    s.edgesOf document relation (some field) = s.edges.filter (isAt document relation field) := by
  apply List.filter_congr
  intro e _
  simp only [isAt, Option.all_some, Bool.beq_comm]

theorem isOfPlace_isAt (document relation field : String) :
    Edge.IsOfPlace (isAt document relation field) := by
  intro e f hd hr hf
  simp only [isAt, hd, hr, hf]

theorem Tallied.congr (h : s.Tallied es) (ho : t.occurrences = s.occurrences)
    (he : t.edges = s.edges) : t.Tallied es := by
  intro d r f
  have hs : t.scan d = s.scan d := scan_congr (by rw [ho])
  rw [edgesOf_eq, he, ← edgesOf_eq, hs, h]

theorem tallied_empty : Store.empty.Tallied [] := fun _ _ _ => rfl

theorem Tallied.built (h : s.Tallied es) :
    (s.built document relation field).Tallied (es ++ [.built document relation field]) := by
  intro d r f
  have hs : (s.built document relation field).scan d = s.scan d := scan_congr rfl
  have hP (p : String × String) : isAt d r f (.ofPair document relation field 1 p) =
      (document == d && relation == r && field == f) := rfl
  have hd := h d r f
  rw [edgesOf_eq] at hd ⊢
  rw [hs, Event.buildCount_concat, if_neg (by simp [Event.resets])]
  change (Edge.addAll _ _ _ _ s.edges).filter _ = _
  rw [Edge.filter_addAll _ _ _ (isOfPlace_isAt d r f) hP, hd]
  by_cases hm : document = d ∧ relation = r ∧ field = f
  · obtain ⟨rfl, rfl, rfl⟩ := hm
    simp [Edge.addAll_tally]
  · have hne : ¬Event.built document relation field = .built d r f := by simpa using hm
    rw [if_neg hne, if_neg (by simpa [and_assoc] using hm), Nat.add_zero]

theorem Tallied.cleared (h : s.Tallied es) :
    (s.removeEdges document relation).Tallied (es ++ [.cleared document relation]) := by
  intro d r f
  have hs : (s.removeEdges document relation).scan d = s.scan d := scan_congr rfl
  have hd := h d r f
  rw [edgesOf_eq] at hd ⊢
  rw [hs, Event.buildCount_concat]
  change (s.edges.filter _).filter _ = _
  rw [List.filter_filter]
  by_cases hm : document = d ∧ relation = r
  · obtain ⟨rfl, rfl⟩ := hm
    rw [if_pos (by simp [Event.resets])]
    refine List.filter_eq_nil_iff.2 fun e _ => ?_
    simp +contextual [isAt]
  · rw [if_neg (by simpa [Event.resets] using hm), if_neg (by simp), Nat.add_zero, ← hd]
    apply List.filter_congr
    intro e _
    by_cases he : isAt d r f e
    · simp only [isAt, Bool.and_eq_true, beq_iff_eq] at he
      obtain ⟨⟨rfl, rfl⟩, rfl⟩ := he
      have hne : (e.document == document && e.relation == relation) = false := by
        rw [Bool.eq_false_iff]
        intro h
        simp only [Bool.and_eq_true, beq_iff_eq] at h
        exact hm ⟨h.1.symm, h.2.symm⟩
      simp [isAt, hne]
    · simp [he]

theorem Tallied.loaded (h : s.Tallied es) {rows : List Occurrence}
    (hr : ∀ o ∈ rows, o.document = document) :
    (s.loaded document rows).Tallied (es ++ [.loaded document]) := by
  intro d r f
  have hd := h d r f
  rw [edgesOf_eq] at hd ⊢
  rw [Event.buildCount_concat]
  change (s.edges.filter _).filter _ = _
  rw [List.filter_filter]
  by_cases hm : document = d
  · subst hm
    rw [if_pos (by simp [Event.resets])]
    refine List.filter_eq_nil_iff.2 fun e _ => ?_
    simp +contextual [isAt]
  · have hs : (s.loaded document rows).scan d = s.scan d := by
      apply scan_congr
      change (Occurrence.placeAll _ _).filter _ = _
      rw [Occurrence.filter_placeAll_of_ne hr hm, List.filter_filter]
      apply List.filter_congr
      intro o _
      by_cases ho : o.document = d
      · simp [ho, Ne.symm hm]
      · simp [ho]
    rw [if_neg (by simpa [Event.resets] using hm), if_neg (by simp), Nat.add_zero, hs, ← hd]
    apply List.filter_congr
    intro e _
    by_cases he : e.document = d
    · simp [he, Ne.symm hm]
    · simp [isAt, he]

theorem Tallied.load {sentences : List Sentence} {n : Nat} (h : s.Tallied es)
    (hl : s.load document sentences = .ok (n, t)) :
    t.Tallied (es ++ if sentences.isEmpty then [] else [.loaded document]) := by
  rcases load_ok hl with ⟨hs, rfl⟩ | ⟨hs, rows, hr, rfl⟩
  · rw [if_pos hs, List.append_nil]
    exact h.congr (s.addDocument_occurrences document) (s.addDocument_edges document)
  · rw [if_neg (by simp [hs])]
    exact h.loaded fun o ho => (hr o ho).document

end Store

end TagRank
