import TagRank.Proofs.Sorted
import TagRank.Proofs.Store.Edge
import TagRank.Store.Occurrence

namespace TagRank

theorem isLexLe_trans {xs ys zs : List Int} (h : isLexLe xs ys) (k : isLexLe ys zs) :
    isLexLe xs zs := by
  induction xs generalizing ys zs with
  | nil => rfl
  | cons x xs ih =>
    cases ys with
    | nil => simp [isLexLe] at h
    | cons y ys =>
      cases zs with
      | nil => simp [isLexLe] at k
      | cons z zs =>
        simp only [isLexLe, Bool.or_eq_true, Bool.and_eq_true, decide_eq_true_eq,
          beq_iff_eq] at h k ⊢
        rcases h with h | ⟨rfl, h⟩ <;> rcases k with k | ⟨rfl, k⟩
        · exact .inl (h.trans k)
        · exact .inl h
        · exact .inl k
        · exact .inr ⟨rfl, ih h k⟩

theorem isLexLe_total (xs ys : List Int) : isLexLe xs ys || isLexLe ys xs := by
  induction xs generalizing ys with
  | nil => rfl
  | cons x xs ih =>
    cases ys with
    | nil => rfl
    | cons y ys =>
      have := ih ys
      simp only [isLexLe, Bool.or_eq_true, Bool.and_eq_true, decide_eq_true_eq,
        beq_iff_eq] at this ⊢
      rcases lt_trichotomy x y with h | rfl | h
      · exact .inl (.inl h)
      · simpa using this
      · exact .inr (.inl h)

namespace Store

def sentenceIndices (s : Store) (document : String) : List Int :=
  ((s.tokensOf document).map Token.sentence).eraseDups.mergeSort

def sentenceAt (s : Store) (document : String) (index : Int) : List Token :=
  ((s.tokensOf document).filter fun t => t.sentence == index).mergeSort
    fun t u => t.start < u.start || (t.start == u.start && t.order ≤ u.order)

/-- The tags of neighbouring candidates, sentence by sentence, each pair in order. -/
def scan (s : Store) (document : String) : List (String × String) :=
  (s.sentenceIndices document).flatMap fun i =>
    (neighbours (Token.candidates (s.sentenceAt document i))).map
      fun (t, u) => inOrder t.key u.key

theorem sentenceIndices_sorted (s : Store) (document : String) :
    (s.sentenceIndices document).Pairwise (· < ·) := by
  have hle : (s.sentenceIndices document).Pairwise (· ≤ ·) :=
    List.pairwise_mergeSort' (· ≤ ·) _
  have hne : (s.sentenceIndices document).Nodup :=
    (List.mergeSort_perm _ _).nodup_iff.2 (nodup_eraseDups _)
  exact hle.and hne |>.imp fun h => lt_of_le_of_ne h.1 h.2

theorem sentencesOf_eq (s : Store) (document : String) :
    s.sentencesOf document = (s.sentenceIndices document).map (s.sentenceAt document) := by
  let place (t : Token) := [t.sentence, t.start, t.order]
  have trans : ∀ t u v : Token, isLexLe (place t) (place u) → isLexLe (place u) (place v) →
      isLexLe (place t) (place v) := fun _ _ _ => isLexLe_trans
  have total : ∀ t u : Token, isLexLe (place t) (place u) || isLexLe (place u) (place t) :=
    fun _ _ => isLexLe_total _ _
  have sorted : ((s.tokensOf document).mergeSort fun t u => isLexLe (place t) (place u)).Pairwise
      fun t u => t.sentence ≤ u.sentence := by
    refine (List.pairwise_mergeSort trans total _).imp fun {t u} h => ?_
    simp only [place, isLexLe, Bool.or_eq_true, Bool.and_eq_true, decide_eq_true_eq,
      beq_iff_eq] at h
    omega
  simp only [sentencesOf]
  rw [splitBy_of_sorted (s.sentenceIndices_sorted document) sorted]
  · apply List.map_congr_left
    intro i _
    rw [filter_mergeSort trans total]
    apply mergeSort_congr
    intro t ht u hu
    simp only [List.mem_filter, beq_iff_eq] at ht hu
    simp [place, isLexLe, ht.2, hu.2, le_iff_lt_or_eq, Bool.beq_eq_decide_eq]
  · intro i
    simp [sentenceIndices]

def addEdges (document relation field : String) (pairs : List (String × String)) (s : Store) :
    Store :=
  { s with edges := Edge.addAll document relation field pairs s.edges }

def built (document relation field : String) (s : Store) : Store :=
  s.addEdges document relation field (s.scan document)

end Store

end TagRank
