import Mathlib
import TagRank.Proofs.Aggregation

namespace TagRank.Aggregation

variable {α : Type} {f : Filter} {spans : List (Span α)} {tag : String}

def lastScore? (tag : String) (spans : List (Span α)) : Option α :=
  ((spans.filter (·.tag == tag)).getLast?).map Span.score

def lastScores (spans : List (Span α)) : Scores α :=
  Assoc.ofList (spans.map fun s => (s.tag, s.score))

theorem get?_lastScores (tag : String) (spans : List (Span α)) :
    Assoc.get? tag (lastScores spans) = lastScore? tag spans := by
  rw [lastScores]
  induction spans using List.reverseRecOn with
  | nil => rfl
  | append_singleton spans s ih =>
    rw [List.map_append, List.map_singleton, Assoc.ofList_concat, Assoc.get?_insert, ih, lastScore?,
      lastScore?, List.filter_append]
    by_cases h : s.tag = tag
    · simp [h]
    · simp [h]

theorem lastScore?_of_mem {p : String × α} (h : p ∈ lastScores spans) :
    lastScore? p.1 spans = some p.2 := by
  rw [← get?_lastScores]
  exact Assoc.get?_of_mem (Assoc.nodup_ofList _) h

theorem score_of_mem_lastScores {p : String × α} (h : p ∈ lastScores spans) :
    p.2 ∈ spans.map Span.score := by
  obtain ⟨s, hs, rfl⟩ := List.mem_map.1 (Assoc.mem_of_mem_ofList h)
  exact List.mem_map_of_mem hs

theorem keys_lastScores (spans : List (Span α)) :
    Assoc.keys (lastScores spans) = (spans.map Span.tag).eraseDups := by
  rw [lastScores, Assoc.keys_ofList, List.map_map]
  rfl

theorem pairwise_idxOf_lastScores (f : Filter) (spans : List (Span α)) :
    (lastScores (kept f spans)).Pairwise fun p q =>
      (spans.map Span.tag).idxOf p.1 < (spans.map Span.tag).idxOf q.1 := by
  have hplaces := pairwise_idxOf_eraseDups (fun tag => !f.isStopword (Key.value tag))
    (spans.map Span.tag)
  have hkeys : Assoc.keys (lastScores (kept f spans)) =
      ((spans.map Span.tag).filter fun tag => !f.isStopword (Key.value tag)).eraseDups := by
    rw [keys_lastScores, List.filter_map]
    rfl
  rwa [← hkeys, Assoc.keys, List.pairwise_map] at hplaces

/-- The first tag has the better score, or it has the same one and is mentioned first. -/
def Precedes [LE α] (f : Filter) (spans : List (Span α)) (a b : String) : Prop :=
  ∃ x ∈ lastScore? a (kept f spans), ∃ y ∈ lastScore? b (kept f spans), y ≤ x ∧
    (x = y → (spans.map Span.tag).idxOf a < (spans.map Span.tag).idxOf b)

variable [Scalar α]

def ranked (f : Filter) (spans : List (Span α)) : List String :=
  (Scores.descending (lastScores (kept f spans))).map Prod.fst

theorem singles_eq (f : Filter) (trailing : Trailing) (limit : Int) (spans : List (Span α)) :
    (ofSpans f trailing limit spans).singles = (ranked f spans).take limit.toNat := by
  rw [ofSpans_singles, ranked, List.map_take]
  rfl

theorem perm_ranked (f : Filter) (spans : List (Span α)) :
    (ranked f spans).Perm ((kept f spans).map Span.tag).eraseDups :=
  ((Scores.perm_descending _).map Prod.fst).trans (.of_eq (keys_lastScores (kept f spans)))

theorem pairwise_ranked (f : Filter) {spans : List (Span α)}
    (h : Comparable (spans.map Span.score)) : (ranked f spans).Pairwise (Precedes f spans) := by
  have hscores : Comparable ((lastScores (kept f spans)).map Prod.snd) := by
    refine h.mono fun x hx => ?_
    obtain ⟨p, hp, rfl⟩ := List.mem_map.1 hx
    exact List.map_subset _ (List.filter_subset_self _) (score_of_mem_lastScores hp)
  have hsorted := Scores.pairwise_descending_of_pairwise hscores (pairwise_idxOf_lastScores f spans)
  refine List.pairwise_map.2 (hsorted.imp_of_mem fun {p q} hp hq hpq => ?_)
  have hp := lastScore?_of_mem (List.mem_mergeSort.1 hp)
  have hq := lastScore?_of_mem (List.mem_mergeSort.1 hq)
  exact ⟨p.2, hp, q.2, hq, hpq⟩

/-- As many tags are chosen as there may be and are to choose from. Scores descend, equal ones stand
in the order of the text, and what is left out would not come before what is chosen. -/
theorem ofSpans_chooses (f : Filter) (trailing : Trailing) (limit : Int) {spans : List (Span α)}
    (h : Comparable (spans.map Span.score)) :
    let a := ofSpans f trailing limit spans
    let tags := ((kept f spans).map Span.tag).eraseDups
    a.singles.Nodup ∧ a.singles ⊆ tags ∧ (a.singles.length : Int) = min (max 0 limit) tags.length ∧
      a.singles.Pairwise (Precedes f spans) ∧
      (∀ tag ∈ a.singles, ∀ other ∈ tags, other ∉ a.singles → Precedes f spans tag other) ∧
      ∀ tag ∈ a.singles, Assoc.get? tag a.counts = some 1 := by
  intro a tags
  have hranked := pairwise_ranked f h
  have hperm : (ranked f spans).Perm tags := perm_ranked f spans
  have hsingles : a.singles = (ranked f spans).take limit.toNat := singles_eq f trailing limit spans
  rw [← List.take_append_drop limit.toNat (ranked f spans), ← hsingles] at hranked hperm
  obtain ⟨hchosen, -, hrest⟩ := List.pairwise_append.1 hranked
  refine ⟨nodup_singles f trailing limit spans, fun tag htag => ?subset, ?length, hchosen,
    fun tag htag other hother hnot => ?rest, fun tag htag => ?count⟩
  case subset => exact hperm.subset (List.mem_append_left _ htag)
  case length =>
    have hlength := hperm.length_eq
    have htake := congrArg List.length hsingles
    simp only [List.length_append, List.length_take, List.length_drop] at hlength htake
    omega
  case rest =>
    exact hrest tag htag other ((List.mem_append.1 (hperm.mem_iff.2 hother)).resolve_left hnot)
  case count =>
    have hcount := getD_countOnce tag a.singles (closed trailing (after f spans)).counts
    rw [if_pos htag, ← ofSpans_counts, Assoc.getD] at hcount
    cases hg : Assoc.get? tag a.counts with
    | none => simp [a, hg] at hcount
    | some n =>
      rw [← hcount]
      simp [a, hg]

theorem ofSpans_chooses_sameScore :
    let f : Filter := ⟨["new"], true⟩
    let spans : List (Span Rat) := [⟨"tree_en", 0, 4, 1⟩, ⟨"new_en", 5, 8, 9⟩,
      ⟨"leaf_en", 9, 13, 2⟩, ⟨"tree_en", 14, 18, 2⟩, ⟨"data_en", 19, 23, 0⟩]
    Comparable (spans.map Span.score) ∧
      (ofSpans f .flush 2 spans).singles = ["tree_en", "leaf_en"] ∧
      Precedes f spans "leaf_en" "data_en" := by
  intro f spans
  have hcomparable : Comparable (spans.map Span.score) := comparable_rat _
  have hkept : (kept f spans).map (fun s => (s.tag, s.score)) =
      [("tree_en", 1), ("leaf_en", 2), ("tree_en", 2), ("data_en", 0)] := by cbv
  have htags : (kept f spans).map Span.tag = ["tree_en", "leaf_en", "tree_en", "data_en"] :=
    List.map_map.symm.trans (congrArg (List.map Prod.fst) hkept)
  have hsorted : Scores.descending [("tree_en", (2 : Rat)), ("leaf_en", 2), ("data_en", 0)] =
      [("tree_en", 2), ("leaf_en", 2), ("data_en", 0)] := List.mergeSort_of_pairwise (by simp)
  have hsingles : (ofSpans f .flush 2 spans).singles = ["tree_en", "leaf_en"] := by
    rw [ofSpans_singles, hkept]
    exact congrArg (fun scores => (scores.take 2).map Prod.fst) hsorted
  obtain ⟨-, -, -, -, hrest, -⟩ := ofSpans_chooses f .flush 2 hcomparable
  rw [hsingles, htags] at hrest
  exact ⟨hcomparable, hsingles, hrest "leaf_en" (by simp) "data_en" (by simp) (by simp)⟩

end TagRank.Aggregation
