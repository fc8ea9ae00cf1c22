import TagRank.Proofs.Aggregation.Progress
import TagRank.Proofs.Ranking.Ranked

namespace TagRank.Aggregation

variable {α : Type} {f : Filter} {p : Progress α} {spans : List (Span α)}

def closed (trailing : Trailing) (p : Progress α) : Progress α :=
  if trailing = .flush then p.flush else p

variable {trailing : Trailing}

theorem scores_closed (p : Progress α) : (closed trailing p).scores = p.scores := by
  rw [closed]
  split
  · exact Progress.scores_flush p
  · rfl

theorem keys_closed (h : Assoc.keys p.counts = p.phrases) :
    Assoc.keys (closed trailing p).counts = (closed trailing p).phrases := by
  rw [closed]
  split
  · exact keys_flush h
  · exact h

theorem nodup_closed (h : (Assoc.keys p.counts).Nodup) :
    (Assoc.keys (closed trailing p).counts).Nodup := by
  rw [closed]
  split
  · exact nodup_flush h
  · exact h

theorem Phrased.closed (h : Phrased f spans p) : Phrased f spans (closed trailing p) := by
  rw [Aggregation.closed]
  split
  · exact h.flush
  · exact h

theorem Paced.closed {n : Nat} (h : Paced n p) (trailing : Trailing) :
    ∃ m, Counted m (closed trailing p).counts ∧ m ≤ n := by
  rw [Aggregation.closed]
  split
  · exact h.flush
  · obtain ⟨m, hm, hn⟩ := h.counts
    exact ⟨m, hm, Nat.le_of_add_right_le hn⟩

def countOnce (tags : List String) (counts : List (String × Nat)) : List (String × Nat) :=
  tags.foldl (fun counts tag => Assoc.insert tag 1 counts) counts

theorem mem_keys_countOnce {key : String} {tags : List String} {counts : List (String × Nat)} :
    key ∈ Assoc.keys (countOnce tags counts) ↔ key ∈ Assoc.keys counts ∨ key ∈ tags := by
  induction tags generalizing counts with
  | nil => simp [countOnce]
  | cons tag tags ih =>
    rw [countOnce, List.foldl_cons, ← countOnce, ih, Assoc.mem_keys_insert, List.mem_cons,
      or_assoc, or_left_comm]

theorem nodup_countOnce (tags : List String) {counts : List (String × Nat)}
    (h : (Assoc.keys counts).Nodup) : (Assoc.keys (countOnce tags counts)).Nodup := by
  induction tags generalizing counts with
  | nil => exact h
  | cons tag tags ih => exact ih (Assoc.nodup_insert h _ _)

theorem keys_countOnce {tags : List String} (h : tags.Nodup) (counts : List (String × Nat)) :
    Assoc.keys (countOnce tags counts) =
      Assoc.keys counts ++ tags.filter (· ∉ Assoc.keys counts) := by
  induction tags generalizing counts with
  | nil => simp [countOnce]
  | cons tag tags ih =>
    obtain ⟨htag, h⟩ := List.nodup_cons.1 h
    rw [countOnce, List.foldl_cons, ← countOnce, ih h, Assoc.keys_insert]
    by_cases hk : tag ∈ Assoc.keys counts
    · simp [hk]
    · have hrest : tags.filter (· ∉ Assoc.keys counts ++ [tag]) =
          tags.filter (· ∉ Assoc.keys counts) := by
        refine List.filter_congr fun t ht => ?_
        have hne : t ≠ tag := fun he => htag (he ▸ ht)
        simp [hne]
      rw [if_neg hk, hrest]
      simp [hk]

theorem getD_countOnce (key : String) (tags : List String) (counts : List (String × Nat)) :
    Assoc.getD key 0 (countOnce tags counts) =
      if key ∈ tags then 1 else Assoc.getD key 0 counts := by
  induction tags generalizing counts with
  | nil => simp [countOnce]
  | cons tag tags ih =>
    rw [countOnce, List.foldl_cons, ← countOnce, ih]
    by_cases hk : key = tag
    · simp [Assoc.getD, hk]
    · simp [Assoc.getD, hk, Ne.symm hk]

theorem countOnce_eq {tags : List String} (h : tags.Nodup) {counts : List (String × Nat)}
    (hc : (Assoc.keys counts).Nodup) :
    countOnce tags counts = (Assoc.keys counts ++ tags.filter (· ∉ Assoc.keys counts)).map
      fun key => (key, if key ∈ tags then 1 else Assoc.getD key 0 counts) := by
  rw [Assoc.eq_map_keys (nodup_countOnce tags hc) 0, keys_countOnce h]
  refine List.map_congr_left fun key _ => ?_
  rw [getD_countOnce]

theorem length_countOnce_le (tags : List String) (counts : List (String × Nat)) :
    (countOnce tags counts).length ≤ counts.length + tags.length := by
  induction tags generalizing counts with
  | nil => exact Nat.le_refl _
  | cons tag tags ih =>
    have hl := Assoc.length_insert_le tag 1 counts
    have h := ih (Assoc.insert tag 1 counts)
    rw [countOnce, List.foldl_cons, ← countOnce, List.length_cons]
    omega

theorem mem_countOnce {tags : List String} {counts : List (String × Nat)} {c : String × Nat}
    (h : c ∈ countOnce tags counts) : c.2 = 1 ∨ c ∈ counts := by
  induction tags generalizing counts with
  | nil => exact .inr h
  | cons tag tags ih =>
    rcases ih h with h | h
    · exact .inl h
    · rcases Assoc.mem_insert h with rfl | h
      · exact .inl rfl
      · exact .inr h

section

variable [Scalar α] (f : Filter) (trailing : Trailing) (limit : Int) (spans : List (Span α))

theorem ofSpans_counts :
    (ofSpans f trailing limit spans).counts =
      countOnce (ofSpans f trailing limit spans).singles (closed trailing (after f spans)).counts :=
  rfl

theorem ofSpans_singles :
    (ofSpans f trailing limit spans).singles = ((Scores.descending (Assoc.ofList
      ((kept f spans).map fun s => (s.tag, s.score)))).take limit.toNat).map Prod.fst := by
  rw [← scores_after, ← scores_closed (after f spans)]
  rfl

theorem nodup_singles : (ofSpans f trailing limit spans).singles.Nodup := by
  have hkeys := Assoc.nodup_ofList ((kept f spans).map fun s => (s.tag, s.score))
  rw [ofSpans_singles]
  refine List.Nodup.sublist ((List.take_sublist _ _).map _) ?_
  exact ((Scores.perm_descending _).map Prod.fst).nodup_iff.2 hkeys

theorem nodup_ofSpans : (Assoc.keys (ofSpans f trailing limit spans).counts).Nodup := by
  rw [ofSpans_counts]
  exact nodup_countOnce _ (nodup_closed (nodup_after f spans))

variable {f trailing limit spans}

theorem mem_keys_ofSpans {key : String} :
    key ∈ Assoc.keys (ofSpans f trailing limit spans).counts ↔
      key ∈ (ofSpans f trailing limit spans).phrases ∨
        key ∈ (ofSpans f trailing limit spans).singles := by
  rw [ofSpans_counts, mem_keys_countOnce, keys_closed (keys_after f spans)]
  rfl

theorem phrase_of_mem {key : String} (h : key ∈ (ofSpans f trailing limit spans).phrases) :
    ∃ words language, key = Key.ofWords words language ∧ 1 < words.length ∧
      IsPhrase f spans words language :=
  (phrased_after f spans).closed.phrases key h

theorem kept_of_mem_singles {key : String} (h : key ∈ (ofSpans f trailing limit spans).singles) :
    ∃ s ∈ kept f spans, s.tag = key := by
  rw [ofSpans_singles] at h
  obtain ⟨p, hp, rfl⟩ := List.mem_map.1 h
  have hp : p.1 ∈ Assoc.keys (Assoc.ofList ((kept f spans).map fun s => (s.tag, s.score))) :=
    List.mem_map_of_mem (List.mem_mergeSort.1 (List.mem_of_mem_take hp))
  simpa using Assoc.mem_keys_ofList.1 hp

theorem length_singles_le : (ofSpans f trailing limit spans).singles.length ≤ spans.length := by
  have h := (paced_after f spans).scores
  rw [scores_after] at h
  rw [ofSpans_singles, List.length_map, Scores.descending]
  exact Nat.le_trans (List.length_take_le' _ _) (by simpa using h)

theorem length_ofSpans_le :
    (ofSpans f trailing limit spans).counts.length ≤ 2 * spans.length := by
  obtain ⟨m, hm, hn⟩ := (paced_after f spans).closed trailing
  have hs : (ofSpans f trailing limit spans).singles.length ≤ spans.length := length_singles_le
  have h := length_countOnce_le (ofSpans f trailing limit spans).singles
    (closed trailing (after f spans)).counts
  have hc := hm.1
  rw [ofSpans_counts]
  omega

theorem le_of_mem_ofSpans {c : String × Nat} (h : c ∈ (ofSpans f trailing limit spans).counts) :
    c.2 = 1 ∨ c.2 ≤ spans.length := by
  obtain ⟨m, hm, hn⟩ := (paced_after f spans).closed trailing
  rcases mem_countOnce h with h | h
  · exact .inl h
  · exact .inr (Nat.le_trans (hm.2 c h) hn)

end

end TagRank.Aggregation
