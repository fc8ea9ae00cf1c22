import Mathlib.Data.List.Induction
import Mathlib.Data.List.Nodup

namespace TagRank

variable {β : Type} [BEq β] [LawfulBEq β]

theorem eraseDups_concat (xs : List β) (x : β) :
    (xs ++ [x]).eraseDups = if x ∈ xs then xs.eraseDups else xs.eraseDups ++ [x] := by
  rw [List.eraseDups_append]
  by_cases h : x ∈ xs <;> simp [List.removeAll, h, List.eraseDups_cons]

theorem nodup_eraseDups (xs : List β) : xs.eraseDups.Nodup := by
  induction xs using List.reverseRecOn with
  | nil => simp
  | append_singleton xs x ih =>
    rw [eraseDups_concat]
    split
    · exact ih
    · rename_i h
      refine List.nodup_append.2 ⟨ih, by simp, ?_⟩
      rintro a ha b hb rfl
      rw [List.mem_singleton.1 hb] at ha
      exact h (List.mem_eraseDups.1 ha)

theorem count_concat [DecidableEq β] (xs : List β) (x y : β) :
    (xs ++ [x]).count y = xs.count y + if y = x then 1 else 0 := by
  rw [List.count_append]
  by_cases h : y = x
  · simp [h]
  · simp [h, List.count_eq_zero_of_not_mem]

theorem pairwise_idxOf_eraseDups (p : β → Bool) (xs : List β) :
    (xs.filter p).eraseDups.Pairwise fun a b => xs.idxOf a < xs.idxOf b := by
  induction xs using List.reverseRecOn with
  | nil => exact .nil
  | append_singleton xs x ih =>
    have hmem {a : β} (ha : a ∈ (xs.filter p).eraseDups) : a ∈ xs :=
      List.mem_of_mem_filter (List.mem_eraseDups.1 ha)
    have hold : (xs.filter p).eraseDups.Pairwise
        fun a b => (xs ++ [x]).idxOf a < (xs ++ [x]).idxOf b := by
      refine ih.imp_of_mem fun ha hb h => ?_
      rwa [List.idxOf_append_of_mem (hmem ha), List.idxOf_append_of_mem (hmem hb)]
    rw [List.filter_append]
    by_cases hx : p x
    · rw [List.filter_cons_of_pos hx, List.filter_nil, eraseDups_concat]
      split
      · exact hold
      · rename_i hnew
        have hnew : x ∉ xs := fun h => hnew (List.mem_filter.2 ⟨h, hx⟩)
        refine List.pairwise_append.2 ⟨hold, List.pairwise_singleton _ _, fun a ha b hb => ?_⟩
        rw [List.mem_singleton.1 hb, List.idxOf_append_of_mem (hmem ha),
          List.idxOf_append_of_notMem hnew]
        exact Nat.lt_add_right _ (List.idxOf_lt_length_of_mem (hmem ha))
    · rw [List.filter_cons_of_neg hx, List.filter_nil, List.append_nil]
      exact hold

end TagRank
