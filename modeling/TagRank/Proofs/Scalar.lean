import Mathlib.Algebra.BigOperators.Ring.List
import Mathlib.Algebra.Order.BigOperators.Group.List
import Mathlib.Algebra.Order.Field.Rat
import Mathlib.Data.List.Nodup
import TagRank.Scalar
import TagRank.Proofs.Assoc

namespace TagRank

namespace Scalar

theorem sum_eq (xs : List Rat) : sum xs = xs.sum := by
  rw [List.sum_eq_foldl]
  rfl

theorem abs_eq (x : Rat) : abs x = |x| := by
  simp only [abs]
  split
  · rename_i h
    exact (abs_of_neg h).symm
  · rename_i h
    exact (abs_of_nonneg (not_lt.1 h)).symm

theorem le_greatest? {x : Rat} {xs : List Rat} (h : x ∈ xs) : x ≤ (greatest? xs).getD 0 := by
  have above (ys : List Rat) (m : Rat) :
      ∀ y ∈ m :: ys, y ≤ ys.foldl (fun m y => if m < y then y else m) m := by
    induction ys generalizing m with
    | nil => simp
    | cons z ys ih =>
      have hm := ih (if m < z then z else m)
      simp only [List.forall_mem_cons, List.foldl_cons] at hm ⊢
      refine ⟨le_trans ?_ hm.1, le_trans ?_ hm.1, hm.2⟩
      · split
        · exact le_of_lt ‹_›
        · exact le_refl m
      · split
        · exact le_refl z
        · exact not_lt.1 ‹_›
  cases xs with
  | nil => cases h
  | cons m ys => exact above ys m x h

end Scalar

theorem Assoc.sum_map {κ β : Type} [DecidableEq κ] {m : List (κ × β)} (hm : (keys m).Nodup)
    {ks : List κ} (hks : ks.Nodup) (hsub : ∀ k ∈ keys m, k ∈ ks) (f : κ → β → Rat) :
    (m.map fun p => f p.1 p.2).sum = (ks.map fun k => (get? k m).elim 0 (f k)).sum := by
  induction m with
  | nil => simp [get?]
  | cons p m ih =>
    obtain ⟨hp, hm⟩ := List.nodup_cons.1 hm
    obtain ⟨hk, hsub⟩ := List.forall_mem_cons.1 hsub
    have split : ∀ k, (get? k (p :: m)).elim 0 (f k) =
        if k = p.1 then f p.1 p.2 else (get? k m).elim 0 (f k) := by
      intro k
      by_cases h : k = p.1
      · simp [get?, h]
      · simp [get?, h, Ne.symm h]
    have absent : get? p.1 m = none := get?_eq_none.2 hp
    simp only [split]
    rw [List.map_cons, List.sum_cons, ih hm hsub, List.sum_map_ite_eq,
      List.count_eq_one_of_mem hks hk, absent]
    simp

end TagRank
