import Mathlib.Data.List.SplitBy
import Mathlib.Data.List.Sort

namespace TagRank

variable {β : Type}

theorem filter_mergeSort {le : β → β → Bool} (trans : ∀ a b c, le a b → le b c → le a c)
    (total : ∀ a b, le a b || le b a) (p : β → Bool) (xs : List β) :
    (xs.mergeSort le).filter p = (xs.filter p).mergeSort le := by
  induction xs with
  | nil => simp
  | cons x xs ih =>
    obtain ⟨l, r, hs, hl, hlt⟩ := List.mergeSort_cons trans total x xs
    have hsorted := List.pairwise_mergeSort trans total (x :: xs)
    rw [hs] at hsorted
    rw [hs, List.filter_append]
    rw [hl, List.filter_append] at ih
    by_cases hp : p x
    · obtain ⟨l', r', hs', hl', hlt'⟩ := List.mergeSort_cons trans total x (xs.filter p)
      have hsorted' := List.pairwise_mergeSort trans total (x :: xs.filter p)
      rw [hs'] at hsorted'
      rw [← ih] at hl'
      rw [List.filter_cons_of_pos hp, List.filter_cons_of_pos hp, hs']
      -- both sides cut the same sorted list where `x` belongs
      have cut : ∀ u v : List β, (∀ b ∈ u, !le x b) → (∀ b ∈ v, le x b) →
          u = (u ++ v).takeWhile fun b => !le x b := by
        intro u v hu hv
        rw [List.takeWhile_append_of_pos hu]
        cases v with
        | nil => simp
        | cons b v => simp [hv b List.mem_cons_self]
      have after {u v : List β} (h : (u ++ x :: v).Pairwise (le · ·)) : ∀ b ∈ v, le x b :=
        fun b hb => List.rel_of_pairwise_cons (List.pairwise_append.1 h).2.1 hb
      have hu := cut (l.filter p) (r.filter p) (fun b hb => hlt b (List.mem_of_mem_filter hb))
        fun b hb => after hsorted b (List.mem_of_mem_filter hb)
      have hu' := cut l' r' hlt' (after hsorted')
      rw [hl', ← hu'] at hu
      rw [hu] at hl' ⊢
      rw [List.append_cancel_left hl']
    · rw [List.filter_cons_of_neg hp, List.filter_cons_of_neg hp, ih]

theorem mergeSort_congr {le le' : β → β → Bool} {xs : List β}
    (h : ∀ a ∈ xs, ∀ b ∈ xs, le a b = le' a b) : xs.mergeSort le = xs.mergeSort le' := by
  simpa using List.map_mergeSort (f := id) h

theorem pairwise_mergeSort_of_mem {le : β → β → Bool} {xs : List β}
    (trans : ∀ a ∈ xs, ∀ b ∈ xs, ∀ c ∈ xs, le a b → le b c → le a c)
    (total : ∀ a ∈ xs, ∀ b ∈ xs, le a b || le b a) :
    (xs.mergeSort le).Pairwise (le · ·) := by
  have hs : (xs.attach.mergeSort fun a b => le a.1 b.1).Pairwise fun a b => le a.1 b.1 :=
    List.pairwise_mergeSort (fun a b c => trans a.1 a.2 b.1 b.2 c.1 c.2)
      (fun a b => total a.1 a.2 b.1 b.2) xs.attach
  have hmap : (xs.attach.mergeSort fun a b => le a.1 b.1).map Subtype.val =
      (xs.attach.map Subtype.val).mergeSort le := List.map_mergeSort fun _ _ _ _ => rfl
  rw [List.attach_map_subtype_val] at hmap
  rw [← hmap, List.pairwise_map]
  exact hs

theorem pairwise_mergeSort_of_pairwise {le : β → β → Bool} {P : β → β → Prop} {xs : List β}
    (trans : ∀ a ∈ xs, ∀ b ∈ xs, ∀ c ∈ xs, le a b → le b c → le a c)
    (total : ∀ a ∈ xs, ∀ b ∈ xs, le a b || le b a) (h : xs.Pairwise P) :
    (xs.mergeSort le).Pairwise fun a b => le a b ∧ (le b a → P a b) := by
  have hmem {p : β × Nat} (hp : p ∈ xs.zipIdx) : p.1 ∈ xs := List.fst_mem_of_mem_zipIdx hp
  have hsorted : (xs.zipIdx.mergeSort (List.zipIdxLE le)).Pairwise (List.zipIdxLE le · ·) := by
    refine pairwise_mergeSort_of_mem (fun p hp q hq r hr hpq hqr => ?_) fun p hp q hq => ?_
    · have hpr := trans _ (hmem hp) _ (hmem hq) _ (hmem hr)
      have hrq := trans _ (hmem hr) _ (hmem hp) _ (hmem hq)
      have hqp := trans _ (hmem hq) _ (hmem hr) _ (hmem hp)
      grind [List.zipIdxLE]
    · have hpq := total _ (hmem hp) _ (hmem hq)
      grind [List.zipIdxLE]
  have hplaces : (xs.zipIdx.mergeSort (List.zipIdxLE le)).Pairwise fun p q => p.2 ≠ q.2 := by
    refine List.pairwise_map.1 (((List.mergeSort_perm _ _).map Prod.snd).nodup_iff.2 ?_)
    rw [List.zipIdx_map_snd]
    exact List.nodup_range'
  -- the sort is stable: it is the sort of the elements with their places, without these
  rw [← List.mergeSort_zipIdx, List.pairwise_map]
  refine (hsorted.and hplaces).imp_of_mem fun {p q} hp hq ⟨hle, hne⟩ => ?_
  have hp := List.mem_zipIdx_iff_getElem?.1 (List.mem_mergeSort.1 hp)
  have hq := List.mem_zipIdx_iff_getElem?.1 (List.mem_mergeSort.1 hq)
  obtain ⟨hi, hp⟩ := List.getElem?_eq_some_iff.1 hp
  obtain ⟨hj, hq⟩ := List.getElem?_eq_some_iff.1 hq
  have hbefore := List.pairwise_iff_getElem.1 h p.2 q.2 hi hj
  rw [hp, hq] at hbefore
  grind [List.zipIdxLE]

theorem mergeSort_eq_of_pairwise {le : β → β → Bool} (trans : ∀ a b c, le a b → le b c → le a c)
    (total : ∀ a b, le a b || le b a) {xs ys : List β} (hp : ys.Perm xs)
    (hs : ys.Pairwise fun a b => le a b ∧ ¬le b a) : xs.mergeSort le = ys := by
  have hperm : (xs.mergeSort le).Perm ys := (List.mergeSort_perm xs le).trans hp.symm
  have hsymm : Std.Symm fun a b => ¬(le a b = true ∧ le b a = true) := ⟨fun _ _ h k => h k.symm⟩
  have hapart : ys.Pairwise fun a b => ¬(le a b ∧ le b a) := hs.imp fun h k => h.2 k.2
  refine List.Perm.eq_of_pairwise (fun a b ha hb hab hba => ?_)
    (List.pairwise_mergeSort trans total xs) (hs.imp And.left) hperm
  by_contra hne
  exact hapart.forall (hperm.subset ha) hb hne ⟨hab, hba⟩

section

variable {key : β → Int}

theorem filter_append_filter_of_least {k : Int} {xs : List β}
    (hs : xs.Pairwise fun a b => key a ≤ key b) (hk : ∀ x ∈ xs, k ≤ key x) :
    (xs.filter fun x => key x == k) ++ (xs.filter fun x => key x != k) = xs := by
  induction xs with
  | nil => rfl
  | cons x xs ih =>
    obtain ⟨hx, hs⟩ := List.pairwise_cons.1 hs
    obtain ⟨hkx, hk⟩ := List.forall_mem_cons.1 hk
    by_cases h : key x = k
    · simpa [h] using ih hs hk
    · have none : xs.filter (fun y => key y == k) = [] := by
        simp only [List.filter_eq_nil_iff, beq_iff_eq]
        intro y hy
        have := hx y hy
        omega
      have all : xs.filter (fun y => key y != k) = xs := by simpa [none] using ih hs hk
      simp [h, none, all]

theorem flatMap_filter_of_sorted {ks : List Int} {xs : List β} (hks : ks.Pairwise (· < ·))
    (hs : xs.Pairwise fun a b => key a ≤ key b) (hk : ∀ x ∈ xs, key x ∈ ks) :
    (ks.flatMap fun k => xs.filter fun x => key x == k) = xs := by
  induction ks generalizing xs with
  | nil => simpa using (List.eq_nil_iff_forall_not_mem.2 fun x hx => by simpa using hk x hx).symm
  | cons k ks ih =>
    obtain ⟨hlt, hks⟩ := List.pairwise_cons.1 hks
    have least : ∀ x ∈ xs, k ≤ key x := by
      intro x hx
      rcases List.mem_cons.1 (hk x hx) with h | h
      · omega
      · exact (hlt _ h).le
    have tail : ∀ x ∈ xs.filter (fun x => key x != k), key x ∈ ks := by
      intro x hx
      simp only [List.mem_filter, bne_iff_ne] at hx
      exact (List.mem_cons.1 (hk x hx.1)).resolve_left hx.2
    have rest := ih hks (hs.filter _) tail
    have same : ∀ j ∈ ks, ((xs.filter fun x => key x != k).filter fun x => key x == j) =
        xs.filter fun x => key x == j := by
      intro j hj
      rw [List.filter_filter]
      apply List.filter_congr
      intro x _
      have := hlt j hj
      by_cases hx : key x = j
      · have : key x ≠ k := by omega
        simp [hx, hx ▸ this]
      · simp [hx]
    rw [List.flatMap_cons, ← List.flatMap_congr same, rest]
    exact filter_append_filter_of_least hs least

theorem splitBy_of_sorted {ks : List Int} {xs : List β} (hks : ks.Pairwise (· < ·))
    (hs : xs.Pairwise fun a b => key a ≤ key b) (hk : ∀ k, k ∈ ks ↔ ∃ x ∈ xs, key x = k) :
    xs.splitBy (fun a b => key a == key b) = ks.map fun k => xs.filter fun x => key x == k := by
  have inhabited : ∀ k ∈ ks, (xs.filter fun x => key x == k) ≠ [] := by
    intro k hks
    obtain ⟨x, hx, rfl⟩ := (hk k).1 hks
    exact List.ne_nil_of_mem (List.mem_filter.2 ⟨hx, by simp⟩)
  have keyed : ∀ k, ∀ x ∈ xs.filter (fun x => key x == k), key x = k := by
    intro k x hx
    simpa using (List.mem_filter.1 hx).2
  refine List.splitBy_eq_iff.2 ⟨?_, ?_, ?_, ?_⟩
  · rw [← List.flatMap_def]
    exact (flatMap_filter_of_sorted hks hs fun x hx => (hk _).2 ⟨x, hx, rfl⟩).symm
  · simp only [List.mem_map, not_exists, not_and]
    exact inhabited
  · simp only [List.forall_mem_map]
    intro k _
    refine (List.pairwise_of_forall_mem_list fun a ha b hb => ?_).isChain
    simp [keyed k a ha, keyed k b hb]
  · rw [List.isChain_map]
    apply List.Pairwise.isChain
    refine hks.imp_of_mem fun {i j} hi hj hij => ⟨inhabited i hi, inhabited j hj, ?_⟩
    rw [keyed i _ (List.getLast_mem _), keyed j _ (List.head_mem _)]
    simpa using hij.ne

end

end TagRank
