import Mathlib.Algebra.Group.Nat.Defs
import TagRank.Text.Case

/-!
Folding is idempotent: what the table puts in the place of a character, it leaves as it is. And it
puts something in the place of every character.
-/

namespace TagRank.Text

/-- A finite set of numbers as the bits of one, so that two sets are compared in one step. -/
def mask (ns : List Nat) : Nat := ns.foldr (fun n m => 2 ^ n ||| m) 0

theorem testBit_mask (ns : List Nat) (n : Nat) : (mask ns).testBit n = decide (n ∈ ns) := by
  induction ns with
  | nil => simp [mask]
  | cons m ns ih =>
    have hcons : mask (m :: ns) = 2 ^ m ||| mask ns := rfl
    rw [hcons, Nat.testBit_or, Nat.testBit_two_pow, ih]
    simp [eq_comm]

theorem not_mem_of_mask {ms ns : List Nat} (h : mask ms &&& mask ns = 0) {n : Nat} (hn : n ∈ ms) :
    n ∉ ns := by
  have hbit := congrArg (Nat.testBit · n) h
  simpa [Nat.testBit_and, testBit_mask, hn] using hbit

def CaseRun.points (r : CaseRun) : List Nat :=
  (List.range ((r.last - r.first) / r.step + 1)).map fun k => r.first + k * r.step

theorem CaseRun.mem_points {r : CaseRun} {n : Nat} (h : r.covers n = true) : n ∈ r.points := by
  simp only [covers, Bool.and_eq_true, decide_eq_true_eq, beq_iff_eq] at h
  obtain ⟨⟨hfirst, hlast⟩, hstep⟩ := h
  have hle : (n - r.first) / r.step ≤ (r.last - r.first) / r.step :=
    Nat.div_le_div_right (by omega)
  have hmul : (n - r.first) / r.step * r.step = n - r.first :=
    Nat.div_mul_cancel (Nat.dvd_of_mod_eq_zero hstep)
  exact List.mem_map.2 ⟨(n - r.first) / r.step, List.mem_range.2 (by omega), by omega⟩

namespace CaseTable

def domain (t : CaseTable) : List Nat :=
  t.runs.flatMap CaseRun.points ++ t.expansions.map Prod.fst

def images (t : CaseTable) : List Nat :=
  t.runs.flatMap (fun r => r.points.map fun (n : Nat) => (n + r.shift).toNat) ++
    t.expansions.flatMap Prod.snd

theorem image_of_not_mem {t : CaseTable} {c : Char} (h : c.toNat ∉ t.domain) :
    t.image c = [c] := by
  have hruns : t.runs.find? (·.covers c.toNat) = none := by
    rw [List.find?_eq_none]
    intro r hr hc
    exact h (List.mem_append_left _ (List.mem_flatMap.2 ⟨r, hr, CaseRun.mem_points hc⟩))
  have hexpansions : t.expansions.lookup c.toNat = none := by
    rw [List.lookup_eq_none_iff]
    intro e he
    have hne : c.toNat ≠ e.1 := fun hc =>
      h (List.mem_append_right _ (hc ▸ List.mem_map_of_mem he))
    exact bne_iff_ne.2 hne
  simp only [image, hruns, hexpansions]

theorem image_cases (t : CaseTable) (c : Char) :
    t.image c = [c] ∨ ∀ d ∈ t.image c, ∃ n ∈ t.images, d = Char.ofNat n := by
  simp only [image]
  split
  · rename_i r hr
    have hcovers : r.covers c.toNat = true :=
      List.find?_some (p := fun r : CaseRun => r.covers c.toNat) hr
    refine .inr fun d hd => ⟨(c.toNat + r.shift).toNat, List.mem_append_left _ ?_,
      List.mem_singleton.1 hd⟩
    exact List.mem_flatMap.2 ⟨r, List.mem_of_find?_eq_some hr,
      List.mem_map.2 ⟨c.toNat, CaseRun.mem_points hcovers, rfl⟩⟩
  · split
    · rename_i ns hns
      obtain ⟨before, after, hes, -⟩ := List.lookup_eq_some_iff.1 hns
      refine .inr fun d hd => ?_
      obtain ⟨n, hn, rfl⟩ := List.mem_map.1 hd
      refine ⟨n, List.mem_append_right _ (List.mem_flatMap.2 ⟨(c.toNat, ns), ?_, hn⟩), rfl⟩
      simp [hes]
    · exact .inl rfl

end CaseTable

/-- No character is moved onto one that is moved itself. Zero stands for what is no character. -/
theorem mask_foldTable : mask (0 :: foldTable.images) &&& mask foldTable.domain = 0 := by
  decide +kernel

theorem foldChar_of_mem {c d : Char} (h : d ∈ foldChar c) : foldChar d = [d] := by
  rcases foldTable.image_cases c with hc | hc
  · have hd : d = c := List.mem_singleton.1 (hc ▸ (h : d ∈ foldTable.image c))
    rw [hd]
    exact hc
  · obtain ⟨n, hn, rfl⟩ := hc d h
    refine CaseTable.image_of_not_mem (not_mem_of_mask mask_foldTable ?_)
    by_cases hv : n.isValidChar
    · have hchar : (Char.ofNat n).toNat = n := by
        rw [Char.ofNat, dif_pos hv]
        rfl
      rw [hchar]
      exact List.mem_cons_of_mem 0 hn
    · have hchar : (Char.ofNat n).toNat = 0 := by
        rw [Char.ofNat, dif_neg hv]
        rfl
      rw [hchar]
      exact List.mem_cons_self

theorem foldChar_of_mem_fold {s : String} {c : Char} (h : c ∈ (fold s).toList) :
    foldChar c = [c] := by
  rw [toList_fold] at h
  obtain ⟨_, _, h⟩ := List.mem_flatMap.1 h
  exact foldChar_of_mem h

theorem fold_eq_self {s : String} (h : ∀ c ∈ s.toList, foldChar c = [c]) : fold s = s := by
  have hmap : ∀ cs : List Char, (∀ c ∈ cs, foldChar c = [c]) → cs.flatMap foldChar = cs := by
    intro cs hcs
    induction cs with
    | nil => rfl
    | cons c cs ih =>
      obtain ⟨hc, hcs⟩ := List.forall_mem_cons.1 hcs
      rw [List.flatMap_cons, hc, ih hcs]
      rfl
  rw [← String.toList_inj, toList_fold, hmap _ h]

theorem fold_of_subset {s t : String} (h : t.toList ⊆ (fold s).toList) : fold t = t :=
  fold_eq_self fun _ hc => foldChar_of_mem_fold (h hc)

@[simp] theorem fold_fold (s : String) : fold (fold s) = fold s :=
  fold_of_subset (List.Subset.refl _)

theorem foldChar_ne_nil (c : Char) : foldChar c ≠ [] := by
  have expansions : ∀ e ∈ foldTable.expansions, e.2 ≠ [] := by decide +kernel
  rw [foldChar, CaseTable.image]
  split
  · exact List.cons_ne_nil _ _
  · split
    · rename_i ns hns
      obtain ⟨before, after, hes, -⟩ := List.lookup_eq_some_iff.1 hns
      have hne := expansions (c.toNat, ns) (by simp [hes])
      simpa using hne
    · exact List.cons_ne_nil _ _

theorem fold_eq_empty {s : String} : fold s = "" ↔ s = "" := by
  rw [← String.toList_inj, ← String.toList_inj, toList_fold, String.toList_empty,
    List.flatMap_eq_nil_iff]
  refine ⟨fun h => ?_, fun h => by simp [h]⟩
  exact List.eq_nil_iff_forall_not_mem.2 fun c hc => foldChar_ne_nil c (h c hc)

end TagRank.Text
