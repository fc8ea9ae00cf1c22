import Mathlib.Data.List.DropRight
import TagRank.Proofs.Text.Fold
import TagRank.Text.Blank

namespace TagRank.Text

def IsBare (cs : List Char) : Prop := ∀ c ∈ cs.head?, isBlank c = false

theorem dropBlanks_eq_self {cs : List Char} : dropBlanks cs = cs ↔ IsBare cs := by
  cases cs with
  | nil => simp [dropBlanks, IsBare]
  | cons c cs => simp [dropBlanks, IsBare, List.dropWhile_eq_self_iff]

theorem isBare_dropBlanks (cs : List Char) : IsBare (dropBlanks cs) :=
  dropBlanks_eq_self.1 (List.dropWhile_idempotent ..)

theorem IsBare.of_starts {cs ds : List Char} (h : IsBare ds) (hp : cs <+: ds) : IsBare cs := by
  obtain ⟨rest, rfl⟩ := hp
  cases cs with
  | nil => simp [IsBare]
  | cons c cs => simpa [IsBare] using h

theorem isBare_trimList (cs : List Char) :
    IsBare (trimList cs) ∧ IsBare (trimList cs).reverse := by
  have hprefix : trimList cs <+: dropBlanks cs := List.rdropWhile_prefix isBlank _
  refine ⟨(isBare_dropBlanks cs).of_starts hprefix, ?_⟩
  rw [trimList, List.reverse_reverse]
  exact isBare_dropBlanks _

theorem trimList_eq_self {cs : List Char} (h : IsBare cs) (h' : IsBare cs.reverse) :
    trimList cs = cs := by
  rw [trimList, dropBlanks_eq_self.2 h, dropBlanks_eq_self.2 h', List.reverse_reverse]

theorem IsBare.flatMap {f : Char → List Char} (hne : ∀ c, f c ≠ [])
    (hf : ∀ c, isBlank c = false → ∀ d ∈ f c, isBlank d = false) {cs : List Char}
    (h : IsBare cs) : IsBare (cs.flatMap f) := by
  cases cs with
  | nil => exact h
  | cons c cs =>
    obtain ⟨d, ds, hd⟩ := List.exists_cons_of_ne_nil (hne c)
    have hc : isBlank c = false := h c rfl
    have hblank : isBlank d = false := hf c hc d (hd ▸ .head _)
    simpa [IsBare, hd] using hblank

theorem not_isBlank_images : ∀ n ∈ foldTable.images, isBlank (Char.ofNat n) = false := by
  decide +kernel

theorem not_isBlank_of_mem_foldChar {c d : Char} (hc : isBlank c = false) (hd : d ∈ foldChar c) :
    isBlank d = false := by
  rcases foldTable.image_cases c with h | h
  · have hd : d ∈ foldTable.image c := hd
    rw [h] at hd
    rwa [List.mem_singleton.1 hd]
  · obtain ⟨n, hn, rfl⟩ := h d hd
    exact not_isBlank_images n hn

theorem IsBare.fold {cs : List Char} (h : IsBare cs) : IsBare (cs.flatMap foldChar) :=
  h.flatMap foldChar_ne_nil fun _ hc _ hd => not_isBlank_of_mem_foldChar hc hd

theorem IsBare.fold_reverse {cs : List Char} (h : IsBare cs.reverse) :
    IsBare (cs.flatMap foldChar).reverse := by
  rw [List.reverse_flatMap]
  refine h.flatMap (fun c => ?_) fun c hc d hd => ?_
  · exact mt List.reverse_eq_nil_iff.1 (foldChar_ne_nil c)
  · exact not_isBlank_of_mem_foldChar hc (List.mem_reverse.1 hd)

@[simp] theorem trim_fold_trim (s : String) : trim (fold (trim s)) = fold (trim s) := by
  obtain ⟨hfront, hback⟩ := isBare_trimList s.toList
  rw [← String.toList_inj, toList_trim, toList_fold, toList_trim]
  exact trimList_eq_self hfront.fold hback.fold_reverse

end TagRank.Text
