import Mathlib
import TagRank.Proofs.Key
import TagRank.Token.Basic

namespace TagRank

theorem Text.join_eq_intercalate (sep : String) (words : List String) :
    join sep words = sep.intercalate words := by
  induction words using join.induct with
  | case1 => rfl
  | case2 w => simp [join]
  | case3 w words hwords ih =>
    obtain ⟨v, words, rfl⟩ := List.exists_cons_of_ne_nil hwords
    rw [join, ih, String.intercalate_cons_cons]
    exact hwords

theorem Key.stem_eq_self {text : String} : stem text = text ↔ '_' ∉ text.toList :=
  ⟨fun h => h ▸ not_mem_stem text, stem_of_plain⟩

namespace Tag

theorem eq_of_parts {g h : Tag} (hv : g.value = h.value) (hl : g.language = h.language) :
    g = h := by
  cases g
  cases h
  simp_all

theorem key_injective : Function.Injective key := by
  intro g h he
  have hl : g.language = h.language := by
    have hsplit := congrArg (fun k => (Key.split k).2) he
    simpa only [split_key] using hsplit
  have hv : g.value = h.value := by
    rwa [key, key, hl, String.append_assoc, String.append_assoc, String.append_left_inj] at he
  exact eq_of_parts hv hl

theorem split_key_eq_iff (g : Tag) :
    Key.split g.key = (g.value, g.language) ↔ '_' ∉ g.value.toList := by
  rw [split_key, Prod.mk.injEq, Key.stem_eq_self]
  exact and_iff_left rfl

theorem ofKey_key (g : Tag) :
    (Key.stem g.value = "" → ofKey g.key = .error .emptyTag) ∧
      (Key.stem g.value ≠ "" → ∃ h, ofKey g.key = .ok h ∧
        h.value = Key.stem g.value ∧ h.language = g.language) := by
  refine ⟨fun h => ?_, fun h => ofKey_of_split g.split_key h g.language_plain⟩
  rw [ofKey, split_key, make, dif_pos h]
  rfl

end Tag

/-- Keys tell tags apart, and so they tell tokens apart that differ in their normalized texts or in
their languages. Splitting a key gives back the language and of the value what stands before its
first separator; reading it as a tag fails for want of a value just if there is nothing before. The
key of a phrase without separators is split into its words and its language. -/
theorem Tag.read_back :
    Function.Injective key ∧
      (∀ (t u : Token) (g h : Tag), t.tag = .ok g → u.tag = .ok h →
        (g.key = h.key ↔ t.normalized = u.normalized ∧ t.language = u.language)) ∧
      (∀ g : Tag, Key.split g.key = (Key.stem g.value, g.language) ∧
        (Key.split g.key = (g.value, g.language) ↔ '_' ∉ g.value.toList) ∧
        ((∃ e, ofKey g.key = .error e ∧ e.kind = .invalidValue) ↔
          g.value.toList.head? = some '_') ∧
        (g.value.toList.head? ≠ some '_' → ∃ h, ofKey g.key = .ok h ∧
          h.value = Key.stem g.value ∧ h.language = g.language)) ∧
      ∀ (words : List String) (language : String), (∀ w ∈ words, '_' ∉ w.toList) →
        '_' ∉ language.toList →
        Key.split (Key.ofWords words language) = (" ".intercalate words, language) := by
  refine ⟨key_injective, fun t u g h hg hh => ?_, fun g => ?_, fun words language hw hl => ?_⟩
  · obtain ⟨hgv, hgl⟩ := make_ok hg
    obtain ⟨hhv, hhl⟩ := make_ok hh
    rw [key_injective.eq_iff, ← hgv, ← hgl, ← hhv, ← hhl]
    exact ⟨fun he => he ▸ ⟨rfl, rfl⟩, fun he => eq_of_parts he.1 he.2⟩
  · have hstem : Key.stem g.value = "" ↔ g.value.toList.head? = some '_' :=
      Key.stem_eq_empty.trans (or_iff_right g.value_ne)
    obtain ⟨hempty, hread⟩ := g.ofKey_key
    refine ⟨g.split_key, g.split_key_eq_iff, ⟨?_, fun h => ⟨_, hempty (hstem.2 h), rfl⟩⟩,
      fun h => hread (mt hstem.1 h)⟩
    rintro ⟨e, he, -⟩
    refine Decidable.byContradiction fun hn => ?_
    obtain ⟨h, hok, -⟩ := hread (mt hstem.1 hn)
    cases he.symm.trans hok
  · rw [Key.split_ofWords hw hl, Text.join_eq_intercalate]

theorem Tag.read_back_spelled :
    let t : Token := ⟨" Straße", ["NN"], 0, 7, 0, 0, "de"⟩
    let u : Token := ⟨"STRASSE", ["NN"], 8, 15, 0, 1, "de"⟩
    let g : Tag := ⟨"strasse", "de", by decide, by decide⟩
    let h : Tag := ⟨"new_york", "en", by decide, by decide⟩
    t.tag = .ok g ∧ u.tag = .ok g ∧ t.normalized = u.normalized ∧
      (∃ k, ofKey h.key = .ok k ∧ k.value = "new" ∧ k.language = "en") ∧
      Key.split (Key.ofWords ["big", "data"] "en") = ("big data", "en") := by
  intro t u g h
  have ht : t.tag = .ok g := by cbv
  have hu : u.tag = .ok g := by cbv
  have hstem : Key.stem h.value = "new" := by cbv
  obtain ⟨-, htokens, htags, hwords⟩ := read_back
  refine ⟨ht, hu, ((htokens t u g g ht hu).1 rfl).1, ?_,
    hwords ["big", "data"] "en" (by decide) (by decide)⟩
  rw [← hstem]
  exact (htags h).2.2.2 (by decide)

end TagRank
