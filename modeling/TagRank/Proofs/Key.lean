import Mathlib.Data.List.TakeWhile
import TagRank.Tag

namespace TagRank

namespace Text

theorem pieces_eq_splitOn (sep : Char) (cs : List Char) : pieces sep cs = cs.splitOn sep := by
  induction cs with
  | nil => rfl
  | cons c cs ih =>
    rw [pieces, List.splitOn_cons_eq_if_modifyHead, ih]
    refine if_congr beq_iff_eq.symm rfl ?_
    cases h : cs.splitOn sep with
    | nil => exact absurd h (List.splitOn_ne_nil sep cs)
    | cons p ps => rfl

theorem not_mem_of_mem_pieces {sep : Char} {cs p : List Char} (h : p ∈ pieces sep cs) :
    sep ∉ p := by
  induction cs generalizing p with
  | nil =>
    rw [List.mem_singleton.1 h]
    exact List.not_mem_nil
  | cons c cs ih =>
    rw [pieces] at h
    split at h
    · rcases List.mem_cons.1 h with rfl | h
      · exact List.not_mem_nil
      · exact ih h
    · rename_i hc
      cases hp : pieces sep cs with
      | nil => exact absurd hp (pieces_ne_nil sep cs)
      | cons q qs =>
        simp only [hp] at h ih
        rcases List.mem_cons.1 h with rfl | h
        · simpa [Ne.symm hc] using ih (.head _)
        · exact ih (.tail _ h)

theorem head?_splitOn (sep : Char) (cs : List Char) :
    (cs.splitOn sep).head? = some (cs.takeWhile (· != sep)) := by
  induction cs with
  | nil => rfl
  | cons c cs ih =>
    rw [List.splitOn_cons_eq_if_modifyHead]
    by_cases h : c = sep
    · simp [h]
    · simp [h, List.head?_modifyHead, ih]

theorem not_mem_join {c : Char} {sep : String} (hsep : c ∉ sep.toList) {words : List String}
    (h : ∀ w ∈ words, c ∉ w.toList) : c ∉ (join sep words).toList := by
  induction words using join.induct with
  | case1 => simp [join]
  | case2 w => simpa [join] using h
  | case3 w words _ ih =>
    obtain ⟨hw, h⟩ := List.forall_mem_cons.1 h
    simp only [join, String.toList_append, List.mem_append, not_or]
    exact ⟨⟨hw, hsep⟩, ih h⟩

theorem join_ne_empty {sep : String} (hsep : sep ≠ "") {words : List String}
    (h : 1 < words.length) : join sep words ≠ "" := by
  match words, h with
  | w :: v :: words, _ => simp [join, hsep]

end Text

namespace Key

def stem (text : String) : String := String.ofList (text.toList.takeWhile (· != '_'))

theorem not_mem_stem (text : String) : '_' ∉ (stem text).toList := by
  intro h
  rw [stem, String.toList_ofList] at h
  simpa using List.mem_takeWhile_imp h

theorem stem_of_plain {text : String} (h : '_' ∉ text.toList) : stem text = text := by
  have hall : text.toList.takeWhile (· != '_') = text.toList := by
    refine List.takeWhile_eq_self_iff.2 fun c hc => ?_
    simpa using fun hu : c = '_' => h (hu ▸ hc)
  rw [stem, hall, String.ofList_toList]

theorem stem_eq_empty {text : String} :
    stem text = "" ↔ text = "" ∨ text.toList.head? = some '_' := by
  have hempty : text = "" ↔ text.toList = [] := by rw [String.toList_eq_nil_iff]
  rw [stem, hempty, ← String.toList_inj, String.toList_ofList]
  cases text.toList with
  | nil => simp
  | cons c cs => simp

theorem split_append (value : String) {language : String} (h : '_' ∉ language.toList) :
    split (value ++ "_" ++ language) = (stem value, language) := by
  have hparts : parts (value ++ "_" ++ language) =
      (value.toList.splitOn '_').map String.ofList ++ [language] := by
    have htext : (value ++ "_" ++ language).toList = value.toList ++ '_' :: language.toList := by
      simp
    rw [parts, Text.splitAt, htext, Text.pieces_eq_splitOn, List.splitOn_append_cons_self,
      List.splitOn_eq_singleton h]
    simp
  have hstem := Text.head?_splitOn '_' value.toList
  rw [split, hparts]
  cases hv : value.toList.splitOn '_' with
  | nil => exact absurd hv (List.splitOn_ne_nil _ _)
  | cons p ps =>
    rw [hv] at hstem
    rw [stem, ← Option.some.inj hstem]
    cases ps with
    | nil => rfl
    | cons q ps =>
      refine congrArg (String.ofList p, ·) ?_
      change (((q :: ps).map String.ofList) ++ [language]).getLastD "" = language
      rw [List.getLastD_eq_getLast?, List.getLast?_concat]
      rfl

theorem not_mem_of_mem_parts {key part : String} (h : part ∈ parts key) : '_' ∉ part.toList := by
  obtain ⟨p, hp, rfl⟩ := List.mem_map.1 h
  rw [String.toList_ofList]
  exact Text.not_mem_of_mem_pieces hp

theorem value_plain (key : String) : '_' ∉ (value key).toList := by
  have hparts (part : String) (h : part ∈ parts key) : '_' ∉ part.toList := not_mem_of_mem_parts h
  rw [value, split]
  split
  · simp
  · rename_i value h
    exact hparts value (h ▸ .head _)
  · rename_i value more _ h
    exact hparts value (h ▸ .head _)

theorem language_plain (key : String) : '_' ∉ (language key).toList := by
  have hparts (part : String) (h : part ∈ parts key) : '_' ∉ part.toList := not_mem_of_mem_parts h
  rw [language, split]
  split
  · simp
  · simp
  · rename_i value more hmore h
    have hlast : more.getLastD "" ∈ more := by
      cases more with
      | nil => exact absurd rfl hmore
      | cons part more =>
        rw [List.getLastD_cons]
        exact List.getLastD_mem_cons
    exact hparts _ (h ▸ .tail _ hlast)

theorem count_separator_ofWords {words : List String} {language : String}
    (hw : ∀ w ∈ words, '_' ∉ w.toList) (hl : '_' ∉ language.toList) :
    (ofWords words language).toList.count '_' = 1 := by
  have hsep : '_' ∉ " ".toList := by decide
  have hvalue := List.count_eq_zero_of_not_mem (Text.not_mem_join hsep hw)
  have hlanguage := List.count_eq_zero_of_not_mem hl
  simp [ofWords, hvalue, hlanguage]

theorem split_ofWords {words : List String} {language : String}
    (hw : ∀ w ∈ words, '_' ∉ w.toList) (hl : '_' ∉ language.toList) :
    split (ofWords words language) = (Text.join " " words, language) := by
  rw [ofWords, split_append _ hl, stem_of_plain (Text.not_mem_join (by decide) hw)]

end Key

theorem Tag.split_key (g : Tag) : Key.split g.key = (Key.stem g.value, g.language) :=
  Key.split_append g.value g.language_plain

theorem Tag.make_ok {value language : String} {g : Tag} (h : make value language = .ok g) :
    g.value = value ∧ g.language = language := by
  simp only [make] at h
  split at h
  · cases h
  · split at h <;> cases h
    exact ⟨rfl, rfl⟩

theorem Tag.ofKey_of_split {key value language : String} (h : Key.split key = (value, language))
    (hv : value ≠ "") (hl : '_' ∉ language.toList) :
    ∃ g, Tag.ofKey key = .ok g ∧ g.value = value ∧ g.language = language :=
  ⟨⟨value, language, hv, hl⟩, by rw [ofKey, h, make, dif_neg hv, dif_neg hl]; rfl, rfl, rfl⟩

end TagRank
