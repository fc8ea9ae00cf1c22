import Mathlib.Data.List.Perm.Basic
import TagRank.Proofs.Store.Sentence
import TagRank.Proofs.Store.Sound
import TagRank.Proofs.Text.Fold
import TagRank.Proofs.Token.Payload

namespace TagRank

namespace Token

/-- There is no tag for the token: its text is blank, or its language has a separator in it. -/
def IsUntagged (t : Token) : Prop := Text.trim t.text = "" ∨ '_' ∈ t.language.toList

instance : DecidablePred IsUntagged := fun t =>
  inferInstanceAs (Decidable (Text.trim t.text = "" ∨ '_' ∈ t.language.toList))

theorem failsIff_tag (t : Token) :
    FailsIff t.IsUntagged (·.kind.isInvalid) t.key (t.tag.map Tag.key) := by
  have hvalue : t.normalized = "" ↔ Text.trim t.text = "" := Text.fold_eq_empty
  rw [tag, Tag.make]
  split
  · exact .error (.inl (hvalue.1 ‹_›)) rfl
  · split
    · exact .error (.inr ‹_›) rfl
    · exact .ok (not_or.2 ⟨mt hvalue.2 ‹_›, ‹_›⟩)

def place (t : Token) : List Int := [t.sentence, t.start, t.order]

end Token

namespace GivenToken

/-- No row can be stored of the token: a text of it has no encoding, or there is no tag for it. -/
def IsRefused (t : GivenToken) : Prop :=
  t.text.IsTorn ∨ t.language.IsTorn ∨ t.legible.IsUntagged

instance : DecidablePred IsRefused := fun t =>
  inferInstanceAs (Decidable (t.text.IsTorn ∨ t.language.IsTorn ∨ t.legible.IsUntagged))

@[simp] theorem legible_given (t : Token) : t.given.legible = t := rfl

theorem isSome_torn? (t : GivenToken) : t.torn?.isSome ↔ t.text.IsTorn ∨ t.language.IsTorn := by
  rw [torn?]
  cases t.text <;> cases t.language <;> simp [Spelling.IsTorn]

theorem given_legible {t : GivenToken} (h : ¬t.IsRefused) : t.legible.given = t := by
  obtain ⟨text, pos, start, stop, sentence, order, language⟩ := t
  cases text with
  | torn => exact absurd (.inl trivial) h
  | text =>
    cases language with
    | torn => exact absurd (.inr (.inl trivial)) h
    | text => rfl

end GivenToken

namespace GivenSentence

def numbers (x : GivenSentence) : List Int :=
  x.index :: x.tokens.flatMap fun t => [t.order, t.start, t.stop]

@[simp] theorem legible_given (x : Sentence) : x.given.legible = x := by
  simp [Sentence.given, legible, Function.comp_def]

end GivenSentence

namespace Occurrence

variable {document : String} {sentences : List Sentence}

def ofTagged (document : String) (sentences : List Sentence) : List Occurrence :=
  sentences.flatMap fun x => x.tokens.map fun t => ⟨document, t.key, { t with sentence := x.index }⟩

theorem mem_ofTagged {o : Occurrence} : o ∈ ofTagged document sentences ↔ ∃ x ∈ sentences,
    ∃ t ∈ x.tokens, ⟨document, t.key, { t with sentence := x.index }⟩ = o := by
  simp [ofTagged]

end Occurrence

namespace Row

variable {document : String} {sentences : List GivenSentence}

def ofTagged (document : String) (sentences : List GivenSentence) : List Row :=
  sentences.flatMap fun x => x.tokens.map fun t =>
    ⟨⟨document, t.legible.key, { t.legible with sentence := x.index }⟩, t.torn?⟩

theorem exists_torn_ofTagged : (∃ r ∈ ofTagged document sentences, r.torn?.isSome) ↔
    ∃ x ∈ sentences, ∃ t ∈ x.tokens, t.text.IsTorn ∨ t.language.IsTorn := by
  simp [ofTagged, GivenToken.isSome_torn?, and_assoc]

theorem map_occurrence_ofTagged (document : String) (sentences : List GivenSentence) :
    (ofTagged document sentences).map occurrence =
      Occurrence.ofTagged document (sentences.map GivenSentence.legible) := by
  simp [ofTagged, Occurrence.ofTagged, GivenSentence.legible, List.map_flatMap, List.flatMap_map,
    Function.comp_def]

theorem length_ofTagged (document : String) (sentences : List GivenSentence) :
    (ofTagged document sentences).length = (sentences.flatMap GivenSentence.tokens).length := by
  simp [ofTagged, List.length_flatMap]

theorem failsIff_ofSentences (document : String) (sentences : List GivenSentence) :
    FailsIff (∃ x ∈ sentences, ∃ t ∈ x.tokens, t.legible.IsUntagged) (·.kind.isInvalid)
      (ofTagged document sentences) (ofSentences document sentences) := by
  have token (index : Int) (t : GivenToken) : FailsIff t.legible.IsUntagged (·.kind.isInvalid)
      ⟨⟨document, t.legible.key, { t.legible with sentence := index }⟩, t.torn?⟩
      (do return Row.mk (← Occurrence.ofToken document index t.legible) t.torn?) := by
    have h := t.legible.failsIff_tag.map fun key =>
      Row.mk ⟨document, key, { t.legible with sentence := index }⟩ t.torn?
    rw [Occurrence.ofToken]
    generalize t.legible.tag = g at h ⊢
    cases g <;> exact h
  have h := FailsIff.mapM (fun x : GivenSentence => FailsIff.mapM (token x.index) x.tokens)
    sentences
  rw [ofSentences]
  generalize sentences.mapM (fun x => x.tokens.mapM fun t => do
    return Row.mk (← Occurrence.ofToken document x.index t.legible) t.torn?) = rows at h ⊢
  cases rows <;> exact h.map List.flatten

def numbers (r : Row) : List Int :=
  [r.occurrence.token.sentence, r.occurrence.token.order, r.occurrence.token.start,
    r.occurrence.token.stop]

theorem failsIff_check {r : Row} (h : ∀ i ∈ r.numbers, Decimal.fitsWord i) :
    FailsIff (r.torn?.isSome : Prop) (·.kind.isInvalid) () r.check := by
  have hfits : ∀ i ∈ r.numbers, Store.checkFits i = .ok () := fun i hi => if_pos (h i hi)
  simp only [numbers, List.forall_mem_cons] at hfits
  obtain ⟨hsentence, horder, hstart, hstop, -⟩ := hfits
  rw [check, hsentence, horder, hstart, hstop]
  cases r.torn? with
  | none => exact .ok (by simp)
  | some t => exact .error rfl rfl

theorem fits_of_mem_ofTagged (h : ∀ x ∈ sentences, ∀ i ∈ x.numbers, Decimal.fitsWord i)
    {r : Row} (hr : r ∈ ofTagged document sentences) : ∀ i ∈ r.numbers, Decimal.fitsWord i := by
  obtain ⟨x, hx, hr⟩ := List.mem_flatMap.1 hr
  obtain ⟨t, ht, rfl⟩ := List.mem_map.1 hr
  intro i hi
  rcases List.mem_cons.1 hi with rfl | hi
  · exact h x hx _ (.head _)
  · exact h x hx i (.tail _ (List.mem_flatMap.2 ⟨t, ht, hi⟩))

end Row

namespace Occurrence

variable {document : String} {sentences : List Sentence}

end Occurrence

namespace Store

variable {document : String} {sentences : List Sentence}

theorem loadGiven_failsIff (document : String) {sentences : List GivenSentence}
    (hne : sentences ≠ []) (hfits : ∀ x ∈ sentences, ∀ i ∈ x.numbers, Decimal.fitsWord i)
    (s : Store) :
    FailsIff (∃ x ∈ sentences, ∃ t ∈ x.tokens, t.IsRefused) (·.kind.isInvalid)
      ((sentences.flatMap GivenSentence.tokens).length,
        s.loaded document
          (Occurrence.ofTagged document (sentences.map GivenSentence.legible)))
      (s.loadGiven (.text document) sentences) := by
  have hrows := Row.failsIff_ofSentences document sentences
  have hcheck : FailsIff _ _ _ ((Row.ofTagged document sentences).forM Row.check) :=
    FailsIff.forM fun r hr => Row.failsIff_check (Row.fits_of_mem_ofTagged hfits hr)
  have hload := hrows.bind (f := fun rows => do
    rows.forM Row.check
    return (rows.length, s.loaded document (rows.map Row.occurrence))) (hcheck.map fun _ =>
      ((Row.ofTagged document sentences).length,
        s.loaded document ((Row.ofTagged document sentences).map Row.occurrence)))
  rw [Row.length_ofTagged, Row.map_occurrence_ofTagged,
    ← loadGiven_eq (by simpa using hne)] at hload
  rw [Row.exists_torn_ofTagged] at hload
  refine hload.congr ?_
  grind [GivenToken.IsRefused]

theorem eq_loaded_of_load {s t : Store} {n : Nat} (hne : sentences ≠ [])
    (h : s.load document sentences = .ok (n, t)) : n = (sentences.flatMap Sentence.tokens).length ∧
      t = s.loaded document (Occurrence.ofTagged document sentences) := by
  rw [load, loadGiven_eq (by simpa using hne)] at h
  obtain ⟨rows, hrows, h⟩ := bind_eq_ok.1 h
  obtain ⟨_, -, h⟩ := bind_eq_ok.1 h
  have hiff := Row.failsIff_ofSentences document (sentences.map Sentence.given)
  rw [hrows] at hiff
  cases hiff
  obtain ⟨rfl, rfl⟩ := Prod.mk.inj (Except.ok.inj h)
  rw [Row.length_ofTagged, Row.map_occurrence_ofTagged, List.map_map]
  have hback : GivenSentence.legible ∘ Sentence.given = id := funext GivenSentence.legible_given
  rw [hback, List.map_id]
  exact ⟨by simp [Sentence.given, List.length_flatMap, List.flatMap_map], rfl⟩

theorem tokensOf_loaded (document : String) (sentences : List Sentence) (s : Store) :
    (s.loaded document (Occurrence.ofTagged document sentences)).tokensOf document =
      (Occurrence.placeAll (Occurrence.ofTagged document sentences) []).map Occurrence.token := by
  rw [tokensOf, occurrences_loaded fun o ho => ?_]
  obtain ⟨x, -, t, -, rfl⟩ := Occurrence.mem_ofTagged.1 ho
  rfl

theorem mem_tokensOf_loaded {s : Store} {t : Token}
    (h : t ∈ (s.loaded document (Occurrence.ofTagged document sentences)).tokensOf document) :
    ∃ x ∈ sentences, ∃ u ∈ x.tokens, t = { u with sentence := x.index } := by
  rw [tokensOf_loaded] at h
  obtain ⟨o, ho, rfl⟩ := List.mem_map.1 h
  rcases Occurrence.mem_placeAll ho with ho | ho
  · obtain ⟨x, hx, u, hu, rfl⟩ := Occurrence.mem_ofTagged.1 ho
    exact ⟨x, hx, u, hu, rfl⟩
  · cases ho

end Store

end TagRank
