import Mathlib
import TagRank.Proofs.Service.Afresh
import TagRank.Proofs.Store.Load

/-!
Loading a document: a text without an encoding or a token without a tag stops the load and undoes it;
otherwise the document has the new tokens, and no edges, and its sentences are read back as they were
given.
-/

namespace TagRank.Action

variable {α : Type}

/-- A load fails for a text that has no encoding and for a token without a tag, and leaves the store
alone then. If it does not fail, nothing is left of the tokens that the document had, nor of its
edges. -/
theorem loadGiven_refuses (document : Spelling) {sentences : List GivenSentence}
    (hne : sentences ≠ []) (hfits : ∀ x ∈ sentences, ∀ i ∈ x.numbers, Decimal.fitsWord i)
    (s : Service α) :
    let p := perform (loadGiven document sentences) { s with fault := none }
    let refused := document.IsTorn ∨ ∃ x ∈ sentences, ∃ t ∈ x.tokens, t.IsRefused
    ((∃ e, p.1 = .error e ∧ e.kind.isInvalid) ↔ refused) ∧
      (refused → p.2.store = s.store) ∧
      (¬refused → p.1 = .ok (sentences.flatMap GivenSentence.tokens).length ∧
        ∃ d, document = .text d ∧ p.2.store.hasDocument d = true ∧
          (∀ t ∈ p.2.store.tokensOf d,
            ∃ x ∈ sentences, ∃ u ∈ x.tokens, t.given = { u with sentence := x.index }) ∧
          ∀ e ∈ p.2.store.edges, e.document ≠ d) := by
  intro p refused
  obtain ⟨t, -, hp⟩ : ∃ t, _ ∧ p = _ := perform_loadGiven document sentences rfl
  dsimp only at hp
  cases document with
  | torn half =>
    have hrefused : refused := .inl trivial
    rw [hp]
    exact ⟨⟨fun _ => hrefused, fun _ => ⟨_, rfl, rfl⟩⟩, fun _ => rfl, fun h => absurd hrefused h⟩
  | text d =>
    have hiff : refused ↔ ∃ x ∈ sentences, ∃ t ∈ x.tokens, t.IsRefused := or_iff_right id
    have hload := (Store.loadGiven_failsIff d hne hfits s.store).congr hiff.symm
    generalize s.store.loadGiven (.text d) sentences = r at hload hp
    rw [hp]
    cases hload with
    | @error e hq hk =>
      exact ⟨⟨fun _ => hq, fun _ => ⟨e, rfl, hk⟩⟩, fun _ => rfl, fun hn => absurd hq hn⟩
    | ok hq =>
      refine ⟨⟨fun ⟨_, he, _⟩ => (nomatch he), fun h => absurd h hq⟩, fun h => absurd h hq,
        fun _ => ⟨rfl, d, rfl, s.store.hasDocument_addDocument d, fun t ht => ?_, fun e he => ?_⟩⟩
      · obtain ⟨y, hy, v, hv, rfl⟩ := Store.mem_tokensOf_loaded ht
        obtain ⟨x, hx, rfl⟩ := List.mem_map.1 hy
        obtain ⟨u, hu, rfl⟩ := List.mem_map.1 hv
        have hgiven := GivenToken.given_legible fun h => hq (.inr ⟨x, hx, u, hu, h⟩)
        exact ⟨x, hx, u, hu, congrArg (fun u : GivenToken => { u with sentence := x.index }) hgiven⟩
      · simpa using (List.mem_filter.1 he).2

theorem loadGiven_refuses_blankToken :
    let token : Token := ⟨"tree", ["NN"], 0, 4, 0, 0, "en"⟩
    let store : Store :=
      ⟨["d"], [⟨"d", "tree_en", token⟩], [⟨"d", "r", "f", "leaf_en", "tree_en", 1⟩], [], []⟩
    let sentences : List GivenSentence := [⟨0, [token.given]⟩,
      ⟨1, [⟨.text "data", ["NN"], 5, 9, 1, 0, .text "en"⟩,
        ⟨.text " ", ["NN"], 10, 11, 1, 1, .text "en"⟩]⟩]
    let s : Service Rat := ⟨store, none, none, []⟩
    sentences ≠ [] ∧ (∀ x ∈ sentences, ∀ i ∈ x.numbers, Decimal.fitsWord i) ∧
      (∃ e, answer (loadGiven (.text "d") sentences) s = .error e ∧ e.kind.isInvalid) ∧
      (perform (loadGiven (.text "d") sentences) { s with fault := none }).2.store = store := by
  intro token store sentences s
  have hne : sentences ≠ [] := by simp [sentences]
  have hfits : ∀ x ∈ sentences, ∀ i ∈ x.numbers, Decimal.fitsWord i := by decide
  have hrefused : ∃ x ∈ sentences, ∃ t ∈ x.tokens, t.IsRefused :=
    ⟨_, .tail _ (.head _), _, .tail _ (.head _), .inr (.inr (.inl (by decide)))⟩
  obtain ⟨hfails, hkeeps, -⟩ := loadGiven_refuses (.text "d") hne hfits s
  exact ⟨hne, hfits, hfails.2 (.inr hrefused), hkeeps (.inr hrefused)⟩

/-- A text that is not blank, in a language with no separator, but with half a character at its
end. -/
theorem loadGiven_refuses_torn :
    let half : TornText := ⟨[.char 't', .half 0x3D], by decide⟩
    let token : GivenToken := ⟨.torn half, ["NN"], 0, 4, 0, 0, .text "en"⟩
    ¬token.legible.IsUntagged ∧
      answer (loadGiven (.text "d") [⟨0, [token]⟩]) (.new Rat) = .error (.unencodable half) ∧
      (Error.unencodable half).kind.isInvalid := by
  refine ⟨by decide, by cbv, rfl⟩

end TagRank.Action
