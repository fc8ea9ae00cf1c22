import TagRank.Proofs.Service.Agree

namespace TagRank

open Metrics Store

theorem Store.agrees_loaded {document : String} {rows : List Occurrence}
    (h : ∀ o ∈ rows, o.document = document) (s t : Store) :
    (s.loaded document rows).Agrees document (t.loaded document rows) := by
  exact {
    known := (s.hasDocument_addDocument document).trans (t.hasDocument_addDocument document).symm
    occurrences := (occurrences_loaded h s).trans (occurrences_loaded h t).symm
    edges := (filter_filter_bne Edge.document document s.edges).trans
      (filter_filter_bne Edge.document document t.edges).symm }

namespace Action

variable {α β : Type} {K : Recorder α → Recorder α → Prop}

theorem perform_loadGiven (document : Spelling) (sentences : List GivenSentence) {s : Service α}
    (hs : s.fault = none) : ∃ t, s.IsCalm t ∧ perform (loadGiven document sentences) s =
      match s.store.loadGiven document sentences with
      | .ok (n, store) => (.ok n, { t with store })
      | .error e => (.error e, { t with store := s.store }) := by
  obtain ⟨t, ht, hp⟩ := transaction_calm (means_loading document sentences) hs
  have hrun : StateT.run (Store.loadGiven document sentences) s.store =
      s.store.loadGiven document sentences := rfl
  simp only [loadGiven]
  rw [perform_bind, hp, hrun]
  cases s.store.loadGiven document sentences with
  | ok x =>
    let line : Log.Line := ⟨.info, "graph_store",
      s!"graph_store.document.added doc_id={document.legible} tokens={x.1}"⟩
    exact ⟨{ t with log := t.log ++ [line] }, ⟨ht.recorder, ht.fault⟩, rfl⟩
  | error e => exact ⟨t, ht, rfl⟩

theorem perform_after_load (document : Spelling) {sentences : List GivenSentence}
    (hne : sentences.isEmpty = false) {a : Action α β} {Q : β → β → Prop}
    (ha : Parallel (Service.Alike (Agrees document.legible) K) a a Q) {s t : Service α}
    (hs : s.fault = none) (ht : t.fault = none) (hr : Option.Rel K s.recorder t.recorder) :
    Matched Q (perform (do let _ ← loadGiven document sentences; a) s).1
      (perform (do let _ ← loadGiven document sentences; a) t).1 := by
  obtain ⟨u, hu, hp⟩ := perform_loadGiven document sentences hs
  obtain ⟨v, hv, hq⟩ := perform_loadGiven document sentences ht
  rw [perform_bind, perform_bind, hp, hq]
  rcases Store.loadGiven_cases document hne with ⟨rows, hrows, hok⟩ | ⟨e, he⟩
  · rw [hok, hok]
    have hd : ∀ o ∈ rows, o.document = document.legible := fun o ho => (hrows o ho).document
    have halike := ha { u with store := s.store.loaded document.legible rows }
      { v with store := t.store.loaded document.legible rows }
      ⟨Store.agrees_loaded hd s.store t.store, hu.fault hs, hv.fault ht,
        hu.recorder ▸ hv.recorder ▸ hr⟩
    exact halike.matched
  · rw [he, he]
    exact .error

variable [Scalar α]

def seen (e : Evaluation α) :
    EvaluationStatus × List (RankedNode α) × Option Aggregation × List Candidate :=
  (e.status, e.ranked, e.aggregation, e.keywords)

omit [Scalar α] in
theorem seen_eq {e e' : Evaluation α} (h : e.ageless = e'.ageless) : seen e = seen e' :=
  (congrArg seen h :)

def evaluateAnew (p : Pipeline α) (f : Filter) (document : String) (sentences : List Sentence)
    (relation field : String) (rounds : Int) (damping : α) : Action α (Evaluation α) := do
  let _ ← loadDocument document sentences
  let _ ← rebuild document relation field
  evaluate p f document relation field rounds damping

/-- Nothing that was in the store before shows, as long as the store refuses nothing. -/
theorem evaluateAnew_forgets (p : Pipeline α) (f : Filter) (document : String) (sentence : Sentence)
    (sentences : List Sentence) (relation field : String) (rounds : Int) (damping : α)
    (s : Service α) :
    let a := evaluateAnew p f document (sentence :: sentences) relation field rounds damping
    (perform a { s with fault := none }).1.map seen =
      (perform a { s with fault := none, store := .empty }).1.map seen := by
  have ha : Parallel (Service.Alike (Agrees document) Eq) (do
      let _ ← rebuild document relation field
      evaluate p f document relation field rounds damping) (do
      let _ ← rebuild document relation field
      evaluate p f document relation field rounds damping) fun e e' => e.ageless = e'.ageless :=
    parallel_bind_eq (agrees_rebuild relation field) fun _ =>
      agrees_evaluate p f relation field rounds damping
  have hne : ((sentence :: sentences).map Sentence.given).isEmpty = false := rfl
  have hm := perform_after_load (.text document) hne ha (s := { s with fault := none })
    (t := { s with fault := none, store := .empty }) rfl rfl (rel_refl s.recorder)
  exact (hm.mono fun _ _ => seen_eq).map_eq

end Action

end TagRank
