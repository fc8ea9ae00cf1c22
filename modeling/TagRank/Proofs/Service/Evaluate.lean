import TagRank.Proofs.Aggregation
import TagRank.Proofs.Service.Moves
import TagRank.Proofs.Service.Persist
import TagRank.Service.Evaluate

namespace TagRank

namespace Aggregation

def reported (f : Filter) (a : Aggregation) : List Candidate :=
  a.candidates.filter fun c => !f.isStopword c.display

def allCounts (a : Aggregation) : Counts := a.counts.map fun (key, n) => (key, .ok (n : Int))

theorem kept_allCounts (f : Filter) (a : Aggregation) :
    Store.kept f a.allCounts = (a.reported f).map fun c => (c.key, .ok (c.count : Int)) := by
  simp only [Store.kept, allCounts, reported, candidates, List.filter_map, List.map_map]
  rfl

end Aggregation

theorem EvaluationStatus.ofPersist_eq_success {status : PersistStatus} :
    ofPersist status = .success ↔ status = .success := by
  cases status <;> simp [ofPersist]

def Evaluation.concluded {α : Type} [Scalar α] (p : Pipeline α) (f : Filter) (document : String)
    (ranked : List (RankedNode α)) (found : List (Span α)) (o : PersistOutcome) : Evaluation α :=
  let aggregation := Aggregation.ofSpans f p.trailing p.wordLimit found
  { document, ranked
    status := .ofPersist o.status
    keywords := if o.status = .success then aggregation.reported f else []
    aggregation := some aggregation
    persisted := some o
    error := o.error }

namespace Action

variable {α : Type}

theorem keeps_transaction {β : Type} {a : Action α β} {g : Store → β}
    (h : Means a fun s => .ok (g s, s)) : Keeps Service.store (transaction a) := by
  intro s
  have ht := transaction_cases h s
  generalize perform (transaction a) s = p at ht
  cases ht with
  | committed hm => exact (congrArg Prod.snd (Except.ok.inj hm)).symm
  | undone _ hs => exact hs
  | struck _ hs => exact hs

variable [Scalar α]

theorem keeps_rank (kernel : Kernel α) (count : Int) (document relation field : String)
    (rounds : Int) (damping : α) :
    Keeps Service.store (rank kernel count document relation field rounds damping) :=
  moves_rank kernel count (keeps_transaction (means_edges _ _ _)) rounds damping

theorem keeps_spans (document : String) (ranked : List (RankedNode α)) :
    Keeps Service.store (spans document ranked) :=
  moves_spans (fun _ => keeps_transaction (means_tagOccurrences _ _)) ranked

theorem notes_finish (e : Evaluation α) : Notes (finish e) e :=
  notes_bind (notes_log _ _ _) <|
    notes_bind (notes_increment (m := .evaluations) rfl _ e.status.name) <|
    notes_bind (notes_recordTiming (m := .evaluation) rfl _ e.status.name) (notes_pure _)

/-- How an evaluation ends: either it has written and reported the same keywords, or neither. -/
inductive Evaluated (policy : Policy) (f : Filter) (document : String) (s : Service α) :
    Except Error (Evaluation α) × Service α → Prop
  | written {ks x t} : (ks.map Candidate.key).Nodup →
      t.store = s.store.putAll policy document (ks.map fun c => (c.key, (c.count : Int))) →
      (∀ e, x = .ok e → e.status = .success ∧ e.keywords = ks) →
      Evaluated policy f document s (x, t)
  | nothing {x t} : t.store = s.store →
      (∀ e, x = .ok e → e.status ≠ .success ∧ e.keywords = []) →
      Evaluated policy f document s (x, t)

theorem nodup_reported (f : Filter) (a : Aggregation) (h : (Assoc.keys a.counts).Nodup) :
    ((a.reported f).map Candidate.key).Nodup := by
  have hs : (a.reported f).Sublist a.candidates := List.filter_sublist
  refine (hs.map Candidate.key).nodup ?_
  simpa [Aggregation.candidates, Assoc.keys, Function.comp_def] using h

theorem evaluated_of_persist {policy : Policy} {f : Filter} {document : String} {a : Aggregation}
    (ha : (Assoc.keys a.counts).Nodup) {g : PersistOutcome → Action α (Evaluation α)}
    (hg : ∀ o, ∃ e, Notes (g o) e ∧ e.status = .ofPersist o.status ∧
      e.keywords = if o.status = .success then a.reported f else [])
    {s t : Service α} (hs : t.store = s.store) :
    Evaluated policy f document s (perform (persist policy f document a.allCounts >>= g) t) := by
  have hp := persisted policy f document a.allCounts t
  rw [perform_bind]
  generalize perform (persist policy f document a.allCounts) t = p at hp
  cases hp with
  | @all rows x u hk hu hx =>
    have hrows : rows = (a.reported f).map fun c => (c.key, (c.count : Int)) := by
      have hinj : Function.Injective fun row : String × Int =>
          (row.1, (.ok row.2 : Except Error Int)) := by
        rintro ⟨k, m⟩ ⟨l, n⟩ h
        simpa using h
      apply (List.map_inj_right hinj).1
      rw [← hk, Aggregation.kept_allCounts, List.map_map]
      rfl
    rw [hrows, hs] at hu
    cases x with
    | error e => exact .written (nodup_reported f a ha) hu fun _ h => nomatch h
    | ok o =>
      obtain ⟨e, hn, he, hk⟩ := hg o
      have ho : o.status = .success := (hx o rfl).status
      rw [ho] at he hk
      refine .written (nodup_reported f a ha) ((hn u).store.trans hu) fun _ h => ?_
      rw [(hn u).answer h]
      exact ⟨he, hk⟩
  | @nothing x u hu hx =>
    cases x with
    | error e => exact .nothing (hu.trans hs) fun _ h => nomatch h
    | ok o =>
      obtain ⟨e, hn, he, hk⟩ := hg o
      have ho := hx o rfl
      rw [if_neg ho] at hk
      refine .nothing ((hn u).store.trans (hu.trans hs)) fun _ h => ?_
      rw [(hn u).answer h]
      exact ⟨fun h => ho (EvaluationStatus.ofPersist_eq_success.1 (he ▸ h)), hk⟩

theorem conclude_evaluated (p : Pipeline α) (f : Filter) (document : String)
    (ranked : List (RankedNode α)) (found : List (Span α)) {s t : Service α}
    (hs : t.store = s.store) :
    Evaluated p.policy f document s (perform (conclude p f document ranked found) t) := by
  simp only [conclude]
  rw [perform_bind, perform_logAll]
  refine evaluated_of_persist (Aggregation.nodup_ofSpans f p.trailing p.wordLimit found)
    (fun o => ?_) hs
  exact ⟨_, notes_bind (notes_logAll _) (notes_finish _), rfl, rfl⟩

theorem evaluated_of_found {p : Pipeline α} {f : Filter} {document : String}
    {found : Action α (List (RankedNode α) × List (Span α))} (hk : Keeps Service.store found)
    {g : Except Error (List (RankedNode α) × List (Span α)) → Action α (Evaluation α)}
    (hg : ∀ x, g (.ok x) = conclude p f document x.1 x.2)
    (he : ∀ e, (∃ v : Evaluation α, v.status = .rankingFailed ∧ v.keywords = [] ∧
      Notes (g (.error e)) v) ∨ g (.error e) = throw e) (s : Service α) :
    Evaluated p.policy f document s (perform (outcome found >>= g) s) := by
  have hs := hk s
  rw [perform_bind, perform_outcome]
  generalize perform found s = q at hs
  obtain ⟨e | x, t⟩ := q
  · dsimp only
    rcases he e with ⟨v, hv, hw, hn⟩ | hn
    · refine .nothing ((hn t).store.trans hs) fun _ h => ?_
      rw [(hn t).answer h, hv]
      exact ⟨EvaluationStatus.noConfusion, hw⟩
    · rw [hn]
      exact .nothing hs fun _ h => nomatch h
  · dsimp only
    rw [hg]
    exact conclude_evaluated _ _ _ _ _ hs

theorem evaluated (p : Pipeline α) (f : Filter) (document relation field : String) (rounds : Int)
    (damping : α) (s : Service α) :
    Evaluated p.policy f document s
      (perform (evaluate p f document relation field rounds damping) s) := by
  refine evaluated_of_found ?_ (fun _ => rfl) (fun e => ?_) s
  · exact moves_bind (keeps_rank _ _ _ _ _ _ _) fun _ => moves_bind (keeps_spans _ _) fun _ =>
      moves_pure _
  · dsimp only
    split
    · exact .inl ⟨_, rfl, rfl, notes_bind (notes_log _ _ _) (notes_finish _)⟩
    · exact .inr rfl

end Action

end TagRank
