import TagRank.Proofs.Ranking.Ranked
import TagRank.Proofs.Service.Evaluate

namespace TagRank

open TagRank.Action

variable {α : Type}

def Service.Rests (s t : Service α) : Prop := s.fault = none → t.outside = s.outside

namespace Action

variable {β : Type} {s : Service α}

theorem transaction_reading {a : Action α β} {g : Store → β} (h : Means a fun s => .ok (g s, s))
    (hs : s.fault = none) :
    ∃ t, t.outside = s.outside ∧ perform (transaction a) s = (.ok (g s.store), t) := by
  obtain ⟨t, ht, hp⟩ := transaction_calm h hs
  refine ⟨{ t with store := s.store }, ?_, hp⟩
  simp [Service.outside, ht.fault hs, hs]

theorem rests_transaction {a : Action α β} {g : Store → β} (h : Means a fun s => .ok (g s, s)) :
    Moves Service.Rests (transaction a) := by
  intro s hs
  obtain ⟨t, ht, hp⟩ := transaction_reading h hs
  rw [hp]
  exact ht

theorem reading_ok {a : Action α β} {g : Store → β} (h : Means a fun s => .ok (g s, s))
    {handle : Error → Action α β} (hh : ∀ e u, ∃ e', (perform (handle e) u).1 = .error e')
    {b : β} {t : Service α} (hb : perform (onStoreFailure (transaction a) handle) s = (.ok b, t)) :
    b = g s.store := by
  have ht := transaction_cases h s
  rw [perform_onStoreFailure] at hb
  generalize perform (transaction a) s = p at ht hb
  cases ht with
  | committed hm =>
    cases hb
    exact (congrArg Prod.fst (Except.ok.inj hm)).symm
  | undone hm => cases hm
  | @struck text t =>
    obtain ⟨e', he⟩ := hh (.storeFailed text) t
    dsimp only at hb
    rw [if_pos (by simp [Error.kind]), Prod.ext_iff, he] at hb
    cases hb.1

theorem perform_onStoreFailure_reading {a : Action α β} {g : Store → β}
    (h : Means a fun s => .ok (g s, s)) (handle : Error → Action α β) (hs : s.fault = none) :
    ∃ t, t.outside = s.outside ∧
      perform (onStoreFailure (transaction a) handle) s = (.ok (g s.store), t) := by
  obtain ⟨t, ht, hp⟩ := transaction_reading h hs
  refine ⟨t, ht, ?_⟩
  rw [perform_onStoreFailure, hp]

end Action

variable [Scalar α]

def Store.spansOf (s : Store) (document : String) (ranked : List (RankedNode α)) : List (Span α) :=
  (s.occurrencesOf document (Assoc.keys (RankedNode.scores ranked))).map
    (Span.ofOccurrence (RankedNode.scores ranked))

theorem Store.spansOf_nil (s : Store) (document : String) :
    s.spansOf (α := α) document [] = [] := by
  simp [spansOf, occurrencesOf, RankedNode.scores, Assoc.ofList, Assoc.keys]

theorem Store.length_spansOf_le (s : Store) (document : String) (ranked : List (RankedNode α)) :
    (s.spansOf document ranked).length ≤ (s.tokensOf document).length := by
  rw [spansOf, occurrencesOf, List.length_map, List.length_mergeSort, tokensOf, List.length_map]
  refine (List.monotone_filter_right _ fun o ho => ?_).length_le
  simp only [Bool.and_eq_true] at ho
  exact ho.1

instance : Tolerant (Service.Rests (α := α)) where
  refl _ _ := rfl
  trans _ _ _ h k hs := (k ((congrArg Prod.snd (h hs)).trans hs)).trans (h hs)
  log _ _ _ := rfl
  observe _ _ _ _ _ := rfl

namespace Action

variable {document relation field : String} {s t : Service α}

theorem timed_ok {β : Type} {metric : String} {tags : Tags} {a : Action α β} {b : β}
    (h : perform (timed metric tags a) s = (.ok b, t)) : (perform a s).1 = .ok b := by
  obtain ⟨x, s₁, h₁, h⟩ := perform_bind_ok.1 h
  obtain ⟨_, s₂, -, h⟩ := perform_bind_ok.1 h
  obtain ⟨hx, -⟩ := Prod.mk.inj h
  rw [perform_outcome] at h₁
  exact (Except.ok.inj (Prod.mk.inj h₁).1).trans hx

omit [Scalar α] in
theorem score_ok {kernel : Kernel α} {v : View α} {rounds : Int} {damping : α} {scores : Scores α}
    (h : (perform (score kernel v rounds damping) s).1 = .ok scores) :
    kernel v v.field rounds damping = .ok scores := by
  rw [score, perform_ofExcept] at h
  cases hk : kernel v v.field rounds damping with
  | ok x => simpa [hk, Except.mapError] using h
  | error e => simp [hk, Except.mapError] at h

theorem rank_ok {kernel : Kernel α} {count rounds : Int} {damping : α}
    {ranked : List (RankedNode α)}
    (h : perform (rank kernel count document relation field rounds damping) s = (.ok ranked, t)) :
    ∃ view scores, View.ofEdges field (s.store.edgesOf document relation (some field)) = .ok view ∧
      kernel view view.field rounds damping = .ok scores ∧
        ranked = RankedNode.best count view scores := by
  rw [rank] at h
  dsimp only at h
  obtain ⟨_, s₁, h₁, h⟩ := perform_bind_ok.1 h
  obtain ⟨_, rfl⟩ := Prod.mk.inj h₁
  obtain ⟨_, s₂, h₂, h⟩ := perform_bind_ok.1 h
  obtain ⟨_, rfl⟩ := Prod.mk.inj h₂
  split at h
  · cases h
  split at h
  · cases h
  obtain ⟨edges, s₃, h₃, h⟩ := perform_bind_ok.1 h
  obtain rfl := reading_ok (means_edges document relation (some field)) (fun _ _ => ⟨_, rfl⟩) h₃
  obtain ⟨view, s₄, h₄, h⟩ := perform_bind_ok.1 h
  obtain ⟨hv, rfl⟩ := Prod.mk.inj h₄
  obtain ⟨scores, s₅, h₅, h⟩ := perform_bind_ok.1 h
  obtain ⟨_, s₆, -, h⟩ := perform_bind_ok.1 h
  obtain ⟨hr, -⟩ := Prod.mk.inj h
  refine ⟨view, scores, hv, ?_, (Except.ok.inj hr).symm⟩
  rw [perform_tryCatch] at h₅
  split at h₅
  · rename_i hscore
    cases h₅
    exact score_ok (timed_ok hscore)
  · -- what handles the failure fails as well
    split at h₅ <;> cases h₅

theorem spans_ok {ranked : List (RankedNode α)} {found : List (Span α)}
    (h : perform (spans document ranked) s = (.ok found, t)) :
    found = s.store.spansOf document ranked := by
  rw [spans] at h
  dsimp only at h
  cases ranked with
  | nil => exact (Except.ok.inj (Prod.mk.inj h).1).symm.trans (s.store.spansOf_nil document).symm
  | cons n ranked =>
    rw [if_neg (by simp)] at h
    obtain ⟨occurrences, s₁, h₁, h⟩ := perform_bind_ok.1 h
    obtain rfl := reading_ok (means_tagOccurrences document _) (fun _ _ => ⟨_, rfl⟩) h₁
    exact (Except.ok.inj (Prod.mk.inj h).1).symm

theorem perform_spans (document : String) (ranked : List (RankedNode α)) (hs : s.fault = none) :
    ∃ t, perform (spans document ranked) s = (.ok (s.store.spansOf document ranked), t) := by
  rw [spans]
  dsimp only
  cases ranked with
  | nil => exact ⟨s, by simp [Store.spansOf_nil]⟩
  | cons n ranked =>
    obtain ⟨t, -, ht⟩ := perform_onStoreFailure_reading
      (means_tagOccurrences document (Assoc.keys (RankedNode.scores (n :: ranked)))) _ hs
    refine ⟨t, ?_⟩
    rw [if_neg (by simp), perform_bind, ht]
    rfl

theorem conclude_ok {p : Pipeline α} {f : Filter} {ranked : List (RankedNode α)}
    {found : List (Span α)} {e : Evaluation α}
    (h : perform (conclude p f document ranked found) s = (.ok e, t)) :
    ∃ o, (o.status = .success → Store.Persists f
        (Aggregation.ofSpans f p.trailing p.wordLimit found).allCounts (.start document) o) ∧
      e = .concluded p f document ranked found o := by
  simp only [conclude] at h
  obtain ⟨_, s₁, -, h⟩ := perform_bind_ok.1 h
  obtain ⟨o, s₂, hp, h⟩ := perform_bind_ok.1 h
  have hpersisted := persisted p.policy f document
    (Aggregation.ofSpans f p.trailing p.wordLimit found).allCounts s₁
  have hnotes (lines : List Log.Line) :
      Notes (do logAll lines; finish (.concluded p f document ranked found o))
        (.concluded p f document ranked found o) :=
    notes_bind (notes_logAll lines) (notes_finish _)
  refine ⟨o, fun ho => ?_, (hnotes _ s₂).answer (congrArg Prod.fst h)⟩
  rw [Aggregation.allCounts, hp] at hpersisted
  cases hpersisted with
  | all _ _ hx => exact hx o rfl
  | nothing _ hx => exact absurd ho (hx o rfl)

theorem evaluate_ok {p : Pipeline α} {f : Filter} {rounds : Int} {damping : α} {e : Evaluation α}
    (h : perform (evaluate p f document relation field rounds damping) s = (.ok e, t))
    (he : e.status ≠ .rankingFailed) :
    ∃ ranked u o, perform (rank p.kernel p.topNodes document relation field rounds damping) s =
        (.ok ranked, u) ∧
      e = .concluded p f document ranked (s.store.spansOf document ranked) o ∧
      (o.status = .success → Store.Persists f (Aggregation.ofSpans f p.trailing p.wordLimit
        (s.store.spansOf document ranked)).allCounts (.start document) o) := by
  simp only [evaluate] at h
  obtain ⟨found, s₁, h₁, h⟩ := perform_bind_ok.1 h
  rw [perform_outcome] at h₁
  obtain ⟨hfound, rfl⟩ := Prod.mk.inj h₁
  cases Except.ok.inj hfound
  generalize hl : perform _ s = l at h
  obtain ⟨e' | ⟨ranked, found⟩, s₁⟩ := l
  · dsimp only at h
    split at h
    · obtain ⟨_, s₂, -, h⟩ := perform_bind_ok.1 h
      have hn := notes_finish (α := α)
        ⟨document, .rankingFailed, [], [], none, none, some e'.message⟩ s₂
      rw [h] at hn
      exact absurd (congrArg Evaluation.status (hn.answer rfl)) he
    · cases h
  · obtain ⟨_, u, hr, hl⟩ := perform_bind_ok.1 hl
    obtain ⟨_, v, hf, hl⟩ := perform_bind_ok.1 hl
    cases hl
    have hu := keeps_rank p.kernel p.topNodes document relation field rounds damping s
    rw [hr] at hu
    have hfound := spans_ok hf
    rw [hu] at hfound
    obtain rfl := hfound
    obtain ⟨o, hp, he⟩ := conclude_ok h
    exact ⟨ranked, u, o, hr, he, hp⟩

end Action

end TagRank
