import TagRank.Proofs.Service.Own
import TagRank.Proofs.Service.Ranking
import TagRank.Proofs.Service.Share

namespace TagRank

open Metrics

variable {α β γ : Type} [Scalar α]

structure Service.Ready (s : Service α) : Prop where
  calm : s.fault = none
  own : s.IsOwn
  /-- Counts of sixty-four bits can be recorded. -/
  records : s.recorder.isSome → ∀ n : Nat, n < 2 ^ 64 →
    (Scalar.ofInt? (n : Int) : Option α).isSome

theorem Service.Ready.owns {s t : Service α} (h : s.Ready) (hf : t.fault = none) (ho : s.Owns t) :
    t.Ready := by
  obtain ⟨hown, he⟩ := ho h.own
  have hs : t.recorder.isSome = s.recorder.isSome := by
    simpa using congrArg Option.isSome he
  exact ⟨hf, hown, fun ht => h.records (hs ▸ ht)⟩

namespace Action

/-- Answers `x` on a store and leaves another one. -/
def Ends (a : Action α β) (s : Store) (x : Except Error β) (t : Store) : Prop :=
  ∀ v : Service α, v.Ready → v.store = s →
    ∃ w : Service α, perform a v = (x, w) ∧ w.store = t ∧ w.Ready

variable {s t u : Store} {a : Action α β} {b : β} {e : Error}

theorem Ends.answer {x : Except Error β} {v : Service α} (h : Ends a v.store x t) (hv : v.Ready) :
    (perform a v).1 = x := by
  obtain ⟨w, hw, -⟩ := h v hv rfl
  exact congrArg Prod.fst hw

theorem ends_pure (b : β) : Ends (α := α) (pure b) s (.ok b) s := fun v hv hs => ⟨v, rfl, hs, hv⟩

theorem ends_throw (e : Error) : Ends (α := α) (throw e) s (.error e : Except Error β) s :=
  fun v hv hs => ⟨v, rfl, hs, hv⟩

theorem ends_ofExcept (x : Except Error β) : Ends (α := α) (ofExcept x) s x s :=
  fun v hv hs => ⟨v, rfl, hs, hv⟩

theorem ends_bind {f : β → Action α γ} {x : Except Error γ} (ha : Ends a s (.ok b) t)
    (hf : Ends (f b) t x u) : Ends (a >>= f) s x u := by
  intro v hv hs
  obtain ⟨w, hw, ht, hready⟩ := ha v hv hs
  rw [perform_bind, hw]
  exact hf w hready ht

theorem ends_bind_error {f : β → Action α γ} (ha : Ends a s (.error e) t) :
    Ends (a >>= f) s (.error e) t := by
  intro v hv hs
  obtain ⟨w, hw, ht, hready⟩ := ha v hv hs
  rw [perform_bind, hw]
  exact ⟨w, rfl, ht, hready⟩

theorem ends_outcome {x : Except Error β} (ha : Ends a s x t) : Ends (outcome a) s (.ok x) t := by
  intro v hv hs
  obtain ⟨w, hw, h⟩ := ha v hv hs
  exact ⟨w, by rw [perform_outcome, hw], h⟩

theorem ends_tryCatch {f : Error → Action α β} (ha : Ends a s (.ok b) t) :
    Ends (tryCatch a f) s (.ok b) t := by
  intro v hv hs
  obtain ⟨w, hw, h⟩ := ha v hv hs
  exact ⟨w, by rw [perform_tryCatch, hw], h⟩

theorem ends_onStoreFailure {handle : Error → Action α β} (ha : Ends a s (.ok b) t) :
    Ends (onStoreFailure a handle) s (.ok b) t := ends_tryCatch ha

theorem ends_of_rests {x : Except Error β} (hr : Moves Service.Rests a) (ho : Moves Service.Owns a)
    (h : ∀ v : Service α, v.Ready → v.store = s → (perform a v).1 = x) : Ends a s x s := by
  intro v hv hs
  obtain ⟨hstore, hfault⟩ := Prod.mk.inj (hr v hv.calm)
  exact ⟨_, Prod.ext (h v hv hs) rfl, hstore.trans hs, hv.owns (hfault.trans hv.calm) (ho v)⟩

theorem ends_log (level : Log.Level) (part text : String) :
    Ends (α := α) (log level part text) s (.ok ()) s :=
  ends_of_rests (moves_log _ _ _) (moves_log _ _ _) fun _ _ _ => rfl

theorem ends_logAll (lines : List Log.Line) : Ends (α := α) (logAll lines) s (.ok ()) s :=
  ends_of_rests (moves_logAll _) (moves_logAll _) fun _ _ _ => rfl

theorem ends_increment {m : Meter} (hm : m.shape = .counter) {n : Nat} (hn : n < 2 ^ 64)
    (tag : String) :
    Ends (α := α) (increment m.metric (.ok n) [(m.tag, .text tag)]) s (.ok ()) s := by
  refine ends_of_rests (moves_increment hm _ _) (moves_increment hm _ _) fun v hv _ => ?_
  cases hr : v.recorder with
  | none => rw [increment, perform_ifRecording_none hr]
  | some r =>
    refine (sure_increment hm ?_ tag).answer hv.own
    rw [max_eq_left (Int.natCast_nonneg n)]
    exact hv.records (by rw [hr]; rfl) n hn

theorem ends_recordTiming {m : Meter} (hm : m.shape = .histogram) (d : Duration α) (tag : String) :
    Ends (recordTiming m.metric (.ok d) [(m.tag, .text tag)]) s (.ok ()) s :=
  ends_of_rests (moves_recordTiming hm _ _) (moves_recordTiming hm _ _) fun _ hv _ =>
    (sure_recordTiming hm d tag).answer hv.own

theorem ends_timed {m : Meter} (hm : m.shape = .histogram) (tag : String) {x : Except Error β}
    (ha : Ends a s x t) : Ends (timed m.metric [(m.tag, .text tag)] a) s x t :=
  ends_bind (ends_outcome ha) <| ends_bind (ends_recordTiming hm _ _) (ends_ofExcept x)

theorem ends_counted {m : Meter} (hm : m.shape = .counter) (level : Log.Level) (part text : String)
    {n : Nat} (hn : n < 2 ^ 64) (tag : String) (b : β) :
    Ends (α := α)
      (do log level part text; increment m.metric (.ok n) [(m.tag, .text tag)]; return b) s
      (.ok b) s :=
  ends_bind (ends_log _ _ _) <| ends_bind (ends_increment hm hn tag) (ends_pure b)

theorem ends_transaction {m : Change β} (h : Means a m) (hm : m.run s = .ok (b, t)) :
    Ends (transaction a) s (.ok b) t := by
  intro v hv hs
  obtain ⟨w, hc, hp⟩ := transaction_calm h hv.calm
  rw [hs, hm] at hp
  exact ⟨_, hp, rfl, hv.owns (hc.fault hv.calm) (Service.owns_of_eq hc.recorder)⟩

theorem ends_transaction_error {m : Change β} (h : Means a m) (hm : m.run s = .error e) :
    Ends (transaction a) s (.error e) s := by
  intro v hv hs
  obtain ⟨w, hc, hp⟩ := transaction_calm h hv.calm
  rw [hs, hm] at hp
  exact ⟨_, hp, rfl, hv.owns (hc.fault hv.calm) (Service.owns_of_eq hc.recorder)⟩

variable {document relation field : String} {rounds : Int} {damping : α}

theorem ends_rank {kernel : Kernel α} {scores : View α → Scores α} {s : Store} {document : String}
    (hk : ∀ v, View.ofEdges field (s.edgesOf document relation (some field)) = .ok v →
      kernel v v.field rounds damping = .ok (scores v)) (count : Int)
    (hr : Label.isValid relation = true) (hf : Label.isValid field = true) (hrounds : 1 ≤ rounds)
    (hlow : 0 ≤ damping) (hhigh : damping ≤ 1) :
    Ends (rank kernel count document relation field rounds damping) s
      ((View.ofEdges field (s.edgesOf document relation (some field))).map
        fun v => RankedNode.best count v (scores v)) s := by
  have hedges : Ends (α := α) (transaction (edges document relation (some field))) s
      (.ok (s.edgesOf document relation (some field))) s :=
    ends_transaction (means_edges document relation (some field)) rfl
  rw [rank]
  dsimp only
  rw [check_of_valid hr, check_of_valid hf, if_neg (Int.not_lt.2 hrounds),
    if_neg (by simp [hlow, hhigh])]
  refine ends_bind (ends_ofExcept _) <| ends_bind (ends_ofExcept _) <|
    ends_bind (ends_onStoreFailure hedges) ?_
  cases hv : View.ofEdges (α := α) field (s.edgesOf document relation (some field)) with
  | error e => exact ends_bind_error (ends_ofExcept (.error e))
  | ok v =>
    have hscore : Ends (score kernel v rounds damping) s (.ok (scores v)) s := by
      rw [score, hk v hv]
      exact ends_ofExcept _
    exact ends_bind (ends_ofExcept (.ok v)) <|
      ends_bind (ends_tryCatch (ends_timed (m := .ranking) rfl relation hscore)) <|
      ends_bind (ends_log _ _ _) (ends_pure _)

theorem ends_spans (document : String) (ranked : List (RankedNode α)) (s : Store) :
    Ends (spans document ranked) s (.ok (s.spansOf document ranked)) s := by
  refine ends_of_rests (moves_spans (fun _ => rests_transaction (means_tagOccurrences _ _)) ranked)
    (moves_spans (fun _ => owns_transaction (means_tagOccurrences _ _)) ranked) fun v hv hs => ?_
  obtain ⟨w, hw⟩ := perform_spans document ranked hv.calm
  rw [hw, hs]

theorem ends_persist {policy : Policy} {f : Filter} {counts : Counts} {o : PersistOutcome}
    (h : (Store.persist policy f document counts).run s = .ok (o, t)) (hn : o.written < 2 ^ 64) :
    Ends (α := α) (persist policy f document counts) s (.ok o) t := by
  simp only [persist]
  exact ends_bind (ends_outcome (ends_transaction (means_persist _ _ _ _) h)) <|
    ends_counted (m := .persisted) rfl _ _ _ hn policy.name o

theorem ends_persist_of_unknown (h : s.hasDocument document = false) (policy : Policy) (f : Filter)
    (counts : Counts) :
    Ends (α := α) (persist policy f document counts) s
      (.ok (.failure document .missingDocument (.documentNotFound document))) s := by
  have hrun := Store.persist_eq policy f document counts s
  rw [if_neg (by simp [h])] at hrun
  simp only [persist]
  exact ends_bind (ends_outcome (ends_transaction_error (means_persist _ _ _ _) hrun)) <|
    ends_counted (m := .persistsMissing) rfl _ _ _ (n := 1) (by decide) policy.name _

theorem ends_finish (e : Evaluation α) : Ends (finish e) s (.ok e) s :=
  ends_bind (ends_log _ _ _) <|
    ends_bind (ends_increment (m := .evaluations) rfl (n := 1) (by decide) e.status.name) <|
    ends_bind (ends_recordTiming (m := .evaluation) rfl _ e.status.name) (ends_pure e)

section

variable {p : Pipeline α} {f : Filter} {ranked : List (RankedNode α)} {found : List (Span α)}

theorem ends_locate
    (h : Ends (rank p.kernel p.topNodes document relation field rounds damping) s (.ok ranked) s) :
    Ends (locate p document relation field rounds damping) s
      (.ok (ranked, s.spansOf document ranked)) s :=
  ends_bind h <| ends_bind (ends_spans document ranked s) (ends_pure _)

theorem ends_locate_error
    (h : Ends (rank p.kernel p.topNodes document relation field rounds damping) s (.error e) s) :
    Ends (locate p document relation field rounds damping) s (.error e) s :=
  ends_bind_error h

theorem ends_conclude {o : PersistOutcome}
    (h : Ends (α := α) (persist p.policy f document
      (Aggregation.ofSpans f p.trailing p.wordLimit found).allCounts) s (.ok o) t) :
    Ends (conclude p f document ranked found) s
      (.ok (.concluded p f document ranked found o)) t :=
  ends_bind (ends_logAll _) <| ends_bind h <| ends_bind (ends_logAll _) (ends_finish _)

theorem ends_evaluate {o : PersistOutcome}
    (hl : Ends (locate p document relation field rounds damping) s (.ok (ranked, found)) s)
    (hp : Ends (α := α) (persist p.policy f document
      (Aggregation.ofSpans f p.trailing p.wordLimit found).allCounts) s (.ok o) t) :
    Ends (evaluate p f document relation field rounds damping) s
      (.ok (.concluded p f document ranked found o)) t :=
  ends_bind (ends_outcome hl) (ends_conclude hp)

theorem ends_evaluate_error (he : e.kind ≠ .ranking)
    (hl : Ends (locate p document relation field rounds damping) s (.error e) s) :
    Ends (evaluate p f document relation field rounds damping) s (.error e) s := by
  refine ends_bind (ends_outcome hl) ?_
  dsimp only
  rw [if_neg he]
  exact ends_throw e

end

end Action

end TagRank
