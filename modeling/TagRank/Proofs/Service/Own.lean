import TagRank.Proofs.Service.Reached
import TagRank.Proofs.Service.Share

namespace TagRank

open Metrics TagRank.Action

variable {α : Type}

def Service.IsOwn (s : Service α) : Prop := ∀ r ∈ s.recorder, r.IsOwn

/-- A service that comes of another one and records like it. -/
def Service.Owns (s t : Service α) : Prop :=
  s.IsOwn → t.IsOwn ∧ t.recorder.map (·.enabled) = s.recorder.map (·.enabled)

instance : IsPreorder (Service α) Service.Owns where
  refl _ h := ⟨h, rfl⟩
  trans _ _ _ h k hs := ⟨(k (h hs).1).1, (k (h hs).1).2.trans (h hs).2⟩

theorem Service.owns_of_eq {s t : Service α} (h : t.recorder = s.recorder) : s.Owns t :=
  fun hs => ⟨by simpa only [IsOwn, h] using hs, by rw [h]⟩

def Metrics.Recorder.BothOwn (r r' : Recorder α) : Prop :=
  r.enabled = r'.enabled ∧ r.IsOwn ∧ r'.IsOwn

theorem Service.Owns.bothOwn_of {s t u : Service α} (ht : s.Owns t) (hu : s.Owns u)
    (hs : s.IsOwn) : Option.Rel Recorder.BothOwn t.recorder u.recorder := by
  obtain ⟨ht, het⟩ := ht hs
  obtain ⟨hu, heu⟩ := hu hs
  have he := het.trans heu.symm
  cases htr : t.recorder with
  | none =>
    rw [htr, Option.map_none, eq_comm, Option.map_eq_none_iff] at he
    rw [he]
    exact .none
  | some r =>
    rw [htr, Option.map_some, eq_comm, Option.map_eq_some_iff] at he
    obtain ⟨r', hr', he⟩ := he
    rw [hr']
    exact .some ⟨he.symm, ht r htr, hu r' hr'⟩

theorem Service.Owns.bothOwn {s t : Service α} (h : s.Owns t) (hs : s.IsOwn) :
    Option.Rel Recorder.BothOwn s.recorder t.recorder :=
  (refl_of Service.Owns s).bothOwn_of h hs

namespace Action

variable {β γ : Type}

theorem owns_of_means {a : Action α β} {m : Change β} (h : Means a m) : Moves Service.Owns a := by
  intro s
  have ha := h.follows s
  generalize perform a s = p at ha
  cases ha with
  | done _ hc => exact Service.owns_of_eq hc.recorder
  | failed _ hc => exact Service.owns_of_eq hc.recorder
  | struck _ hr => exact Service.owns_of_eq hr

/-- Transactions measure nothing. -/
theorem moves_transaction {R : Service α → Service α → Prop} {a : Action α β} {m : Change β}
    (h : Means a m) (hR : ∀ {s t : Service α}, t.recorder = s.recorder → R s t) :
    Moves R (transaction a) := by
  intro s
  have ht := transaction_cases h s
  generalize perform (transaction a) s = p at ht
  cases ht with
  | committed _ hc => exact hR hc.recorder
  | undone _ _ hc => exact hR hc.recorder
  | struck _ _ hr => exact hR hr

theorem owns_transaction {a : Action α β} {m : Change β} (h : Means a m) :
    Moves Service.Owns (transaction a) :=
  moves_transaction h Service.owns_of_eq

/-- Answers `b`, whatever has been recorded so far. -/
def Sure (a : Action α β) (b : β) : Prop :=
  ∀ s, s.IsOwn → ∃ t, perform a s = (.ok b, t) ∧ t.IsOwn

theorem Sure.answer {a : Action α β} {b : β} (h : Sure a b) {s : Service α} (hs : s.IsOwn) :
    (perform a s).1 = .ok b := by
  obtain ⟨t, ht, -⟩ := h s hs
  rw [ht]

theorem sure_pure (b : β) : Sure (α := α) (pure b) b := fun s hs => ⟨s, rfl, hs⟩

theorem sure_bind {a : Action α β} {b : β} {f : β → Action α γ} {c : γ} (ha : Sure a b)
    (hf : Sure (f b) c) : Sure (a >>= f) c := by
  intro s hs
  obtain ⟨t, ht, hown⟩ := ha s hs
  rw [perform_bind, ht]
  exact hf t hown

theorem sure_log (level : Log.Level) (part text : String) :
    Sure (α := α) (log level part text) () :=
  fun _ hs => ⟨_, rfl, hs⟩

theorem sure_ifRecording {a : Action α Unit} (h : Sure a ()) : Sure (ifRecording a) () := by
  intro s hs
  simp only [ifRecording]
  rw [perform_bind, perform_get]
  dsimp only
  split
  · exact h s hs
  · exact ⟨s, rfl, hs⟩

theorem sure_measureLine (metric field shown : String) (tags : List (String × String)) :
    Sure (α := α) (measureLine metric field shown tags) () := by
  intro s hs
  simp only [measureLine]
  rw [perform_bind, perform_get]
  dsimp only
  split
  · exact ⟨s, rfl, hs⟩
  · exact sure_log _ _ _ s hs

end Action

namespace Call

theorem owns_runAll (cs : List Call) : Moves Service.Owns (runAll (α := α) cs) := by
  induction cs with
  | nil =>
    refine moves_bind (moves_outcome (owns_of_means (means_gate .commit))) fun x => ?_
    cases x <;> exact moves_pure _
  | cons c cs ih =>
    obtain ⟨m, hm, _⟩ := means_run (α := α) (P := fun _ => True) c fun _ _ => trivial
    refine moves_bind (moves_outcome (owns_of_means hm)) fun x => ?_
    cases x with
    | error e => exact moves_pure _
    | ok reply => exact moves_bind ih fun _ => moves_pure _

theorem owns_transact (cs : List Call) : Moves Service.Owns (transact (α := α) cs) := by
  refine moves_bind (moves_outcome (owns_of_means (means_gate .transaction))) fun x => ?_
  cases x with
  | error e => exact moves_pure _
  | ok _ =>
    refine moves_bind moves_get fun _ => moves_bind (owns_runAll cs) fun _ => ?_
    exact moves_ite _ (fun _ => Service.owns_of_eq rfl) (moves_pure _)

end Call

variable [Scalar α]

instance : Tolerant (Service.Owns (α := α)) where
  log _ _ := Service.owns_of_eq rfl
  observe {s r} hr m tag x hs := by
    obtain ⟨series, ho, hown⟩ := (hs r hr).observe m tag x
    rw [ho]
    refine ⟨fun r' hr' => ?_, by rw [hr]; rfl⟩
    obtain rfl := Option.some.inj hr'
    exact hown

theorem Step.owns (x : Step α) (s : Service α) : s.Owns (x.take s) := by
  cases x with
  | load d sentences => exact moves_loadGiven (owns_transaction (means_loading _ _)) s
  | build d relation field => exact moves_build (owns_transaction (means_addPairs _ _ _)) s
  | clear d relation => exact moves_clear (owns_transaction (means_deleteEdges _ _)) s
  | rebuild d relation field =>
    exact moves_rebuild (owns_transaction (means_deleteEdges _ _))
      (owns_transaction (means_addPairs _ _ _)) s
  | evaluate p f d relation field rounds damping =>
    refine moves_evaluate (moves_rank _ _ (owns_transaction (means_edges _ _ _)) _ _)
      (moves_spans fun _ => owns_transaction (means_tagOccurrences _ _)) (fun counts => ?_) s
    exact moves_persist (owns_transaction (means_persist _ _ _ _))
  | persist policy f d counts => exact moves_persist (owns_transaction (means_persist _ _ _ _)) s
  | refuse fault => exact Service.owns_of_eq rfl

theorem Move.owns (m : Move α) (s : Service α) : s.Owns (m.take s) := by
  cases m with
  | step x => exact x.owns s
  | transact cs => exact Call.owns_transact cs s

theorem Service.owns_run (xs : List (Step α)) (s : Service α) : s.Owns (run xs s) := by
  induction xs generalizing s with
  | nil => exact refl_of Service.Owns s
  | cons x xs ih => exact trans_of Service.Owns (x.owns s) (ih (x.take s))

theorem Service.owns_moves (ms : List (Move α)) (s : Service α) : s.Owns (moves ms s) := by
  induction ms generalizing s with
  | nil => exact refl_of Service.Owns s
  | cons m ms ih => exact trans_of Service.Owns (m.owns s) (ih (m.take s))

instance : Concordant (Recorder.BothOwn (α := α)) where
  enabled h := h.1
  observe {r r'} h m value x := by
    obtain ⟨he, hr, hr'⟩ := h
    obtain ⟨series, ho, hown⟩ := hr.observe m value x
    obtain ⟨series', ho', hown'⟩ := hr'.observe m value x
    rw [ho, ho']
    exact ⟨⟨he, hown, hown'⟩, rfl⟩

namespace Action

theorem sure_observe (m : Meter) (tag : String) (x : α) :
    Sure (observe m.shape m.metric [(m.tag, tag)] (some x)) () := by
  intro s hs
  have howns := moves_observe (R := Service.Owns) m tag (some x) s hs
  simp only [observe] at howns ⊢
  rw [perform_bind, perform_get] at howns ⊢
  cases hr : s.recorder with
  | none => exact ⟨s, by simp [hr], hs⟩
  | some r =>
    obtain ⟨series, ho, -⟩ := (hs r hr).observe m tag x
    simp only [hr, ho] at howns ⊢
    exact ⟨_, rfl, howns.1⟩

theorem sure_increment {m : Meter} (hm : m.shape = .counter) {n : Int}
    (hn : (Scalar.ofInt? (max n 0) : Option α).isSome) (tag : String) :
    Sure (α := α) (increment m.metric (.ok n) [(m.tag, .text tag)]) () := by
  obtain ⟨x, hx⟩ := Option.isSome_iff_exists.1 hn
  refine sure_ifRecording <| sure_bind (sure_pure n) <| sure_bind (sure_measureLine _ _ _ _) ?_
  rw [← hm, Tags.texts_single, hx]
  exact sure_observe m tag x

theorem sure_recordTiming {m : Meter} (hm : m.shape = .histogram) (d : Duration α) (tag : String) :
    Sure (recordTiming m.metric (.ok d) [(m.tag, .text tag)]) () := by
  refine sure_ifRecording <| sure_bind (sure_pure d) <| sure_bind (sure_measureLine _ _ _ _) ?_
  rw [← hm, Tags.texts_single]
  exact sure_observe m tag d.seconds

end Action

end TagRank
