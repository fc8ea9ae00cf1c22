import TagRank.Proofs.Service.Step
import TagRank.Proofs.Service.Write
import TagRank.Proofs.Store.Sound

/-!
What is done to a service from outside, and the services that this can make of an empty store. The
store is only ever written to by single changes about the documents that are named.
-/

namespace TagRank

open TagRank.Action

namespace Call

variable {α : Type} {P : String → Prop}

def documents : Call → List String
  | documentExists d | addDocument d | addSentences d _ | documentSentences d | tagOccurrences d _
  | upsertEdge d .. | deleteEdges d _ | edges d .. | createAssociation _ d _
  | upsertAssociation _ d _ | associations d => [d]
  | getKeyword _ | findOrCreateKeyword .. | countKeywords | fail _ => []

theorem means_run (c : Call) (h : ∀ d ∈ c.documents, P d) :
    ∃ m, Means (α := α) c.run m ∧ m.Writes P := by
  have map {β : Type} (f : β → Reply) {a : Action α β} {m : Change β} (ha : Means a m)
      (hm : m.Writes P) : ∃ m, Means (f <$> a) m ∧ m.Writes P :=
    ⟨_, means_map f ha, Change.writes_map f hm⟩
  cases c with
  | documentExists d => exact map _ (means_documentExists d) (Change.writes_reading _)
  | documentSentences d => exact map _ (means_documentSentences d) (Change.writes_reading _)
  | tagOccurrences d tags => exact map _ (means_tagOccurrences d tags) (Change.writes_reading _)
  | edges d r f => exact map _ (means_edges d r f) (Change.writes_reading _)
  | getKeyword id => exact map _ (means_getKeyword id) (Change.writes_reading _)
  | associations d => exact map _ (means_associations d) (Change.writes_reading _)
  | countKeywords => exact map _ means_countKeywords (Change.writes_reading _)
  | fail e => exact ⟨_, means_throw e, Change.writes_error e⟩
  | findOrCreateKeyword id value =>
    exact ⟨_, means_bind (means_findOrCreateKeyword id value) fun _ => means_pure _,
      Change.writes_bind (Change.writes_findOrCreate id value) fun _ => Change.writes_pure _⟩
  | addDocument d =>
    exact map _ (means_addDocument d) (Change.writes_addDocument (h d (.head _)))
  | addSentences d sentences =>
    exact map _ (means_addGiven d (sentences.map Sentence.given))
      (Change.writes_replaceGiven (h d (.head _)) _)
  | upsertEdge d r f first second =>
    exact ⟨_, means_bind (means_upsertEdge d r f first second) fun _ => means_pure _,
      Change.writes_bind (Change.writes_upsertEdge (h d (.head _)) r f first second)
        fun _ => Change.writes_pure _⟩
  | deleteEdges d r =>
    exact map _ (means_deleteEdges d r) (Change.writes_deleteEdges (h d (.head _)) r)
  | createAssociation k d count =>
    exact map _ (means_createAssociation k d count)
      (Change.writes_newAssociation (h d (.head _)) k count)
  | upsertAssociation k d count =>
    exact map _ (means_upsertAssociation k d count)
      (Change.writes_putAssociation (h d (.head _)) k count)

theorem writes_runAll (cs : List Call) (h : ∀ c ∈ cs, ∀ d ∈ c.documents, P d) (s : Service α) :
    ∃ replies error t, perform (runAll cs) s = (.ok (replies, error), t) ∧
      (error = none → s.Writes P t) := by
  induction cs generalizing s with
  | nil =>
    have hg := gate_store .commit s
    simp only [runAll]
    rw [perform_bind, perform_outcome]
    generalize perform (gate .commit) s = p at hg
    obtain ⟨e | _, t⟩ := p
    · exact ⟨[], some e, t, rfl, fun h => nomatch h⟩
    · exact ⟨[], none, t, rfl, fun _ => .of_eq hg⟩
  | cons c cs ih =>
    obtain ⟨hc, hcs⟩ := List.forall_mem_cons.1 h
    obtain ⟨m, hm, hw⟩ := means_run (α := α) c hc
    have hr := hm.follows s
    simp only [runAll]
    rw [perform_bind, perform_outcome]
    generalize perform c.run s = p at hr
    cases hr with
    | @done reply t ht =>
      obtain ⟨replies, error, u, hu, hn⟩ := ih hcs t
      refine ⟨reply :: replies, error, u, ?_, fun he => (hw ht).trans (hn he)⟩
      dsimp only
      rw [perform_bind, hu]
      rfl
    | failed => exact ⟨[], _, _, rfl, fun h => nomatch h⟩
    | struck => exact ⟨[], _, _, rfl, fun h => nomatch h⟩

theorem writes_transact (cs : List Call) (h : ∀ c ∈ cs, ∀ d ∈ c.documents, P d) :
    Moves (Service.Writes (α := α) P) (transact cs) := by
  intro s
  have hg := gate_store .transaction s
  simp only [transact]
  rw [perform_bind, perform_outcome]
  generalize perform (gate .transaction) s = p at hg
  obtain ⟨e | _, t⟩ := p
  · exact .of_eq hg
  · obtain ⟨replies, error, u, hu, hn⟩ := writes_runAll cs h t
    dsimp only
    rw [perform_bind, perform_get]
    dsimp only
    rw [perform_bind, hu]
    cases error with
    | none => exact (Store.Writes.of_eq hg).trans (hn rfl)
    | some e => exact .of_eq hg

end Call

variable {α : Type} [Scalar α] {P : String → Prop}

def Step.documents : Step α → List String
  | load d _ | build d .. | clear d _ | rebuild d .. | evaluate _ _ d .. | persist _ _ d _ => [d]
  | refuse _ => []

theorem Step.writes (x : Step α) (h : ∀ d ∈ x.documents, P d) (s : Service α) :
    s.Writes P (x.take s) := by
  cases x with
  | load d sentences => exact writes_loadDocument (h d (.head _)) sentences s
  | build d relation field => exact writes_build (h d (.head _)) relation field s
  | clear d relation => exact writes_clear (h d (.head _)) relation s
  | rebuild d relation field => exact writes_rebuild (h d (.head _)) relation field s
  | evaluate p f d relation field rounds damping =>
    exact writes_evaluate (h d (.head _)) p f relation field rounds damping s
  | persist policy f d counts => exact writes_persist (h d (.head _)) policy f counts s
  | refuse fault => exact .of_eq rfl

/-- A step of a client, or a transaction of any calls. -/
inductive Move (α : Type)
  | step (x : Step α)
  | transact (cs : List Call)

namespace Move

def documents : Move α → List String
  | step x => x.documents
  | transact cs => cs.flatMap Call.documents

def take : Move α → Service α → Service α
  | step x, s => x.take s
  | transact cs, s => (perform (Call.transact cs) s).2

theorem writes (m : Move α) (h : ∀ d ∈ m.documents, P d) (s : Service α) :
    s.Writes P (m.take s) := by
  cases m with
  | step x => exact x.writes h s
  | transact cs =>
    exact Call.writes_transact cs (fun c hc d hd => h d (List.mem_flatMap.2 ⟨c, hc, hd⟩)) s

end Move

namespace Service

def moves : List (Move α) → Service α → Service α
  | [], s => s
  | m :: ms, s => moves ms (m.take s)

theorem writes_moves (ms : List (Move α)) (h : ∀ m ∈ ms, ∀ d ∈ m.documents, P d) (s : Service α) :
    s.Writes P (moves ms s) := by
  induction ms generalizing s with
  | nil => exact .of_eq rfl
  | cons m ms ih =>
    obtain ⟨hm, hms⟩ := List.forall_mem_cons.1 h
    exact (m.writes hm s).trans (ih hms (m.take s))

end Service

theorem Service.sound_of_moves {s : Service α} (h : s.store.Sound) (ms : List (Move α)) :
    (moves ms s).store.Sound :=
  (writes_moves (P := fun _ => True) ms (fun _ _ _ _ => trivial) s).sound h

theorem Service.grows_moves (s : Service α) (ms : List (Move α)) :
    s.store.Grows (moves ms s).store :=
  (writes_moves (P := fun _ => True) ms (fun _ _ _ _ => trivial) s).grows

/-- A store that was empty stays sound. What it knows of keywords it never forgets, and associations
are numbered in the order in which they were made. -/
theorem Service.sound_moves (s : Service α) (ms : List (Move α)) :
    let s := moves ms { s with store := .empty }
    s.store.Sound ∧ s.store.associations.Pairwise (fun a b => a.id < b.id) ∧
      ∀ ms, s.store.Grows (moves ms s).store := by
  intro s
  have hs : s.store.Sound := sound_of_moves Store.sound_empty ms
  exact ⟨hs, Association.Numbered.pairwise hs.numbered, grows_moves s⟩

inductive Reached : Service α → Prop
  | start (s : Service α) : Reached { s with store := .empty }
  | step {s} (x : Step α) : Reached s → Reached (x.take s)
  | transact {s} (cs : List Call) : Reached s → Reached (perform (Call.transact cs) s).2

theorem Reached.run (xs : List (Step α)) {s : Service α} (h : Reached s) :
    Reached (Service.run xs s) := by
  induction xs generalizing s with
  | nil => exact h
  | cons x xs ih => exact ih (.step x h)

theorem Reached.sound {s : Service α} (h : Reached s) : s.store.Sound := by
  induction h with
  | start s => exact Store.sound_empty
  | @step s x _ ih => exact (x.writes (fun _ _ => trivial) s).sound ih
  | @transact s cs _ ih =>
    exact (Call.writes_transact cs (fun _ _ _ _ => trivial) s).sound ih

theorem Reached.numbered {s : Service α} (h : Reached s) : s.store.Numbered := h.sound.numbered

end TagRank
