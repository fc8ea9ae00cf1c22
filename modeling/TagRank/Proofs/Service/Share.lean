import TagRank.Proofs.Service.Attuned
import TagRank.Proofs.Service.Evaluate

namespace TagRank

open Metrics

class Concordant {α : Type} [Scalar α] (K : Recorder α → Recorder α → Prop) : Prop where
  enabled {r r'} : K r r' → r.enabled = r'.enabled
  observe {r r'} : K r r' → ∀ (m : Meter) (value : String) (x : α),
    K (r.observe m.shape m.metric [(m.tag, value)] x).1
        (r'.observe m.shape m.metric [(m.tag, value)] x).1 ∧
      (r.observe m.shape m.metric [(m.tag, value)] x).2 =
        (r'.observe m.shape m.metric [(m.tag, value)] x).2

instance {α : Type} [Scalar α] : Concordant (Eq : Recorder α → Recorder α → Prop) where
  enabled h := h ▸ rfl
  observe h _ _ _ := h ▸ ⟨rfl, rfl⟩

theorem rel_refl {α : Type} (r : Option (Recorder α)) : Option.Rel Eq r r := by
  cases r with
  | none => exact .none
  | some r => exact .some rfl

/-- Two services that refuse nothing, which measure alike, and whose stores stand in a relation. -/
structure Service.Alike {α : Type} (R : Store → Store → Prop)
    (K : Recorder α → Recorder α → Prop) (s t : Service α) : Prop where
  store : R s.store t.store
  calm : s.fault = none
  calm' : t.fault = none
  recorder : Option.Rel K s.recorder t.recorder

inductive Settled {β γ : Type} (R : Store → Store → Prop) (Q : β → γ → Prop) :
    Except Error (β × Store) → Except Error (γ × Store) → Prop
  | done {b c s t} : R s t → Q b c → Settled R Q (.ok (b, s)) (.ok (c, t))
  | failed {e} : Settled R Q (.error e) (.error e)

/-- A relation of stores with the same text of a document, which lasts while keywords of the document
are stored. -/
structure Store.Shares (document : String) (R : Store → Store → Prop) : Prop where
  known {s t : Store} : R s t → s.hasDocument document = t.hasDocument document
  occurrencesOf {s t : Store} : R s t → ∀ tags,
    s.occurrencesOf document tags = t.occurrencesOf document tags
  put {s t : Store} : R s t → ∀ (policy : Policy) (row : String × Int),
    R (s.put policy document row) (t.put policy document row)

namespace Change

variable {β γ δ ε : Type} {R : Store → Store → Prop} {document : String}

def Parallel (R : Store → Store → Prop) (m : Change β) (n : Change γ) (Q : β → γ → Prop) : Prop :=
  ∀ s t, R s t → Settled R Q (m.run s) (n.run t)

theorem parallel_pure {Q : β → γ → Prop} {b : β} {c : γ} (h : Q b c) :
    Parallel R (pure b) (pure c) Q := fun _ _ hs => .done hs h

theorem parallel_bind {m : Change β} {n : Change γ} {Q : β → γ → Prop} {f : β → Change δ}
    {g : γ → Change ε} {P : δ → ε → Prop} (h : Parallel R m n Q)
    (hf : ∀ b c, Q b c → Parallel R (f b) (g c) P) :
    Parallel R (m >>= f) (n >>= g) P := by
  intro s t hs
  have hm := h s t hs
  rw [StateT.run_bind, StateT.run_bind]
  generalize m.run s = x at hm
  generalize n.run t = y at hm
  cases hm with
  | done hu hq => exact hf _ _ hq _ _ hu
  | failed => exact .failed

theorem parallel_forM {κ : Type} (ks : List κ) {m n : κ → Change PUnit}
    (h : ∀ k, Parallel R (m k) (n k) Eq) :
    Parallel R (ks.forM m) (ks.forM n) Eq := by
  induction ks with
  | nil => exact parallel_pure rfl
  | cons k ks ih => exact parallel_bind (h k) fun _ _ _ => ih

theorem parallel_reading {g : Store → β} {Q : β → β → Prop}
    (h : ∀ s t, R s t → Q (g s) (g t)) :
    Parallel R (fun s => .ok (g s, s)) (fun s => .ok (g s, s)) Q :=
  fun s t hs => .done hs (h s t hs)

theorem settled_persistAll (hR : Store.Shares document R) (policy : Policy) (f : Filter)
    (counts : Counts) {o o' : PersistOutcome} (h : o.Similar o') {s t : Store} (hs : R s t)
    (hd : s.hasDocument document = true) :
    Settled R PersistOutcome.Similar ((Store.persistAll policy f document counts o).run s)
      ((Store.persistAll policy f document counts o').run t) := by
  induction counts generalizing o o' s t with
  | nil => exact .done hs h
  | cons c counts ih =>
    obtain ⟨key, count⟩ := c
    simp only [Store.persistAll]
    rw [StateT.run_bind, StateT.run_bind]
    cases hf : f.isStopword (Key.value key) with
    | true =>
      rw [Store.persistOne_of_stopword hf, Store.persistOne_of_stopword hf]
      exact ih (h.skip key) hs hd
    | false =>
      rw [Store.persistOne_eq hf hd, Store.persistOne_eq hf (hR.known hs ▸ hd)]
      cases count with
      | error e => exact .failed
      | ok n =>
        change Settled _ _ ((do Store.checkFits n; _) >>= _) ((do Store.checkFits n; _) >>= _)
        cases Store.checkFits n with
        | error e => exact .failed
        | ok _ => exact ih (h.wrote _ _) (hR.put hs policy (key, n)) (Store.hasDocument_put hd _)

theorem parallel_persist (hR : Store.Shares document R) (policy : Policy) (f : Filter)
    (counts : Counts) :
    Parallel R (Store.persist policy f document counts) (Store.persist policy f document counts)
      PersistOutcome.Similar := by
  intro s t hs
  simp only [Store.persist]
  rw [StateT.run_bind, StateT.run_bind]
  change Settled _ _ (StateT.run (if !s.hasDocument document then _ else _) s)
    (StateT.run (if !t.hasDocument document then _ else _) t)
  rw [← hR.known hs]
  cases hd : s.hasDocument document with
  | false => exact .failed
  | true => exact settled_persistAll hR policy f counts rfl hs hd

end Change

namespace Action

variable {α β γ : Type} {R : Store → Store → Prop} {K : Recorder α → Recorder α → Prop}

theorem parallel_transaction {a : Action α β} {b : Action α γ} {m : Change β} {n : Change γ}
    {Q : β → γ → Prop} (ha : Means a m) (hb : Means b n) (h : m.Parallel R n Q) :
    Parallel (Service.Alike R K) (transaction a) (transaction b) Q := by
  intro s t hs
  have hmn := h _ _ hs.store
  obtain ⟨s', hc, hp⟩ := transaction_calm ha hs.calm
  obtain ⟨t', hd, hq⟩ := transaction_calm hb hs.calm'
  have hr : Option.Rel K s'.recorder t'.recorder := by
    rw [hc.recorder, hd.recorder]
    exact hs.recorder
  rw [hp, hq]
  generalize m.run s.store = x at hmn
  generalize n.run t.store = y at hmn
  cases hmn with
  | done hu hQ => exact .done ⟨hu, hc.fault hs.calm, hd.fault hs.calm', hr⟩ hQ
  | failed => exact .failed ⟨hs.store, hc.fault hs.calm, hd.fault hs.calm', hr⟩

theorem parallel_edges {document relation : String} {field : Option String}
    {Q : List Edge → List Edge → Prop}
    (h : ∀ s t, R s t → Q (s.edgesOf document relation field) (t.edgesOf document relation field)) :
    Parallel (Service.Alike (α := α) R K) (transaction (edges document relation field))
      (transaction (edges document relation field)) Q :=
  parallel_transaction (means_edges _ _ _) (means_edges _ _ _) (Change.parallel_reading h)

theorem parallel_tagOccurrences {document : String} (hR : Store.Shares document R)
    (tags : List String) :
    Parallel (Service.Alike (α := α) R K) (transaction (tagOccurrences document tags))
      (transaction (tagOccurrences document tags)) Eq :=
  parallel_transaction (means_tagOccurrences _ _) (means_tagOccurrences _ _)
    (Change.parallel_reading fun _ _ hs => hR.occurrencesOf hs tags)

theorem evaluates_of_shares {document : String} (hR : Store.Shares document R) (policy : Policy)
    (f : Filter) : Evaluates (Service.Alike (α := α) R K) policy f document where
  tagOccurrences := parallel_tagOccurrences hR
  persisting counts :=
    parallel_transaction (means_persist policy f document counts)
      (means_persist policy f document counts) (Change.parallel_persist hR policy f counts)

theorem parallel_measureLine (metric field shown : String) (tags : List (String × String)) :
    Parallel (Service.Alike (α := α) R K) (measureLine metric field shown tags)
      (measureLine metric field shown tags) Eq := by
  intro s t hs
  have hr := hs.recorder
  simp only [measureLine]
  rw [perform_bind, perform_bind, perform_get, perform_get]
  dsimp only
  generalize s.recorder = r at hr
  generalize t.recorder = r' at hr
  cases hr with
  | none => exact .done hs rfl
  | some => exact .done ⟨hs.store, hs.calm, hs.calm', hs.recorder⟩ rfl

variable [Scalar α] [Concordant K]

theorem parallel_ifRecording {a : Action α Unit} (h : Parallel (Service.Alike R K) a a Eq) :
    Parallel (Service.Alike R K) (ifRecording a) (ifRecording a) Eq := by
  intro s t hs
  have hr := hs.recorder
  simp only [ifRecording]
  rw [perform_bind, perform_bind, perform_get, perform_get]
  dsimp only
  have he : s.recorder.any (·.enabled) = t.recorder.any (·.enabled) := by
    generalize s.recorder = r at hr
    generalize t.recorder = r' at hr
    cases hr with
    | some h => exact Concordant.enabled h
    | none => rfl
  rw [he]
  split
  · exact h s t hs
  · exact .done hs rfl

theorem parallel_observe (m : Meter) (value : String) (x : Option α) :
    Parallel (Service.Alike R K) (observe m.shape m.metric [(m.tag, value)] x)
      (observe m.shape m.metric [(m.tag, value)] x) Eq := by
  intro s t hs
  have hr := hs.recorder
  simp only [observe]
  rw [perform_bind, perform_bind, perform_get, perform_get]
  dsimp only
  cases x with
  | none =>
    generalize s.recorder = r at hr
    generalize t.recorder = r' at hr
    cases hr <;> exact .failed hs
  | some x =>
    generalize hsr : s.recorder = r at hr
    generalize htr : t.recorder = r' at hr
    cases hr with
    | none => exact .done hs rfl
    | @some r r' h =>
      obtain ⟨ho, he⟩ := Concordant.observe h m value x
      have hs' : Service.Alike R K
          { s with recorder := some (r.observe m.shape m.metric [(m.tag, value)] x).1 }
          { t with recorder := some (r'.observe m.shape m.metric [(m.tag, value)] x).1 } :=
        ⟨hs.store, hs.calm, hs.calm', .some ho⟩
      have hp := parallel_ofExcept (E := Service.Alike R K)
        (r.observe m.shape m.metric [(m.tag, value)] x).2 _ _ hs'
      dsimp only
      rw [← he]
      exact hp

instance : Attuned (Service.Alike R K) where
  log _ _ hs := ⟨hs.store, hs.calm, hs.calm', hs.recorder⟩
  increment {m} hm n tag := by
    refine parallel_ifRecording <| parallel_bind_eq (parallel_ofExcept _) fun _ =>
      parallel_bind_eq (parallel_measureLine _ _ _ _) fun _ => ?_
    rw [← hm, Tags.texts_single]
    exact parallel_observe m tag _
  recordTiming {m} hm duration tag := by
    refine parallel_ifRecording <| parallel_bind_eq (parallel_ofExcept _) fun _ =>
      parallel_bind_eq (parallel_measureLine _ _ _ _) fun _ => ?_
    rw [← hm, Tags.texts_single]
    exact parallel_observe m tag _

end Action

end TagRank
