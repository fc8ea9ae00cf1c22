import TagRank.Proofs.Service.Parallel

/-!
What actions do to the store. Inside a transaction an action follows a change of the store alone,
until the store refuses something; a transaction then carries the whole change out or none of it.
What is refused goes by the store and the fault, and not by what has been recorded.
-/

namespace TagRank

abbrev Change (β : Type) := StateT Store (Except Error) β

structure Service.IsCalm {α : Type} (s t : Service α) : Prop where
  recorder : t.recorder = s.recorder
  fault : s.fault = none → t.fault = none

theorem Service.IsCalm.refl {α : Type} (s : Service α) : IsCalm s s := ⟨rfl, id⟩

theorem Service.IsCalm.trans {α : Type} {s t u : Service α} (h : IsCalm s t) (k : IsCalm t u) :
    IsCalm s u :=
  ⟨k.recorder.trans h.recorder, fun hs => k.fault (h.fault hs)⟩

namespace Action

variable {α β γ : Type}

/-- How an action ends that follows a change; its store does not matter once it has failed. -/
inductive Follows (m : Change β) (s : Service α) : Except Error β × Service α → Prop
  | done {b t} : m.run s.store = .ok (b, t.store) → s.IsCalm t → Follows m s (.ok b, t)
  | failed {e t} : m.run s.store = .error e → s.IsCalm t → Follows m s (.error e, t)
  | struck {text t} : s.fault ≠ none → t.recorder = s.recorder →
      Follows m s (.error (.storeFailed text), t)

def Service.SameOutside (s t : Service α) : Prop := s.outside = t.outside

def Blind (a : Action α β) : Prop := Parallel Service.SameOutside a a Eq

theorem blind_log (level : Log.Level) (part text : String) :
    Blind (α := α) (log level part text) := fun _ _ h => .done h rfl

theorem blind_logAll (lines : List Log.Line) : Blind (α := α) (logAll lines) :=
  fun _ _ h => .done h rfl

theorem blind_get {f : Store → Action α β} (hf : ∀ s, Blind (f s)) :
    Blind (do f (← get).store) := by
  intro s t h
  rw [perform_bind, perform_bind, perform_get, perform_get]
  have hs : s.store = t.store := congrArg Prod.fst h
  dsimp only
  rw [hs]
  exact hf t.store s t h

theorem blind_change (f : Store → Store) : Blind (α := α) (change f) := by
  intro s t h
  obtain ⟨hs, hf⟩ := Prod.mk.inj h
  exact .done (Prod.ext (congrArg f hs) hf) rfl

theorem blind_apply (f : Store → β × Store) : Blind (α := α) (apply f) := by
  intro s t h
  obtain ⟨hs, hf⟩ := Prod.mk.inj h
  exact .done (Prod.ext (congrArg (fun s => (f s).2) hs) hf) (congrArg (fun s => (f s).1) hs)

theorem blind_attempt (f : Store → Except Error (β × Store)) : Blind (α := α) (attempt f) := by
  intro s t h
  obtain ⟨hs, hf⟩ := Prod.mk.inj h
  simp only [attempt]
  rw [perform_bind, perform_bind, perform_get, perform_get]
  dsimp only
  rw [hs]
  split
  · exact .done (Prod.ext rfl hf) rfl
  · exact .failed h

theorem blind_gate (operation : Operation) : Blind (α := α) (gate operation) := by
  intro s t h
  obtain ⟨hs, hf⟩ := Prod.mk.inj h
  simp only [gate]
  rw [perform_bind, perform_bind, perform_get, perform_get]
  dsimp only
  rw [hf]
  split
  · exact .done h rfl
  · split
    · split
      · exact .failed h
      · exact .done (Prod.ext hs rfl) rfl
    · exact .done h rfl

structure Means (a : Action α β) (m : Change β) : Prop where
  follows : ∀ s, Follows m s (perform a s)
  blind : Blind a

theorem Means.congr {a : Action α β} {m n : Change β} (h : Means a m)
    (e : ∀ s, m.run s = n.run s) : Means a n := by
  rw [← show m = n from funext e]
  exact h

theorem means_pure (b : β) : Means (α := α) (pure b) (pure b) where
  follows s := .done rfl (.refl s)
  blind := parallel_pure rfl

theorem means_throw_bind (e : Error) (f : γ → Action α β) :
    Means (throw e >>= f) fun _ => .error e where
  follows s := .failed rfl (.refl s)
  blind := parallel_throw_bind e f f

theorem means_throw (e : Error) : Means (α := α) (β := β) (throw e) fun _ => .error e where
  follows s := .failed rfl (.refl s)
  blind := parallel_throw e

theorem means_ofExcept (x : Except Error β) :
    Means (α := α) (ofExcept x) fun s => x.map (·, s) := by
  cases x with
  | ok b => exact means_pure b
  | error e => exact means_throw e

theorem means_bind {a : Action α β} {f : β → Action α γ} {m : Change β} {n : β → Change γ}
    (ha : Means a m) (hf : ∀ b, Means (f b) (n b)) : Means (a >>= f) (m >>= n) := by
  refine ⟨fun s => ?_, parallel_bind_eq ha.blind fun b => (hf b).blind⟩
  have hs := ha.follows s
  rw [perform_bind]
  generalize perform a s = p at hs
  cases hs with
  | @done b t hm ht =>
    have hn : (m >>= n).run s.store = (n b).run t.store := by rw [StateT.run_bind, hm]; rfl
    have hb := (hf b).follows t
    dsimp only
    generalize perform (f b) t = q at hb
    cases hb with
    | done h hu => exact .done (hn.trans h) (ht.trans hu)
    | failed h hu => exact .failed (hn.trans h) (ht.trans hu)
    | struck h hu => exact .struck (fun hs => h (ht.fault hs)) (hu.trans ht.recorder)
  | failed hm ht => exact .failed (by rw [StateT.run_bind, hm]; rfl) ht
  | struck h ht => exact .struck h ht

theorem means_map (f : β → γ) {a : Action α β} {m : Change β} (h : Means a m) :
    Means (f <$> a) (f <$> m) := by
  rw [map_eq_pure_bind, map_eq_pure_bind]
  exact means_bind h fun _ => means_pure _

theorem means_get {f : Store → Action α β} {m : Store → Change β} (h : ∀ s, Means (f s) (m s)) :
    Means (do f (← get).store) (get >>= m) := by
  refine ⟨fun s => ?_, blind_get fun s => (h s).blind⟩
  rw [perform_bind, perform_get]
  have hs := (h s.store).follows s
  dsimp only
  generalize perform (f s.store) s = p at hs
  cases hs with
  | done h ht => exact .done h ht
  | failed h ht => exact .failed h ht
  | struck h ht => exact .struck h ht

theorem means_ignore {f : Store → Action α β} {m : Change β} (h : ∀ s, Means (f s) m) :
    Means (do f (← get).store) m :=
  (means_get (m := fun _ => m) h).congr fun _ => rfl

theorem means_skip {a : Action α Unit} {f : Unit → Action α β} {m : Change β}
    (ha : Means a (pure ())) (hf : Means (f ()) m) : Means (a >>= f) m :=
  (means_bind ha fun _ => hf).congr fun _ => rfl

theorem means_ite (c : Prop) [Decidable c] {a b : Action α β} {m n : Change β} (ha : Means a m)
    (hb : Means b n) : Means (if c then a else b) (if c then m else n) := by
  split
  · exact ha
  · exact hb

theorem means_either (c : Prop) [Decidable c] {a b : Action α β} {m : Change β} (ha : Means a m)
    (hb : Means b m) : Means (if c then a else b) m := by
  split
  · exact ha
  · exact hb

theorem means_gate (operation : Operation) : Means (α := α) (gate operation) (pure ()) := by
  refine ⟨fun s => ?_, blind_gate operation⟩
  simp only [gate]
  rw [perform_bind, perform_get]
  dsimp only
  split
  · exact .done rfl (.refl s)
  · rename_i f hf
    have hs : s.fault ≠ none := by simp [hf]
    split
    · split
      · exact .struck hs rfl
      · exact .done rfl ⟨rfl, fun h => absurd h hs⟩
    · exact .done rfl (.refl s)

theorem means_log (level : Log.Level) (part text : String) :
    Means (α := α) (log level part text) (pure ()) :=
  ⟨fun _ => .done rfl ⟨rfl, id⟩, blind_log _ _ _⟩

theorem means_logAll (lines : List Log.Line) : Means (α := α) (logAll lines) (pure ()) :=
  ⟨fun _ => .done rfl ⟨rfl, id⟩, blind_logAll _⟩

theorem means_change (f : Store → Store) : Means (α := α) (change f) fun s => .ok ((), f s) :=
  ⟨fun _ => .done rfl ⟨rfl, id⟩, blind_change f⟩

theorem means_apply (f : Store → β × Store) : Means (α := α) (apply f) fun s => .ok (f s) :=
  ⟨fun _ => .done rfl ⟨rfl, id⟩, blind_apply f⟩

theorem means_attempt (f : Store → Except Error (β × Store)) : Means (α := α) (attempt f) f := by
  refine ⟨fun s => ?_, blind_attempt f⟩
  simp only [attempt]
  rw [perform_bind, perform_get]
  dsimp only
  split
  · rename_i h
    exact .done h ⟨rfl, id⟩
  · rename_i h
    exact .failed h (.refl s)

theorem means_attemptChange (f : Store → Except Error Store) :
    Means (α := α) (attemptChange f) fun s => (f s).map ((), ·) :=
  means_attempt _

theorem means_reading (operation : Operation) (g : Store → β) :
    Means (α := α) (do gate operation; return g (← get).store) fun s => .ok (g s, s) :=
  means_skip (means_gate operation) <|
    (means_get (f := fun s => pure (g s)) (m := fun s => pure (g s)) fun _ => means_pure _).congr
      fun _ => rfl

theorem means_forM {γ : Type} (xs : List γ) {a : γ → Action α PUnit} {m : γ → Change PUnit}
    (h : ∀ x, Means (a x) (m x)) : Means (xs.forM a) (xs.forM m) := by
  induction xs with
  | nil => exact means_pure _
  | cons x xs ih => exact means_bind (h x) fun _ => ih

/-- How a transaction ends. -/
inductive Transacted (m : Change β) (s : Service α) : Except Error β × Service α → Prop
  | committed {b t} : m.run s.store = .ok (b, t.store) → s.IsCalm t → Transacted m s (.ok b, t)
  | undone {e t} : m.run s.store = .error e → t.store = s.store → s.IsCalm t →
      Transacted m s (.error e, t)
  | struck {text t} : s.fault ≠ none → t.store = s.store → t.recorder = s.recorder →
      Transacted m s (.error (.storeFailed text), t)

theorem gate_store (operation : Operation) (s : Service α) :
    (perform (gate operation) s).2.store = s.store := by
  simp only [gate]
  rw [perform_bind, perform_get]
  dsimp only
  split
  · rfl
  · split
    · split <;> rfl
    · rfl

theorem means_committing {a : Action α β} {m : Change β} (h : Means a m) :
    Means (committing a) m :=
  (means_bind h fun b => means_skip (means_gate .commit) (means_pure b)).congr fun _ => by
    rw [bind_pure]

theorem transaction_cases {a : Action α β} {m : Change β} (h : Means a m) (s : Service α) :
    Transacted m s (perform (transaction a) s) := by
  have hg := (means_gate .transaction).follows s
  have hs := gate_store .transaction s
  simp only [transaction]
  rw [perform_bind]
  generalize perform (gate .transaction) s = p at hg hs
  cases hg with
  | @done _ t _ ht =>
    have ha := (means_committing h).follows t
    dsimp only at hs ⊢
    rw [perform_bind, perform_get]
    dsimp only
    rw [perform_tryCatch]
    generalize perform (committing a) t = q at ha
    cases ha with
    | done hm hu => exact .committed (hs ▸ hm) (ht.trans hu)
    | failed hm hu =>
      exact .undone (hs ▸ hm) hs ⟨hu.recorder.trans ht.recorder, fun h => hu.fault (ht.fault h)⟩
    | struck hf hu => exact .struck (fun h => hf (ht.fault h)) hs (hu.trans ht.recorder)
  | failed hm => cases hm
  | struck hf ht => exact .struck hf hs ht

theorem blind_transaction {a : Action α β} (h : Blind a) : Blind (transaction a) := by
  have hc : Blind (committing a) :=
    parallel_bind_eq h fun _ => parallel_bind_eq (blind_gate _) fun _ => parallel_pure rfl
  refine parallel_bind_eq (blind_gate _) fun _ => ?_
  exact blind_get (f := fun store => tryCatch (committing a) fun e => do
      change fun _ => store
      throw e) fun store =>
    parallel_tryCatch hc fun e => parallel_bind_eq (blind_change _) fun _ => parallel_throw e

theorem transaction_calm {a : Action α β} {m : Change β} (h : Means a m) {s : Service α}
    (hs : s.fault = none) :
    ∃ t, s.IsCalm t ∧ perform (transaction a) s = match m.run s.store with
      | .ok (b, store) => (.ok b, { t with store })
      | .error e => (.error e, { t with store := s.store }) := by
  have ht := transaction_cases h s
  generalize perform (transaction a) s = p at ht
  cases ht with
  | @committed b t hm ht => exact ⟨t, ht, by rw [hm]⟩
  | @undone e t hm hu ht => exact ⟨t, ht, by rw [hm, ← hu]⟩
  | struck hf => exact absurd hs hf

end Action

end TagRank
