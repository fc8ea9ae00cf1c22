import TagRank.Proofs.Except
import TagRank.Proofs.Service.Measure
import TagRank.Proofs.Service.Operation
import TagRank.Proofs.Store.Sentence
import TagRank.Service.Cooccurrence

namespace TagRank

namespace Store

variable {document relation field : String} {s t : Store}

theorem requireDocument_ok {u : Unit} (h : s.requireDocument document = .ok u) :
    s.hasDocument document = true := by
  simp only [requireDocument] at h
  split at h
  · assumption
  · cases h

theorem upsertEdge_ok {first second : String}
    (h : s.upsertEdge document relation field first second = .ok t) :
    s.hasDocument document = true ∧
      t = { s with edges := Edge.add (.single document relation field first second) s.edges } := by
  simp only [upsertEdge] at h
  obtain ⟨_, hd, h⟩ := bind_eq_ok.1 h
  exact ⟨requireDocument_ok hd, (Except.ok.inj h).symm⟩

theorem upsertEdge_of_known (h : s.hasDocument document = true)
    (relation field first second : String) :
    s.upsertEdge document relation field first second =
      .ok { s with edges := Edge.add (.single document relation field first second) s.edges } := by
  simp only [upsertEdge, requireDocument]
  rw [if_pos h]
  rfl

def addPair (document relation field : String) (p : Token × Token) : Change Unit := fun s => do
  let first ← p.1.tag
  let second ← p.2.tag
  (s.upsertEdge document relation field first.key second.key).map ((), ·)

def addPairs (document relation field : String) : Change (Nat × Nat) := do
  let sentences := (← get).sentencesOf document
  let all := sentences.flatMap Action.pairs
  all.forM (addPair document relation field)
  return (sentences.length, all.length)

theorem addPair_ok {p : Token × Token} {u : Unit}
    (h : (addPair document relation field p).run s = .ok (u, t)) :
    t = s.addEdges document relation field [inOrder p.1.key p.2.key] := by
  obtain ⟨first, hf, h⟩ := bind_eq_ok.1 h
  obtain ⟨second, hg, h⟩ := bind_eq_ok.1 h
  obtain ⟨v, hv, hu⟩ := map_eq_ok.1 h
  cases hu
  rw [(upsertEdge_ok hv).2, Edge.single_eq_ofPair, Token.key_of_tag hf, Token.key_of_tag hg]
  rfl

theorem forM_addPair_ok {ps : List (Token × Token)} {u : PUnit}
    (h : (ps.forM (addPair document relation field)).run s = .ok (u, t)) :
    t = s.addEdges document relation field (ps.map fun p => inOrder p.1.key p.2.key) := by
  induction ps generalizing s with
  | nil =>
    cases h
    rfl
  | cons p ps ih =>
    rw [List.forM_eq_forM, List.forM_cons, StateT.run_bind] at h
    obtain ⟨⟨_, t'⟩, hp, h⟩ := bind_eq_ok.1 h
    rw [ih h, addPair_ok hp]
    rfl

theorem scan_eq (s : Store) (document : String) :
    s.scan document =
      ((s.sentencesOf document).flatMap Action.pairs).map fun p => inOrder p.1.key p.2.key := by
  rw [sentencesOf_eq, List.flatMap_map, List.map_flatMap]
  rfl

theorem addPairs_eq_ok {c : Nat × Nat}
    (h : (addPairs document relation field).run s = .ok (c, t)) :
    t = s.built document relation field ∧ c.2 = (s.scan document).length := by
  simp only [addPairs] at h
  rw [StateT.run_bind] at h
  obtain ⟨⟨_, s'⟩, hs, h⟩ := bind_eq_ok.1 h
  cases hs
  rw [StateT.run_bind] at h
  obtain ⟨⟨_, t'⟩, ht, h⟩ := bind_eq_ok.1 h
  cases h
  refine ⟨?_, by rw [scan_eq, List.length_map]⟩
  rw [forM_addPair_ok ht, ← scan_eq]
  rfl

theorem addPairs_ok {c : Nat × Nat}
    (h : (addPairs document relation field).run s = .ok (c, t)) :
    t = s.built document relation field := (addPairs_eq_ok h).1

end Store

namespace Action

variable {α : Type}

theorem means_addPair (document relation field : String) (p : Token × Token) :
    Means (α := α) (addPair document relation field p) (Store.addPair document relation field p) :=
  (means_bind (means_ofExcept _) fun _ => means_bind (means_ofExcept _) fun _ =>
    means_upsertEdge _ _ _ _ _).congr fun s => by
      unfold Store.addPair
      cases p.1.tag <;> cases p.2.tag <;> rfl

theorem means_addPairs (document relation field : String) :
    Means (α := α) (addPairs document relation field) (Store.addPairs document relation field) :=
  (means_bind (means_documentSentences _) fun _ => means_bind
    (means_forM _ (means_addPair document relation field)) fun _ => means_pure _).congr fun _ => rfl

theorem means_loading (document : Spelling) (sentences : List GivenSentence) :
    Means (α := α) (loading document sentences) (Store.loadGiven document sentences) := by
  cases document with
  | torn t =>
    exact (means_bind (means_skip (means_gate _) (means_throw _)) fun _ =>
      means_ite _ (means_pure _) (means_addGiven _ _)).congr fun _ => rfl
  | text document =>
    have hadd := means_bind (means_addDocument (α := α) document) fun _ => means_pure document
    refine (means_bind hadd fun _ => means_ite _ (means_pure _) (means_addGiven _ _)).congr
      fun s => ?_
    change StateT.run (if sentences.isEmpty then pure 0 else Store.replaceGiven document sentences)
      (s.addDocument document) = Store.loadGiven (.text document) sentences s
    rw [Store.loadGiven]
    split <;> rfl

theorem loadGiven_cases (document : Spelling) (sentences : List GivenSentence) (s : Service α) :
    Transacted (Store.loadGiven document sentences) s
      (perform (loadGiven document sentences) s) := by
  have h := transaction_cases (means_loading document sentences) s
  simp only [loadGiven]
  rw [perform_bind]
  generalize perform (transaction _) s = p at h
  cases h with
  | committed hm ht => exact .committed hm ⟨ht.recorder, ht.fault⟩
  | undone hm hs ht => exact .undone hm hs ht
  | struck hf hs ht => exact .struck hf hs ht

theorem loadDocument_cases (document : String) (sentences : List Sentence) (s : Service α) :
    Transacted (Store.load document sentences) s (perform (loadDocument document sentences) s) :=
  loadGiven_cases (.text document) (sentences.map Sentence.given) s

theorem perform_onStoreFailure {β : Type} (a : Action α β) (handle : Error → Action α β)
    (s : Service α) :
    perform (onStoreFailure a handle) s = match perform a s with
      | (.ok b, t) => (.ok b, t)
      | (.error e, t) => if e.kind = .store then perform (handle e) t else (.error e, t) := by
  simp only [onStoreFailure]
  rw [perform_tryCatch]
  rcases perform a s with ⟨e | b, t⟩
  · dsimp only
    split <;> rfl
  · rfl

def commits {β : Type} (a : Action α β) (s : Service α) : Bool := (perform (transaction a) s).1.isOk

inductive Tried {β : Type} (a : Action α β) (m : Change β) (s : Service α) :
    Except Error (Option β) × Service α → Prop
  | done {b t} : commits a s = true → m.run s.store = .ok (b, t.store) → s.IsCalm t →
      Tried a m s (.ok (some b), t)
  | refused {t} : commits a s = false → t.store = s.store → Tried a m s (.ok none, t)
  | failed {e t} : commits a s = false → t.store = s.store → Tried a m s (.error e, t)

theorem tried {β : Type} {a : Action α β} {m : Change β} (h : Means a m)
    {handle : Error → Action α (Option β)} (hh : ∀ e, Notes (handle e) none) (s : Service α) :
    Tried a m s (perform (onStoreFailure (some <$> transaction a) handle) s) := by
  have ht := transaction_cases h s
  rw [perform_onStoreFailure, perform_map]
  have hc : commits a s = (perform (transaction a) s).1.isOk := rfl
  generalize perform (transaction a) s = p at ht hc
  have stopped (e : Error) (t : Service α) (hp : commits a s = false) (hs : t.store = s.store) :
      Tried a m s (if e.kind = .store then perform (handle e) t else (.error e, t)) := by
    split
    · have hn := hh e t
      generalize perform (handle e) t = q at hn
      cases hn with
      | taken hu => exact .refused hp ((congrArg Prod.fst hu).trans hs)
      | missed hu => exact .failed hp ((congrArg Prod.fst hu).trans hs)
    · exact .failed hp hs
  cases ht with
  | committed hm ht => exact .done hc hm ht
  | @undone e t _ hs => exact stopped e t hc hs
  | @struck text t _ hs => exact stopped (.storeFailed text) t hc hs

/-- How an action ends that carries out a change, if `b`, or leaves the store alone. -/
structure Carries (b : Bool) (after : Store) (s : Service α) (p : Except Error Bool × Service α) :
    Prop where
  store : p.2.store = if b then after else s.store
  answer : ∀ c, p.1 = .ok c → c = b
  answers : s.recorder = none → b = true → p.1 = .ok true

theorem Carries.failed {after : Store} {s t : Service α} {e : Error} (h : t.store = s.store) :
    Carries false after s (.error e, t) :=
  ⟨h, fun _ h => (nomatch h), fun _ h => (nomatch h)⟩

theorem Carries.refused {after : Store} {s t : Service α} (h : t.store = s.store) :
    Carries false after s (.ok false, t) :=
  ⟨h, fun _ h => (Except.ok.inj h).symm, fun _ h => (nomatch h)⟩

theorem Noted.carries {s t : Service α} {p : Except Error Bool × Service α} (h : Noted true t p)
    (ht : s.IsCalm t) : Carries true t.store s p :=
  ⟨h.store, fun _ => h.answer, fun hn _ => h.answer_of_none (ht.recorder.trans hn)⟩

theorem carries_of_tried {β : Type} {a : Action α β} {m : Change β} (h : Means a m)
    {after : Store} {s : Service α} (ha : ∀ {b t}, m.run s.store = .ok (b, t) → t = after)
    {handle : Error → Action α (Option β)} (hh : ∀ e, Notes (handle e) none)
    {f : Option β → Action α Bool} (hn : f none = pure false) (hf : ∀ b, Notes (f (some b)) true) :
    Carries (commits a s) after s
      (perform (onStoreFailure (some <$> transaction a) handle >>= f) s) := by
  have ht := tried h hh s
  rw [perform_bind]
  generalize perform (onStoreFailure _ _) s = p at ht
  cases ht with
  | @done b t hc hm ht =>
    rw [hc, ← ha hm]
    exact (hf b t).carries ht
  | refused hc hs =>
    rw [hc]
    dsimp only
    rw [hn]
    exact .refused hs
  | failed hc hs =>
    rw [hc]
    exact .failed hs

/-- Whether a build stores its edges. What it measures comes after that, and may still fail. -/
def builds (document relation field : String) (s : Service α) : Bool :=
  Label.isValid relation && Label.isValid field && commits (addPairs document relation field) s

def clears (document relation : String) (s : Service α) : Bool :=
  Label.isValid relation && commits (deleteEdges document relation) s

theorem check_of_valid {label : String} (h : Label.isValid label = true) (role : Label.Role) :
    Label.check role label = .ok () := if_pos h

theorem check_of_not_valid {label : String} (h : Label.isValid label = false) (role : Label.Role) :
    Label.check role label = .error (.invalidLabel role.name label) := by
  simp only [Label.check]
  rw [h]
  rfl

variable [Scalar α]

theorem build_carries (document relation field : String) (s : Service α) :
    Carries (builds document relation field s) (s.store.built document relation field) s
      (perform (build document relation field) s) := by
  simp only [build, builds]
  rw [perform_bind, perform_ofExcept]
  cases hr : Label.isValid relation with
  | false =>
    rw [check_of_not_valid hr]
    exact .failed rfl
  | true =>
    rw [check_of_valid hr]
    dsimp only
    rw [perform_bind, perform_ofExcept]
    cases hf : Label.isValid field with
    | false =>
      rw [check_of_not_valid hf]
      exact .failed rfl
    | true =>
      rw [check_of_valid hf]
      refine carries_of_tried (means_addPairs document relation field) Store.addPairs_ok
        (fun e => ?_) rfl fun c => ?_
      · exact notes_counted (m := .buildsFailed) rfl _ _ _ _ relation _
      · exact notes_counted (m := .pairs) rfl _ _ _ _ relation _

theorem clear_carries (document relation : String) (s : Service α) :
    Carries (clears document relation s) (s.store.removeEdges document relation) s
      (perform (clear document relation) s) := by
  simp only [clear, clears]
  rw [perform_bind, perform_ofExcept]
  cases hr : Label.isValid relation with
  | false =>
    rw [check_of_not_valid hr]
    exact .failed rfl
  | true =>
    rw [check_of_valid hr]
    refine carries_of_tried (means_deleteEdges document relation) (fun h => ?_) (fun e => ?_) rfl
      fun c => ?_
    · cases h
      rfl
    · exact notes_counted (m := .clearsFailed) rfl _ _ _ _ relation _
    · exact notes_bind (notes_log _ _ _) (notes_pure _)

theorem clear_of_clears {document relation : String} {s : Service α}
    (h : clears document relation s = true) :
    (perform (clear document relation) s).1 = .ok true := by
  simp only [clears, commits, Bool.and_eq_true] at h
  obtain ⟨hr, h⟩ := h
  simp only [clear]
  rw [perform_bind, perform_ofExcept, check_of_valid hr]
  dsimp only
  rw [perform_bind, perform_onStoreFailure, perform_map]
  generalize perform (transaction _) s = p at h
  obtain ⟨e | b, t⟩ := p
  · cases h
  · rfl

theorem perform_rebuild (document relation field : String) (s : Service α) :
    perform (rebuild document relation field) s =
      if clears document relation s then
        perform (build document relation field) (perform (clear document relation) s).2
      else perform (clear document relation) s := by
  have hc := clear_carries document relation s
  have ht : clears document relation s = true → _ := clear_of_clears
  simp only [rebuild]
  rw [perform_bind]
  generalize perform (clear document relation) s = p at hc ht
  obtain ⟨e | b, t⟩ := p
  · cases hb : clears document relation s with
    | false => rfl
    | true => cases ht hb
  · rw [← hc.answer b rfl]
    cases b <;> rfl

end Action

end TagRank
