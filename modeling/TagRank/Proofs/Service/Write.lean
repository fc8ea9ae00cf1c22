import TagRank.Proofs.Service.Evaluate
import TagRank.Proofs.Store.Write

namespace TagRank

theorem Store.Numbered.putAll {s : Store} (h : s.Numbered) (policy : Policy) (document : String)
    (rows : List (String × Int)) : (s.putAll policy document rows).Numbered := by
  rw [Numbered, associations_putAll]
  exact Association.Numbered.writeAll h rows

namespace Change

variable {β γ : Type} {P : String → Prop}

def Writes (P : String → Prop) (m : Change β) : Prop :=
  ∀ ⦃s b t⦄, m.run s = .ok (b, t) → s.Writes P t

theorem writes_of_eq {m : Change β} (h : ∀ ⦃s b t⦄, m.run s = .ok (b, t) → t = s) : Writes P m :=
  fun _ _ _ hm => .of_eq (h hm)

theorem writes_reading (g : Store → β) : Writes P fun s => .ok (g s, s) :=
  writes_of_eq fun _ _ _ h => (Prod.mk.inj (Except.ok.inj h)).2.symm

theorem writes_pure (b : β) : Writes P (pure b) := writes_reading fun _ => b

theorem writes_error (e : Error) : Writes P fun _ => (.error e : Except Error (β × Store)) :=
  fun _ _ _ h => nomatch h

theorem writes_bind {m : Change β} {f : β → Change γ} (hm : Writes P m)
    (hf : ∀ b, Writes P (f b)) : Writes P (m >>= f) := by
  intro s c u h
  rw [StateT.run_bind] at h
  obtain ⟨⟨b, t⟩, ht, hu⟩ := bind_eq_ok.1 h
  exact (hm ht).trans (hf b hu)

theorem writes_map (f : β → γ) {m : Change β} (h : Writes P m) : Writes P (f <$> m) := by
  rw [map_eq_pure_bind]
  exact writes_bind h fun _ => writes_pure _

theorem writes_forM {κ : Type} (ks : List κ) {m : κ → Change PUnit} (h : ∀ k, Writes P (m k)) :
    Writes P (ks.forM m) := by
  induction ks with
  | nil => exact writes_pure _
  | cons k ks ih => exact writes_bind (h k) fun _ => ih

variable {document : String} (h : P document)

include h

theorem writes_addDocument :
    Writes P fun s => .ok (!s.hasDocument document, s.addDocument document) := by
  intro s b t hm
  obtain ⟨_, rfl⟩ := Prod.mk.inj (Except.ok.inj hm)
  exact (Store.Write.register s h).writes

theorem writes_replaceGiven (sentences : List GivenSentence) :
    Writes P (Store.replaceGiven document sentences) := by
  intro s n t hm
  obtain ⟨hd, rows, hr, rfl⟩ := Store.replaceGiven_ok hm
  exact (Store.Write.replace h hd hr).writes

theorem writes_load (sentences : List Sentence) : Writes P (Store.load document sentences) := by
  intro s n t hm
  change s.loadGiven (.text document) (sentences.map Sentence.given) = .ok (n, t) at hm
  have hs : s.Writes P (s.addDocument document) := (Store.Write.register s h).writes
  simp only [Store.loadGiven] at hm
  split at hm
  · obtain ⟨_, rfl⟩ := Prod.mk.inj (Except.ok.inj hm)
    exact hs
  · exact hs.trans (writes_replaceGiven h _ hm)

theorem writes_upsertEdge (relation field first second : String) :
    Writes P fun s => (s.upsertEdge document relation field first second).map ((), ·) := by
  intro s _ t hm
  obtain ⟨t', ht, hm⟩ := map_eq_ok.1 hm
  obtain ⟨_, rfl⟩ := Prod.mk.inj hm
  obtain ⟨hd, rfl⟩ := Store.upsertEdge_ok ht
  exact (Store.Write.link relation field first second h hd).writes

theorem writes_deleteEdges (relation : String) : Writes P fun s =>
    .ok ((s.edgesOf document relation none).length, s.removeEdges document relation) := by
  intro s _ t hm
  obtain ⟨_, rfl⟩ := Prod.mk.inj (Except.ok.inj hm)
  exact (Store.Write.unlink relation s h).writes

theorem writes_addPair (relation field : String) (p : Token × Token) :
    Writes P (Store.addPair document relation field p) := by
  intro s _ t hm
  obtain ⟨first, _, hm⟩ := bind_eq_ok.1 hm
  obtain ⟨second, _, hm⟩ := bind_eq_ok.1 hm
  exact writes_upsertEdge h relation field first.key second.key hm

theorem writes_addPairs (relation field : String) :
    Writes P (Store.addPairs document relation field) :=
  writes_bind (writes_reading id) fun _ =>
    writes_bind (writes_forM _ (writes_addPair h relation field)) fun _ => writes_pure _

theorem writes_newAssociation (keyword : String) (count : Except Error Int) :
    Writes P (Store.newAssociation keyword document count) := by
  intro s a t hm
  obtain ⟨n, _, hm⟩ := bind_eq_ok.1 hm
  obtain ⟨hk, hd, rfl⟩ := Store.createAssociation_ok hm
  exact (Store.Write.associate n h hd hk).writes

theorem writes_putAssociation (keyword : String) (count : Except Error Int) :
    Writes P (Store.putAssociation keyword document count) := by
  intro s b t hm
  change s.putAssociation keyword document count = .ok (b, t) at hm
  simp only [Store.putAssociation] at hm
  cases ho : s.oldestAssociation? keyword document with
  | none =>
    rw [ho] at hm
    exact writes_newAssociation h keyword count hm
  | some a =>
    rw [ho] at hm
    obtain ⟨n, _, hm⟩ := bind_eq_ok.1 hm
    obtain ⟨_, _, hm⟩ := bind_eq_ok.1 hm
    obtain ⟨_, rfl⟩ := Prod.mk.inj (Except.ok.inj hm)
    have hd : a.document = document := by
      have := List.find?_some ho
      simp only [Bool.and_eq_true, beq_iff_eq] at this
      exact this.2
    exact (Store.Write.recount n (hd ▸ h) (List.mem_of_find?_eq_some ho)).writes

omit h

theorem writes_findOrCreate (id value : String) :
    Writes P fun s => .ok (s.findOrCreate id value) := by
  intro s _ t hm
  have ht : (s.addKeyword id value).2 = t := congrArg Prod.snd (Except.ok.inj hm)
  rw [← ht, Store.addKeyword]
  split
  · exact .of_eq rfl
  · rename_i hk
    exact (Store.Write.name value (by simpa using hk)).writes

include h

theorem writes_associate (policy : Policy) (keyword : String) (count : Except Error Int) :
    Writes P (Store.associate policy keyword document count) := by
  refine writes_bind ?_ fun _ => writes_pure _
  cases policy with
  | create => exact writes_newAssociation h keyword count
  | upsert => exact writes_putAssociation h keyword count

theorem writes_persistOne (policy : Policy) (f : Filter) (key : String) (count : Except Error Int)
    (o : PersistOutcome) : Writes P (Store.persistOne policy f document key count o) := by
  rw [Store.persistOne]
  split
  · exact writes_pure _
  · exact writes_bind (writes_findOrCreate _ _) fun _ =>
      writes_bind (writes_associate h policy _ count) fun _ => writes_pure _

theorem writes_persistAll (policy : Policy) (f : Filter) (counts : Counts) (o : PersistOutcome) :
    Writes P (Store.persistAll policy f document counts o) := by
  induction counts generalizing o with
  | nil => exact writes_pure _
  | cons c counts ih => exact writes_bind (writes_persistOne h policy f c.1 c.2 o) fun _ => ih _

theorem writes_persist (policy : Policy) (f : Filter) (counts : Counts) :
    Writes P (Store.persist policy f document counts) := by
  refine writes_bind (writes_reading _) fun known => ?_
  split
  · exact writes_error _
  · exact writes_persistAll h policy f counts _

end Change

def Service.Writes {α : Type} (P : String → Prop) (s t : Service α) : Prop :=
  s.store.Writes P t.store

namespace Action

variable {α β : Type} {P : String → Prop} {document : String}

instance : IsPreorder (Service α) (Service.Writes P) where
  refl _ := .of_eq rfl
  trans _ _ _ := Store.Writes.trans

instance [Scalar α] : Tolerant (Service.Writes (α := α) P) where
  log _ _ := .of_eq rfl
  observe _ _ _ _ := .of_eq rfl

theorem writes_transaction {a : Action α β} {m : Change β} (h : Means a m) (hm : m.Writes P) :
    Moves (Service.Writes P) (transaction a) := by
  intro s
  have ht := transaction_cases h s
  generalize perform (transaction a) s = p at ht
  cases ht with
  | committed h => exact hm h
  | undone _ hs => exact .of_eq hs
  | struck _ hs => exact .of_eq hs

variable [Scalar α]

theorem writes_loadDocument (h : P document) (sentences : List Sentence) :
    Moves (Service.Writes P) (loadDocument (α := α) document sentences) :=
  moves_loadGiven <| writes_transaction (means_loading _ _) (Change.writes_load h sentences)

theorem writes_build (h : P document) (relation field : String) :
    Moves (Service.Writes P) (build (α := α) document relation field) :=
  moves_build <| writes_transaction (means_addPairs _ _ _) (Change.writes_addPairs h relation field)

theorem writes_clear (h : P document) (relation : String) :
    Moves (Service.Writes P) (clear (α := α) document relation) :=
  moves_clear <| writes_transaction (means_deleteEdges _ _) (Change.writes_deleteEdges h relation)

theorem writes_rebuild (h : P document) (relation field : String) :
    Moves (Service.Writes P) (rebuild (α := α) document relation field) :=
  moves_rebuild
    (writes_transaction (means_deleteEdges _ _) (Change.writes_deleteEdges h relation))
    (writes_transaction (means_addPairs _ _ _) (Change.writes_addPairs h relation field))

theorem writes_persist (h : P document) (policy : Policy) (f : Filter) (counts : Counts) :
    Moves (Service.Writes P) (persist (α := α) policy f document counts) :=
  moves_persist <| writes_transaction (means_persist policy f document counts)
    (Change.writes_persist h policy f counts)

theorem writes_evaluate (h : P document) (p : Pipeline α) (f : Filter) (relation field : String)
    (rounds : Int) (damping : α) :
    Moves (Service.Writes P) (evaluate p f document relation field rounds damping) :=
  moves_evaluate ((keeps_rank _ _ _ _ _ _ _).mono fun _ _ h => .of_eq h)
    (fun _ => (keeps_spans _ _).mono fun _ _ h => .of_eq h) (writes_persist h p.policy f)

end Action

end TagRank
