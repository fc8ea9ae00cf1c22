import TagRank.Proofs.Service.Share

namespace TagRank

open Metrics Store

/-- Two stores with the same tokens and edges of a document, if they know it. -/
structure Store.Agrees (document : String) (s t : Store) : Prop where
  known : s.hasDocument document = t.hasDocument document
  occurrences : s.occurrences.filter (·.document == document) =
    t.occurrences.filter (·.document == document)
  edges : s.edges.filter (·.document == document) = t.edges.filter (·.document == document)

namespace Store.Agrees

variable {document : String} {s t u : Store}

theorem symm (h : s.Agrees document t) : t.Agrees document s :=
  ⟨h.known.symm, h.occurrences.symm, h.edges.symm⟩

theorem trans (h : s.Agrees document t) (k : t.Agrees document u) : s.Agrees document u :=
  ⟨h.known.trans k.known, h.occurrences.trans k.occurrences, h.edges.trans k.edges⟩

theorem tokensOf (h : s.Agrees document t) : s.tokensOf document = t.tokensOf document := by
  simp only [Store.tokensOf]
  rw [h.occurrences]

theorem sentencesOf (h : s.Agrees document t) :
    s.sentencesOf document = t.sentencesOf document := by
  simp only [Store.sentencesOf]
  rw [h.tokensOf]

theorem occurrencesOf (h : s.Agrees document t) (tags : List String) :
    s.occurrencesOf document tags = t.occurrencesOf document tags := by
  have split (u : Store) : (u.occurrences.filter fun o => o.document == document &&
      tags.contains o.tag) =
        (u.occurrences.filter (·.document == document)).filter (tags.contains ·.tag) := by
    rw [List.filter_filter]
    exact List.filter_congr fun o _ => Bool.and_comm _ _
  simp only [Store.occurrencesOf]
  rw [split, split, h.occurrences]

theorem edgesOf (h : s.Agrees document t) (relation : String) (field : Option String) :
    s.edgesOf document relation field = t.edgesOf document relation field := by
  have split (u : Store) : u.edgesOf document relation field =
      (u.edges.filter (·.document == document)).filter
        fun e => e.relation == relation && field.all (· == e.field) := by
    simp only [Store.edgesOf]
    rw [List.filter_filter]
    apply List.filter_congr
    intro e _
    rw [Bool.and_assoc, Bool.and_comm]
  rw [split, split, h.edges]

theorem addEdge (h : s.Agrees document t) (relation field first second : String) :
    let e := Edge.single document relation field first second
    { s with edges := e.add s.edges : Store }.Agrees document
      { t with edges := e.add t.edges } := by
  intro e
  have hP : Edge.IsOfPlace (·.document == document) := fun e f hd _ _ => by simp only [hd]
  have he : (e.document == document) = true := by
    simp only [e, Edge.single_eq_ofPair, Edge.ofPair, beq_self_eq_true]
  refine ⟨h.known, h.occurrences, ?_⟩
  rw [Edge.filter_add hP, Edge.filter_add hP, if_pos he, if_pos he, h.edges]

theorem removeEdges (h : s.Agrees document t) (relation : String) :
    (s.removeEdges document relation).Agrees document (t.removeEdges document relation) := by
  have swap (es : List Edge) : (es.filter fun e =>
      !(e.document == document && e.relation == relation)).filter (·.document == document) =
        (es.filter (·.document == document)).filter
          fun e => !(e.document == document && e.relation == relation) := by
    rw [List.filter_filter, List.filter_filter]
    exact List.filter_congr fun e _ => Bool.and_comm _ _
  refine ⟨h.known, h.occurrences, ?_⟩
  simp only [Store.removeEdges]
  rw [swap, swap, h.edges]

theorem put (h : s.Agrees document t) (policy : Policy) (row : String × Int) :
    (s.put policy document row).Agrees document (t.put policy document row) := by
  obtain ⟨more, hs, _⟩ := Store.put_eq policy document row s
  obtain ⟨more', ht, _⟩ := Store.put_eq policy document row t
  rw [hs, ht]
  exact ⟨h.known, h.occurrences, h.edges⟩

end Store.Agrees

theorem Store.shares_agrees (document : String) : Shares document (Agrees document) where
  known h := h.known
  occurrencesOf h := h.occurrencesOf
  put h := h.put

namespace Change

variable {document : String}

theorem parallel_upsertEdge (relation field first second : String) :
    Parallel (Agrees document)
      (fun s => (s.upsertEdge document relation field first second).map ((), ·))
      (fun s => (s.upsertEdge document relation field first second).map ((), ·)) Eq := by
  intro s t hs
  simp only [StateT.run, Store.upsertEdge, Store.requireDocument, hs.known]
  split
  · exact .done (hs.addEdge relation field first second) rfl
  · exact .failed

theorem parallel_addPair (relation field : String) (p : Token × Token) :
    Parallel (Agrees document) (Store.addPair document relation field p)
      (Store.addPair document relation field p) Eq := by
  intro s t hs
  simp only [StateT.run, Store.addPair]
  cases p.1.tag with
  | error e => exact .failed
  | ok first =>
    cases p.2.tag with
    | error e => exact .failed
    | ok second => exact parallel_upsertEdge relation field first.key second.key s t hs

theorem parallel_addPairs (relation field : String) :
    Parallel (Agrees document) (Store.addPairs document relation field)
      (Store.addPairs document relation field) Eq := by
  intro s t hs
  have run (u : Store) : (Store.addPairs document relation field).run u =
      (do
        ((u.sentencesOf document).flatMap Action.pairs).forM
          (Store.addPair document relation field)
        return ((u.sentencesOf document).length,
          ((u.sentencesOf document).flatMap Action.pairs).length) : Change (Nat × Nat)).run u := rfl
  rw [run, run, hs.sentencesOf]
  exact parallel_bind (parallel_forM _ fun p => parallel_addPair relation field p)
    (fun _ _ _ => parallel_pure rfl) s t hs

theorem parallel_deleteEdges (relation : String) :
    Parallel (Agrees document)
      (fun s => .ok ((s.edgesOf document relation none).length, s.removeEdges document relation))
      (fun s => .ok ((s.edgesOf document relation none).length, s.removeEdges document relation))
      Eq :=
  fun _ _ hs => .done (hs.removeEdges relation) (congrArg _ (hs.edgesOf relation none))

end Change

namespace Action

variable {α : Type} [Scalar α] {document : String} {K : Recorder α → Recorder α → Prop}
  [Concordant K]

theorem agrees_rebuild (relation field : String) :
    Parallel (Service.Alike (α := α) (Agrees document) K) (rebuild document relation field)
      (rebuild document relation field) Eq :=
  parallel_rebuild
    (parallel_transaction (means_deleteEdges _ _) (means_deleteEdges _ _)
      (Change.parallel_deleteEdges relation))
    (parallel_transaction (means_addPairs _ _ _) (means_addPairs _ _ _)
      (Change.parallel_addPairs relation field))

theorem agrees_rank (kernel : Kernel α) (count : Int) (relation field : String) (rounds : Int)
    (damping : α) :
    Parallel (Service.Alike (Agrees document) K)
      (rank kernel count document relation field rounds damping)
      (rank kernel count document relation field rounds damping)
      fun ranked ranked' => ranked' = ranked.map id :=
  parallel_rank_eq (parallel_edges fun _ _ hs => hs.edgesOf relation (some field))

theorem agrees_locate (p : Pipeline α) (relation field : String) (rounds : Int) (damping : α) :
    Parallel (Service.Alike (Agrees document) K) (locate p document relation field rounds damping)
      (locate p document relation field rounds damping) Eq :=
  (parallel_locate (parallel_tagOccurrences (Store.shares_agrees document)) isRestrengthening_id
    (agrees_rank _ _ _ _ _ _)).mono fun x y h => by rw [h, List.map_id]

theorem agrees_evaluate (p : Pipeline α) (f : Filter) (relation field : String) (rounds : Int)
    (damping : α) :
    Parallel (Service.Alike (Agrees document) K)
      (evaluate p f document relation field rounds damping)
      (evaluate p f document relation field rounds damping) fun e e' => e.ageless = e'.ageless :=
  (parallel_evaluate (evaluates_of_shares (Store.shares_agrees document) p.policy f)
    isRestrengthening_id (agrees_rank _ _ _ _ _ _)).mono fun e e' h => by
      rw [h, List.map_id]
      rfl

end Action

end TagRank
