import TagRank.Proofs.Service.Change
import TagRank.Proofs.Store.Occurrence
import TagRank.Service.Call

namespace TagRank

namespace Store

def findOrCreate (id value : String) (s : Store) : (Keyword × Bool) × Store :=
  let (created, s) := s.addKeyword id value
  (((s.keyword? id).getD ⟨id, value⟩, created), s)

def newAssociation (keyword document : String) (count : Except Error Int) (s : Store) :
    Except Error (Association × Store) := do
  s.createAssociation keyword document (← count)

def putAssociation (keyword document : String) (count : Except Error Int) (s : Store) :
    Except Error (Association × Store) :=
  match s.oldestAssociation? keyword document with
  | none => s.newAssociation keyword document count
  | some a => do s.setCount a (← count)

end Store

namespace Action

variable {α : Type}

theorem means_documentExists (document : String) :
    Means (α := α) (documentExists document) fun s => .ok (s.hasDocument document, s) :=
  means_reading _ (·.hasDocument document)

theorem means_addDocument (document : String) :
    Means (α := α) (addDocument document)
      fun s => .ok (!s.hasDocument document, s.addDocument document) :=
  means_skip (means_gate _) (means_apply _)

theorem means_addGiven (document : String) (sentences : List GivenSentence) :
    Means (α := α) (addGiven document sentences) (Store.replaceGiven document sentences) := by
  have put (rows : List Row) :
      Means (α := α) (do attemptChange (·.putRows rows); return rows.length)
        fun s => (s.putRows rows).map (rows.length, ·) := by
    refine (means_bind (means_attemptChange _) fun _ => means_pure _).congr fun s => ?_
    simp only [StateT.run, bind, StateT.bind, Except.bind]
    cases s.putRows rows <;> rfl
  -- the edges are counted before they go; the rest follows from that count
  let deleting (rows : List Row) (store : Store) : Action α Nat := do
    change (·.withoutEdges document)
    if store.countEdges document ≠ 0 then
      log .info "graph_store"
        s!"graph_store.document.reloaded doc_id={document} edges_removed={store.countEdges document}"
    attemptChange (·.putRows rows)
    return rows.length
  rw [addGiven]
  dsimp only
  refine means_skip (means_gate _) <| (means_bind (means_documentExists _) fun known =>
    means_ite _ (means_throw_bind _ _) <| means_bind (means_ofExcept _) fun rows =>
    means_bind (means_change _) fun _ => means_ignore (f := deleting rows) fun _ =>
    means_bind (means_change _) fun _ =>
    means_either _ (means_skip (means_log _ _ _) (put rows)) (put rows)).congr fun s => ?_
  cases hd : s.hasDocument document with
  | false =>
    simp only [Store.replaceGiven, hd, StateT.run, bind, StateT.bind, Except.bind]
    rfl
  | true =>
    simp only [Store.replaceGiven, hd, StateT.run, bind, StateT.bind, Except.bind]
    cases Row.ofSentences document sentences with
    | error e => rfl
    | ok rows => rfl

theorem means_documentSentences (document : String) :
    Means (α := α) (documentSentences document) fun s => .ok (s.sentencesOf document, s) :=
  means_reading _ (·.sentencesOf document)

theorem means_tagOccurrences (document : String) (tags : List String) :
    Means (α := α) (tagOccurrences document tags) fun s => .ok (s.occurrencesOf document tags, s) :=
  means_reading _ (·.occurrencesOf document tags)

theorem means_upsertEdge (document relation field first second : String) :
    Means (α := α) (upsertEdge document relation field first second)
      fun s => (s.upsertEdge document relation field first second).map ((), ·) :=
  means_skip (means_gate _) (means_attemptChange _)

theorem means_deleteEdges (document relation : String) :
    Means (α := α) (deleteEdges document relation) fun s =>
      .ok ((s.edgesOf document relation none).length, s.removeEdges document relation) :=
  means_skip (means_gate _) (means_apply _)

theorem means_edges (document relation : String) (field : Option String) :
    Means (α := α) (edges document relation field)
      fun s => .ok (s.edgesOf document relation field, s) :=
  means_reading _ (·.edgesOf document relation field)

theorem means_getKeyword (id : String) :
    Means (α := α) (getKeyword id) fun s => .ok (s.keyword? id, s) :=
  means_reading _ (·.keyword? id)

theorem means_findOrCreateKeyword (id value : String) :
    Means (α := α) (findOrCreateKeyword id value) fun s => .ok (s.findOrCreate id value) :=
  means_skip (means_gate _) <| (means_bind (means_apply _) fun _ =>
    means_bind (means_getKeyword _) fun _ => means_pure _).congr fun _ => rfl

theorem means_createAssociation (keyword document : String) (count : Except Error Int) :
    Means (α := α) (createAssociation keyword document count)
      (Store.newAssociation keyword document count) :=
  means_skip (means_gate _) (means_attempt _)

theorem means_upsertAssociation (keyword document : String) (count : Except Error Int) :
    Means (α := α) (upsertAssociation keyword document count)
      (Store.putAssociation keyword document count) := by
  let put (store : Store) : Action α Association :=
    match store.oldestAssociation? keyword document with
    | none => createAssociation keyword document count
    | some a => attempt fun s => do s.setCount a (← count)
  let change (s : Store) : Change Association := match s.oldestAssociation? keyword document with
    | none => Store.newAssociation keyword document count
    | some a => fun s => do s.setCount a (← count)
  refine means_skip (means_gate _) <| (means_get (f := put) (m := change) fun s => ?_).congr
    fun s => ?_
  · cases h : s.oldestAssociation? keyword document with
    | none => simpa [put, change, h] using means_createAssociation keyword document count
    | some a => simpa [put, change, h] using means_attempt _
  · change (change s).run s = Store.putAssociation keyword document count s
    simp only [Store.putAssociation, change]
    cases s.oldestAssociation? keyword document <;> rfl

theorem means_associations (document : String) :
    Means (α := α) (associations document) fun s => .ok (s.associationsOf document, s) :=
  means_reading _ (·.associationsOf document)

theorem means_countKeywords :
    Means (α := α) countKeywords fun s => .ok (s.keywords.length, s) :=
  means_reading _ (·.keywords.length)

end Action

end TagRank
