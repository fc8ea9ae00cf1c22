import Mathlib
import TagRank.Proofs.Service.Agree
import TagRank.Proofs.Service.Own

namespace TagRank

open Metrics

namespace Store

variable {P : String → Prop} {document other : String} {s t u : Store}

/-- The second store holds of a document what the first one does. -/
structure Spares (document : String) (s t : Store) : Prop where
  agrees : t.Agrees document s
  associations : t.associationsOf document = s.associationsOf document

theorem Spares.refl (s : Store) : s.Spares document s := ⟨⟨rfl, rfl, rfl⟩, rfl⟩

theorem Spares.trans (h : s.Spares document t) (k : t.Spares document u) : s.Spares document u where
  agrees := k.agrees.trans h.agrees
  associations := k.associations.trans h.associations

theorem spares_addDocument (h : other ≠ document) (s : Store) :
    s.Spares document (s.addDocument other) := by
  refine ⟨⟨?_, by rw [addDocument_occurrences], by rw [addDocument_edges]⟩, ?_⟩
  · simp only [addDocument]
    split
    · rfl
    · simp [hasDocument, h.symm]
  · simp only [associationsOf]
    rw [addDocument_associations]

theorem filter_filter_ne {β : Type} (of : β → String) (h : other ≠ document) (xs : List β) :
    (xs.filter (of · != other)).filter (of · == document) = xs.filter (of · == document) := by
  rw [List.filter_filter]
  refine List.filter_congr fun x _ => ?_
  by_cases hx : of x = document
  · simp [hx, h.symm]
  · simp [hx]

theorem spares_replaced (h : other ≠ document) {rows : List Occurrence}
    (hr : ∀ o ∈ rows, o.Belongs other) (s : Store) :
    s.Spares document (s.replaced other rows) := by
  refine ⟨⟨rfl, ?_, filter_filter_ne Edge.document h s.edges⟩, rfl⟩
  simp only [replaced]
  rw [Occurrence.filter_placeAll_of_ne (fun o ho => (hr o ho).document) h]
  exact filter_filter_ne Occurrence.document h s.occurrences

theorem spares_linked (h : other ≠ document) (relation field first second : String) (s : Store) :
    s.Spares document (s.linked other relation field first second) := by
  have hP : Edge.IsOfPlace (·.document == document) := fun e f hd _ _ => by simp only [hd]
  refine ⟨⟨rfl, rfl, ?_⟩, rfl⟩
  simp only [linked]
  rw [Edge.filter_add hP, if_neg (by simpa using h)]

theorem spares_removeEdges (h : other ≠ document) (relation : String) (s : Store) :
    s.Spares document (s.removeEdges other relation) := by
  refine ⟨⟨rfl, rfl, ?_⟩, rfl⟩
  simp only [removeEdges]
  rw [List.filter_filter]
  refine List.filter_congr fun e _ => ?_
  by_cases he : e.document = document
  · simp [he, h.symm]
  · simp [he]

theorem spares_associated (h : other ≠ document) (keyword : String) (count : Int) (s : Store) :
    s.Spares document (s.associated keyword other count) :=
  ⟨⟨rfl, rfl, rfl⟩, by simp [associated, associationsOf, h]⟩

theorem spares_recounted (hn : s.Numbered) {a : Association} (ha : a ∈ s.associations)
    (h : a.document ≠ document) (count : Int) : s.Spares document (s.recounted a count) := by
  refine ⟨⟨rfl, rfl, rfl⟩, ?_⟩
  simp only [recounted, associationsOf]
  rw [List.filter_map]
  have hdoc (b : Association) : (if b.id = a.id then { b with count } else b).document =
      b.document := by
    split <;> rfl
  simp only [Function.comp_def, hdoc]
  -- numbers are unique, so the row that takes the count is one of the other document
  refine (List.map_congr_left fun b hb => ?_).trans (List.map_id _)
  obtain ⟨hb, hd⟩ := List.mem_filter.1 hb
  refine if_neg fun hid => h ?_
  rw [← Association.Numbered.eq_of_id_eq hn hb ha hid]
  simpa using hd

theorem Write.spares (h : Write P s t) (hP : ¬P document) (hn : s.Numbered) :
    s.Spares document t := by
  have ne {other : String} (h : P other) : other ≠ document := fun he => hP (he ▸ h)
  cases h with
  | register _ h => exact spares_addDocument (ne h) s
  | replace h _ hr => exact spares_replaced (ne h) hr s
  | link relation field first second h _ => exact spares_linked (ne h) relation field first second s
  | unlink relation _ h => exact spares_removeEdges (ne h) relation s
  | name => exact ⟨⟨rfl, rfl, rfl⟩, rfl⟩
  | associate count h _ _ => exact spares_associated (ne h) _ count s
  | recount count h ha => exact spares_recounted hn ha (ne h) count

theorem Writes.spares (h : s.Writes P t) (hP : ¬P document) (hs : s.Sound) :
    s.Spares document t := by
  induction h with
  | refl => exact .refl s
  | tail hw h ih => exact ih.trans (h.spares hP (Writes.sound hw hs).numbered)

end Store

open TagRank.Action

variable {α : Type} [Scalar α]

theorem Service.spares_moves {s : Service α} (hs : s.store.Sound) {document : String}
    (ms : List (Move α)) (h : ∀ m ∈ ms, document ∉ m.documents) :
    s.store.Spares document (moves ms s).store := by
  have hw : s.Writes (· ≠ document) (moves ms s) :=
    writes_moves ms (fun m hm other hd (he : other = document) => h m hm (he ▸ hd)) s
  exact Store.Writes.spares hw (fun h => h rfl) hs

/-- What is done about other documents is not seen in a document, but for which of its keywords are
new. -/
theorem Service.moves_unseen (s : Service α) (hs : ∀ r ∈ s.recorder, r.series = [])
    (before others : List (Move α)) (document : String)
    (h : ∀ m ∈ others, document ∉ m.documents) :
    let s := moves before { s with store := .empty }
    let t := moves others s
    t.store.hasDocument document = s.store.hasDocument document ∧
      t.store.tokensOf document = s.store.tokensOf document ∧
      (∀ relation field,
        t.store.edgesOf document relation field = s.store.edgesOf document relation field) ∧
      t.store.associationsOf document = s.store.associationsOf document ∧
      ∀ (p : Pipeline α) f relation field rounds damping,
        answer (locate p document relation field rounds damping) t =
            answer (locate p document relation field rounds damping) s ∧
          (answer (evaluate p f document relation field rounds damping) t).map
              Evaluation.ageless =
            (answer (evaluate p f document relation field rounds damping) s).map
              Evaluation.ageless := by
  intro s' t
  have hown : s'.IsOwn :=
    (owns_moves before { s with store := .empty } fun r hr => Recorder.isOwn_of_empty (hs r hr)).1
  have hsound : s'.store.Sound :=
    sound_of_moves (s := { s with store := .empty }) Store.sound_empty before
  obtain ⟨ha, hassoc⟩ := spares_moves hsound others h
  refine ⟨ha.known, ha.tokensOf, ha.edgesOf, hassoc, fun p f relation field rounds damping => ?_⟩
  have halike : Service.Alike (Store.Agrees document) Recorder.BothOwn
      { s' with fault := none } { t with fault := none } :=
    ⟨ha.symm, rfl, rfl, (owns_moves others s').bothOwn hown⟩
  exact ⟨(agrees_locate p relation field rounds damping _ _ halike).matched.eq.symm,
    (agrees_evaluate p f relation field rounds damping _ _ halike).matched.map_eq.symm⟩

set_option maxRecDepth 4096 in
theorem Service.moves_unseen_neighbouring :
    let p : Pipeline Rat := ⟨Kernel.power 1, 1, .create, ⟨[], false⟩, .drop, 1⟩
    let s := moves [.step (.load "d" [neighbouring "abc" "abd"]), .step (.build "d" "near" "w")]
      (.new Rat)
    let t := moves
      [.step (.load "e" []), .step (.persist .create ⟨[], false⟩ "e" [("abc_", .ok 1)])] s
    let created (s : Service Rat) : Option Nat :=
      ((answer (evaluate p ⟨[], false⟩ "d" "near" "w" 1 0) s).toOption.bind (·.persisted)).map
        (·.created)
    (answer (evaluate p ⟨[], false⟩ "d" "near" "w" 1 0) t).map Evaluation.ageless =
        (answer (evaluate p ⟨[], false⟩ "d" "near" "w" 1 0) s).map Evaluation.ageless ∧
      created s = some 1 ∧ created t = some 0 := by
  refine ⟨?_, by cbv, by cbv⟩
  obtain ⟨-, -, -, -, h⟩ := moves_unseen (.new Rat) (by simp [new])
    [.step (.load "d" [neighbouring "abc" "abd"]), .step (.build "d" "near" "w")]
    [.step (.load "e" []), .step (.persist .create ⟨[], false⟩ "e" [("abc_", .ok 1)])] "d"
    (by decide)
  exact (h _ _ _ _ _ _).2

end TagRank
