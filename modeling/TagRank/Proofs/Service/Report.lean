import Mathlib
import TagRank.Proofs.Service.Reached
import TagRank.Proofs.Store.Upsert

namespace TagRank

namespace Association

variable {keyword document : String} {as : List Association} {a : Association}

/-- What becomes of a row when some keywords of a document are stored: the oldest row of such a
keyword takes its count, every other row stays. -/
structure Becomes (document : String) (ks : List Candidate) (as : List Association)
    (a b : Association) : Prop where
  counts : ∀ c ∈ ks, IsOldest as a → a.keyword = c.key → a.document = document →
    b = { a with count := c.count }
  stays : (∀ c ∈ ks, ¬(IsOldest as a ∧ a.keyword = c.key ∧ a.document = document)) → b = a

def Records (document : String) (ks : List Candidate) (as bs : List Association) : Policy → Prop
  | .create => ∃ more, bs = as ++ more ∧
    more.map content = ks.map fun c => (c.key, document, (c.count : Int))
  | .upsert =>
    (∀ c ∈ ks, ∃ b, IsOldest bs b ∧ b.content = (c.key, document, (c.count : Int))) ∧
    ∃ old more, bs = old ++ more ∧ List.Forall₂ (Becomes document ks as) as old ∧
      more.map content = (ks.filter fun c => (as.find? (isOf c.key document)).isNone).map
        fun c => (c.key, document, (c.count : Int))

def rowsOf (ks : List Candidate) : List (String × Int) := ks.map fun c => (c.key, (c.count : Int))

theorem mem_rowsOf {ks : List Candidate} {c : Candidate} (hc : c ∈ ks) :
    (c.key, (c.count : Int)) ∈ rowsOf ks :=
  List.mem_map_of_mem hc

theorem nodup_rowsOf {ks : List Candidate} (hd : (ks.map Candidate.key).Nodup) :
    ((rowsOf ks).map Prod.fst).Nodup := by
  rw [rowsOf, List.map_map]
  exact hd

theorem becomes_recount {ks : List Candidate} (hn : Numbered as)
    (hd : (ks.map Candidate.key).Nodup) (a : Association) :
    Becomes document ks as a (recount document (rowsOf ks) as a) where
  counts c hc ha hk hdoc :=
    recount_of_mem (nodup_rowsOf hd) (mem_rowsOf hc) (hn.isOldest_iff.2 ⟨ha, hk, hdoc⟩)
  stays h := by
    refine recount_of_forall fun row hrow hf => ?_
    obtain ⟨c, hc, rfl⟩ := List.mem_map.1 hrow
    exact h c hc (hn.isOldest_iff.1 hf)

theorem fresh_rowsOf (document : String) (ks : List Candidate) (as : List Association) :
    (fresh document (rowsOf ks) as).map (fun row => (row.1, document, row.2)) =
      (ks.filter fun c => (as.find? (isOf c.key document)).isNone).map
        fun c => (c.key, document, (c.count : Int)) := by
  simp only [fresh, rowsOf]
  rw [List.filter_map, List.map_map]
  rfl

theorem records_writeAll {ks : List Candidate} (hn : Numbered as)
    (hd : (ks.map Candidate.key).Nodup) (policy : Policy) :
    Records document ks as (writeAll policy document (rowsOf ks) as) policy := by
  cases policy with
  | create =>
    obtain ⟨more, hm, hc⟩ := writeAll_create document (rowsOf ks) as
    exact ⟨more, hm, hc.trans (List.map_map ..)⟩
  | upsert =>
    have hd' := nodup_rowsOf hd
    obtain ⟨more, hm, hc⟩ := writeAll_upsert document hn hd'
    rw [fresh_rowsOf] at hc
    have hn' : Numbered (writeAll .upsert document (rowsOf ks) as) := hn.writeAll (rowsOf ks)
    refine ⟨fun c hmem => ?_, _, more, hm, ?_, hc⟩
    · obtain ⟨b, hf, hb⟩ := hn.find?_writeAll hd' (mem_rowsOf hmem)
      exact ⟨b, (hn'.isOldest_iff.1 hf).1, hb⟩
    · rw [List.forall₂_map_right_iff]
      exact List.forall₂_same.2 fun a _ => becomes_recount hn hd a

end Association

namespace Store

/-- The store after some keywords of a document have been stored, and nothing else. -/
structure Reports (policy : Policy) (document : String) (ks : List Candidate) (s t : Store) :
    Prop where
  documents : t.documents = s.documents
  occurrences : t.occurrences = s.occurrences
  edges : t.edges = s.edges
  keywords : s.keywords <+: t.keywords
  known : ∀ c ∈ ks, ∃ k ∈ t.keywords, k.id = c.key
  associations : Association.Records document ks s.associations t.associations policy
  ascending : t.associations.Pairwise fun a b => a.id < b.id

theorem reports_putAll {s : Store} (hs : s.Numbered) {ks : List Candidate}
    (hd : (ks.map Candidate.key).Nodup) (policy : Policy) (document : String) :
    Reports policy document ks s (s.putAll policy document (Association.rowsOf ks)) := by
  have hn := hs.putAll policy document (Association.rowsOf ks)
  obtain ⟨more, ht, hk⟩ := putAll_eq policy document (Association.rowsOf ks) s
  rw [ht] at hn ⊢
  exact {
    documents := rfl
    occurrences := rfl
    edges := rfl
    keywords := List.prefix_append _ _
    known := fun _ hc => hk _ (Association.mem_rowsOf hc)
    associations := Association.records_writeAll hs hd policy
    ascending := hn.pairwise }

end Store

open TagRank.Action

variable {α : Type} [Scalar α]

/-- An evaluation that succeeds has stored the keywords that it reports; any other one reports
none and leaves the store alone. -/
theorem evaluate_reports {s t : Service α} (hs : Reached s) (p : Pipeline α) (f : Filter)
    (document relation field : String) (rounds : Int) (damping : α) {e : Evaluation α}
    (h : perform (evaluate p f document relation field rounds damping) s = (.ok e, t)) :
    (e.status = .success → Store.Reports p.policy document e.keywords s.store t.store) ∧
      (e.status ≠ .success → e.keywords = [] ∧ t.store = s.store) := by
  have he := evaluated p f document relation field rounds damping s
  rw [h] at he
  cases he with
  | written hd ht hx =>
    obtain ⟨hst, rfl⟩ := hx e rfl
    refine ⟨fun _ => ?_, fun hne => absurd hst hne⟩
    rw [ht]
    exact Store.reports_putAll hs.numbered hd p.policy document
  | nothing ht hx =>
    obtain ⟨hst, hk⟩ := hx e rfl
    exact ⟨fun h => absurd h hst, fun _ => ⟨hk, ht⟩⟩

def twoWords : Service Rat :=
  let word (text : String) (order : Int) : Token := ⟨text, ["NN"], order, order, 0, order, ""⟩
  (perform
    (Call.transact [.findOrCreateKeyword "abc_" "abc", .createAssociation "abc_" "d" (.ok 7)])
    (Service.run [.load "d" [⟨0, [word "abc" 0, word "abd" 1]⟩], .rebuild "d" "near" "weight"]
      (.new Rat))).2

set_option maxRecDepth 4096 in
theorem evaluate_reports_twoWords :
    let p : Pipeline Rat := ⟨Kernel.power 1, 1, .upsert, .default, .drop, 1⟩
    ∃ e t, perform (evaluate p .default "d" "near" "weight" 1 0) twoWords = (.ok e, t) ∧
      e.status = .success ∧ e.keywords = [⟨"abc_", "abc", 1⟩] ∧
      Store.Reports .upsert "d" e.keywords twoWords.store t.store := by
  intro p
  have hr : Reached twoWords := .transact _ (.run _ (.start (.new Rat)))
  have hp : ((perform (evaluate p .default "d" "near" "weight" 1 0) twoWords).1.toOption.map
      fun e => (e.status, e.keywords)) = some (.success, [⟨"abc_", "abc", 1⟩]) := by
    cbv
  have hrep := fun e t => evaluate_reports (t := t) (e := e) hr p .default "d" "near" "weight" 1 0
  generalize perform (evaluate p .default "d" "near" "weight" 1 0) twoWords = q at hp hrep
  obtain ⟨_ | e, t⟩ := q
  · cases hp
  · obtain ⟨hst, hk⟩ := Prod.mk.inj (Option.some.inj hp)
    exact ⟨e, t, rfl, hst, hk, (hrep e t rfl).1 hst⟩

end TagRank
