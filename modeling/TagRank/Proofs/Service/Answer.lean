import Mathlib
import TagRank.Proofs.Aggregation
import TagRank.Proofs.Service.Ready
import TagRank.Proofs.Store.Held

namespace TagRank

open TagRank.Action

variable {α : Type} [Scalar α]

theorem View.ofEdges_eq (field : String) (edges : List Edge) :
    View.ofEdges (α := α) field edges =
      if edges ≠ [] ∧ field ∈ reservedFields then .error .reservedField
      else .ok (ofWeighted field (edges.map fun e => (e.a, e.b, (e.weight : α)))) := by
  rw [ofEdges, ofWeighted?_eq]
  refine if_congr ?_ rfl rfl
  simp

theorem RankedNode.best_of_no_nodes (count : Int) {v : View α} (h : v.nodes = [])
    (scores : Scores α) : best count v scores = [] := by
  simp [best, h, Scores.descending]

theorem Store.Sound.edgesOf_of_unknown {s : Store} (h : s.Sound) {document : String}
    (hd : s.hasDocument document = false) (relation : String) (field : Option String) :
    s.edgesOf document relation field = [] := by
  refine List.filter_eq_nil_iff.2 fun e he hm => ?_
  simp only [Bool.and_eq_true, beq_iff_eq] at hm
  have hknown := Store.hasDocument_iff.2 (h.linked e he).1
  rw [hm.1.1, hd] at hknown
  cases hknown

theorem Aggregation.fits_allCounts (f : Filter) (trailing : Trailing) (limit : Int)
    {found : List (Span α)} (h : found.length < 2 ^ 63) :
    ∀ c ∈ (ofSpans f trailing limit found).allCounts, Store.Fits c.2 := by
  intro c hc
  obtain ⟨⟨key, n⟩, hm, rfl⟩ := List.mem_map.1 hc
  refine ⟨n, rfl, ?_⟩
  have hn := le_of_mem_ofSpans hm
  simp only [Decimal.fitsWord, Bool.and_eq_true, decide_eq_true_eq]
  dsimp only at hn
  omega

theorem Action.ends_persist_of_known {s : Store} {document : String}
    (hd : s.hasDocument document = true) (policy : Policy) (f : Filter) (trailing : Trailing)
    (limit : Int) {found : List (Span α)} (h : found.length < 2 ^ 63) :
    ∃ o t, o.status = .success ∧ Ends (α := α) (persist policy f document
      (Aggregation.ofSpans f trailing limit found).allCounts) s (.ok o) t := by
  have hfits := Aggregation.fits_allCounts f trailing limit h
  obtain ⟨o, t, hrun⟩ := Store.persistAll_run policy f hd
    (fun c hc => hfits c (List.mem_of_mem_filter hc)) (.start document)
  have hpersist := Store.persist_eq policy f document
    (Aggregation.ofSpans f trailing limit found).allCounts s
  rw [if_pos hd, hrun] at hpersist
  obtain ⟨hp, -⟩ := Store.persistAll_ok hd hrun
  have hwritten : o.written < 2 ^ 64 := by
    calc o.written
      _ = (Store.kept f _).length := hp.written.trans (Nat.zero_add _)
      _ ≤ (Aggregation.ofSpans f trailing limit found).allCounts.length := List.length_filter_le _ _
      _ = (Aggregation.ofSpans f trailing limit found).counts.length := List.length_map _
      _ ≤ 2 * found.length := Aggregation.length_ofSpans_le
      _ < 2 ^ 64 := by omega
  exact ⟨o, t, hp.status, ends_persist hpersist hwritten⟩

theorem Aggregation.counts_nil (f : Filter) (trailing : Trailing) (limit : Int) :
    (ofSpans (α := α) f trailing limit []).counts = [] :=
  List.eq_nil_of_length_eq_zero (Nat.eq_zero_of_le_zero length_ofSpans_le)

def Store.powerRanked (s : Store) (tolerance : α) (count : Int) (document relation field : String)
    (rounds : Int) (damping : α) : List (RankedNode α) :=
  let edges := s.edgesOf document relation (some field)
  let view : View α := View.ofWeighted field (edges.map fun e => (e.a, e.b, (e.weight : α)))
  let strengths := view.through view.field
  RankedNode.best count view
    (Kernel.Power.run strengths damping tolerance rounds.toNat (Kernel.Power.start strengths))

theorem Store.powerRanked_nil {s : Store} {document relation field : String}
    (h : s.edgesOf document relation (some field) = []) (tolerance : α) (count rounds : Int)
    (damping : α) : s.powerRanked tolerance count document relation field rounds damping = [] := by
  rw [powerRanked, h]
  exact RankedNode.best_of_no_nodes _ rfl _

namespace Action

variable {relation field : String} {rounds : Int} {damping : α}
  (hr : Label.isValid relation = true) (hf : Label.isValid field = true) (hrounds : 1 ≤ rounds)
  (hlow : 0 ≤ damping) (hhigh : damping ≤ 1) (tolerance : α) {s : Store} {document : String}
  (p : Pipeline α) (f : Filter)

include hr hf hrounds hlow hhigh

theorem ends_rank_power (count : Int) (document : String) (s : Store) :
    Ends (rank (.power tolerance) count document relation field rounds damping) s
      (if s.edgesOf document relation (some field) ≠ [] ∧ field ∈ View.reservedFields then
        .error .reservedField
      else .ok (s.powerRanked tolerance count document relation field rounds damping)) s := by
  have h : Ends (rank (.power tolerance) count document relation field rounds damping) s
      ((View.ofEdges field (s.edgesOf document relation (some field))).map _) s :=
    ends_rank (fun v _ => (rfl : Kernel.power tolerance v v.field rounds damping = .ok _)) count hr
      hf hrounds hlow hhigh
  rw [View.ofEdges_eq, apply_ite (Except.map _)] at h
  exact h

theorem ends_evaluate_of_reserved
    (h : s.edgesOf document relation (some field) ≠ [] ∧ field ∈ View.reservedFields) :
    Ends (evaluate { p with kernel := .power tolerance } f document relation field rounds damping) s
      (.error .reservedField) s := by
  have hrank := ends_rank_power hr hf hrounds hlow hhigh tolerance p.topNodes document s
  rw [if_pos h] at hrank
  exact ends_evaluate_error (by simp [Error.kind]) (ends_locate_error hrank)

theorem ends_locate_power
    (h : ¬(s.edgesOf document relation (some field) ≠ [] ∧ field ∈ View.reservedFields)) :
    let ranked := s.powerRanked tolerance p.topNodes document relation field rounds damping
    Ends (locate { p with kernel := .power tolerance } document relation field rounds damping) s
      (.ok (ranked, s.spansOf document ranked)) s := by
  have hrank := ends_rank_power hr hf hrounds hlow hhigh tolerance p.topNodes document s
  rw [if_neg h] at hrank
  exact ends_locate hrank

theorem ends_evaluate_of_unknown (hs : s.Sound) (hd : s.hasDocument document = false) :
    ∃ e, Ends (evaluate { p with kernel := .power tolerance } f document relation field rounds
        damping) s (.ok e) s ∧
      e.status = .missingDocument ∧ e.ranked = [] ∧
      e.aggregation.map Aggregation.counts = some [] ∧ e.keywords = [] := by
  have hedges : s.edgesOf document relation (some field) = [] := hs.edgesOf_of_unknown hd _ _
  have hlocate := ends_locate_power hr hf hrounds hlow hhigh tolerance p fun h => h.1 hedges
  -- no edges, so no nodes and no spans: nothing is counted
  dsimp only at hlocate
  rw [Store.powerRanked_nil hedges, Store.spansOf_nil] at hlocate
  exact ⟨_, ends_evaluate hlocate (ends_persist_of_unknown hd _ _ _), rfl, rfl,
    congrArg some (Aggregation.counts_nil _ _ _), rfl⟩

theorem ends_evaluate_of_known (hd : s.hasDocument document = true)
    (hlen : (s.tokensOf document).length < 2 ^ 63)
    (h : ¬(s.edgesOf document relation (some field) ≠ [] ∧ field ∈ View.reservedFields)) :
    ∃ e t, Ends (evaluate { p with kernel := .power tolerance } f document relation field rounds
      damping) s (.ok e) t ∧ e.status = .success := by
  have hlocate := ends_locate_power hr hf hrounds hlow hhigh tolerance p h
  obtain ⟨o, t, ho, hpersist⟩ := ends_persist_of_known (α := α) hd p.policy f p.trailing p.wordLimit
    ((s.length_spansOf_le document _).trans_lt hlen)
  exact ⟨_, t, ends_evaluate hlocate hpersist, congrArg EvaluationStatus.ofPersist ho⟩

end Action

theorem Service.ready_run {s : Service α} (hs : ∀ r ∈ s.recorder, r.series = [])
    (hn : s.recorder.isSome → ∀ n : Nat, n < 2 ^ 64 → (Scalar.ofInt? (n : Int) : Option α).isSome)
    (xs : List (Step α)) : { run xs { s with store := .empty } with fault := none }.Ready :=
  have h : { s with store := .empty, fault := none }.Ready :=
    ⟨rfl, fun r hr => Metrics.Recorder.isOwn_of_empty (hs r hr), hn⟩
  h.owns rfl (owns_run xs { s with store := .empty })

/-- An evaluation with the power kernel stores keywords, or says that the document is missing. It
fails for edges whose weight field bears a reserved name, although they can be built. -/
theorem Service.evaluate_answers (s : Service α) (hs : ∀ r ∈ s.recorder, r.series = [])
    (hn : s.recorder.isSome → ∀ n : Nat, n < 2 ^ 64 → (Scalar.ofInt? (n : Int) : Option α).isSome)
    (xs : List (Step α)) (p : Pipeline α) (f : Filter) (tolerance : α) (document : String)
    {relation field : String} (hr : Label.isValid relation = true)
    (hf : Label.isValid field = true) {rounds : Int} (hrounds : 1 ≤ rounds) {damping : α}
    (hlow : 0 ≤ damping) (hhigh : damping ≤ 1) :
    let s := { run xs { s with store := .empty } with fault := none }
    let edges := s.store.edgesOf document relation (some field)
    let after := perform (evaluate { p with kernel := .power tolerance } f document relation field
      rounds damping) s
    (s.store.hasDocument document = false → after.2.store = s.store ∧
      ∃ e, after.1 = .ok e ∧ e.status = .missingDocument ∧ e.ranked = [] ∧
        e.aggregation.map Aggregation.counts = some [] ∧ e.keywords = []) ∧
    (edges ≠ [] ∧ field ∈ View.reservedFields → after.2.store = s.store ∧
      after.1 = .error .reservedField) ∧
    (s.store.hasDocument document = true → (s.store.tokensOf document).length < 2 ^ 63 →
      ¬(edges ≠ [] ∧ field ∈ View.reservedFields) → ∃ e, after.1 = .ok e ∧ e.status = .success) := by
  intro s' edges after
  have hsound : s'.store.Sound := (Reached.run xs (.start s)).sound
  have hready : s'.Ready := ready_run hs hn xs
  refine ⟨fun hd => ?unknown, fun hreserved => ?reserved, fun hd hlen hfree => ?known⟩
  case unknown =>
    obtain ⟨e, hend, he⟩ :=
      ends_evaluate_of_unknown hr hf hrounds hlow hhigh tolerance p f hsound hd
    obtain ⟨w, hw, hstore, -⟩ := hend s' hready rfl
    simp only [after]
    rw [hw]
    exact ⟨hstore, e, rfl, he⟩
  case reserved =>
    obtain ⟨w, hw, hstore, -⟩ :=
      ends_evaluate_of_reserved hr hf hrounds hlow hhigh tolerance p f hreserved s' hready rfl
    simp only [after]
    rw [hw]
    exact ⟨hstore, rfl⟩
  case known =>
    obtain ⟨e, t, hend, he⟩ :=
      ends_evaluate_of_known hr hf hrounds hlow hhigh tolerance p f hd hlen hfree
    obtain ⟨w, hw, -, -⟩ := hend s' hready rfl
    simp only [after]
    rw [hw]
    exact ⟨e, rfl, he⟩

set_option maxRecDepth 4096 in
theorem Service.evaluate_answers_neighbouring :
    let p : Pipeline Rat := ⟨Kernel.power 1, 1, .create, ⟨[], false⟩, .drop, 1⟩
    let s := { run [.load "d" [neighbouring "abc" "abd"], .build "d" "near" "self",
      .build "d" "near" "weight"] (.new Rat) with fault := none }
    let evaluated (document field : String) :=
      (perform (evaluate p ⟨[], false⟩ document "near" field 1 0) s).1
    (∃ e, evaluated "e" "weight" = .ok e ∧ e.status = .missingDocument) ∧
      evaluated "d" "self" = .error .reservedField ∧
      ∃ e, evaluated "d" "weight" = .ok e ∧ e.status = .success := by
  have h (document : String) {field : String} (hf : Label.isValid field = true) :=
    evaluate_answers (.new Rat) (by simp [new]) (by simp [new])
      [.load "d" [neighbouring "abc" "abd"], .build "d" "near" "self", .build "d" "near" "weight"]
      ⟨Kernel.power 1, 1, .create, ⟨[], false⟩, .drop, 1⟩ ⟨[], false⟩ 1 document
      (by decide : Label.isValid "near" = true) hf (le_refl 1) (le_refl 0) zero_le_one
  have hweight : Label.isValid "weight" = true := by decide
  have hself : Label.isValid "self" = true := by decide
  refine ⟨?_, ((h "d" hself).2.1 ⟨by cbv; simp, by decide⟩).2, ?_⟩
  · obtain ⟨-, e, he, hstatus, -⟩ := (h "e" hweight).1 (by cbv)
    exact ⟨e, he, hstatus⟩
  · exact (h "d" hweight).2.2 (by cbv) (by cbv) fun hr => absurd hr.2 (by decide)

end TagRank
