import Mathlib
import TagRank.Proofs.Aggregation
import TagRank.Proofs.Ranking.Ranked
import TagRank.Proofs.Service.Anchored

namespace TagRank

open TagRank.Action

variable {α : Type} [Scalar α]

/-- The ranked nodes that can become keywords. -/
def RankedNode.eligible (f : Filter) (ranked : List (RankedNode α)) : List (RankedNode α) :=
  ranked.filter fun n => !f.isStopword (Key.value n.tag)

omit [Scalar α] in
theorem RankedNode.mem_eligible {f : Filter} {ranked : List (RankedNode α)} {n : RankedNode α} :
    n ∈ eligible f ranked ↔ n ∈ ranked ∧ f.isStopword (Key.value n.tag) = false := by
  simp [eligible]

theorem Aggregation.phrase_of_mem_skipped {f : Filter} {trailing : Trailing} {limit : Int}
    {found : List (Span α)} {key : String}
    (h : key ∈ Store.skipped f (ofSpans f trailing limit found).allCounts) :
    key ∈ (ofSpans f trailing limit found).phrases ∧
      key ∉ (ofSpans f trailing limit found).singles := by
  obtain ⟨c, hc, rfl⟩ := List.mem_map.1 h
  obtain ⟨hc, hf⟩ := List.mem_filter.1 hc
  obtain ⟨d, hd, rfl⟩ := List.mem_map.1 hc
  have hsingle : d.1 ∉ (ofSpans f trailing limit found).singles := by
    intro hs
    obtain ⟨s, hs, htag⟩ := kept_of_mem_singles hs
    have hfree := (mem_kept.1 hs).2
    rw [htag, hf] at hfree
    cases hfree
  exact ⟨(mem_keys_ofSpans.1 (List.mem_map_of_mem hd)).resolve_right hsingle, hsingle⟩

structure Spanned (ranked : List (RankedNode α)) (found : List (Span α)) : Prop where
  nodup : (ranked.map RankedNode.tag).Nodup
  node : ∀ span ∈ found, ∃ n ∈ ranked, n.pair = (span.tag, span.score)
  span : ∀ n ∈ ranked, ∃ span ∈ found, span.tag = n.tag

theorem Store.ranked_of_mem_spansOf {s : Store} {document : String} {ranked : List (RankedNode α)}
    (h : (ranked.map RankedNode.tag).Nodup) :
    ∀ span ∈ s.spansOf document ranked, ∃ n ∈ ranked, n.pair = (span.tag, span.score) := by
  refine List.forall_mem_map.2 fun o ho => ?_
  have ho := (List.mem_filter.1 (List.mem_mergeSort.1 ho)).2
  simp only [Bool.and_eq_true, List.contains_iff_mem] at ho
  obtain ⟨n, hn, htag⟩ := RankedNode.mem_keys_scores.1 ho.2
  refine ⟨n, hn, ?_⟩
  rw [RankedNode.pair, Span.ofOccurrence, ← htag, RankedNode.get_scores h hn]

namespace Spanned

variable {ranked : List (RankedNode α)} {found : List (Span α)} {f : Filter}

omit [Scalar α] in
theorem perm (h : Spanned ranked found) (f : Filter) :
    (Assoc.ofList ((Aggregation.kept f found).map fun s => (s.tag, s.score))).Perm
      ((RankedNode.eligible f ranked).map RankedNode.pair) := by
  have hkeys := Assoc.nodup_ofList ((Aggregation.kept f found).map fun s => (s.tag, s.score))
  have htags : ((RankedNode.eligible f ranked).map RankedNode.tag).Nodup :=
    h.nodup.sublist (List.filter_sublist.map _)
  have hpairs : ((RankedNode.eligible f ranked).map RankedNode.pair).Nodup := by
    refine List.Nodup.of_map Prod.fst ?_
    rwa [List.map_map]
  have seen {p : String × α} (hp : p ∈ Assoc.ofList ((Aggregation.kept f found).map
      fun s => (s.tag, s.score))) : ∃ n ∈ RankedNode.eligible f ranked, n.pair = p := by
    obtain ⟨s, hs, rfl⟩ := List.mem_map.1 (Assoc.mem_of_mem_ofList hp)
    obtain ⟨hs, hf⟩ := Aggregation.mem_kept.1 hs
    obtain ⟨n, hn, hpair⟩ := h.node s hs
    refine ⟨n, RankedNode.mem_eligible.2 ⟨hn, ?_⟩, hpair⟩
    rwa [(Prod.mk.inj hpair).1]
  refine (List.perm_ext_iff_of_nodup (List.Nodup.of_map Prod.fst hkeys) hpairs).2 fun p => ?_
  refine ⟨fun hp => List.mem_map.2 (seen hp), fun hp => ?_⟩
  obtain ⟨n, hn, rfl⟩ := List.mem_map.1 hp
  obtain ⟨hmem, hf⟩ := RankedNode.mem_eligible.1 hn
  obtain ⟨span, hspan, htag⟩ := h.span n hmem
  -- the tag has been seen, and so with the score of its node
  have hkept : span ∈ Aggregation.kept f found := Aggregation.mem_kept.2 ⟨hspan, htag ▸ hf⟩
  have hkey : n.tag ∈ Assoc.keys (Assoc.ofList ((Aggregation.kept f found).map
      fun s => (s.tag, s.score))) := by
    rw [Assoc.mem_keys_ofList, List.map_map]
    exact List.mem_map.2 ⟨span, hkept, htag⟩
  obtain ⟨q, hq, hqtag⟩ := List.mem_map.1 hkey
  obtain ⟨m, hm, rfl⟩ := seen hq
  have hmn : m = n := List.inj_on_of_nodup_map htags hm hn hqtag
  exact hmn ▸ hq

variable (trailing : Trailing) (limit : Int)

theorem length_singles (h : Spanned ranked found) :
    (Aggregation.ofSpans f trailing limit found).singles.length =
      min limit.toNat (RankedNode.eligible f ranked).length := by
  have hlength := ((Scores.perm_descending _).trans (h.perm f)).length_eq
  rw [List.length_map] at hlength
  rw [Aggregation.ofSpans_singles, List.length_map, List.length_take, hlength]

theorem eligible_of_mem_singles (h : Spanned ranked found) {key : String}
    (hk : key ∈ (Aggregation.ofSpans f trailing limit found).singles) :
    ∃ n ∈ RankedNode.eligible f ranked, n.tag = key := by
  rw [Aggregation.ofSpans_singles] at hk
  obtain ⟨p, hp, rfl⟩ := List.mem_map.1 hk
  have hp := ((Scores.perm_descending _).trans (h.perm f)).subset (List.mem_of_mem_take hp)
  obtain ⟨n, hn, rfl⟩ := List.mem_map.1 hp
  exact ⟨n, hn, rfl⟩

theorem map_score_singles (h : Spanned ranked found)
    (hs : ranked.Pairwise fun m n => n.score ≤ m.score)
    (hc : Comparable (ranked.map RankedNode.score)) :
    (Aggregation.ofSpans f trailing limit found).singles.map (RankedNode.scores ranked).get =
      ((RankedNode.eligible f ranked).map RankedNode.score).take limit.toNat := by
  have hperm := h.perm f
  rw [Aggregation.ofSpans_singles]
  generalize Assoc.ofList ((Aggregation.kept f found).map fun s => (s.tag, s.score)) = m at hperm ⊢
  have hget : ∀ q ∈ Scores.descending m, (RankedNode.scores ranked).get q.1 = q.2 := by
    intro q hq
    obtain ⟨n, hn, rfl⟩ := List.mem_map.1 (((Scores.perm_descending m).trans hperm).subset hq)
    exact RankedNode.get_scores h.nodup (RankedNode.mem_eligible.1 hn).1
  have hscores : (m.map Prod.snd).Perm ((RankedNode.eligible f ranked).map RankedNode.score) := by
    have := hperm.map Prod.snd
    rwa [List.map_map] at this
  have hsub : (RankedNode.eligible f ranked).map RankedNode.score ⊆ ranked.map RankedNode.score :=
    List.map_subset _ (List.filter_subset_self _)
  have hdescending := Scores.map_descending_eq hscores
    (List.pairwise_map.2 (hs.sublist List.filter_sublist)) (hc.mono hsub)
  calc (((Scores.descending m).take limit.toNat).map Prod.fst).map (RankedNode.scores ranked).get
    _ = ((Scores.descending m).take limit.toNat).map Prod.snd := by
      rw [List.map_map]
      exact List.map_congr_left fun q hq => hget q (List.mem_of_mem_take hq)
    _ = ((Scores.descending m).map Prod.snd).take limit.toNat := List.map_take
    _ = ((RankedNode.eligible f ranked).map RankedNode.score).take limit.toNat := by
      rw [hdescending]

end Spanned

theorem Store.Sound.spanned {s : Store} (h : s.Sound) {es : List Event} (he : s.Tallied es)
    {document relation field : String} {view : View α}
    (hv : View.ofEdges field (s.edgesOf document relation (some field)) = .ok view) (count : Int)
    (scores : Scores α) :
    Spanned (RankedNode.best count view scores)
      (s.spansOf document (RankedNode.best count view scores)) where
  nodup := RankedNode.nodup_tags_best (View.nodup_nodes_ofEdges hv)
  node := ranked_of_mem_spansOf (RankedNode.nodup_tags_best (View.nodup_nodes_ofEdges hv))
  span _ hn := h.span_of_mem_best he hv hn

theorem Action.keywords_ne_nil {s t : Service α} (hs : s.store.Sound) {es : List Event}
    (he : s.store.Tallied es) {p : Pipeline α} {f : Filter} {document relation field : String}
    {rounds : Int} {damping : α} {e : Evaluation α}
    (h : perform (evaluate p f document relation field rounds damping) s = (.ok e, t))
    (hstatus : e.status = .success) (hf : f.enabled = false) (hlimit : 0 < p.wordLimit)
    (hedges : s.store.edgesOf document relation (some field) ≠ []) : e.keywords ≠ [] := by
  obtain ⟨ranked, u, o, hrank, rfl, -⟩ := evaluate_ok h (by rw [hstatus]; decide)
  have hsuccess : o.status = .success := EvaluationStatus.ofPersist_eq_success.1 hstatus
  obtain ⟨view, scores, hv, -, rfl⟩ := rank_ok hrank
  have hfree (value : String) : f.isStopword value = false := by rw [Filter.isStopword, hf]; rfl
  have heligible :
      (RankedNode.eligible f (RankedNode.best p.topNodes view scores)).length ≠ 0 := by
    rw [RankedNode.eligible, List.filter_eq_self.2 fun n _ => by rw [hfree]; rfl]
    exact (List.length_pos_iff.2 (RankedNode.best_ne_nil (View.nodes_ofEdges_ne_nil hv hedges))).ne'
  have hsingles := (hs.spanned he hv p.topNodes scores).length_singles (f := f) p.trailing
    p.wordLimit
  obtain ⟨key, hkey⟩ := List.exists_mem_of_length_pos (l := (Aggregation.ofSpans f p.trailing
    p.wordLimit (s.store.spansOf document (RankedNode.best p.topNodes view scores))).singles)
    (by omega)
  obtain ⟨c, hc, -⟩ := List.mem_map.1 (Aggregation.mem_keys_ofSpans.2 (.inr hkey))
  rw [Evaluation.concluded, if_pos hsuccess]
  refine List.ne_nil_of_mem (List.mem_filter.2 ⟨List.mem_map_of_mem hc, ?_⟩)
  rw [hfree]
  rfl

/-- As many keywords of one word are chosen as there may be and are eligible nodes. They bear the
scores of the first of these, as far as scores can be compared; and the stopwords among the keys are
phrases. -/
theorem Service.evaluate_selects (s : Service α) (xs : List (Step α)) (p : Pipeline α) (f : Filter)
    (document relation field : String) (rounds : Int) (damping : α) {e : Evaluation α} :
    let s := run xs { s with store := .empty }
    (perform (evaluate p f document relation field rounds damping) s).1 = .ok e →
    e.status = .success →
    ∃ a o, e.aggregation = some a ∧ e.persisted = some o ∧
      let eligible := RankedNode.eligible f e.ranked
      a.singles.Nodup ∧ a.singles.length = min p.wordLimit.toNat eligible.length ∧
        (∀ key ∈ a.singles, ∃ n ∈ eligible, n.tag = key) ∧
        (∀ key ∈ o.skipped, key ∈ a.phrases ∧ key ∉ a.singles) ∧
        ((∀ v x, View.ofEdges field (s.store.edgesOf document relation (some field)) = .ok v →
            p.kernel v v.field rounds damping = .ok x → Comparable (v.nodes.map x.get)) →
          a.singles.map (RankedNode.scores e.ranked).get =
            (eligible.map RankedNode.score).take p.wordLimit.toNat) := by
  intro s' h hstatus
  have hsound : s'.store.Sound := (Reached.run xs (.start s)).sound
  have htally : s'.store.Tallied (history xs { s with store := .empty }) :=
    (follows_run xs { s with store := .empty }).tallied Store.tallied_empty
  obtain ⟨t, h⟩ : ∃ t, perform (evaluate p f document relation field rounds damping) s' =
      (.ok e, t) := ⟨_, Prod.ext h rfl⟩
  obtain ⟨ranked, u, o, hrank, rfl, ho⟩ := evaluate_ok h (by rw [hstatus]; decide)
  have hsuccess : o.status = .success := EvaluationStatus.ofPersist_eq_success.1 hstatus
  obtain ⟨view, scores, hv, hk, rfl⟩ := rank_ok hrank
  have hspanned := hsound.spanned htally hv p.topNodes scores
  refine ⟨_, o, rfl, rfl, Aggregation.nodup_singles _ _ _ _, hspanned.length_singles _ _,
    fun key hkey => hspanned.eligible_of_mem_singles _ _ hkey, fun key hkey => ?_, fun hc => ?_⟩
  · rw [(ho hsuccess).skipped] at hkey
    exact Aggregation.phrase_of_mem_skipped hkey
  · have hc := hc view scores hv hk
    refine hspanned.map_score_singles _ _ (RankedNode.pairwise_best hc) (hc.mono fun x hx => ?_)
    obtain ⟨n, hn, rfl⟩ := List.mem_map.1 hx
    exact RankedNode.score_mem_of_mem_best hn

set_option maxRecDepth 4096 in
theorem Service.evaluate_selects_neighbouring :
    ∃ e a, (perform (evaluate ⟨Kernel.power 1, 2, .create, ⟨[], false⟩, .drop, 1⟩ ⟨[], false⟩ "d"
        "near" "weight" 1 0) oneEdge).1 = .ok e ∧
      e.status = .success ∧ e.aggregation = some a ∧ a.singles.length = 1 ∧
      a.singles.map (RankedNode.scores e.ranked).get = [1] := by
  have hsome : (perform (evaluate ⟨Kernel.power 1, 2, .create, ⟨[], false⟩, .drop, 1⟩ ⟨[], false⟩ "d"
      "near" "weight" 1 0) oneEdge).1.map
      (fun e => (e.status, (RankedNode.eligible ⟨[], false⟩ e.ranked).map RankedNode.score)) =
      .ok (.success, [1, 1]) := by cbv
  obtain ⟨e, he, hpair⟩ := map_eq_ok.1 hsome
  obtain ⟨hstatus, hscores⟩ := Prod.mk.inj hpair
  obtain ⟨a, -, ha, -, -, hlength, -, -, hmap⟩ := evaluate_selects (.new Rat)
    [.load "d" [neighbouring "abc" "abd"], .build "d" "near" "weight"] _ _ _ _ _ _ _ he hstatus
  have heligible : (RankedNode.eligible ⟨[], false⟩ e.ranked).length = 2 := by
    simpa using congrArg List.length hscores
  refine ⟨e, a, he, hstatus, ha, hlength.trans (by rw [heligible]; rfl), ?_⟩
  rw [hmap fun v x _ _ => comparable_rat _, hscores]
  rfl

end TagRank
