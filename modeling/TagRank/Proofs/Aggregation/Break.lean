import Mathlib
import TagRank.Proofs.Aggregation.Run

namespace TagRank

section

variable {β : Type} {p : β → Bool} {r : β → β → Bool} {xs : List β} {parts : List (List β)}
  {part : List β}

/-- How the parts of what is kept stand in the whole list. Behind the last one there is nothing but
what was left out. -/
structure Standing (p : β → Bool) (xs : List β) (parts : List (List β)) (part : List β) : Prop where
  ne_nil : part ≠ []
  before : ∀ q ∈ parts, q <:+: xs
  last : ∃ rest, part ++ rest <:+ xs ∧ ∀ b ∈ rest, p b = false

namespace Standing

theorem isInfix (h : Standing p xs parts part) : ∀ q ∈ parts ++ [part], q <:+: xs := by
  intro q hq
  rcases List.mem_append.1 hq with hq | hq
  · exact h.before q hq
  · obtain ⟨rest, hrest, -⟩ := h.last
    rw [List.mem_singleton.1 hq]
    exact (List.prefix_append part rest).isInfix.trans hrest.isInfix

theorem skipped (h : Standing p xs parts part) {y : β} (hy : p y = false) :
    Standing p (xs ++ [y]) parts part where
  ne_nil := h.ne_nil
  before q hq := (h.before q hq).trans (List.prefix_append xs [y]).isInfix
  last := by
    obtain ⟨rest, ⟨front, rfl⟩, hrest⟩ := h.last
    refine ⟨rest ++ [y], ⟨front, by simp⟩, fun b hb => ?_⟩
    rcases List.mem_append.1 hb with hb | hb
    · exact hrest b hb
    · exact List.mem_singleton.1 hb ▸ hy

theorem restarted (h : Standing p xs parts part) (y : β) :
    Standing p (xs ++ [y]) (parts ++ [part]) [y] where
  ne_nil := List.cons_ne_nil y []
  before q hq := (h.isInfix q hq).trans (List.prefix_append xs [y]).isInfix
  last := ⟨[], List.suffix_append xs [y], by simp⟩

theorem continued (h : Standing p xs parts part) {x y : β} (hx : x ∈ part.getLast?)
    (hgap : ∀ b, [x, b, y].Sublist (xs ++ [y]) → p b = true) :
    Standing p (xs ++ [y]) parts (part ++ [y]) where
  ne_nil := by simp
  before q hq := (h.before q hq).trans (List.prefix_append xs [y]).isInfix
  last := by
    obtain ⟨rest, hsuffix, hrest⟩ := h.last
    have hnil : rest = [] := by
      refine List.eq_nil_iff_forall_not_mem.2 fun b hb => ?_
      have hpair : [x, b].Sublist (part ++ rest) :=
        (List.singleton_sublist.2 (List.mem_of_getLast? hx)).append (List.singleton_sublist.2 hb)
      have hkept := hgap b ((hpair.trans hsuffix.sublist).append (List.Sublist.refl [y]))
      rw [hrest b hb] at hkept
      cases hkept
    obtain ⟨front, rfl⟩ := hsuffix
    exact ⟨[], ⟨front, by simp [hnil]⟩, by simp⟩

end Standing

theorem isInfix_of_mem_splitBy_filter
    (h : ∀ a b c, [a, b, c].Sublist xs → p b = false → r a c = false) :
    ∀ q ∈ (xs.filter p).splitBy r, q <:+: xs := by
  have standing : xs.filter p = [] ∨
      ∃ parts part, (xs.filter p).splitBy r = parts ++ [part] ∧ Standing p xs parts part := by
    induction xs using List.reverseRecOn with
    | nil => exact .inl rfl
    | append_singleton xs y ih =>
      have ih := ih fun a b c hs => h a b c (List.sublist_append_of_sublist_left hs)
      rw [List.filter_append]
      cases hy : p y with
      | false =>
        rw [List.filter_cons_of_neg (by simp [hy]), List.filter_nil, List.append_nil]
        refine ih.imp id ?_
        rintro ⟨parts, part, hparts, hstanding⟩
        exact ⟨parts, part, hparts, hstanding.skipped hy⟩
      | true =>
        rw [List.filter_cons_of_pos hy, List.filter_nil]
        refine .inr ?_
        rcases ih with hnil | ⟨parts, part, hparts, hstanding⟩
        · rw [hnil]
          exact ⟨[], [y], rfl, by simp, by simp, [], List.suffix_append xs [y], by simp⟩
        · have hlast := List.getLast?_eq_some_getLast hstanding.ne_nil
          have hnext := splitBy_concat hparts hlast y
          by_cases hr : r (part.getLast hstanding.ne_nil) y
          · rw [if_pos hr] at hnext
            refine ⟨parts, part ++ [y], hnext, hstanding.continued hlast fun b hb => ?_⟩
            exact Bool.of_not_eq_false fun hpb => by simp [h _ b _ hb hpb] at hr
          · rw [if_neg hr] at hnext
            exact ⟨parts ++ [part], [y], hnext, hstanding.restarted y⟩
  rcases standing with hnil | ⟨parts, part, hparts, hstanding⟩
  · simp [hnil]
  · rw [hparts]
    exact hstanding.isInfix

end

namespace Aggregation

variable {α : Type} {f : Filter} {spans : List (Span α)}

theorem isNext_of_between (hchain : spans.IsChain fun s t => s.stop ≤ t.start)
    (hlong : ∀ s ∈ spans, s.start + 2 ≤ s.stop) {s t u : Span α}
    (h : [s, t, u].Sublist spans) : isNext s u = false := by
  have htrans : Trans (fun s t : Span α => s.stop ≤ t.start ∧ t.start + 2 ≤ t.stop)
      (fun s t : Span α => s.stop ≤ t.start ∧ t.start + 2 ≤ t.stop)
      (fun s t : Span α => s.stop ≤ t.start ∧ t.start + 2 ≤ t.stop) := ⟨by grind⟩
  have hpairs : spans.Pairwise fun s t => s.stop ≤ t.start ∧ t.start + 2 ≤ t.stop :=
    (hchain.imp_of_mem_imp fun s t _ ht hst => ⟨hst, hlong t ht⟩).pairwise
  have hthree := hpairs.sublist h
  simp only [List.pairwise_cons, List.mem_cons, forall_eq_or_imp] at hthree
  rw [isNext, decide_eq_false_iff_not]
  omega

theorem mem_of_mem_ended {trailing : Trailing} {runs : List (List (Span α))} {run : List (Span α)}
    (h : run ∈ ended trailing runs) : run ∈ runs := by
  cases trailing with
  | drop => exact List.dropLast_subset runs h
  | flush => exact h

theorem kept_withEnabled (f : Filter) (spans : List (Span α)) :
    kept (f.withEnabled false) spans = spans :=
  List.filter_eq_self.2 fun _ _ => rfl

theorem after_kept (f : Filter) (spans : List (Span α)) :
    after (f.withEnabled false) (kept f spans) = after f spans := by
  rw [after_eq_foldl, after_eq_foldl, kept_withEnabled]

/-- Aggregating comes to the same as aggregating, unfiltered, what a filter lets through. And where
no span begins before the last one ends and none is shorter than two characters, the phrases that
are counted are stretches of the text without a stopword in them. -/
theorem ofSpans_breaks [Scalar α] (f : Filter) (trailing : Trailing) (limit : Int)
    (spans : List (Span α)) :
    let a := ofSpans f trailing limit spans
    let runs := ended trailing ((kept f spans).splitBy isNext)
    a = { ofSpans (f.withEnabled false) trailing limit (kept f spans) with
      filtered := f.enabled } ∧
    (spans.IsChain (fun s t => s.stop ≤ t.start) → (∀ s ∈ spans, s.start + 2 ≤ s.stop) →
      a.phrases = (phraseKeys runs).eraseDups ∧
      (∀ key ∉ a.singles, Assoc.getD key 0 a.counts = (phraseKeys runs).count key) ∧
      ∀ run ∈ runs, run <:+: spans ∧ ∀ s ∈ run, f.isStopword (Key.value s.tag) = false) := by
  intro a runs
  have hclosed := closed_foldl trailing (kept f spans)
  rw [← after_eq_foldl] at hclosed
  refine ⟨?_, fun hchain hlong => ⟨hclosed.phrases, fun key hkey => ?_, fun run hrun => ?_⟩⟩
  · have hafter := after_kept f spans
    simp only [a, ofSpans]
    simp only [after] at hafter
    rw [hafter]
  · rw [ofSpans_counts, getD_countOnce, if_neg hkey, hclosed.counts, getD_tally]
  · have hrun := mem_of_mem_ended hrun
    have hstretch : run <:+: spans :=
      isInfix_of_mem_splitBy_filter (fun _ _ _ h _ => isNext_of_between hchain hlong h) run hrun
    refine ⟨hstretch, fun s hs => ?_⟩
    have hkept : s ∈ kept f spans := by
      rw [← List.flatten_splitBy isNext (kept f spans)]
      exact List.mem_flatten.2 ⟨run, hrun, hs⟩
    exact (mem_kept.1 hkept).2

theorem ofSpans_breaks_fourWords :
    let f : Filter := ⟨["new"], true⟩
    let spans : List (Span Rat) :=
      [⟨"big_en", 0, 3, 1⟩, ⟨"new_en", 4, 7, 1⟩, ⟨"data_en", 8, 12, 1⟩, ⟨"tree_en", 13, 17, 1⟩]
    spans.IsChain (fun s t => s.stop ≤ t.start) ∧ (∀ s ∈ spans, s.start + 2 ≤ s.stop) ∧
      (ofSpans f .flush 0 spans).phrases = ["data tree_en"] ∧
      [(⟨"data_en", 8, 12, 1⟩ : Span Rat), ⟨"tree_en", 13, 17, 1⟩] <:+: spans := by
  intro f spans
  have hchain : spans.IsChain (fun s t => s.stop ≤ t.start) := by simp [spans]
  have hlong : ∀ s ∈ spans, s.start + 2 ≤ s.stop := by simp [spans]
  obtain ⟨hphrases, -, hruns⟩ := (ofSpans_breaks f .flush 0 spans).2 hchain hlong
  have hsplit : (kept f spans).splitBy isNext =
      [[⟨"big_en", 0, 3, 1⟩], [⟨"data_en", 8, 12, 1⟩, ⟨"tree_en", 13, 17, 1⟩]] := by cbv
  rw [hsplit] at hphrases hruns
  refine ⟨hchain, hlong, hphrases.trans (by cbv), (hruns _ ?_).1⟩
  simp [ended]

end Aggregation

end TagRank
