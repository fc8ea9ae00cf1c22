import Mathlib.Data.List.SplitBy
import TagRank.Proofs.Aggregation
import TagRank.Proofs.Key

/-!
Aggregating cuts the spans that are kept into runs, as long as they can be, of spans that follow
each other closely. What one pass over the spans makes of them can be read off the runs: each run of
two spans or more is counted as a phrase.
-/

namespace TagRank

theorem splitBy_concat {β : Type} {r : β → β → Bool} {xs : List β} {parts : List (List β)}
    {part : List β} (h : xs.splitBy r = parts ++ [part]) {x : β} (hx : x ∈ part.getLast?) (y : β) :
    (xs ++ [y]).splitBy r = if r x y then parts ++ [part ++ [y]] else parts ++ [part] ++ [[y]] := by
  obtain ⟨hxs, hne, hchains, hbreaks⟩ := List.splitBy_eq_iff.1 h
  simp only [List.mem_append, List.mem_singleton, not_or] at hne
  have hlast : xs.getLast? = some x := by
    rw [hxs, List.flatten_concat, List.getLast?_append, hx]
    rfl
  split
  · rename_i hr
    obtain ⟨hparts, -, hjoin⟩ := List.isChain_append.1 hbreaks
    refine List.splitBy_eq_iff.2 ⟨by simp [hxs], by simp [hne.1], ?_, ?_⟩
    · intro m hm
      rcases List.mem_append.1 hm with hm | hm
      · exact hchains m (List.mem_append_left _ hm)
      · rw [List.mem_singleton.1 hm]
        refine List.isChain_append.2 ⟨hchains part (by simp), by simp, fun x' hx' y' hy' => ?_⟩
        obtain rfl : x = x' := Option.some.inj (hx.symm.trans hx')
        obtain rfl : y = y' := by simpa using hy'
        exact hr
    · refine List.isChain_append.2 ⟨hparts, by simp, fun a ha b hb => ?_⟩
      obtain rfl : part ++ [y] = b := by simpa using hb
      obtain ⟨hane, hpart, hbreak⟩ := hjoin a ha part (by simp)
      refine ⟨hane, by simp, ?_⟩
      rwa [List.head_append_of_ne_nil hpart]
  · rename_i hr
    rw [List.splitBy_append, h]
    · rfl
    · intro x' hx' y' hy'
      obtain rfl : x = x' := Option.some.inj (hlast.symm.trans hx')
      obtain rfl : y = y' := by simpa using hy'
      exact eq_false_of_ne_true hr

namespace Aggregation

variable {α : Type}

/-- The second span begins at most one place behind the end of the first one. -/
def isNext (s t : Span α) : Bool := decide (t.start ≤ s.stop + 1)

/-- The language of a phrase is that of its first span. The very first run has none if it begins so
early that it seems to go on with something before it. -/
def languageOf (i : Nat) : List (Span α) → String
  | [] => ""
  | s :: _ => if i = 0 ∧ s.start ≤ -999 then "" else Key.language s.tag

def phraseKeys (runs : List (List (Span α))) : List String :=
  (runs.zipIdx.filter fun r => decide (1 < r.1.length)).map fun (run, i) =>
    Key.ofWords (run.map fun s => Key.value s.tag) (languageOf i run)

def ended : Trailing → List (List (Span α)) → List (List (Span α))
  | .flush, runs => runs
  | .drop, runs => runs.dropLast

def tally (keys : List String) : List (String × Nat) :=
  keys.eraseDups.map fun key => (key, keys.count key)

/-- The phrases are the runs, and the best tags among the spans that are kept come after them. -/
def ofRuns [Scalar α] (f : Filter) (trailing : Trailing) (limit : Int) (spans : List (Span α)) :
    Aggregation :=
  let keys := phraseKeys (ended trailing ((kept f spans).splitBy isNext))
  let phrases := keys.eraseDups
  let scores := Assoc.ofList ((kept f spans).map fun s => (s.tag, s.score))
  let singles := ((Scores.descending scores).take limit.toNat).map Prod.fst
  { counts := (phrases ++ singles.filter (· ∉ phrases)).map fun key =>
      (key, if key ∈ singles then 1 else keys.count key)
    filtered := f.enabled
    phrases
    singles }

theorem keys_tally (keys : List String) : Assoc.keys (tally keys) = keys.eraseDups :=
  Assoc.keys_map _ _

theorem getD_tally (key : String) (keys : List String) :
    Assoc.getD key 0 (tally keys) = keys.count key := by
  rw [Assoc.getD, tally, Assoc.get?_map]
  split
  · rfl
  · rename_i h
    exact (List.count_eq_zero_of_not_mem fun hk => h (List.mem_eraseDups.2 hk)).symm

theorem tally_concat (keys : List String) (key : String) :
    tally (keys ++ [key]) = Assoc.insert key (Assoc.getD key 0 (tally keys) + 1) (tally keys) := by
  rw [getD_tally, tally, eraseDups_concat]
  by_cases h : key ∈ keys
  · have hkey : key ∈ Assoc.keys (tally keys) := (keys_tally keys).symm ▸ List.mem_eraseDups.2 h
    have hdistinct : (Assoc.keys (tally keys)).Nodup :=
      (keys_tally keys).symm ▸ nodup_eraseDups keys
    rw [if_pos h, Assoc.insert_of_mem hdistinct hkey, tally, List.map_map]
    refine List.map_congr_left fun k _ => ?_
    rw [count_concat]
    by_cases hk : k = key
    · simp [hk]
    · simp [hk]
  · have hkey : key ∉ Assoc.keys (tally keys) :=
      (keys_tally keys).symm ▸ fun hk => h (List.mem_eraseDups.1 hk)
    rw [if_neg h, Assoc.insert_of_not_mem hkey, List.map_append, tally]
    refine congrArg₂ _ (List.map_congr_left fun k hk => ?_) ?_
    · have hne : k ≠ key := fun he => h (he ▸ List.mem_eraseDups.1 hk)
      rw [count_concat, if_neg hne, Nat.add_zero]
    · rw [List.map_singleton, count_concat, if_pos rfl]

theorem phraseKeys_concat (runs : List (List (Span α))) (run : List (Span α)) :
    phraseKeys (runs ++ [run]) = phraseKeys runs ++
      if 1 < run.length then
        [Key.ofWords (run.map fun s => Key.value s.tag) (languageOf runs.length run)]
      else [] := by
  simp only [phraseKeys]
  rw [List.zipIdx_append, List.filter_append, List.map_append]
  by_cases h : 1 < run.length
  · simp [h]
  · simp [h]

theorem languageOf_concat (i : Nat) {run : List (Span α)} (h : run ≠ []) (s : Span α) :
    languageOf i (run ++ [s]) = languageOf i run := by
  cases run with
  | nil => exact absurd rfl h
  | cons t run => rfl

theorem count_separator_of_mem {runs : List (List (Span α))} {key : String}
    (h : key ∈ phraseKeys runs) : key.toList.count '_' = 1 := by
  obtain ⟨⟨run, i⟩, -, rfl⟩ := List.mem_map.1 h
  refine Key.count_separator_ofWords (List.forall_mem_map.2 fun s _ => Key.value_plain s.tag) ?_
  cases run with
  | nil => exact List.not_mem_nil
  | cons s run =>
    dsimp only [languageOf]
    split
    · exact List.not_mem_nil
    · exact Key.language_plain s.tag

namespace Progress

def advance (p : Progress α) (span : Span α) : Progress α :=
  if span.start - p.previousEnd ≤ maxGap then
    p.take span (p.words ++ [Key.value span.tag]) p.language
  else p.flush.take span [Key.value span.tag] (Key.language span.tag)

theorem step_eq (f : Filter) (p : Progress α) (span : Span α) :
    p.step f span = if f.isStopword (Key.value span.tag) then p else p.advance span := by
  rw [step]
  dsimp only
  split
  · exact (if_pos ‹_›).symm
  · refine Eq.trans ?_ (if_neg ‹_›).symm
    rw [advance]
    split
    · rfl
    · rfl

end Progress

theorem after_eq_foldl (f : Filter) (spans : List (Span α)) :
    after f spans = (kept f spans).foldl Progress.advance .start := by
  rw [after, kept, List.foldl_filter]
  refine List.foldl_ext _ _ _ fun p span _ => ?_
  rw [Progress.step_eq]
  cases f.isStopword (Key.value span.tag) with
  | true => rfl
  | false => rfl

structure Opened (runs : List (List (Span α))) (run : List (Span α)) (p : Progress α) : Prop where
  counts : p.counts = tally (phraseKeys runs)
  phrases : p.phrases = (phraseKeys runs).eraseDups
  words : p.words = run.map fun s => Key.value s.tag
  language : p.language = languageOf runs.length run
  previousEnd : ∀ s ∈ run.getLast?, p.previousEnd = s.stop

structure Closed (runs : List (List (Span α))) (p : Progress α) : Prop where
  counts : p.counts = tally (phraseKeys runs)
  phrases : p.phrases = (phraseKeys runs).eraseDups

variable {runs : List (List (Span α))} {run : List (Span α)} {p : Progress α}

theorem Opened.flush (h : Opened runs run p) : Closed (runs ++ [run]) p.flush := by
  have hkeys : Assoc.keys p.counts = p.phrases := by rw [h.counts, h.phrases, keys_tally]
  simp only [Progress.flush]
  have hlength : p.words.length = run.length := by rw [h.words, List.length_map]
  split
  · rename_i hw
    have hrun := phraseKeys_concat runs run
    rw [if_pos (hlength ▸ hw)] at hrun
    constructor
    · rw [hrun, tally_concat, h.counts, h.words, h.language]
    · simp only [Assoc.contains_iff, hkeys]
      rw [hrun, eraseDups_concat, h.phrases, h.words, h.language]
      simp only [List.mem_eraseDups]
  · rename_i hw
    have hrun := phraseKeys_concat runs run
    rw [if_neg (hlength ▸ hw), List.append_nil] at hrun
    exact ⟨hrun ▸ h.counts, hrun ▸ h.phrases⟩

theorem opened_first (span : Span α) : Opened [] [span] (Progress.start.advance span) := by
  rw [Progress.advance]
  split
  · rename_i hgap
    have hstart : span.start ≤ -999 := by
      simp only [Progress.start, noEnd, maxGap] at hgap
      omega
    exact ⟨rfl, rfl, rfl, by simp [languageOf, hstart]; rfl, by simp [Progress.take]⟩
  · rename_i hgap
    have hstart : ¬span.start ≤ -999 := by
      simp only [Progress.start, noEnd, maxGap] at hgap
      omega
    exact ⟨rfl, rfl, rfl, by simp [languageOf, hstart, Progress.take], by simp [Progress.take]⟩

theorem Opened.continued (h : Opened runs run p) (hne : run ≠ []) (span : Span α) :
    Opened runs (run ++ [span])
      (p.take span (p.words ++ [Key.value span.tag]) p.language) where
  counts := h.counts
  phrases := h.phrases
  words := by simp [Progress.take, h.words]
  language := h.language.trans (languageOf_concat _ hne span).symm
  previousEnd := by simp [Progress.take]

theorem Opened.restarted (h : Opened runs run p) (span : Span α) :
    Opened (runs ++ [run]) [span]
      (p.flush.take span [Key.value span.tag] (Key.language span.tag)) where
  counts := h.flush.counts
  phrases := h.flush.phrases
  words := rfl
  language := by simp [languageOf, Progress.take]
  previousEnd := by simp [Progress.take]

theorem opened_foldl {spans : List (Span α)} (h : spans ≠ []) :
    ∃ runs run, run ≠ [] ∧ spans.splitBy isNext = runs ++ [run] ∧
      Opened runs run (spans.foldl Progress.advance .start) := by
  induction spans using List.reverseRecOn with
  | nil => exact absurd rfl h
  | append_singleton spans span ih =>
    rw [List.foldl_append]
    by_cases hs : spans = []
    · rw [hs]
      exact ⟨[], [span], by simp, rfl, opened_first span⟩
    · obtain ⟨runs, run, hne, hruns, hopened⟩ := ih hs
      have hlast := List.getLast?_eq_some_getLast hne
      have hnext := splitBy_concat hruns hlast span
      have hgap : span.start - (spans.foldl Progress.advance .start).previousEnd ≤ maxGap ↔
          isNext (run.getLast hne) span := by
        rw [hopened.previousEnd _ hlast, isNext, decide_eq_true_iff, maxGap]
        omega
      rw [List.foldl_cons, List.foldl_nil, Progress.advance]
      by_cases hr : isNext (run.getLast hne) span
      · rw [if_pos hr] at hnext
        rw [if_pos (hgap.2 hr)]
        exact ⟨runs, run ++ [span], by simp, hnext, hopened.continued hne span⟩
      · rw [if_neg hr] at hnext
        rw [if_neg (hgap.not.2 hr)]
        exact ⟨runs ++ [run], [span], by simp, hnext, hopened.restarted span⟩

theorem closed_foldl (trailing : Trailing) (spans : List (Span α)) :
    Closed (ended trailing (spans.splitBy isNext))
      (closed trailing (spans.foldl Progress.advance .start)) := by
  by_cases h : spans = []
  · rw [h]
    cases trailing with
    | drop => exact ⟨rfl, rfl⟩
    | flush => exact ⟨rfl, rfl⟩
  · obtain ⟨runs, run, -, hruns, hopened⟩ := opened_foldl h
    rw [hruns]
    cases trailing with
    | drop =>
      rw [ended, List.dropLast_concat]
      exact ⟨hopened.counts, hopened.phrases⟩
    | flush => exact hopened.flush

/-- One pass over the spans makes of them what their runs say, and no phrase has a second separator
in its key. -/
theorem ofSpans_eq_ofRuns [Scalar α] (f : Filter) (trailing : Trailing) (limit : Int)
    (spans : List (Span α)) :
    ofSpans f trailing limit spans = ofRuns f trailing limit spans ∧
      ∀ key ∈ (ofSpans f trailing limit spans).phrases, key.toList.count '_' = 1 := by
  have hclosed := closed_foldl trailing (kept f spans)
  rw [← after_eq_foldl] at hclosed
  have hphrases :
      (ofSpans f trailing limit spans).phrases = (ofRuns f trailing limit spans).phrases :=
    hclosed.phrases
  have hsingles :
      (ofSpans f trailing limit spans).singles = (ofRuns f trailing limit spans).singles :=
    ofSpans_singles f trailing limit spans
  have hcounts :
      (ofSpans f trailing limit spans).counts = (ofRuns f trailing limit spans).counts := by
    have hdistinct : (Assoc.keys (closed trailing (after f spans)).counts).Nodup :=
      nodup_closed (nodup_after f spans)
    rw [ofSpans_counts, countOnce_eq (nodup_singles f trailing limit spans) hdistinct, hsingles,
      hclosed.counts, keys_tally]
    simp only [getD_tally]
    rfl
  refine ⟨?_, fun key hkey => ?_⟩
  · rw [Aggregation.mk.injEq]
    exact ⟨hcounts, rfl, hphrases, hsingles⟩
  · rw [hphrases] at hkey
    exact count_separator_of_mem (List.mem_eraseDups.1 hkey)

example :
    let spans : List (Span Rat) := [⟨"big_en", -1000, -997, 1⟩, ⟨"data_en", -996, -992, 2⟩]
    ofSpans .default .flush 1 spans =
      ⟨[("big data_", 1), ("data_en", 1)], false, ["big data_"], ["data_en"]⟩ := by
  cbv

end Aggregation

end TagRank
