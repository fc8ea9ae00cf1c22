import Mathlib.Data.List.Induction
import TagRank.Aggregation.Basic
import TagRank.Proofs.Assoc

namespace TagRank.Aggregation

variable {α : Type} {f : Filter} {p q : Progress α} {span : Span α} {spans : List (Span α)}

namespace Progress

def take (span : Span α) (words : List String) (language : String) (p : Progress α) : Progress α :=
  { p with
    words, language
    previousEnd := span.stop
    scores := Assoc.insert span.tag span.score p.scores }

inductive Stepped (f : Filter) (p : Progress α) (span : Span α) : Progress α → Prop
  | skipped : f.isStopword (Key.value span.tag) = true → Stepped f p span p
  | continued : f.isStopword (Key.value span.tag) = false → span.start - p.previousEnd ≤ maxGap →
      Stepped f p span (p.take span (p.words ++ [Key.value span.tag]) p.language)
  | restarted : f.isStopword (Key.value span.tag) = false →
      Stepped f p span (p.flush.take span [Key.value span.tag] (Key.language span.tag))

theorem scores_flush (p : Progress α) : p.flush.scores = p.scores := by
  simp only [flush]
  split <;> rfl

theorem stepped (f : Filter) (p : Progress α) (span : Span α) :
    Stepped f p span (p.step f span) := by
  rw [step]
  dsimp only
  split
  · exact .skipped ‹_›
  · rename_i hf
    have hf : f.isStopword (Key.value span.tag) = false := eq_false_of_ne_true hf
    split
    · exact .continued hf ‹_›
    · exact .restarted hf

end Progress

def kept (f : Filter) (spans : List (Span α)) : List (Span α) :=
  spans.filter fun span => !f.isStopword (Key.value span.tag)

theorem mem_kept {s : Span α} :
    s ∈ kept f spans ↔ s ∈ spans ∧ f.isStopword (Key.value s.tag) = false := by
  simp [kept]

def after (f : Filter) (spans : List (Span α)) : Progress α :=
  spans.foldl (Progress.step f) .start

theorem after_concat (f : Filter) (spans : List (Span α)) (span : Span α) :
    after f (spans ++ [span]) = (after f spans).step f span := by
  simp [after]

theorem scores_after (f : Filter) (spans : List (Span α)) :
    (after f spans).scores = Assoc.ofList ((kept f spans).map fun s => (s.tag, s.score)) := by
  induction spans using List.reverseRecOn with
  | nil => rfl
  | append_singleton spans span ih =>
    -- spans are taken from the left, so the last one makes the last step
    have h := Progress.stepped f (after f spans) span
    rw [after_concat, kept, List.filter_append, ← kept]
    generalize (after f spans).step f span = q at h
    cases h with
    | skipped hf => simp [ih, hf]
    | continued hf => simp [ih, hf, Progress.take, Assoc.ofList]
    | restarted hf => simp [ih, hf, Progress.take, Progress.scores_flush, Assoc.ofList]

theorem keys_flush (h : Assoc.keys p.counts = p.phrases) :
    Assoc.keys p.flush.counts = p.flush.phrases := by
  simp only [Progress.flush]
  split
  · simp only [Assoc.keys_insert, Assoc.contains_iff, h]
  · exact h

theorem keys_after (f : Filter) (spans : List (Span α)) :
    Assoc.keys (after f spans).counts = (after f spans).phrases := by
  induction spans using List.reverseRecOn with
  | nil => rfl
  | append_singleton spans span ih =>
    have h := Progress.stepped f (after f spans) span
    rw [after_concat]
    generalize (after f spans).step f span = q at h
    cases h with
    | skipped => exact ih
    | continued => exact ih
    | restarted => exact keys_flush ih

theorem nodup_flush (h : (Assoc.keys p.counts).Nodup) : (Assoc.keys p.flush.counts).Nodup := by
  simp only [Progress.flush]
  split
  · exact Assoc.nodup_insert h _ _
  · exact h

theorem nodup_after (f : Filter) (spans : List (Span α)) :
    (Assoc.keys (after f spans).counts).Nodup := by
  induction spans using List.reverseRecOn with
  | nil => exact List.nodup_nil
  | append_singleton spans span ih =>
    have h := Progress.stepped f (after f spans) span
    rw [after_concat]
    generalize (after f spans).step f span = q at h
    cases h with
    | skipped => exact ih
    | continued => exact ih
    | restarted => exact nodup_flush ih

/-- A phrase is made of the values of two spans or more, and has the language of one of them. The
exception is a first span that starts where no text is: it continues a phrase that nothing began. -/
structure IsPhrase (f : Filter) (spans : List (Span α)) (words : List String) (language : String) :
    Prop where
  words : ∀ w ∈ words, ∃ s ∈ kept f spans, Key.value s.tag = w
  language : (∃ s ∈ kept f spans, Key.language s.tag = language) ∨
    language = "" ∧ ∃ s ∈ kept f spans, s.start - noEnd ≤ maxGap

theorem IsPhrase.mono {spans' : List (Span α)} (hs : kept f spans ⊆ kept f spans')
    {words : List String} {language : String} (h : IsPhrase f spans words language) :
    IsPhrase f spans' words language where
  words w hw := (h.words w hw).imp fun _ hs' => ⟨hs hs'.1, hs'.2⟩
  language := h.language.imp (fun ⟨s, h, hl⟩ => ⟨s, hs h, hl⟩)
    fun ⟨hl, s, h, hg⟩ => ⟨hl, s, hs h, hg⟩

structure Phrased (f : Filter) (spans : List (Span α)) (p : Progress α) : Prop where
  phrases : ∀ key ∈ p.phrases, ∃ words language, key = Key.ofWords words language ∧
    1 < words.length ∧ IsPhrase f spans words language
  opened : p.words = [] ∧ p.language = "" ∧ p.previousEnd = noEnd ∨
    IsPhrase f spans p.words p.language

theorem Phrased.flush (h : Phrased f spans p) : Phrased f spans p.flush := by
  simp only [Progress.flush]
  split
  · rename_i hw
    have ho : IsPhrase f spans p.words p.language := by
      refine h.opened.resolve_left fun hn => ?_
      simp [hn.1] at hw
    refine ⟨fun key hk => ?_, h.opened⟩
    dsimp only at hk
    split at hk
    · exact h.phrases key hk
    · rcases List.mem_append.1 hk with hk | hk
      · exact h.phrases key hk
      · exact ⟨_, _, List.mem_singleton.1 hk, hw, ho⟩
  · exact h

theorem Phrased.mono {spans' : List (Span α)} (hs : kept f spans ⊆ kept f spans')
    (h : Phrased f spans p) : Phrased f spans' p where
  phrases key hk := (h.phrases key hk).imp fun _ => .imp fun _ h => ⟨h.1, h.2.1, h.2.2.mono hs⟩
  opened := h.opened.imp id (·.mono hs)

theorem Phrased.step (h : Phrased f spans p) (span : Span α) :
    Phrased f (spans ++ [span]) (p.step f span) := by
  have hsub : kept f spans ⊆ kept f (spans ++ [span]) := by simp [kept]
  have hst := Progress.stepped f p span
  generalize p.step f span = q at hst
  cases hst with
  | skipped => exact h.mono hsub
  | continued hf hg =>
    have hk : span ∈ kept f (spans ++ [span]) := mem_kept.2 ⟨by simp, hf⟩
    refine ⟨(h.mono hsub).phrases, .inr ⟨fun w hw => ?_, ?_⟩⟩
    · rcases List.mem_append.1 hw with hw | hw
      · rcases (h.mono hsub).opened with hn | ho
        · simp [hn.1] at hw
        · exact ho.words w hw
      · exact ⟨span, hk, (List.mem_singleton.1 hw).symm⟩
    · rcases (h.mono hsub).opened with hn | ho
      · exact .inr ⟨hn.2.1, span, hk, hn.2.2 ▸ hg⟩
      · exact ho.language
  | restarted hf =>
    have hk : span ∈ kept f (spans ++ [span]) := mem_kept.2 ⟨by simp, hf⟩
    refine ⟨(h.mono hsub).flush.phrases, .inr ⟨fun w hw => ?_, .inl ⟨span, hk, rfl⟩⟩⟩
    exact ⟨span, hk, (List.mem_singleton.1 hw).symm⟩

theorem phrased_after (f : Filter) (spans : List (Span α)) : Phrased f spans (after f spans) := by
  induction spans using List.reverseRecOn with
  | nil => exact ⟨by simp [after, Progress.start], .inl ⟨rfl, rfl, rfl⟩⟩
  | append_singleton spans span ih =>
    rw [after_concat]
    exact ih.step span

def Counted (n : Nat) (counts : List (String × Nat)) : Prop :=
  counts.length ≤ n ∧ ∀ c ∈ counts, c.2 ≤ n

theorem Counted.count {n : Nat} {counts : List (String × Nat)} (h : Counted n counts)
    (key : String) : Counted (n + 1) (Assoc.insert key (Assoc.getD key 0 counts + 1) counts) := by
  have hold : Assoc.getD key 0 counts ≤ n := by
    cases hg : Assoc.get? key counts with
    | none => simp [Assoc.getD, hg]
    | some m => simpa [Assoc.getD, hg] using h.2 _ (Assoc.mem_of_get? hg)
  refine ⟨Nat.le_trans (Assoc.length_insert_le _ _ _) (Nat.succ_le_succ h.1), fun c hc => ?_⟩
  rcases Assoc.mem_insert hc with rfl | hc
  · exact Nat.succ_le_succ hold
  · exact Nat.le_succ_of_le (h.2 c hc)

structure Paced (n : Nat) (p : Progress α) : Prop where
  counts : ∃ m, Counted m p.counts ∧ m + (p.words.length - 1) ≤ n
  scores : p.scores.length ≤ n

theorem Paced.flush {n : Nat} (h : Paced n p) : ∃ m, Counted m p.flush.counts ∧ m ≤ n := by
  obtain ⟨m, hm, hn⟩ := h.counts
  simp only [Progress.flush]
  split
  · exact ⟨m + 1, hm.count _, by omega⟩
  · exact ⟨m, hm, by omega⟩

theorem Paced.step {n : Nat} (h : Paced n p) (f : Filter) (span : Span α) :
    Paced (n + 1) (p.step f span) := by
  have hst := Progress.stepped f p span
  have hscores : (Assoc.insert span.tag span.score p.scores).length ≤ n + 1 :=
    Nat.le_trans (Assoc.length_insert_le _ _ _) (Nat.succ_le_succ h.scores)
  generalize p.step f span = q at hst
  cases hst with
  | skipped =>
    obtain ⟨m, hm, hn⟩ := h.counts
    exact ⟨⟨m, hm, Nat.le_succ_of_le hn⟩, Nat.le_succ_of_le h.scores⟩
  | continued =>
    obtain ⟨m, hm, hn⟩ := h.counts
    refine ⟨⟨m, hm, ?_⟩, hscores⟩
    simp only [Progress.take, List.length_append, List.length_singleton]
    omega
  | restarted =>
    obtain ⟨m, hm, hn⟩ := h.flush
    refine ⟨⟨m, hm, by simpa [Progress.take] using Nat.le_succ_of_le hn⟩, ?_⟩
    simpa only [Progress.take, Progress.scores_flush] using hscores

theorem paced_after (f : Filter) (spans : List (Span α)) : Paced spans.length (after f spans) := by
  induction spans using List.reverseRecOn with
  | nil => exact ⟨⟨0, ⟨Nat.le_refl 0, by simp [after, Progress.start]⟩, Nat.le_refl 0⟩, Nat.le_refl 0⟩
  | append_singleton spans span ih =>
    rw [after_concat, List.length_append]
    exact ih.step f span

end TagRank.Aggregation
