import Mathlib
import TagRank.Proofs.Key
import TagRank.Proofs.Service.Report
import TagRank.Proofs.Service.Ranking
import TagRank.Proofs.Store.Held

namespace TagRank

open TagRank.Action

namespace Store

variable {s t : Store}

/-- Keywords have the values that their keys read as. -/
def Named (s : Store) : Prop := ∀ k ∈ s.keywords, k.value = Key.value k.id

theorem named_empty : empty.Named := by simp [Named, empty]

theorem Named.eq_of_id (h : s.Named) {k : Keyword} (hk : k ∈ s.keywords) {key : String}
    (hid : k.id = key) : k = ⟨key, Key.value key⟩ := by
  subst hid
  rw [← h k hk]

theorem Named.congr (h : s.Named) (hk : t.keywords = s.keywords) : t.Named := by
  rwa [Named, hk]

theorem mem_keywords_put {policy : Policy} {document : String} {row : String × Int} {k : Keyword}
    (h : k ∈ (s.put policy document row).keywords) :
    k ∈ s.keywords ∨ k = ⟨row.1, Key.value row.1⟩ := by
  simp only [put, addKeyword] at h
  split at h
  · exact .inl h
  · exact (List.mem_append.1 h).imp id List.mem_singleton.1

theorem mem_keywords_putAll {policy : Policy} {document : String} {rows : List (String × Int)}
    {k : Keyword} (h : k ∈ (s.putAll policy document rows).keywords) :
    k ∈ s.keywords ∨ ∃ row ∈ rows, k = ⟨row.1, Key.value row.1⟩ := by
  induction rows generalizing s with
  | nil => exact .inl h
  | cons row rows ih =>
    rcases ih h with h | ⟨r, hr, hk⟩
    · exact (mem_keywords_put h).imp id fun hk => ⟨row, .head _, hk⟩
    · exact .inr ⟨r, .tail _ hr, hk⟩

theorem Named.putAll (h : s.Named) (policy : Policy) (document : String)
    (rows : List (String × Int)) : (s.putAll policy document rows).Named := by
  intro k hk
  rcases mem_keywords_putAll hk with hk | ⟨row, _, rfl⟩
  · exact h k hk
  · rfl

theorem keywords_of_load {document : String} {sentences : List Sentence} {n : Nat}
    (h : s.load document sentences = .ok (n, t)) : t.keywords = s.keywords := by
  rcases load_ok h with ⟨-, rfl⟩ | ⟨-, rows, -, rfl⟩
  · exact s.addDocument_keywords document
  · exact s.addDocument_keywords document

theorem Follows.named {es : List Event} (h : s.Follows es t) (hs : s.Named) : t.Named := by
  induction h with
  | same s => exact hs
  | load hl => exact hs.congr (keywords_of_load hl)
  | build => exact hs.congr rfl
  | clear => exact hs.congr rfl
  | put s policy document rows => exact hs.putAll policy document rows
  | append _ _ ih ih' => exact ih' (ih hs)

end Store

/-- How the key of a keyword reads: its value is no text only if a token of that key begins with the
separator, and its language is that of a token, unless a token starts where no text is. -/
structure Candidate.NamedAfter (tokens : List Token) (c : Candidate) : Prop where
  value : (∃ g, Tag.ofKey c.key = .ok g ∧ g.value = c.display) ∨
    Tag.ofKey c.key = .error .emptyTag ∧ c.display = "" ∧
      ∃ t ∈ tokens, t.key = c.key ∧ t.normalized.toList.head? = some '_'
  language : (∃ t ∈ tokens, Key.language c.key = t.language) ∨
    Key.language c.key = "" ∧ ∃ t ∈ tokens, t.start - Aggregation.noEnd ≤ Aggregation.maxGap

variable {α : Type} [Scalar α]

namespace Store.Sound

variable {s : Store} {document : String} {ranked : List (RankedNode α)} {f : Filter}
  {trailing : Trailing} {limit : Int}

theorem token_of_mem_spansOf (h : s.Sound) {span : Span α} (hs : span ∈ s.spansOf document ranked) :
    ∃ t ∈ s.tokensOf document, ∃ g, t.tag = .ok g ∧ span.tag = g.key ∧ span.start = t.start := by
  obtain ⟨o, ho, rfl⟩ := List.mem_map.1 hs
  obtain ⟨ho, hd⟩ := List.mem_filter.1 (List.mem_mergeSort.1 ho)
  obtain ⟨g, hg, hk⟩ := map_eq_ok.1 (h.tagged o ho).2
  simp only [Bool.and_eq_true] at hd
  exact ⟨o.token, List.mem_map_of_mem (List.mem_filter.2 ⟨ho, hd.1⟩), g, hg, hk.symm, rfl⟩

theorem language_plain (h : s.Sound) {words : List String} {language : String}
    (hp : Aggregation.IsPhrase f (s.spansOf document ranked) words language) :
    '_' ∉ language.toList := by
  rcases hp.language with ⟨span, hs, rfl⟩ | ⟨rfl, -⟩
  · obtain ⟨t, -, g, -, hk, -⟩ := h.token_of_mem_spansOf (Aggregation.mem_kept.1 hs).1
    rw [hk, Key.language, Tag.split_key]
    exact g.language_plain
  · simp

theorem split_phrase (h : s.Sound) {words : List String} {language : String}
    (hp : Aggregation.IsPhrase f (s.spansOf document ranked) words language) :
    Key.split (Key.ofWords words language) = (Text.join " " words, language) := by
  refine Key.split_ofWords (fun w hw => ?_) (h.language_plain hp)
  obtain ⟨span, hs, rfl⟩ := hp.words w hw
  obtain ⟨t, -, g, -, hk, -⟩ := h.token_of_mem_spansOf (Aggregation.mem_kept.1 hs).1
  rw [hk, Key.value, Tag.split_key]
  exact Key.not_mem_stem _

theorem namedAfter_phrase (h : s.Sound) {words : List String} {language : String}
    (hlen : 1 < words.length)
    (hp : Aggregation.IsPhrase f (s.spansOf document ranked) words language) (n : Nat) :
    Candidate.NamedAfter (s.tokensOf document)
      ⟨Key.ofWords words language, Key.value (Key.ofWords words language), n⟩ := by
  have hsplit := h.split_phrase hp
  have hlanguage : Key.language (Key.ofWords words language) = language := congrArg Prod.snd hsplit
  refine ⟨.inl ?_, ?_⟩
  · obtain ⟨g, hg, hv, -⟩ := Tag.ofKey_of_split hsplit (Text.join_ne_empty (by decide) hlen)
      (h.language_plain hp)
    exact ⟨g, hg, hv.trans (congrArg Prod.fst hsplit).symm⟩
  · dsimp only
    rw [hlanguage]
    rcases hp.language with ⟨span, hs, rfl⟩ | ⟨rfl, span, hs, hgap⟩
    · obtain ⟨t, ht, g, hg, hk, -⟩ := h.token_of_mem_spansOf (Aggregation.mem_kept.1 hs).1
      rw [hk, Key.language, Tag.split_key]
      exact .inl ⟨t, ht, (Tag.make_ok hg).2⟩
    · obtain ⟨t, ht, g, -, -, hstart⟩ := h.token_of_mem_spansOf (Aggregation.mem_kept.1 hs).1
      exact .inr ⟨rfl, t, ht, hstart ▸ hgap⟩

theorem namedAfter_tag (h : s.Sound) {span : Span α} (hs : span ∈ s.spansOf document ranked)
    (n : Nat) :
    Candidate.NamedAfter (s.tokensOf document) ⟨span.tag, Key.value span.tag, n⟩ := by
  obtain ⟨t, ht, g, hg, hk, -⟩ := h.token_of_mem_spansOf hs
  obtain ⟨hvalue, hlanguage⟩ := Tag.make_ok hg
  have hsplit : Key.split span.tag = (Key.stem g.value, g.language) := by rw [hk, g.split_key]
  refine ⟨?_, .inl ⟨t, ht, ?_⟩⟩
  · by_cases hstem : Key.stem g.value = ""
    · refine .inr ⟨?_, (congrArg Prod.fst hsplit).trans hstem, t, ht, ?_, ?_⟩
      · rw [Tag.ofKey, hsplit, Tag.make, dif_pos hstem]
        rfl
      · rw [hk, Token.key_of_tag hg]
      · exact hvalue ▸ (Key.stem_eq_empty.1 hstem).resolve_left g.value_ne
    · obtain ⟨g', hg', hv, -⟩ := Tag.ofKey_of_split hsplit hstem g.language_plain
      exact .inl ⟨g', hg', hv.trans (congrArg Prod.fst hsplit).symm⟩
  · exact (congrArg Prod.snd hsplit).trans hlanguage

theorem namedAfter (h : s.Sound) {c : Candidate}
    (hc : c ∈ (Aggregation.ofSpans f trailing limit (s.spansOf document ranked)).candidates) :
    c.NamedAfter (s.tokensOf document) := by
  obtain ⟨⟨key, n⟩, hm, rfl⟩ := List.mem_map.1 hc
  rcases Aggregation.mem_keys_ofSpans.1 (List.mem_map_of_mem hm) with hp | hs
  · obtain ⟨words, language, rfl, hlen, hp⟩ := Aggregation.phrase_of_mem hp
    exact h.namedAfter_phrase hlen hp n
  · obtain ⟨span, hk, rfl⟩ := Aggregation.kept_of_mem_singles hs
    exact h.namedAfter_tag (Aggregation.mem_kept.1 hk).1 n

end Store.Sound

theorem Aggregation.display_of_mem_candidates {a : Aggregation} {c : Candidate}
    (h : c ∈ a.candidates) : c.display = Key.value c.key := by
  obtain ⟨_, _, rfl⟩ := List.mem_map.1 h
  rfl

theorem Action.reported_of_mem_keywords {s t : Service α} {p : Pipeline α} {f : Filter}
    {document relation field : String} {rounds : Int} {damping : α} {e : Evaluation α}
    (h : perform (evaluate p f document relation field rounds damping) s = (.ok e, t))
    {c : Candidate} (hc : c ∈ e.keywords) :
    ∃ ranked : List (RankedNode α), c ∈ (Aggregation.ofSpans f p.trailing p.wordLimit
      (s.store.spansOf document ranked)).reported f := by
  have he : e.status = .success := by
    have hd := evaluated p f document relation field rounds damping s
    rw [h] at hd
    cases hd with
    | written _ _ hx => exact (hx e rfl).1
    | nothing _ hx => simp [(hx e rfl).2] at hc
  obtain ⟨ranked, u, o, -, rfl, -⟩ := evaluate_ok h (by rw [he]; decide)
  simp only [Evaluation.concluded] at hc
  split at hc
  · exact ⟨ranked, hc⟩
  · cases hc

theorem Action.candidate_of_mem_keywords {s t : Service α} {p : Pipeline α} {f : Filter}
    {document relation field : String} {rounds : Int} {damping : α} {e : Evaluation α}
    (h : perform (evaluate p f document relation field rounds damping) s = (.ok e, t))
    {c : Candidate} (hc : c ∈ e.keywords) :
    ∃ ranked : List (RankedNode α), c ∈ (Aggregation.ofSpans f p.trailing p.wordLimit
      (s.store.spansOf document ranked)).candidates := by
  obtain ⟨ranked, hc⟩ := reported_of_mem_keywords h hc
  exact ⟨ranked, (List.mem_filter.1 hc).1⟩

/-- The keywords of a document are named after its tokens, and stored under the values that their
keys read as. Only a token that begins with the separator of keys makes a keyword without a value. -/
theorem Service.evaluate_names (s : Service α) (xs : List (Step α)) (p : Pipeline α) (f : Filter)
    (document relation field : String) (rounds : Int) (damping : α) {e : Evaluation α}
    {t : Service α} :
    let s := run xs { s with store := .empty }
    perform (evaluate p f document relation field rounds damping) s = (.ok e, t) →
    (∀ c ∈ e.keywords, c.NamedAfter (s.store.tokensOf document) ∧
      ⟨c.key, c.display⟩ ∈ t.store.keywords) ∧
    ∀ k ∈ t.store.keywords, k ∈ s.store.keywords ∨ ∃ c ∈ e.keywords, k = ⟨c.key, c.display⟩ := by
  intro s' h
  have hsound : s'.store.Sound := (Reached.run xs (.start s)).sound
  have hnamed : s'.store.Named :=
    (follows_run xs { s with store := .empty }).named Store.named_empty
  have hformed : ∀ c ∈ e.keywords, c.NamedAfter (s'.store.tokensOf document) ∧
      c.display = Key.value c.key := by
    intro c hc
    obtain ⟨ranked, hc⟩ := candidate_of_mem_keywords h hc
    exact ⟨hsound.namedAfter hc, Aggregation.display_of_mem_candidates hc⟩
  have he := evaluated p f document relation field rounds damping s'
  rw [h] at he
  cases he with
  | written _ ht hx =>
    obtain ⟨-, rfl⟩ := hx e rfl
    have hnamed' : t.store.Named := ht ▸ hnamed.putAll _ _ _
    refine ⟨fun c hc => ⟨(hformed c hc).1, ?_⟩, fun k hk => ?_⟩
    · obtain ⟨more, hmore, hknown⟩ := Store.putAll_eq p.policy document
        (e.keywords.map fun c => (c.key, (c.count : Int))) s'.store
      obtain ⟨k, hk, hid⟩ := hknown _ (List.mem_map_of_mem hc)
      rw [hmore] at ht
      have hk : k ∈ t.store.keywords := by rwa [ht]
      rw [(hformed c hc).2, ← hnamed'.eq_of_id hk hid]
      exact hk
    · rw [ht] at hk
      refine (Store.mem_keywords_putAll hk).imp id fun ⟨row, hrow, hk⟩ => ?_
      obtain ⟨c, hc, rfl⟩ := List.mem_map.1 hrow
      exact ⟨c, hc, by rw [hk, (hformed c hc).2]⟩
  | nothing ht hx => simp [(hx e rfl).2, ht]

set_option maxRecDepth 4096 in
theorem Service.evaluate_names_separator :
    ∃ e t, perform (evaluate ⟨Kernel.power 1, 1, .create, ⟨[], false⟩, .drop, 1⟩ ⟨[], false⟩ "d"
        "near" "weight" 1 0) (run [.load "d" [neighbouring "_ab" "abc"], .build "d" "near" "weight"]
          (.new Rat)) = (.ok e, t) ∧
      e.keywords = [⟨"_ab_", "", 1⟩] ∧ Tag.ofKey "_ab_" = .error .emptyTag ∧
      ⟨"_ab_", ""⟩ ∈ t.store.keywords := by
  have hsome : (perform (evaluate ⟨Kernel.power 1, 1, .create, ⟨[], false⟩, .drop, 1⟩ ⟨[], false⟩
      "d" "near" "weight" 1 0) (run [.load "d" [neighbouring "_ab" "abc"],
        .build "d" "near" "weight"] (.new Rat))).1.map Evaluation.keywords =
      .ok [⟨"_ab_", "", 1⟩] := by cbv
  obtain ⟨e, he, hkeywords⟩ := map_eq_ok.1 hsome
  obtain ⟨hnamed, -⟩ := evaluate_names (.new Rat)
    [.load "d" [neighbouring "_ab" "abc"], .build "d" "near" "weight"] _ _ _ _ _ _ _
    (Prod.ext he rfl)
  have hkeyword := hnamed ⟨"_ab_", "", 1⟩ (by rw [hkeywords]; exact .head _)
  refine ⟨e, _, Prod.ext he rfl, hkeywords, ?_, hkeyword.2⟩
  rcases hkeyword.1.value with ⟨g, -, hg⟩ | ⟨herror, -⟩
  · exact absurd hg g.value_ne
  · exact herror

end TagRank
