import Mathlib
import TagRank.Proofs.Service.Answer
import TagRank.Proofs.Service.Named
import TagRank.Proofs.Stopword

/-!
What a filter knows for a stopword is neither reported nor stored. A list of words and the tokens of
a document are normalized apart, and meet in the value that the key of a token reads as.
-/

namespace TagRank

open TagRank.Action

namespace Filter

variable {source : Option WordSource} {enabled : Option Bool} {w : String}

theorem words_ofStopwords (h : w ∈ Stopword.parse source) :
    (ofStopwords source enabled).words = Stopword.parse source := by
  rw [ofStopwords_eq, if_neg (List.ne_nil_of_mem h)]

theorem isStopword_ofStopwords (he : (ofStopwords source enabled).enabled = true)
    (hw : w ∈ WordSource.items source) (hn : Stopword.normalize w ≠ "") {value : String}
    (hv : Text.fold value = Stopword.normalize w) :
    (ofStopwords source enabled).isStopword value = true := by
  have hmem : Stopword.normalize w ∈ Stopword.parse source :=
    Stopword.mem_parse.2 ⟨hn, w, hw, rfl⟩
  rw [isStopword, he, hv, words_ofStopwords hmem, Bool.true_and]
  exact List.contains_iff_mem.2 hmem

end Filter

theorem Token.value_key {t : Token} {g : Tag} (hg : t.tag = .ok g) :
    Key.value t.key = Key.stem t.normalized := by
  rw [← Token.key_of_tag hg, Key.value, Tag.split_key, (Tag.make_ok hg).1]

theorem Token.fold_stem (t : Token) :
    Text.fold (Key.stem t.normalized) = Key.stem t.normalized := by
  refine Text.fold_of_subset (s := Text.trim t.text) fun c hc => ?_
  rw [Key.stem, String.toList_ofList] at hc
  exact (List.takeWhile_prefix _).subset hc

namespace Store

variable {policy : Policy} {document key : String} {row : String × Int} {s t u : Store}

/-- What the store holds about a keyword is what it held before. -/
structure Passes (key : String) (s t : Store) : Prop where
  keywords : t.keywords.filter (·.id == key) = s.keywords.filter (·.id == key)
  associations : t.associations.filter (·.keyword == key) =
    s.associations.filter (·.keyword == key)

namespace Passes

theorem refl (key : String) (s : Store) : s.Passes key s := ⟨rfl, rfl⟩

theorem trans (h : s.Passes key t) (k : t.Passes key u) : s.Passes key u :=
  ⟨k.keywords.trans h.keywords, k.associations.trans h.associations⟩

theorem addKeyword {id : String} (h : id ≠ key) (value : String) (s : Store) :
    s.Passes key (s.addKeyword id value).2 := by
  rw [Store.addKeyword]
  split
  · exact .refl key s
  · exact ⟨by simp [h], rfl⟩

end Passes

theorem filter_write {as : List Association} (hn : Association.Numbered as) (h : row.1 ≠ key) :
    (Association.write policy document as row).filter (·.keyword == key) =
      as.filter (·.keyword == key) := by
  have hmore (a : Association) (ha : a.keyword = row.1) :
      (as ++ [a]).filter (·.keyword == key) = as.filter (·.keyword == key) := by
    simp [ha, h]
  cases policy with
  | create => exact hmore _ rfl
  | upsert =>
    rw [Association.write]
    split
    · exact hmore _ rfl
    · rename_i a ha
      have hkeyword : a.keyword = row.1 := by
        have := List.find?_some ha
        simp only [Association.isOf, Bool.and_eq_true, beq_iff_eq] at this
        exact this.1
      -- no other row has the number of the one that is set
      have hsame {b : Association} (hb : b ∈ as) (hid : b.id = a.id) : b.keyword ≠ key := by
        rw [hn.eq_of_id_eq hb (List.mem_of_find?_eq_some ha) hid, hkeyword]
        exact h
      rw [List.filter_map]
      have hfilter : as.filter ((·.keyword == key) ∘
          fun b => if b.id = a.id then { b with count := row.2 } else b) =
          as.filter (·.keyword == key) :=
        List.filter_congr fun b _ => by
          dsimp only [Function.comp_apply]
          split <;> rfl
      rw [hfilter]
      refine (List.map_congr_left fun b hb => if_neg fun hid => ?_).trans (List.map_id _)
      obtain ⟨hb, hk⟩ := List.mem_filter.1 hb
      exact hsame hb hid (beq_iff_eq.1 hk)

theorem passes_put (hn : s.Numbered) (h : row.1 ≠ key) :
    s.Passes key (s.put policy document row) := by
  refine ⟨(Passes.addKeyword h (Key.value row.1) s).keywords, ?_⟩
  obtain ⟨more, hput, -⟩ := put_eq policy document row s
  rw [hput]
  exact filter_write hn h

theorem passes_putAll {rows : List (String × Int)} (hn : s.Numbered) (h : ∀ row ∈ rows, row.1 ≠ key) :
    s.Passes key (s.putAll policy document rows) := by
  induction rows generalizing s with
  | nil => exact .refl key s
  | cons row rows ih =>
    obtain ⟨hrow, hrows⟩ := List.forall_mem_cons.1 h
    exact (passes_put hn hrow).trans (ih (hn.putAll policy document [row]) hrows)

end Store

def Service.Passes {α : Type} (key : String) (s t : Service α) : Prop :=
  s.store.Numbered → t.store.Numbered ∧ s.store.Passes key t.store

namespace Action

variable {α : Type} {key : String}

theorem passes_of_eq {s t : Service α} (h : t.store = s.store) : Service.Passes key s t :=
  fun hn => by rw [h]; exact ⟨hn, .refl key _⟩

instance : IsPreorder (Service α) (Service.Passes key) where
  refl _ := passes_of_eq rfl
  trans _ _ _ h k hn := ⟨(k (h hn).1).1, (h hn).2.trans (k (h hn).1).2⟩

instance [Scalar α] : Tolerant (Service.Passes (α := α) key) where
  log _ _ := passes_of_eq rfl
  observe _ _ _ _ := passes_of_eq rfl

variable [Scalar α] {f : Filter}

theorem passes_persist (h : f.isStopword (Key.value key) = true) (policy : Policy)
    (document : String) (counts : Counts) :
    Moves (Service.Passes key) (persist (α := α) policy f document counts) := by
  refine moves_persist fun s => ?_
  have ht := transaction_cases (means_persist policy f document counts) s
  generalize perform (transaction _) s = q at ht
  cases ht with
  | @committed o t hm _ =>
    obtain ⟨-, rows, hrows, ht⟩ := Store.persist_ok hm
    have hkeys : ∀ row ∈ rows, row.1 ≠ key := by
      rintro row hrow rfl
      have hkept : (row.1, Except.ok row.2) ∈ Store.kept f counts :=
        hrows ▸ List.mem_map_of_mem hrow
      simpa [h] using (List.mem_filter.1 hkept).2
    intro hn
    rw [ht]
    exact ⟨hn.putAll _ _ _, Store.passes_putAll hn hkeys⟩
  | undone _ hs => exact passes_of_eq hs
  | struck _ hs => exact passes_of_eq hs

theorem passes_evaluate (h : f.isStopword (Key.value key) = true) (p : Pipeline α)
    (document relation field : String) (rounds : Int) (damping : α) :
    Moves (Service.Passes key) (evaluate p f document relation field rounds damping) :=
  moves_evaluate ((keeps_rank _ _ _ _ _ _ _).mono fun _ _ h => passes_of_eq h)
    (fun _ => (keeps_spans _ _).mono fun _ _ h => passes_of_eq h)
    (passes_persist h p.policy document)

theorem isStopword_of_mem_keywords {s t : Service α} {p : Pipeline α}
    {document relation field : String} {rounds : Int} {damping : α} {e : Evaluation α}
    (h : perform (evaluate p f document relation field rounds damping) s = (.ok e, t))
    {c : Candidate} (hc : c ∈ e.keywords) : f.isStopword (Key.value c.key) = false := by
  obtain ⟨_, hmem⟩ := reported_of_mem_keywords h hc
  obtain ⟨hmem, hf⟩ := List.mem_filter.1 hmem
  rw [← Aggregation.display_of_mem_candidates hmem]
  simpa using hf

end Action

variable {α : Type} [Scalar α]

/-- A word of a list, once the list is enabled, keeps every token that reads like it from being
reported or stored as a keyword. Of a token with a separator in it, what stands before that is
read. -/
theorem Service.evaluate_screens (s : Service α) (ms : List (Move α)) (p : Pipeline α)
    (source : Option WordSource) (enabled : Option Bool) (document relation field : String)
    (rounds : Int) (damping : α) :
    let s := moves ms { s with store := .empty }
    let f := Filter.ofStopwords source enabled
    let after := perform (evaluate p f document relation field rounds damping) s
    f.enabled = true → ∀ w ∈ WordSource.items source, Stopword.normalize w ≠ "" →
      ∀ t ∈ s.store.tokensOf document, Key.stem t.normalized = Stopword.normalize w →
        (∀ e, after.1 = .ok e → ∀ c ∈ e.keywords, c.key ≠ t.key) ∧
          s.store.Passes t.key after.2.store := by
  intro s' f after hf w hw hn t ht hword
  have hsound : s'.store.Sound :=
    sound_of_moves (s := { s with store := .empty }) Store.sound_empty ms
  obtain ⟨o, ho, rfl⟩ := List.mem_map.1 ht
  obtain ⟨g, hg, -⟩ := map_eq_ok.1 (hsound.tagged o (List.mem_filter.1 ho).1).2
  have hstop : f.isStopword (Key.value o.token.key) = true := by
    rw [Token.value_key hg]
    exact Filter.isStopword_ofStopwords hf hw hn ((Token.fold_stem _).trans hword)
  refine ⟨fun e he c hc hkey => ?_, ?_⟩
  · have hfree := isStopword_of_mem_keywords (Prod.ext he rfl) hc
    rw [hkey, hstop] at hfree
    cases hfree
  · exact (passes_evaluate hstop p document relation field rounds damping s' hsound.numbered).2

set_option maxRecDepth 4096 in
theorem Service.evaluate_screens_capitalized :
    let s := run [.load "d" [neighbouring "New" "abc"], .build "d" "near" "w", .refuse none]
      (.new Rat)
    let after := perform (evaluate ⟨Kernel.power 1, 2, .create, ⟨[], false⟩, .drop, 2⟩
      (.ofStopwords (some (.line "x, nEw ")) none) "d" "near" "w" 1 0) s
    ∃ e, after.1 = .ok e ∧ e.status = .success ∧ (∀ c ∈ e.keywords, c.key ≠ "new_") ∧
      s.store.Passes "new_" after.2.store := by
  have hready := ready_run (s := .new Rat) (by simp [new]) (by simp [new])
    [.load "d" [neighbouring "New" "abc"], .build "d" "near" "w"]
  obtain ⟨e, t, hend, hstatus⟩ := ends_evaluate_of_known
    (by decide : Label.isValid "near" = true) (by decide : Label.isValid "w" = true) (le_refl 1)
    (le_refl (0 : Rat)) zero_le_one 1 ⟨Kernel.power 1, 2, .create, ⟨[], false⟩, .drop, 2⟩
    (.ofStopwords (some (.line "x, nEw ")) none)
    (by cbv : (run [.load "d" [neighbouring "New" "abc"], .build "d" "near" "w"]
      (.new Rat)).store.hasDocument "d" = true) (by cbv) fun h => absurd h.2 (by decide)
  obtain ⟨u, hu, -, -⟩ := hend _ hready rfl
  obtain ⟨hreported, hstored⟩ := evaluate_screens (.new Rat)
    [.step (.load "d" [neighbouring "New" "abc"]), .step (.build "d" "near" "w"),
      .step (.refuse none)] ⟨Kernel.power 1, 2, .create, ⟨[], false⟩, .drop, 2⟩ (some (.line "x, nEw ")) none
    "d" "near" "w" 1 0 (by decide +kernel) " nEw " (by decide +kernel) (by decide +kernel)
    ⟨"New", ["NN"], 0, 0, 0, 0, ""⟩ (by cbv; exact .head _) (by decide +kernel)
  have hkey : Token.key ⟨"New", ["NN"], 0, 0, 0, 0, ""⟩ = "new_" := by decide +kernel
  rw [hkey] at hreported hstored
  have he := congrArg Prod.fst hu
  exact ⟨e, he, hstatus, hreported e he, hstored⟩

set_option maxRecDepth 4096 in
/-- A word with the separator in it does not keep its own token from becoming a keyword. -/
theorem Service.screens_separator :
    let word : Token := ⟨"A_B", ["NN"], 0, 0, 0, 0, ""⟩
    let f := Filter.ofStopwords (some (.line "A_B")) none
    let s := moves [.step (.load "d" [neighbouring "A_B" "A_B"]), .step (.build "d" "near" "w")]
      (.new Rat)
    let after := perform (evaluate ⟨Kernel.power 1, 2, .create, ⟨[], false⟩, .drop, 2⟩ f "d" "near"
      "w" 1 0) s
    f.enabled = true ∧ word ∈ s.store.tokensOf "d" ∧
      word.normalized = Stopword.normalize "A_B" ∧
      after.1.map Evaluation.keywords = .ok [⟨word.key, "a", 1⟩] ∧
      ⟨word.key, "a"⟩ ∈ after.2.store.keywords := by
  refine ⟨by decide +kernel, by cbv; exact .head _, rfl, by cbv, by cbv; exact .head _⟩

end TagRank
