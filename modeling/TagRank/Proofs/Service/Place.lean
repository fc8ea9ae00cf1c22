import Mathlib.Data.List.Pairwise
import TagRank.Proofs.Service.Load

namespace TagRank

theorem mem_pwFilter {β : Type} {R : β → β → Prop} [DecidableRel R]
    (hR : ∀ {x y z}, R x z → R x y ∨ R y z) {xs : List β} {x : β} :
    x ∈ xs.pwFilter R ↔ ∃ before after, xs = before ++ x :: after ∧ ∀ y ∈ after, R x y := by
  have hkept (x : β) (xs : List β) : (∀ y ∈ xs.pwFilter R, R x y) ↔ ∀ y ∈ xs, R x y :=
    List.forall_mem_pwFilter (R := R) hR x xs
  induction xs with
  | nil => simp
  | cons z xs ih =>
    have hlater : x ∈ xs.pwFilter R →
        ∃ before after, z :: xs = before ++ x :: after ∧ ∀ y ∈ after, R x y := by
      intro hx
      obtain ⟨before, after, rfl, h⟩ := ih.1 hx
      exact ⟨z :: before, after, rfl, h⟩
    constructor
    · intro hx
      by_cases hz : ∀ y ∈ xs.pwFilter R, R z y
      · rw [List.pwFilter_cons_of_pos hz] at hx
        rcases List.mem_cons.1 hx with rfl | hx
        · exact ⟨[], xs, rfl, (hkept _ _).1 hz⟩
        · exact hlater hx
      · rw [List.pwFilter_cons_of_neg hz] at hx
        exact hlater hx
    · rintro ⟨_ | ⟨w, before⟩, after, hxs, h⟩
      · obtain ⟨rfl, rfl⟩ := List.cons.inj hxs
        rw [List.pwFilter_cons_of_pos ((hkept _ _).2 h)]
        exact .head _
      · obtain ⟨rfl, htail⟩ := List.cons.inj hxs
        have hx := ih.2 ⟨before, after, htail, h⟩
        by_cases hz : ∀ y ∈ xs.pwFilter R, R z y
        · rw [List.pwFilter_cons_of_pos hz]
          exact .tail _ hx
        · rwa [List.pwFilter_cons_of_neg hz]

/-- Not at one place of a document. -/
def Token.IsApart (t u : Token) : Prop := t.sentence = u.sentence → t.order ≠ u.order

instance : DecidableRel Token.IsApart := fun t u =>
  inferInstanceAs (Decidable (t.sentence = u.sentence → t.order ≠ u.order))

theorem Token.isApart_or {t u w : Token} (h : t.IsApart w) : t.IsApart u ∨ u.IsApart w := by
  grind [IsApart]

def Sentence.placed (sentences : List Sentence) : List Token :=
  sentences.flatMap fun x => x.tokens.map fun t => { t with sentence := x.index }

theorem Sentence.length_placed (sentences : List Sentence) :
    (placed sentences).length = (sentences.flatMap tokens).length := by
  simp [placed, List.length_flatMap]

namespace Occurrence

variable {document : String}

theorem map_token_ofTagged (document : String) (sentences : List Sentence) :
    (ofTagged document sentences).map token = Sentence.placed sentences := by
  simp [ofTagged, Sentence.placed, List.map_flatMap, Function.comp_def]

theorem isSamePlace_iff {o p : Occurrence} (h : o.document = p.document) :
    ¬o.isSamePlace p ↔ o.token.IsApart p.token := by
  simp [isSamePlace, h, Token.IsApart]

theorem map_token_placeAll {rows os : List Occurrence}
    (h : ∀ o ∈ os ++ rows, o.document = document) :
    (placeAll rows os).map token =
      ((os.map token).filter fun t => (rows.map token).all fun u => t.IsApart u) ++
        (rows.map token).pwFilter Token.IsApart := by
  induction rows generalizing os with
  | nil => simp [placeAll]
  | cons o rows ih =>
    have hplace : (place os o).map token =
        ((os.map token).filter fun t => t.IsApart o.token) ++ [o.token] := by
      rw [place, List.map_append, List.filter_map]
      refine congrArg (List.map token · ++ _) (List.filter_congr fun p hp => ?_)
      have hdocument : p.document = o.document :=
        (h p (List.mem_append_left _ hp)).trans (h o (List.mem_append_right _ (.head _))).symm
      change (!p.isSamePlace o) = decide (p.token.IsApart o.token)
      rw [Bool.eq_iff_iff, decide_eq_true_iff, ← isSamePlace_iff hdocument]
      simp
    have hrest : ∀ p ∈ place os o ++ rows, p.document = document := by
      intro p hp
      refine h p ?_
      simp only [place, List.mem_append, List.mem_filter, List.mem_singleton] at hp
      simp only [List.mem_append, List.mem_cons]
      tauto
    have hkept : (∀ u ∈ (rows.map token).pwFilter Token.IsApart, o.token.IsApart u) ↔
        ∀ u ∈ rows.map token, o.token.IsApart u :=
      List.forall_mem_pwFilter (R := Token.IsApart) Token.isApart_or _ _
    have hall : placeAll (o :: rows) os = placeAll rows (place os o) := rfl
    -- the new occurrence stands between those that stay and the later ones, unless one of these
    -- takes its place as well
    rw [hall, ih hrest, hplace, List.filter_append, List.filter_filter, List.append_assoc]
    congr 1
    · refine List.filter_congr fun t _ => ?_
      simp [Bool.and_comm]
    · by_cases ho : ∀ u ∈ rows.map token, o.token.IsApart u
      · rw [List.map_cons, List.pwFilter_cons_of_pos (hkept.2 ho),
          List.filter_cons_of_pos (by simpa using ho)]
        rfl
      · rw [List.map_cons, List.pwFilter_cons_of_neg (mt hkept.1 ho),
          List.filter_cons_of_neg (by simpa using ho)]
        rfl

end Occurrence

theorem Store.tokensOf_loaded_eq (document : String) (sentences : List Sentence) (s : Store) :
    (s.loaded document (Occurrence.ofTagged document sentences)).tokensOf document =
      (Sentence.placed sentences).pwFilter Token.IsApart := by
  have hdocument : ∀ o ∈ [] ++ Occurrence.ofTagged document sentences, o.document = document := by
    intro o ho
    obtain ⟨x, -, t, -, rfl⟩ := Occurrence.mem_ofTagged.1 ho
    rfl
  rw [tokensOf_loaded, Occurrence.map_token_placeAll hdocument, Occurrence.map_token_ofTagged]
  rfl

namespace Action

variable {α : Type}

/-- A document holds the given tokens, but for those at whose place a later one stands. If there are
none of these, all are held and counted. A load of no sentences leaves the tokens that there are. -/
theorem loadDocument_keeps (document : String) (sentences : List Sentence) (s : Service α) {n : Nat}
    (h : (perform (loadDocument document sentences) s).1 = .ok n) :
    let given := Sentence.placed sentences
    let held := (perform (loadDocument document sentences) s).2.store.tokensOf document
    (sentences = [] → n = 0 ∧ held = s.store.tokensOf document) ∧
    (sentences ≠ [] → held = given.pwFilter Token.IsApart ∧
      (∀ t, t ∈ held ↔
        ∃ before after, given = before ++ t :: after ∧ ∀ u ∈ after, t.IsApart u) ∧
      (given.Pairwise Token.IsApart → held = given ∧ n = held.length)) := by
  intro given held
  have hload := loadDocument_cases document sentences s
  simp only [held]
  generalize perform (loadDocument document sentences) s = p at h hload
  cases hload with
  | undone => cases h
  | struck => cases h
  | @committed m t hm _ =>
    cases h
    refine ⟨?empty, fun hne => ?given⟩
    case empty =>
      rintro rfl
      obtain ⟨rfl, ht⟩ := Prod.mk.inj (Except.ok.inj hm)
      refine ⟨rfl, ?_⟩
      dsimp only
      rw [← ht, Store.tokensOf, Store.addDocument_occurrences, Store.tokensOf]
    case given =>
      obtain ⟨hn, ht⟩ := Store.eq_loaded_of_load hne hm
      have hheld : t.store.tokensOf document = given.pwFilter Token.IsApart :=
        ht ▸ Store.tokensOf_loaded_eq document sentences s.store
      refine ⟨hheld, fun u => hheld ▸ mem_pwFilter (R := Token.IsApart) Token.isApart_or,
        fun hapart => ?_⟩
      have hall := hheld.trans (List.pwFilter_eq_self.2 hapart)
      refine ⟨hall, hn.trans ?_⟩
      rw [hall]
      exact (Sentence.length_placed sentences).symm

/-- The second of two tokens at one place is held, but both are counted. A load of no sentences
counts none, though that token is still there. -/
theorem loadDocument_drops :
    let token (text : String) : Token := ⟨text, ["NN"], 0, 4, 0, 0, "en"⟩
    let p := perform (loadDocument "d" [⟨0, [token "tree", token "leaf"]⟩]) (.new Rat)
    let q := perform (loadDocument "d" []) p.2
    p.1 = .ok 2 ∧ p.2.store.tokensOf "d" = [token "leaf"] ∧
      q.1 = .ok 0 ∧ q.2.store.tokensOf "d" = [token "leaf"] := by
  cbv

set_option maxRecDepth 4096 in
theorem loadDocument_keeps_apart :
    let token (text : String) (order : Int) : Token := ⟨text, ["NN"], 0, 4, 0, order, "en"⟩
    let sentences : List Sentence := [⟨1, [token "tree" 0, token "leaf" 1]⟩, ⟨0, [token "tree" 0]⟩]
    let p := perform (loadDocument "d" sentences) (.new Rat)
    p.1 = .ok 3 ∧ p.2.store.tokensOf "d" = Sentence.placed sentences := by
  intro token sentences p
  have hp : p.1 = .ok 3 := by
    simp only [p, sentences, token]
    cbv
  have hapart : (Sentence.placed sentences).Pairwise Token.IsApart := by decide
  obtain ⟨-, -, hall⟩ := (loadDocument_keeps "d" sentences (.new Rat) hp).2 (List.cons_ne_nil _ _)
  refine ⟨hp, ?_⟩
  simp only [p]
  exact (hall hapart).1

end Action

end TagRank
