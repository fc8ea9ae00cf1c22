import Mathlib.Algebra.GroupWithZero.Nat
import Mathlib.Data.List.Basic
import Mathlib.Data.List.Induction
import TagRank.Proofs.Distinct
import TagRank.Store.Edge

namespace TagRank

def Token.key (t : Token) : String := t.normalized ++ "_" ++ t.language

theorem Tag.key_of_make {value language : String} {g : Tag} (h : make value language = .ok g) :
    g.key = value ++ "_" ++ language := by
  simp only [make] at h
  split at h
  · cases h
  · split at h <;> cases h
    rfl

theorem Token.key_of_tag {t : Token} {g : Tag} (h : t.tag = .ok g) : g.key = t.key :=
  Tag.key_of_make h

def inOrder (a b : String) : String × String := if b < a then (b, a) else (a, b)

namespace Edge

def ofPair (document relation field : String) (weight : Nat) (p : String × String) : Edge :=
  ⟨document, relation, field, p.1, p.2, weight⟩

theorem single_eq_ofPair (document relation field first second : String) :
    single document relation field first second =
      ofPair document relation field 1 (inOrder first second) := by
  simp only [single, inOrder]
  split <;> rfl

/-- The edges of a document under a relation and a weight field, when the pairs of its text have
been counted `k` times. -/
def tally (document relation field : String) (k : Nat) (pairs : List (String × String)) :
    List Edge :=
  if k = 0 then []
  else pairs.eraseDups.map fun p => ofPair document relation field (k * pairs.count p) p

def IsOfPlace (P : Edge → Bool) : Prop :=
  ∀ ⦃e f : Edge⦄, e.document = f.document → e.relation = f.relation → e.field = f.field → P e = P f

theorem filter_add {P : Edge → Bool} (hP : IsOfPlace P) (e : Edge) (es : List Edge) :
    (add e es).filter P = if P e then add e (es.filter P) else es.filter P := by
  induction es with
  | nil => by_cases h : P e <;> simp [add, h]
  | cons f fs ih =>
    by_cases hs : f.isSame e
    · have he : P { f with weight := f.weight + e.weight } = P f := hP rfl rfl rfl
      have hf : P f = P e := by
        simp only [isSame, Bool.and_eq_true, beq_iff_eq] at hs
        exact hP hs.1.1.1.1 hs.1.1.1.2 hs.1.1.2
      by_cases h : P e <;> simp [add, hs, he, hf, h]
    · by_cases hf : P f <;> by_cases h : P e <;> simp [add, hs, hf, h, ih]

section

variable {document relation field : String}

theorem isSame_ofPair {v w : Nat} {p q : String × String} :
    (ofPair document relation field v p).isSame (ofPair document relation field w q) ↔ p = q := by
  simp [isSame, ofPair, Prod.ext_iff]

theorem add_ofPair_of_not_mem (w : String × String → Nat) {q : String × String}
    {ps : List (String × String)} (h : q ∉ ps) :
    add (ofPair document relation field 1 q)
        (ps.map fun p => ofPair document relation field (w p) p) =
      ps.map (fun p => ofPair document relation field (w p) p) ++
        [ofPair document relation field 1 q] := by
  induction ps with
  | nil => rfl
  | cons p ps ih =>
    simp only [List.mem_cons, not_or] at h
    have hp : ¬(ofPair document relation field (w p) p).isSame
        (ofPair document relation field 1 q) := fun hs => h.1 (isSame_ofPair.1 hs).symm
    simp [add, hp, ih h.2]

theorem add_ofPair_of_mem (w : String × String → Nat) {q : String × String}
    {ps : List (String × String)} (h : q ∈ ps) (hd : ps.Nodup) :
    add (ofPair document relation field 1 q)
        (ps.map fun p => ofPair document relation field (w p) p) =
      ps.map fun p => ofPair document relation field (w p + if p = q then 1 else 0) p := by
  induction ps with
  | nil => simp at h
  | cons p ps ih =>
    obtain ⟨hp, hd⟩ := List.nodup_cons.1 hd
    by_cases hq : p = q
    · subst hq
      have hs : (ofPair document relation field (w p) p).isSame
          (ofPair document relation field 1 p) := isSame_ofPair.2 rfl
      have hr : ps.map (fun r => ofPair document relation field (w r) r) =
          ps.map fun r => ofPair document relation field (w r + if r = p then 1 else 0) r := by
        apply List.map_congr_left
        intro r hr
        have : r ≠ p := fun e => hp (e ▸ hr)
        simp [this]
      simp only [List.map_cons, add, hs, if_true, hr]
      rfl
    · have hs : ¬(ofPair document relation field (w p) p).isSame
          (ofPair document relation field 1 q) := fun hs => hq (isSame_ofPair.1 hs)
      have hm : q ∈ ps := (List.mem_cons.1 h).resolve_left (Ne.symm hq)
      simp [add, hs, ih hm hd, hq]

end

variable (document relation field : String)

def addAll (pairs : List (String × String)) (es : List Edge) : List Edge :=
  pairs.foldl (fun es p => add (ofPair document relation field 1 p) es) es

theorem addAll_of_subset (w : String × String → Nat) {ps pairs : List (String × String)}
    (hd : ps.Nodup) (h : ∀ p ∈ pairs, p ∈ ps) :
    addAll document relation field pairs
        (ps.map fun p => ofPair document relation field (w p) p) =
      ps.map fun p => ofPair document relation field (w p + pairs.count p) p := by
  induction pairs generalizing w with
  | nil => rfl
  | cons q pairs ih =>
    obtain ⟨hq, h⟩ := List.forall_mem_cons.1 h
    simp only [addAll] at ih ⊢
    rw [List.foldl_cons, add_ofPair_of_mem w hq hd, ih _ h]
    apply List.map_congr_left
    intro p _
    by_cases hp : p = q
    · subst hp
      rw [if_pos rfl, List.count_cons_self, Nat.add_assoc, Nat.add_comm 1]
    · simp [hp, List.count_cons_of_ne (Ne.symm hp)]

theorem addAll_nil (pairs : List (String × String)) :
    addAll document relation field pairs [] =
      pairs.eraseDups.map fun p => ofPair document relation field (pairs.count p) p := by
  induction pairs using List.reverseRecOn with
  | nil => rfl
  | append_singleton ps q ih =>
    have hq : addAll document relation field (ps ++ [q]) [] =
        add (ofPair document relation field 1 q) (addAll document relation field ps []) := by
      simp [addAll]
    rw [hq, ih, eraseDups_concat]
    by_cases h : q ∈ ps
    · rw [if_pos h, add_ofPair_of_mem _ (List.mem_eraseDups.2 h) (nodup_eraseDups ps)]
      apply List.map_congr_left
      intro p _
      rw [count_concat]
    · rw [if_neg h, add_ofPair_of_not_mem _ (fun hm => h (List.mem_eraseDups.1 hm)),
        List.map_append]
      congr 1
      · apply List.map_congr_left
        intro p hp
        have : p ≠ q := fun e => h (e ▸ List.mem_eraseDups.1 hp)
        rw [count_concat, if_neg this, Nat.add_zero]
      · rw [List.map_singleton, count_concat, List.count_eq_zero_of_not_mem h, if_pos rfl]

theorem addAll_tally (k : Nat) (pairs : List (String × String)) :
    addAll document relation field pairs (tally document relation field k pairs) =
      tally document relation field (k + 1) pairs := by
  simp only [tally]
  by_cases hk : k = 0
  · simp [hk, addAll_nil]
  · rw [if_neg hk, if_neg (Nat.succ_ne_zero k), addAll_of_subset _ _ _ _ (nodup_eraseDups pairs)
      fun p hp => List.mem_eraseDups.2 hp]
    simp [Nat.add_mul]

example :
    let ps := [("a", "b"), ("b", "b"), ("a", "b")]
    addAll "d" "near" "weight" ps (addAll "d" "near" "weight" ps []) =
      [⟨"d", "near", "weight", "a", "b", 4⟩, ⟨"d", "near", "weight", "b", "b", 2⟩] := by
  decide

theorem filter_addAll {P : Edge → Bool} (hP : IsOfPlace P) {b : Bool}
    (h : ∀ p, P (ofPair document relation field 1 p) = b) (pairs : List (String × String))
    (es : List Edge) :
    (addAll document relation field pairs es).filter P =
      if b then addAll document relation field pairs (es.filter P) else es.filter P := by
  induction pairs generalizing es with
  | nil => cases b <;> rfl
  | cons p pairs ih =>
    simp only [addAll] at ih ⊢
    rw [List.foldl_cons, List.foldl_cons, ih, filter_add hP, h p]
    cases b <;> rfl

def weightOf (relation : String) (es : List Edge) : Nat :=
  ((es.filter (·.relation == relation)).map weight).sum

theorem sum_add (e : Edge) (es : List Edge) :
    ((add e es).map weight).sum = (es.map weight).sum + e.weight := by
  induction es with
  | nil => simp [add]
  | cons f es ih =>
    by_cases h : f.isSame e
    · simp [add, h, Nat.add_right_comm]
    · simp [add, h, ih, Nat.add_assoc]

theorem weightOf_add (relation : String) (e : Edge) (es : List Edge) :
    weightOf relation (add e es) =
      weightOf relation es + if e.relation = relation then e.weight else 0 := by
  have hplace : IsOfPlace (·.relation == relation) := fun e f _ h _ => by simp only [h]
  simp only [weightOf]
  rw [filter_add hplace]
  by_cases h : e.relation = relation
  · simp [h, sum_add]
  · simp [h]

theorem weightOf_addAll (relation' : String) (pairs : List (String × String)) (es : List Edge) :
    weightOf relation' (addAll document relation field pairs es) =
      weightOf relation' es + if relation = relation' then pairs.length else 0 := by
  induction pairs generalizing es with
  | nil => simp [addAll]
  | cons p pairs ih =>
    have hadd := weightOf_add relation' (ofPair document relation field 1 p) es
    simp only [addAll] at ih ⊢
    rw [List.foldl_cons, ih, hadd]
    by_cases h : relation = relation'
    · simp [h, ofPair, Nat.add_assoc, Nat.add_comm 1]
    · simp [h, ofPair]

end Edge

end TagRank
