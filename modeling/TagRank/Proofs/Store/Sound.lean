import Mathlib.Data.String.Basic
import Mathlib.Data.Sym.Sym2
import TagRank.Proofs.Store.Edge
import TagRank.Proofs.Store.Write

namespace TagRank

namespace Edge

/-- What an edge is known by: its ends have no order. -/
def ends (e : Edge) : String × String × String × Sym2 String :=
  (e.document, e.relation, e.field, s(e.a, e.b))

structure Canonical (e : Edge) : Prop where
  ordered : e.a ≤ e.b
  weighs : 1 ≤ e.weight

theorem canonical_single (document relation field first second : String) :
    (single document relation field first second).Canonical := by
  simp only [single]
  split
  · rename_i h
    exact ⟨h.le, le_refl 1⟩
  · rename_i h
    exact ⟨not_lt.1 h, le_refl 1⟩

@[simp] theorem single_document (document relation field first second : String) :
    (single document relation field first second).document = document := by
  simp only [single]
  split <;> rfl

theorem isSame_iff {e f : Edge} (he : e.a ≤ e.b) (hf : f.a ≤ f.b) :
    f.isSame e ↔ f.ends = e.ends := by
  simp only [isSame, ends, Bool.and_eq_true, beq_iff_eq, Prod.mk.injEq, Sym2.eq_iff, and_assoc]
  refine and_congr_right fun _ => and_congr_right fun _ => and_congr_right fun _ => ?_
  constructor
  · exact .inl
  · rintro (h | ⟨ha, hb⟩)
    · exact h
    · have hab : e.a = e.b := le_antisymm he (ha ▸ hb ▸ hf)
      exact ⟨ha.trans hab.symm, hb.trans hab⟩

theorem mem_add {e f : Edge} {es : List Edge} (h : f ∈ add e es) :
    f = e ∨ f ∈ es ∨ ∃ g ∈ es, f = { g with weight := g.weight + e.weight } := by
  induction es with
  | nil => exact .inl (List.mem_singleton.1 h)
  | cons g es ih =>
    rw [add] at h
    split at h
    · rcases List.mem_cons.1 h with rfl | h
      · exact .inr (.inr ⟨g, List.mem_cons_self, rfl⟩)
      · exact .inr (.inl (List.mem_cons_of_mem g h))
    · rcases List.mem_cons.1 h with rfl | h
      · exact .inr (.inl List.mem_cons_self)
      · rcases ih h with rfl | h | ⟨g', hg, rfl⟩
        · exact .inl rfl
        · exact .inr (.inl (List.mem_cons_of_mem g h))
        · exact .inr (.inr ⟨g', List.mem_cons_of_mem g hg, rfl⟩)

theorem forall_mem_add {Q : Edge → Prop} {e : Edge} {es : List Edge} (he : Q e)
    (hes : ∀ f ∈ es, Q f) (hw : ∀ f ∈ es, Q { f with weight := f.weight + e.weight }) :
    ∀ f ∈ add e es, Q f := by
  intro f hf
  rcases mem_add hf with rfl | hf | ⟨g, hg, rfl⟩
  · exact he
  · exact hes f hf
  · exact hw g hg

theorem map_ends_add {e : Edge} (he : e.a ≤ e.b) {es : List Edge} (hes : ∀ f ∈ es, f.a ≤ f.b) :
    (add e es).map ends =
      if e.ends ∈ es.map ends then es.map ends else es.map ends ++ [e.ends] := by
  induction es with
  | nil => rfl
  | cons f es ih =>
    obtain ⟨hf, hes⟩ := List.forall_mem_cons.1 hes
    by_cases hs : f.ends = e.ends
    · rw [add, if_pos ((isSame_iff he hf).2 hs), if_pos (by simp [hs])]
      rfl
    · rw [add, if_neg (fun h => hs ((isSame_iff he hf).1 h)), List.map_cons, ih hes]
      by_cases hm : e.ends ∈ es.map ends
      · rw [if_pos hm, if_pos (by simp [hm]), List.map_cons]
      · rw [if_neg hm, if_neg (by simpa [Ne.symm hs] using hm), List.map_cons, List.cons_append]

theorem nodup_ends_add {e : Edge} (he : e.a ≤ e.b) {es : List Edge} (hes : ∀ f ∈ es, f.a ≤ f.b)
    (h : (es.map ends).Nodup) : ((add e es).map ends).Nodup := by
  rw [map_ends_add he hes]
  split
  · exact h
  · rename_i hm
    simpa using h.concat hm

end Edge

namespace Occurrence

def Apart (os : List Occurrence) : Prop := os.Pairwise fun o p => ¬o.isSamePlace p

theorem Apart.place {os : List Occurrence} (h : Apart os) (o : Occurrence) :
    Apart (place os o) := by
  refine List.pairwise_append.2 ⟨h.filter _, List.pairwise_singleton _ _, ?_⟩
  intro p hp q hq
  rw [List.mem_singleton.1 hq]
  simpa using (List.mem_filter.1 hp).2

theorem Apart.placeAll {os : List Occurrence} (h : Apart os) (rows : List Occurrence) :
    Apart (placeAll rows os) := by
  induction rows generalizing os with
  | nil => exact h
  | cons o rows ih => exact ih (h.place o)

theorem mem_placeAll {o : Occurrence} {rows os : List Occurrence} (h : o ∈ placeAll rows os) :
    o ∈ rows ∨ o ∈ os := by
  induction rows generalizing os with
  | nil => exact .inr h
  | cons p rows ih =>
    rcases ih h with h | h
    · exact .inl (List.mem_cons_of_mem p h)
    · rcases List.mem_append.1 h with h | h
      · exact .inr (List.mem_of_mem_filter h)
      · exact .inl (List.mem_singleton.1 h ▸ List.mem_cons_self)

end Occurrence

namespace Store

theorem hasDocument_iff {s : Store} {document : String} :
    s.hasDocument document = true ↔ document ∈ s.documents := by
  simp [hasDocument]

structure Sound (s : Store) : Prop where
  /-- One token at a place. -/
  places : Occurrence.Apart s.occurrences
  tagged : ∀ o ∈ s.occurrences,
    o.document ∈ s.documents ∧ o.token.tag.map Tag.key = .ok o.tag
  /-- One edge between two tags. -/
  ends : (s.edges.map Edge.ends).Nodup
  linked : ∀ e ∈ s.edges, e.document ∈ s.documents ∧ e.Canonical
  keywords : (s.keywords.map Keyword.id).Nodup
  described : ∀ a ∈ s.associations,
    a.document ∈ s.documents ∧ a.keyword ∈ s.keywords.map Keyword.id
  numbered : s.Numbered

theorem sound_empty : empty.Sound where
  places := .nil
  tagged := by simp [empty]
  ends := by simp [empty]
  linked := by simp [empty]
  keywords := by simp [empty]
  described := by simp [empty]
  numbered := rfl

variable {P : String → Prop} {s t : Store}

theorem mem_documents_addDocument {document other : String} (h : other ∈ s.documents) :
    other ∈ (s.addDocument document).documents := by
  simp only [addDocument]
  split
  · exact h
  · exact List.mem_append_left _ h

theorem Sound.addDocument (h : s.Sound) (document : String) : (s.addDocument document).Sound where
  places := by simpa using h.places
  tagged o ho := by
    rw [addDocument_occurrences] at ho
    exact ⟨mem_documents_addDocument (h.tagged o ho).1, (h.tagged o ho).2⟩
  ends := by simpa using h.ends
  linked e he := by
    rw [addDocument_edges] at he
    exact ⟨mem_documents_addDocument (h.linked e he).1, (h.linked e he).2⟩
  keywords := by simpa using h.keywords
  described a ha := by
    rw [addDocument_associations] at ha
    rw [addDocument_keywords]
    exact ⟨mem_documents_addDocument (h.described a ha).1, (h.described a ha).2⟩
  numbered := by simpa [Numbered] using h.numbered

theorem Sound.replaced (h : s.Sound) {document : String} (hd : document ∈ s.documents)
    {rows : List Occurrence} (hr : ∀ o ∈ rows, o.Belongs document) :
    (s.replaced document rows).Sound where
  __ := h
  places := Occurrence.Apart.placeAll (h.places.filter _) rows
  tagged o ho := by
    rcases Occurrence.mem_placeAll ho with ho | ho
    · have hb := hr o ho
      exact ⟨hb.document ▸ hd, hb.tagged⟩
    · exact h.tagged o (List.mem_of_mem_filter ho)
  ends := h.ends.sublist (List.filter_sublist.map _)
  linked e he := h.linked e (List.mem_of_mem_filter he)

theorem Sound.link (h : s.Sound) {document : String} (hd : document ∈ s.documents)
    (relation field first second : String) :
    (s.linked document relation field first second).Sound where
  __ := h
  ends := Edge.nodup_ends_add (Edge.canonical_single ..).ordered
    (fun e he => (h.linked e he).2.ordered) h.ends
  linked := by
    refine Edge.forall_mem_add ?_ h.linked fun e he => ⟨(h.linked e he).1, ?_⟩
    · rw [Edge.single_document]
      exact ⟨hd, Edge.canonical_single ..⟩
    · exact ⟨(h.linked e he).2.ordered, le_add_right (h.linked e he).2.weighs⟩

theorem Sound.removeEdges (h : s.Sound) (document relation : String) :
    (s.removeEdges document relation).Sound where
  __ := h
  ends := h.ends.sublist (List.filter_sublist.map _)
  linked e he := h.linked e (List.mem_of_mem_filter he)

theorem Sound.name (h : s.Sound) {id : String} (hid : s.keyword? id = none) (value : String) :
    { s with keywords := s.keywords ++ [⟨id, value⟩] : Store }.Sound where
  __ := h
  keywords := by
    have hnew : id ∉ s.keywords.map Keyword.id := by
      intro hm
      obtain ⟨k, hk, rfl⟩ := List.mem_map.1 hm
      simpa using List.find?_eq_none.1 hid k hk
    simpa using h.keywords.concat hnew
  described a ha := by
    rw [List.map_append]
    exact ⟨(h.described a ha).1, List.mem_append_left _ (h.described a ha).2⟩

theorem Sound.associated (h : s.Sound) {keyword document : String} (hd : document ∈ s.documents)
    (hk : (s.keyword? keyword).isSome = true) (count : Int) :
    (s.associated keyword document count).Sound where
  __ := h
  described a ha := by
    rcases List.mem_append.1 ha with ha | ha
    · exact h.described a ha
    · obtain rfl := List.mem_singleton.1 ha
      obtain ⟨k, hk, hid⟩ := List.find?_isSome.1 hk
      exact ⟨hd, List.mem_map.2 ⟨k, hk, by simpa using hid⟩⟩
  numbered := Association.Numbered.append h.numbered count

theorem Sound.recounted (h : s.Sound) (a : Association) (count : Int) :
    (s.recounted a count).Sound where
  __ := h
  described b hb := by
    obtain ⟨c, hc, rfl⟩ := List.mem_map.1 hb
    have hd := h.described c hc
    split
    · exact hd
    · exact hd
  numbered := by
    refine Association.Numbered.map h.numbered fun b => ?_
    split <;> rfl

theorem Write.sound (h : Write P s t) (hs : s.Sound) : t.Sound := by
  cases h with
  | register _ _ => exact hs.addDocument _
  | replace _ hd hr => exact hs.replaced (hasDocument_iff.1 hd) hr
  | link relation field first second _ hd =>
    exact hs.link (hasDocument_iff.1 hd) relation field first second
  | unlink relation _ _ => exact hs.removeEdges _ relation
  | name value hid => exact hs.name hid value
  | associate count _ hd hk => exact hs.associated (hasDocument_iff.1 hd) hk count
  | recount count _ _ => exact hs.recounted _ count

theorem Writes.sound (h : s.Writes P t) (hs : s.Sound) : t.Sound := by
  induction h with
  | refl => exact hs
  | tail _ hw ih => exact hw.sound ih

end Store

end TagRank
