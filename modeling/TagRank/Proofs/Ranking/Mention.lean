import Mathlib.Data.Sym.Sym2
import TagRank.Proofs.Distinct
import TagRank.Proofs.Ranking.View

namespace TagRank

def mentions (ps : List (String × String)) : List String := ps.flatMap fun p => [p.1, p.2]

theorem mem_mentions {ps : List (String × String)} {a : String} :
    a ∈ mentions ps ↔ ∃ p ∈ ps, a = p.1 ∨ a = p.2 := by
  simp [mentions]

theorem mentions_concat (ps : List (String × String)) (p : String × String) :
    mentions (ps ++ [p]) = (mentions ps ++ [p.1]) ++ [p.2] := by
  simp [mentions]

namespace View

variable {α : Type}

def tags (e : String × String × α) : String × String := (e.1, e.2.1)

def pair (e : String × String × α) : Sym2 String := s(e.1, e.2.1)

def across? (a : String) (e : String × String × α) : Option (String × α) :=
  if e.1 = a then some e.2 else if e.2.1 = a then some (e.1, e.2.2) else none

theorem across?_eq_some {a b : String} {w : α} {e : String × String × α} :
    across? a e = some (b, w) ↔ pair e = s(a, b) ∧ e.2.2 = w := by
  obtain ⟨x, y, u⟩ := e
  rw [pair, Sym2.eq_iff, across?]
  dsimp only
  by_cases hx : x = a
  · rw [if_pos hx, Option.some_inj, Prod.mk.injEq]
    refine and_congr_left fun _ => ⟨fun hy => .inl ⟨hx, hy⟩, ?_⟩
    rintro (⟨-, hy⟩ | ⟨hb, hy⟩)
    · exact hy
    · rw [hy, ← hx, hb]
  · rw [if_neg hx]
    by_cases hy : y = a
    · simp [hx, hy]
    · simp [hx, hy]

theorem nodes_addNode (v : View α) (n : String) :
    (v.addNode n).nodes = if n ∈ v.nodes then v.nodes else v.nodes ++ [n] := by
  have hcontains : Assoc.contains n v.rows = true ↔ n ∈ v.nodes := Assoc.contains_iff
  rw [addNode]
  by_cases hn : n ∈ v.nodes
  · rw [if_pos hn, if_pos (hcontains.2 hn)]
  · rw [if_neg hn, if_neg (mt hcontains.1 hn)]
    exact (Assoc.keys_insert n [] v.rows).trans (if_neg hn)

theorem nodes_link {v : View α} {a : String} (ha : a ∈ v.nodes) (b : String) (w : α) :
    (v.link a b w).nodes = v.nodes := (Assoc.keys_insert a _ v.rows).trans (if_pos ha)

theorem nodes_addEdge (v : View α) (a b : String) (w : α) :
    (v.addEdge a b w).nodes = ((v.addNode a).addNode b).nodes := by
  have ha : a ∈ ((v.addNode a).addNode b).nodes := by simp [mem_nodes_addNode]
  have hb : b ∈ ((v.addNode a).addNode b).nodes := by simp [mem_nodes_addNode]
  rw [addEdge, nodes_link, nodes_link ha]
  rwa [nodes_link ha]

theorem ofWeighted_concat (field : String) (es : List (String × String × α))
    (e : String × String × α) :
    ofWeighted field (es ++ [e]) = (ofWeighted field es).addEdge e.1 e.2.1 e.2.2 := by
  simp [ofWeighted]

theorem nodes_ofWeighted (field : String) (es : List (String × String × α)) :
    (ofWeighted field es).nodes = (mentions (es.map tags)).eraseDups := by
  induction es using List.reverseRecOn with
  | nil => rfl
  | append_singleton es e ih =>
    rw [ofWeighted_concat, nodes_addEdge, nodes_addNode, nodes_addNode, ih, List.map_append,
      List.map_singleton, mentions_concat, eraseDups_concat, eraseDups_concat]
    simp only [List.mem_eraseDups, tags]
    by_cases ha : e.1 ∈ mentions (es.map tags)
    · have hb : e.2.1 ∈ mentions (es.map tags) ∨ e.2.1 = e.1 ↔ e.2.1 ∈ mentions (es.map tags) :=
        or_iff_left_of_imp fun h => h ▸ ha
      simp [ha, hb]
    · simp [ha]

theorem nodup_nodes_ofWeighted (field : String) (es : List (String × String × α)) :
    (ofWeighted field es).nodes.Nodup := nodup_nodes_foldl_addEdge es List.nodup_nil

section

variable {field : String} {es : List (String × String × α)} (hd : (es.map pair).Nodup)

include hd

theorem row_ofWeighted (field a : String) :
    (ofWeighted field es).row a = es.filterMap (across? a) := by
  induction es using List.reverseRecOn with
  | nil => rfl
  | append_singleton es e ih =>
    rw [List.map_append, List.map_singleton] at hd
    obtain ⟨hd, -, hne⟩ := List.nodup_append.1 hd
    have hnew : pair e ∉ es.map pair := fun h => hne _ h _ (List.mem_singleton_self _) rfl
    -- the row of an end of the new edge does not know the other end yet
    have hfresh {a b : String} (h : pair e = s(a, b)) :
        b ∉ Assoc.keys (es.filterMap (across? a)) := by
      intro hb
      obtain ⟨⟨b, w⟩, hmem, rfl⟩ := List.mem_map.1 hb
      obtain ⟨f, hf, hacross⟩ := List.mem_filterMap.1 hmem
      exact hnew (List.mem_map.2 ⟨f, hf, (across?_eq_some.1 hacross).1.trans h.symm⟩)
    have ha := hfresh (rfl : pair e = s(e.1, e.2.1))
    have hb := hfresh (Sym2.eq_swap : pair e = s(e.2.1, e.1))
    rw [ofWeighted_concat, row_addEdge, List.filterMap_append]
    by_cases hab : a = e.2.1
    · subst hab
      rw [if_pos rfl]
      by_cases hloop : e.2.1 = e.1
      · rw [← hloop] at ha
        rw [if_pos hloop, ← hloop, Assoc.insert_insert, ih hd, Assoc.insert_of_not_mem ha]
        simp [across?, ← hloop]
      · rw [if_neg hloop, ih hd, Assoc.insert_of_not_mem hb]
        simp [across?, Ne.symm hloop]
    · rw [if_neg hab]
      by_cases haa : a = e.1
      · subst haa
        rw [if_pos rfl, ih hd, Assoc.insert_of_not_mem ha]
        simp [across?]
      · rw [if_neg haa, ih hd]
        simp [across?, Ne.symm hab, Ne.symm haa]

theorem nodup_row_ofWeighted (field a : String) :
    (Assoc.keys ((ofWeighted field es).row a)).Nodup := by
  rw [row_ofWeighted hd]
  refine List.pairwise_map.2 (List.pairwise_filterMap.2 ((List.pairwise_map.1 hd).imp ?_))
  rintro e f hne ⟨b, w⟩ he ⟨c, x⟩ hf rfl
  exact hne ((across?_eq_some.1 he).1.trans (across?_eq_some.1 hf).1.symm)

theorem weight?_ofWeighted {field a b : String} {w : α} :
    (ofWeighted field es).weight? a b = some w ↔ ∃ e ∈ es, pair e = s(a, b) ∧ e.2.2 = w := by
  have hrow : (ofWeighted field es).weight? a b = some w ↔ (b, w) ∈ (ofWeighted field es).row a :=
    ⟨Assoc.mem_of_get?, Assoc.get?_of_mem (nodup_row_ofWeighted hd field a)⟩
  rw [hrow, row_ofWeighted hd, List.mem_filterMap]
  simp only [across?_eq_some]

end

end View

namespace Edge

def tags (e : Edge) : String × String := (e.a, e.b)

def pair (e : Edge) : Sym2 String := s(e.a, e.b)

def mentions (edges : List Edge) : List String := TagRank.mentions (edges.map tags)

variable (α : Type) [Scalar α]

def weighted (e : Edge) : String × String × α := (e.a, e.b, e.weight)

theorem map_tags_weighted (edges : List Edge) :
    (edges.map (weighted α)).map View.tags = edges.map tags := List.map_map

end Edge

namespace View

variable {α : Type} [Scalar α] {field : String} {edges : List Edge} {v : View α}
  (h : ofEdges field edges = .ok v)

include h

theorem eq_ofWeighted : v = ofWeighted field (edges.map (Edge.weighted α)) := (ofEdges_eq_ok h).symm

theorem nodes_ofEdges : v.nodes = (Edge.mentions edges).eraseDups := by
  rw [eq_ofWeighted h, nodes_ofWeighted, Edge.map_tags_weighted]
  rfl

end View

end TagRank
