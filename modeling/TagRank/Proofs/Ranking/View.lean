import TagRank.Proofs.Scalar
import TagRank.Ranking.View

namespace TagRank.View

section

variable {α : Type}

def weight? (v : View α) (a b : String) : Option α := Assoc.get? b (v.row a)

theorem mem_nodes_of_weight? {v : View α} {a b : String} {w : α} (h : v.weight? a b = some w) :
    a ∈ v.nodes := by
  refine Decidable.byContradiction fun ha => ?_
  have hrow : v.row a = [] := by simp [row, Assoc.getD, Assoc.get?_eq_none.2 ha]
  simp [weight?, hrow, Assoc.get?] at h

theorem mem_nodes_addNode {v : View α} {n a : String} :
    a ∈ (v.addNode n).nodes ↔ a = n ∨ a ∈ v.nodes := by
  simp only [addNode]
  split
  · rename_i hn
    obtain ⟨row, hrow⟩ := Option.isSome_iff_exists.1 hn
    have hn := Assoc.mem_keys_of_get? hrow
    exact ⟨.inr, fun h => h.elim (fun h => h ▸ hn) id⟩
  · exact Assoc.mem_keys_insert

@[simp] theorem row_addNode (v : View α) (n a : String) : (v.addNode n).row a = v.row a := by
  simp only [addNode]
  split
  · rfl
  · rename_i hn
    have hn : Assoc.get? n v.rows = none := by simpa [Assoc.contains] using hn
    by_cases h : n = a
    · simp [row, Assoc.getD, ← h, hn]
    · simp [row, Assoc.getD, h]

theorem mem_nodes_link {v : View α} {a b c : String} {w : α} :
    c ∈ (v.link a b w).nodes ↔ c = a ∨ c ∈ v.nodes := Assoc.mem_keys_insert

@[simp] theorem row_link (v : View α) (a b c : String) (w : α) :
    (v.link a b w).row c = if c = a then Assoc.insert b w (v.row a) else v.row c := by
  by_cases h : c = a
  · simp [link, row, Assoc.getD, h]
  · simp [link, row, Assoc.getD, h, Ne.symm h]

theorem nodup_nodes_addNode {v : View α} (h : v.nodes.Nodup) (n : String) :
    (v.addNode n).nodes.Nodup := by
  simp only [addNode]
  split
  · exact h
  · exact Assoc.nodup_insert h _ _

theorem nodup_nodes_addEdge {v : View α} (h : v.nodes.Nodup) (a b : String) (w : α) :
    (v.addEdge a b w).nodes.Nodup :=
  Assoc.nodup_insert (Assoc.nodup_insert
    (nodup_nodes_addNode (nodup_nodes_addNode h a) b) _ _) _ _

theorem mem_nodes_addEdge {v : View α} {a b c : String} {w : α} :
    c ∈ (v.addEdge a b w).nodes ↔ c = a ∨ c = b ∨ c ∈ v.nodes := by
  simp only [addEdge, mem_nodes_link, mem_nodes_addNode]
  tauto

theorem row_addEdge (v : View α) (a b c : String) (w : α) :
    (v.addEdge a b w).row c =
      if c = b then Assoc.insert a w (if b = a then Assoc.insert b w (v.row a) else v.row b)
      else if c = a then Assoc.insert b w (v.row a) else v.row c := by
  simp [addEdge]

theorem weight?_addEdge (v : View α) (a b x y : String) (w : α) :
    (v.addEdge a b w).weight? x y =
      if (x = a ∧ y = b) ∨ (x = b ∧ y = a) then some w else v.weight? x y := by
  simp only [weight?, row_addEdge]
  by_cases hb : x = b
  · subst hb
    by_cases ha : x = a
    · subst ha
      by_cases hy : x = y
      · simp [hy]
      · simp [hy, Ne.symm hy]
    · by_cases hy : a = y
      · simp [hy]
      · simp [ha, hy, Ne.symm hy]
  · by_cases ha : x = a
    · subst ha
      by_cases hy : b = y
      · subst hy
        simp [hb]
      · simp [hb, hy, Ne.symm hy]
    · simp [hb, ha]

@[simp] theorem field_addNode (v : View α) (n : String) : (v.addNode n).field = v.field := by
  simp only [addNode]
  split <;> rfl

@[simp] theorem field_addEdge (v : View α) (a b : String) (w : α) :
    (v.addEdge a b w).field = v.field := by
  simp [addEdge, link]

theorem field_foldl_addEdge (edges : List (String × String × α)) (v : View α) :
    (edges.foldl (fun v (a, b, weight) => v.addEdge a b weight) v).field = v.field := by
  induction edges generalizing v with
  | nil => rfl
  | cons e edges ih => exact (ih _).trans (field_addEdge _ _ _ _)

theorem mem_nodes_foldl_addEdge (edges : List (String × String × α)) (v : View α) {a : String}
    (h : a ∈ v.nodes) :
    a ∈ (edges.foldl (fun v (a, b, weight) => v.addEdge a b weight) v).nodes := by
  induction edges generalizing v with
  | nil => exact h
  | cons e edges ih => exact ih _ (mem_nodes_addEdge.2 (.inr (.inr h)))

theorem mem_ends_of_mem_nodes {edges : List (String × String × α)} {v : View α} {a : String}
    (h : a ∈ (edges.foldl (fun v (a, b, weight) => v.addEdge a b weight) v).nodes) :
    a ∈ v.nodes ∨ ∃ e ∈ edges, a = e.1 ∨ a = e.2.1 := by
  induction edges generalizing v with
  | nil => exact .inl h
  | cons e edges ih =>
    rcases ih h with h | ⟨f, hf, ha⟩
    · rcases mem_nodes_addEdge.1 h with h | h | h
      · exact .inr ⟨e, .head _, .inl h⟩
      · exact .inr ⟨e, .head _, .inr h⟩
      · exact .inl h
    · exact .inr ⟨f, .tail _ hf, ha⟩

theorem nodup_nodes_foldl_addEdge (edges : List (String × String × α)) {v : View α}
    (h : v.nodes.Nodup) :
    (edges.foldl (fun v (a, b, weight) => v.addEdge a b weight) v).nodes.Nodup := by
  induction edges generalizing v with
  | nil => exact h
  | cons e edges ih => exact ih (nodup_nodes_addEdge h _ _ _)

variable [Scalar α]

structure IsGraph (v : View α) : Prop where
  nodup_nodes : v.nodes.Nodup
  nodup_row : ∀ a, (Assoc.keys (v.row a)).Nodup
  row_ne_nil : ∀ a ∈ v.nodes, v.row a ≠ []
  symm : ∀ a b, v.weight? a b = v.weight? b a
  weight_pos : ∀ a b w, v.weight? a b = some w → 0 < w

theorem isGraph_nil (field : String) : IsGraph (α := α) ⟨field, []⟩ where
  nodup_nodes := List.nodup_nil
  nodup_row _ := List.nodup_nil
  row_ne_nil _ h := by cases h
  symm _ _ := rfl
  weight_pos _ _ _ h := by cases h

theorem IsGraph.addEdge {v : View α} (h : v.IsGraph) (a b : String) {w : α} (hw : 0 < w) :
    (v.addEdge a b w).IsGraph where
  nodup_nodes := nodup_nodes_addEdge h.nodup_nodes a b w
  nodup_row x := by
    rw [row_addEdge]
    split
    · apply Assoc.nodup_insert
      split
      · exact Assoc.nodup_insert (h.nodup_row a) _ _
      · exact h.nodup_row b
    · split
      · exact Assoc.nodup_insert (h.nodup_row a) _ _
      · exact h.nodup_row x
  row_ne_nil x hx := by
    rw [row_addEdge]
    split
    · exact Assoc.insert_ne_nil _ _ _
    · split
      · exact Assoc.insert_ne_nil _ _ _
      · exact h.row_ne_nil x (by simpa [*] using mem_nodes_addEdge.1 hx)
  symm x y := by
    rw [weight?_addEdge, weight?_addEdge, h.symm x y]
    apply if_congr _ rfl rfl
    tauto
  weight_pos x y w' hw' := by
    rw [weight?_addEdge] at hw'
    split at hw'
    · exact Option.some.inj hw' ▸ hw
    · exact h.weight_pos x y w' hw'

theorem isGraph_foldl_addEdge (edges : List (String × String × α)) (hw : ∀ e ∈ edges, 0 < e.2.2)
    {v : View α} (h : v.IsGraph) :
    (edges.foldl (fun v (a, b, weight) => v.addEdge a b weight) v).IsGraph := by
  induction edges generalizing v with
  | nil => exact h
  | cons e edges ih =>
    obtain ⟨he, hw⟩ := List.forall_mem_cons.1 hw
    exact ih hw (h.addEdge e.1 e.2.1 he)

omit [Scalar α] in
theorem ofWeighted?_eq (field : String) (edges : List (String × String × α)) :
    ofWeighted? field edges = if edges ≠ [] ∧ field ∈ reservedFields then .error .reservedField
      else .ok (ofWeighted field edges) := by
  rw [ofWeighted?]
  refine if_congr ?_ rfl rfl
  simp

omit [Scalar α] in
theorem ofWeighted?_eq_ok {field : String} {edges : List (String × String × α)} {v : View α}
    (h : ofWeighted? field edges = .ok v) : ofWeighted field edges = v := by
  simp only [ofWeighted?] at h
  split at h
  · cases h
  · exact Except.ok.inj h

theorem ofEdges_eq_ok {field : String} {edges : List Edge} {v : View α}
    (h : ofEdges field edges = .ok v) :
    ofWeighted field (edges.map fun e => (e.a, e.b, (e.weight : α))) = v := ofWeighted?_eq_ok h

theorem nodup_nodes_ofEdges {field : String} {edges : List Edge} {v : View α}
    (h : ofEdges field edges = .ok v) : v.nodes.Nodup := by
  rw [← ofEdges_eq_ok h]
  exact nodup_nodes_foldl_addEdge _ List.nodup_nil

omit [Scalar α] in
theorem field_ofWeighted? {field : String} {edges : List (String × String × α)} {v : View α}
    (h : ofWeighted? field edges = .ok v) : v.field = field := by
  rw [← ofWeighted?_eq_ok h]
  exact field_foldl_addEdge _ _

theorem field_ofEdges {field : String} {edges : List Edge} {v : View α}
    (h : ofEdges field edges = .ok v) : v.field = field := field_ofWeighted? h

theorem mem_ends_of_ofEdges {field : String} {edges : List Edge} {v : View α}
    (h : ofEdges field edges = .ok v) {a : String} (ha : a ∈ v.nodes) :
    ∃ e ∈ edges, a = e.a ∨ a = e.b := by
  rw [← ofEdges_eq_ok h] at ha
  rcases mem_ends_of_mem_nodes ha with ha | ⟨w, hw, ha⟩
  · cases ha
  · obtain ⟨e, he, rfl⟩ := List.mem_map.1 hw
    exact ⟨e, he, ha⟩

theorem nodes_ofEdges_ne_nil {field : String} {edges : List Edge} {v : View α}
    (h : ofEdges field edges = .ok v) (hne : edges ≠ []) : v.nodes ≠ [] := by
  rw [← ofEdges_eq_ok h]
  cases edges with
  | nil => exact absurd rfl hne
  | cons e edges =>
    rw [List.map_cons, ofWeighted, List.foldl_cons]
    exact List.ne_nil_of_mem (mem_nodes_foldl_addEdge _ _ (mem_nodes_addEdge.2 (.inl rfl)))

end

theorem isGraph_ofWeighted? {field : String} {edges : List (String × String × Rat)} {v : View Rat}
    (h : ofWeighted? field edges = .ok v) (hw : ∀ e ∈ edges, 0 < e.2.2) : v.IsGraph := by
  rw [← ofWeighted?_eq_ok h]
  exact isGraph_foldl_addEdge edges hw (isGraph_nil field)

theorem isGraph_ofEdges {field : String} {edges : List Edge} {v : View Rat}
    (h : ofEdges field edges = .ok v) (hw : ∀ e ∈ edges, 1 ≤ e.weight) : v.IsGraph :=
  isGraph_ofWeighted? h (List.forall_mem_map.2 fun e he => Nat.cast_pos.2 (hw e he))

namespace IsGraph

variable {v : View Rat}

theorem rows_eq (h : v.IsGraph) : v.rows = v.nodes.map fun a => (a, v.row a) :=
  Assoc.eq_map_keys h.nodup_nodes []

theorem mem_nodes_of_mem_row (h : v.IsGraph) {a b : String} (hb : b ∈ Assoc.keys (v.row a)) :
    b ∈ v.nodes := by
  cases hw : v.weight? a b with
  | none => exact absurd hb (Assoc.get?_eq_none.1 hw)
  | some w => exact mem_nodes_of_weight? (h.symm a b ▸ hw)

theorem strength_pos (h : v.IsGraph) {a : String} (ha : a ∈ v.nodes) : 0 < v.strength a := by
  rw [strength, Scalar.sum_eq]
  apply List.sum_pos
  · refine List.forall_mem_map.2 fun p hp => ?_
    exact h.weight_pos a p.1 p.2 (Assoc.get?_of_mem (h.nodup_row a) hp)
  · simpa using h.row_ne_nil a ha

end IsGraph

end TagRank.View
