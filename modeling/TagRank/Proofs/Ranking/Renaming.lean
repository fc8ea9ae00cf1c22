import TagRank.Proofs.Ranking.Contraction
import TagRank.Proofs.Ranking.Mention

namespace TagRank

theorem Scalar.greatest?_nonneg {xs : List Rat} (h : ∀ x ∈ xs, 0 ≤ x) :
    0 ≤ (greatest? xs).getD 0 := by
  cases xs with
  | nil => exact le_refl 0
  | cons x xs => exact (h x (.head _)).trans (le_greatest? (.head _))

theorem Scalar.greatest?_perm {xs ys : List Rat} (hp : xs.Perm ys) (h : ∀ x ∈ xs, 0 ≤ x) :
    (greatest? xs).getD 0 = (greatest? ys).getD 0 := by
  have hle {xs ys : List Rat} (hp : xs.Perm ys) (h : ∀ x ∈ xs, 0 ≤ x) :
      (greatest? xs).getD 0 ≤ (greatest? ys).getD 0 :=
    greatest?_le (greatest?_nonneg fun y hy => h y (hp.mem_iff.2 hy))
      fun x hx => le_greatest? (hp.subset hx)
  exact le_antisymm (hle hp h) (hle hp.symm fun y hy => h y (hp.mem_iff.2 hy))

structure View.Renames (f : String → String) (v w : View Rat) : Prop where
  source : v.IsGraph
  target : w.IsGraph
  field : w.field = v.field
  nodes : w.nodes.Perm (v.nodes.map f)
  weight : ∀ a ∈ v.nodes, ∀ b ∈ v.nodes, w.weight? (f a) (f b) = v.weight? a b

def Scores.Renames (f : String → String) (v : View Rat) (x y : Scores Rat) : Prop :=
  ∀ a ∈ v.nodes, y.get (f a) = x.get a

variable {f : String → String} {v w : View Rat} {x y : Scores Rat} {damping tolerance : Rat}

namespace View

theorem IsGraph.strength_eq (h : v.IsGraph) (a : String) :
    v.strength a = (v.nodes.map fun b => (v.weight? a b).elim 0 id).sum := by
  rw [strength, Scalar.sum_eq]
  exact Assoc.sum_map (h.nodup_row a) h.nodup_nodes (fun b => h.mem_nodes_of_mem_row) fun _ w => w

namespace Renames

variable (h : v.Renames f w)

include h

theorem map_nodes {g g' : String → Rat} (hg : ∀ a ∈ v.nodes, g' (f a) = g a) :
    (w.nodes.map g').Perm (v.nodes.map g) := by
  have hmap : (v.nodes.map f).map g' = v.nodes.map g := by
    rw [List.map_map]
    exact List.map_congr_left hg
  exact hmap ▸ h.nodes.map g'

theorem mem_nodes {a : String} (ha : a ∈ v.nodes) : f a ∈ w.nodes :=
  h.nodes.mem_iff.2 (List.mem_map_of_mem ha)

theorem strength {a : String} (ha : a ∈ v.nodes) : w.strength (f a) = v.strength a := by
  rw [h.source.strength_eq, h.target.strength_eq]
  refine (h.map_nodes fun b hb => ?_).sum_eq
  rw [h.weight a ha b hb]

theorem inflow (hs : Scores.Renames f v x y) {a : String} (ha : a ∈ v.nodes) :
    w.inflow y (f a) = v.inflow x a := by
  refine (h.map_nodes fun b hb => ?_).sum_eq
  rw [h.weight a ha b hb, h.strength hb, hs b hb]

end Renames

end View

namespace Kernel.Power

variable (h : v.Renames f w)

include h

theorem renames_start : Scores.Renames f v (start v) (start w) := by
  intro a ha
  rw [start, start, Scores.get_map, Scores.get_map, if_pos ha, if_pos (h.mem_nodes ha)]

theorem renames_round (damping : Rat) (hs : Scores.Renames f v x y) :
    Scores.Renames f v (round v (strengths v) damping x) (round w (strengths w) damping y) := by
  intro a ha
  rw [round_eq h.source, round_eq h.target, Scores.get_map, Scores.get_map, if_pos ha,
    if_pos (h.mem_nodes ha), h.inflow hs ha]

theorem renames_after (damping : Rat) (n : Nat) :
    Scores.Renames f v (after v damping n) (after w damping n) := by
  induction n with
  | zero => exact renames_start h
  | succ n ih => exact renames_round h damping ih

theorem change_renamed {x' y' : Scores Rat} (hx : Assoc.keys x' = v.nodes)
    (hy : Assoc.keys y' = w.nodes) (hs : Scores.Renames f v x y) (hs' : Scores.Renames f v x' y') :
    change y y' = change x x' := by
  have hchange {v : View Rat} (hg : v.IsGraph) {x x' : Scores Rat} (hx : Assoc.keys x' = v.nodes) :
      change x x' = (Scalar.greatest? (v.nodes.map fun a => |x'.get a - x.get a|)).getD 0 := by
    rw [change]
    conv_lhs => rw [Scores.eq_map hg hx, List.map_map]
    simp only [Function.comp_def, Scalar.abs_eq]
  rw [hchange h.source hx, hchange h.target hy]
  refine Scalar.greatest?_perm (h.map_nodes fun a ha => ?_)
    (List.forall_mem_map.2 fun _ _ => abs_nonneg _)
  rw [hs a ha, hs' a ha]

theorem settles_renamed (damping tolerance : Rat) :
    settles w damping tolerance = settles v damping tolerance := by
  funext n
  simp only [settles]
  rw [change_renamed h (keys_after v damping n) (keys_after w damping n)
    (renames_after h damping (n - 1)) (renames_after h damping n)]

end Kernel.Power

namespace View

theorem field_through (v : View Rat) (field : String) : (v.through field).field = field := by
  rw [through]
  split
  · rename_i h
    exact h.symm
  · rfl

section

variable {field : String} (h : field ≠ v.field)

include h

theorem through_of_ne :
    v.through field = ⟨field, Assoc.mapValues (Assoc.mapValues fun _ => 1) v.rows⟩ := if_neg h

theorem row_through (a : String) :
    (v.through field).row a = Assoc.mapValues (fun _ => 1) (v.row a) := by
  rw [through_of_ne h]
  simp only [row, Assoc.getD, Assoc.get?_mapValues]
  cases Assoc.get? a v.rows <;> rfl

theorem weight?_through (a b : String) :
    (v.through field).weight? a b = (v.weight? a b).map fun _ => 1 := by
  rw [weight?, row_through h, Assoc.get?_mapValues, weight?]

end

theorem nodes_through (v : View Rat) (field : String) : (v.through field).nodes = v.nodes := by
  by_cases h : field = v.field
  · rw [through_of_field h.symm]
  · rw [through_of_ne h]
    exact Assoc.keys_mapValues _ _

theorem IsGraph.through (h : v.IsGraph) (field : String) : (v.through field).IsGraph := by
  by_cases hf : field = v.field
  · rwa [through_of_field hf.symm]
  · refine ⟨?_, fun a => ?_, fun a ha => ?_, fun a b => ?_, fun a b x hx => ?_⟩
    · rw [nodes_through]
      exact h.nodup_nodes
    · rw [row_through hf, Assoc.keys_mapValues]
      exact h.nodup_row a
    · rw [nodes_through] at ha
      simpa [row_through hf, Assoc.mapValues] using h.row_ne_nil a ha
    · rw [weight?_through hf, weight?_through hf, h.symm]
    · rw [weight?_through hf] at hx
      obtain ⟨-, -, rfl⟩ := Option.map_eq_some_iff.1 hx
      exact zero_lt_one

theorem Renames.through (h : v.Renames f w) (field : String) :
    (v.through field).Renames f (w.through field) where
  source := h.source.through field
  target := h.target.through field
  field := by rw [field_through, field_through]
  nodes := by
    rw [nodes_through, nodes_through]
    exact h.nodes
  weight a ha b hb := by
    rw [nodes_through] at ha hb
    by_cases hf : field = v.field
    · rw [through_of_field hf.symm, through_of_field (h.field.trans hf.symm), h.weight a ha b hb]
    · rw [weight?_through hf, weight?_through (h.field ▸ hf), h.weight a ha b hb]

end View

theorem Kernel.power_of_renames (h : v.Renames f w) (field : String) (tolerance damping : Rat)
    (rounds : Int) :
    ∃ x y, power tolerance v field rounds damping = .ok x ∧
      power tolerance w field rounds damping = .ok y ∧ Assoc.keys x = v.nodes ∧
      Assoc.keys y = w.nodes ∧ Scores.Renames f v x y := by
  have hthrough (v : View Rat) : power tolerance v field rounds damping =
      power tolerance (v.through field) field rounds damping := by
    rw [power, power, View.through_of_field (v.field_through field)]
  have h := h.through field
  rw [hthrough v, hthrough w, power_eq (v.field_through field), power_eq (w.field_through field),
    Power.settles_renamed h]
  have hscores := Power.renames_after h damping
    ((stop? (Power.settles (v.through field) damping tolerance) 0 rounds.toNat).getD rounds.toNat)
  rw [Scores.Renames, v.nodes_through] at hscores
  exact ⟨_, _, rfl, rfl, (Power.keys_after _ _ _).trans (v.nodes_through field),
    (Power.keys_after _ _ _).trans (w.nodes_through field), hscores⟩

theorem pair_eq_of_map_eq {p q : Sym2 String} (hf : ∀ a ∈ p, ∀ b ∈ q, f a = f b → a = b)
    (h : p.map f = q.map f) : p = q := by
  obtain ⟨a, b⟩ := p
  obtain ⟨c, d⟩ := q
  simp only [Sym2.mem_iff, Sym2.map_mk, Sym2.eq_iff] at hf h ⊢
  rcases h with ⟨h, k⟩ | ⟨h, k⟩
  · exact .inl ⟨hf a (.inl rfl) c (.inl rfl) h, hf b (.inr rfl) d (.inr rfl) k⟩
  · exact .inr ⟨hf a (.inl rfl) d (.inr rfl) h, hf b (.inr rfl) c (.inl rfl) k⟩

namespace View

variable {es es' : List (String × String × Rat)}

theorem mem_mentions_tags {a : String} :
    a ∈ mentions (es.map tags) ↔ ∃ p ∈ es.map pair, a ∈ p := by
  simp [mem_mentions, tags, pair]

def AreRenamed (f : String → String) (es es' : List (String × String × Rat)) : Prop :=
  (es'.map fun e => (pair e, e.2.2)).Perm (es.map fun e => ((pair e).map f, e.2.2))

namespace AreRenamed

variable (hp : AreRenamed f es es')

include hp

theorem mem_iff {p : Sym2 String} {x : Rat} : (∃ e ∈ es', pair e = p ∧ e.2.2 = x) ↔
    ∃ e ∈ es, (pair e).map f = p ∧ e.2.2 = x := by
  simpa using List.Perm.mem_iff hp (a := (p, x))

theorem perm_pairs : (es'.map pair).Perm ((es.map pair).map (Sym2.map f)) := by
  simpa [Function.comp_def] using List.Perm.map Prod.fst hp

theorem weight_pos (hw : ∀ e ∈ es, 0 < e.2.2) : ∀ e ∈ es', 0 < e.2.2 := by
  intro e he
  obtain ⟨e₀, he₀, -, hweight⟩ := hp.mem_iff.1 ⟨e, he, rfl, rfl⟩
  exact hweight ▸ hw e₀ he₀

theorem eq_nil_iff : es' = [] ↔ es = [] := by
  have hlength := hp.length_eq
  simp only [List.length_map] at hlength
  rw [← List.length_eq_zero_iff, hlength, List.length_eq_zero_iff]

theorem mem_mentions_iff {c : String} :
    c ∈ mentions (es'.map tags) ↔ ∃ a ∈ mentions (es.map tags), f a = c := by
  simp only [mem_mentions_tags, hp.perm_pairs.mem_iff]
  constructor
  · rintro ⟨q, hq, hc⟩
    obtain ⟨p, hmem, rfl⟩ := List.mem_map.1 hq
    obtain ⟨a, ha, rfl⟩ := Sym2.mem_map.1 hc
    exact ⟨a, ⟨p, hmem, ha⟩, rfl⟩
  · rintro ⟨a, ⟨p, hmem, ha⟩, rfl⟩
    exact ⟨p.map f, List.mem_map_of_mem hmem, Sym2.mem_map.2 ⟨a, ha, rfl⟩⟩

variable (hf : ∀ a ∈ mentions (es.map tags), ∀ b ∈ mentions (es.map tags), f a = f b → a = b)
  (hd : (es.map pair).Nodup)

include hf hd

theorem nodup_pairs : (es'.map pair).Nodup := by
  refine hp.perm_pairs.nodup_iff.2 (hd.map_on fun p hmem q hmem' h => ?_)
  exact pair_eq_of_map_eq (fun a ha b hb => hf a (mem_mentions_tags.2 ⟨p, hmem, ha⟩) b
    (mem_mentions_tags.2 ⟨q, hmem', hb⟩)) h

theorem renames (hw : ∀ e ∈ es, 0 < e.2.2) (field : String) :
    (ofWeighted field es).Renames f (ofWeighted field es') := by
  have hmem {es : List (String × String × Rat)} {a : String} :
      a ∈ (ofWeighted field es).nodes ↔ a ∈ mentions (es.map tags) := by
    rw [nodes_ofWeighted, List.mem_eraseDups]
  refine ⟨isGraph_foldl_addEdge es hw (isGraph_nil field),
    isGraph_foldl_addEdge es' (hp.weight_pos hw) (isGraph_nil field),
    (field_foldl_addEdge es' _).trans (field_foldl_addEdge es _).symm, ?nodes, ?weight⟩
  case nodes =>
    refine (List.perm_ext_iff_of_nodup (nodup_nodes_ofWeighted field es') ?_).2 fun c => ?_
    · exact (nodup_nodes_ofWeighted field es).map_on fun a ha b hb =>
        hf a (hmem.1 ha) b (hmem.1 hb)
    · simp only [hmem, List.mem_map, hp.mem_mentions_iff]
  case weight =>
    intro a ha b hb
    refine Option.ext fun x => ?_
    rw [weight?_ofWeighted hd, weight?_ofWeighted (hp.nodup_pairs hf hd), hp.mem_iff]
    refine exists_congr fun e => and_congr_right fun he => and_congr_left fun _ => ?_
    have hends {c : String} (hc : c ∈ pair e) : c ∈ mentions (es.map tags) :=
      mem_mentions_tags.2 ⟨_, List.mem_map_of_mem he, hc⟩
    refine ⟨fun h => ?_, fun h => h ▸ rfl⟩
    refine pair_eq_of_map_eq (fun c hc d hd => hf c (hends hc) d ?_) h
    rcases Sym2.mem_iff.1 hd with rfl | rfl
    · exact hmem.1 ha
    · exact hmem.1 hb

end AreRenamed

end View

/-- The scores of the power kernel depend on the weighted graph alone: on edges that are listed in
another order, with their ends the other way or with other names for their nodes, it scores every
node as it does without. A reserved weight field is refused either way. -/
theorem Kernel.power_renamed {es es' : List (String × String × Rat)}
    (hd : (es.map View.pair).Nodup) (hw : ∀ e ∈ es, 0 < e.2.2) {f : String → String}
    (hf : ∀ a ∈ mentions (es.map View.tags), ∀ b ∈ mentions (es.map View.tags), f a = f b → a = b)
    (hp : View.AreRenamed f es es') (field read : String) (tolerance damping : Rat) (rounds : Int) :
    (∀ e, View.ofWeighted? field es = .error e → View.ofWeighted? field es' = .error e) ∧
    ∀ v, View.ofWeighted? field es = .ok v → ∃ w scores scores',
      View.ofWeighted? field es' = .ok w ∧ w.nodes.Perm (v.nodes.map f) ∧
      power tolerance v read rounds damping = .ok scores ∧
      power tolerance w read rounds damping = .ok scores' ∧
      Assoc.keys scores = v.nodes ∧ Assoc.keys scores' = w.nodes ∧
      ∀ a ∈ v.nodes, scores'.get (f a) = scores.get a := by
  have hview := View.ofWeighted?_eq field es
  have hview' := View.ofWeighted?_eq field es'
  simp only [ne_eq, hp.eq_nil_iff] at hview hview'
  by_cases hreserved : ¬es = [] ∧ field ∈ View.reservedFields
  · rw [if_pos hreserved] at hview hview'
    simp [hview, hview']
  · rw [if_neg hreserved] at hview hview'
    have hrenames := hp.renames hf hd hw field
    obtain ⟨x, y, hx, hy, hkeys, hkeys', hscores⟩ :=
      power_of_renames hrenames read tolerance damping rounds
    refine ⟨fun e he => (by cases hview.symm.trans he), fun v hv => ?_⟩
    cases hview.symm.trans hv
    exact ⟨_, x, y, hview', hrenames.nodes, hx, hy, hkeys, hkeys', hscores⟩

theorem Kernel.power_renamed_exchanged :
    let es : List (String × String × Rat) := [("a", "b", 2), ("b", "c", 1), ("c", "c", 1)]
    let es' : List (String × String × Rat) := [("a", "a", 1), ("a", "b", 1), ("c", "b", 2)]
    let f (a : String) := if a = "a" then "c" else if a = "c" then "a" else a
    View.AreRenamed f es es' ∧ ∃ scores scores',
      power 0 (.ofWeighted "weight" es) "weight" 2 (1 / 2) = .ok scores ∧
      power 0 (.ofWeighted "weight" es') "weight" 2 (1 / 2) = .ok scores' ∧
      scores'.get "c" = scores.get "a" ∧ scores'.get "b" = scores.get "b" ∧
      scores'.get "a" = scores.get "c" := by
  intro es es' f
  have hp : View.AreRenamed f es es' := by
    simp only [View.AreRenamed]
    decide +kernel
  obtain ⟨-, hok⟩ := power_renamed (by decide +kernel) (by decide +kernel) (by decide +kernel) hp
    "weight" "weight" 0 (1 / 2) 2
  obtain ⟨w, scores, scores', hw, -, hscores, hscores', -, -, hget⟩ := hok _ rfl
  cases hw
  exact ⟨hp, scores, scores', hscores, hscores', hget "a" (by decide +kernel),
    hget "b" (by decide +kernel), hget "c" (by decide +kernel)⟩

end TagRank
