import TagRank.Assoc
import TagRank.Proofs.Distinct

namespace TagRank.Assoc

variable {κ β : Type}

@[simp] theorem keys_map (f : κ → β) (ks : List κ) : keys (ks.map fun k => (k, f k)) = ks := by
  simp [keys, Function.comp_def]

def mapValues {γ : Type} (g : β → γ) (m : List (κ × β)) : List (κ × γ) :=
  m.map fun p => (p.1, g p.2)

@[simp] theorem keys_mapValues {γ : Type} (g : β → γ) (m : List (κ × β)) :
    keys (mapValues g m) = keys m := by
  simp [keys, mapValues, Function.comp_def]

theorem nodup_renamed {κ' γ : Type} {f : κ → κ'} (hf : Function.Injective f) (g : β → γ)
    {m : List (κ × β)} (hm : (keys m).Nodup) : (keys (m.map (Prod.map f g))).Nodup := by
  have hkeys : keys (m.map (Prod.map f g)) = (keys m).map f := by simp [keys, Function.comp_def]
  rw [hkeys]
  exact List.Nodup.map hf hm

variable [DecidableEq κ]

@[simp] theorem get?_mapValues {γ : Type} (g : β → γ) (m : List (κ × β)) (k : κ) :
    get? k (mapValues g m) = (get? k m).map g := by
  induction m with
  | nil => rfl
  | cons p m ih =>
    simp only [mapValues] at ih
    by_cases h : p.1 = k <;> simp [mapValues, get?, h, ih]

theorem insert_mapValues {γ : Type} (g : β → γ) (m : List (κ × β)) (k : κ) (v : β) :
    insert k (g v) (mapValues g m) = mapValues g (insert k v m) := by
  induction m with
  | nil => rfl
  | cons p m ih =>
    simp only [mapValues] at ih
    by_cases h : p.1 = k <;> simp [mapValues, insert, h, ih]

theorem insert_insert (k : κ) (v w : β) (m : List (κ × β)) :
    insert k w (insert k v m) = insert k w m := by
  induction m with
  | nil => simp [insert]
  | cons p m ih => by_cases h : p.1 = k <;> simp [insert, h, ih]

theorem nodup_insert {m : List (κ × β)} (h : (keys m).Nodup) (k : κ) (v : β) :
    (keys (insert k v m)).Nodup := by
  rw [keys_insert]
  split
  · exact h
  · rename_i hk
    refine List.nodup_append.2 ⟨h, by simp, ?_⟩
    rintro a ha b hb rfl
    exact hk (List.mem_singleton.1 hb ▸ ha)

theorem insert_ne_nil (k : κ) (v : β) (m : List (κ × β)) : insert k v m ≠ [] := by
  cases m with
  | nil => simp [insert]
  | cons p m =>
    rw [insert]
    split <;> simp

theorem length_insert_le (k : κ) (v : β) (m : List (κ × β)) :
    (insert k v m).length ≤ m.length + 1 := by
  induction m with
  | nil => simp [insert]
  | cons p m ih =>
    rw [insert]
    split
    · simp
    · simpa using ih

theorem mem_insert {k : κ} {v : β} {m : List (κ × β)} {p : κ × β} (h : p ∈ insert k v m) :
    p = (k, v) ∨ p ∈ m := by
  induction m with
  | nil => exact .inl (List.mem_singleton.1 h)
  | cons q m ih =>
    rw [insert] at h
    split at h
    · rename_i hq
      rcases List.mem_cons.1 h with h | h
      · exact .inl (hq ▸ h)
      · exact .inr (.tail _ h)
    · rcases List.mem_cons.1 h with h | h
      · exact .inr (h ▸ .head _)
      · exact (ih h).imp id (.tail _)

theorem mem_of_get? {k : κ} {v : β} {m : List (κ × β)} (h : get? k m = some v) : (k, v) ∈ m := by
  induction m with
  | nil => cases h
  | cons p m ih =>
    rw [get?] at h
    split at h
    · rename_i hp
      exact hp ▸ Option.some.inj h ▸ .head _
    · exact .tail _ (ih h)

theorem mem_keys_insert {k k' : κ} {v : β} {m : List (κ × β)} :
    k' ∈ keys (insert k v m) ↔ k' = k ∨ k' ∈ keys m := by
  rw [keys_insert]
  split
  · rename_i hk
    simpa using fun h : k' = k => h ▸ hk
  · simp [or_comm]

theorem ofList_concat (ps : List (κ × β)) (p : κ × β) :
    ofList (ps ++ [p]) = insert p.1 p.2 (ofList ps) := by
  simp [ofList]

theorem keys_ofList (ps : List (κ × β)) : keys (ofList ps) = (ps.map Prod.fst).eraseDups := by
  induction ps using List.reverseRecOn with
  | nil => rfl
  | append_singleton ps p ih =>
    rw [ofList_concat, keys_insert, ih, List.map_append, List.map_singleton, eraseDups_concat]
    simp only [List.mem_eraseDups]

theorem mem_keys_ofList {k : κ} {ps : List (κ × β)} :
    k ∈ keys (ofList ps) ↔ k ∈ ps.map Prod.fst := by
  rw [keys_ofList, List.mem_eraseDups]

theorem nodup_ofList (ps : List (κ × β)) : (keys (ofList ps)).Nodup := by
  rw [keys_ofList]
  exact nodup_eraseDups _

theorem mem_of_mem_ofList {p : κ × β} {ps : List (κ × β)} (h : p ∈ ofList ps) : p ∈ ps := by
  induction ps using List.reverseRecOn with
  | nil => cases h
  | append_singleton ps q ih =>
    rw [ofList_concat] at h
    rcases mem_insert h with h | h
    · exact List.mem_append_right _ (h ▸ .head _)
    · exact List.mem_append_left _ (ih h)

theorem get?_eq_none {k : κ} {m : List (κ × β)} : get? k m = none ↔ k ∉ keys m := by
  induction m with
  | nil => simp [get?, keys]
  | cons p m ih =>
    simp only [get?, keys, List.map_cons, List.mem_cons, not_or] at ih ⊢
    split
    · simp [*]
    · rw [ih]
      exact ⟨fun h => ⟨Ne.symm ‹_›, h⟩, And.right⟩

theorem contains_iff {k : κ} {m : List (κ × β)} : contains k m = true ↔ k ∈ keys m := by
  rw [contains, Option.isSome_iff_ne_none, Ne, get?_eq_none, not_not]

theorem mem_keys_of_get? {k : κ} {v : β} {m : List (κ × β)} (h : get? k m = some v) :
    k ∈ keys m :=
  Decidable.byContradiction fun hk => by simp [get?_eq_none.2 hk] at h

theorem get?_of_mem {m : List (κ × β)} (hm : (keys m).Nodup) {p : κ × β} (h : p ∈ m) :
    get? p.1 m = some p.2 := by
  induction m with
  | nil => cases h
  | cons q m ih =>
    obtain ⟨hq, hm⟩ := List.nodup_cons.1 hm
    cases h with
    | head => simp [get?]
    | tail _ h =>
      have hne : q.1 ≠ p.1 := fun e => hq (e ▸ List.mem_map_of_mem h)
      simpa [get?, hne] using ih hm h

theorem get?_eq_some {m : List (κ × β)} (hm : (keys m).Nodup) {k : κ} {v : β} :
    get? k m = some v ↔ (k, v) ∈ m := ⟨mem_of_get?, get?_of_mem hm⟩

theorem get?_map (f : κ → β) (ks : List κ) (k : κ) :
    get? k (ks.map fun k => (k, f k)) = if k ∈ ks then some (f k) else none := by
  induction ks with
  | nil => simp [get?]
  | cons k' ks ih =>
    by_cases h : k' = k
    · simp [get?, h]
    · simp [get?, h, ih, Ne.symm h]

theorem eq_map_keys {m : List (κ × β)} (hm : (keys m).Nodup) (default : β) :
    m = (keys m).map fun k => (k, getD k default m) := by
  rw [keys, List.map_map]
  refine (List.map_id m).symm.trans (List.map_congr_left fun p hp => ?_)
  simp [getD, get?_of_mem hm hp]

theorem get?_append (k : κ) (m n : List (κ × β)) : get? k (m ++ n) = (get? k m).or (get? k n) := by
  induction m with
  | nil => rfl
  | cons p m ih =>
    by_cases h : p.1 = k
    · simp [get?, h]
    · simp [get?, h, ih]

theorem lookup_eq [BEq κ] [LawfulBEq κ] (k : κ) (m : List (κ × β)) : m.lookup k = get? k m := by
  induction m with
  | nil => rfl
  | cons p m ih =>
    obtain ⟨k', v⟩ := p
    by_cases h : k' = k
    · simp [get?, h]
    · simp [List.lookup_cons, get?, h, beq_false_of_ne (Ne.symm h), ih]

theorem insert_of_not_mem {k : κ} {m : List (κ × β)} (h : k ∉ keys m) (v : β) :
    insert k v m = m ++ [(k, v)] := by
  induction m with
  | nil => rfl
  | cons p m ih =>
    simp only [keys, List.map_cons, List.mem_cons, not_or] at h
    rw [insert, if_neg (Ne.symm h.1), ih h.2, List.cons_append]

theorem insert_of_mem {k : κ} {m : List (κ × β)} (hm : (keys m).Nodup) (h : k ∈ keys m) (v : β) :
    insert k v m = m.map fun p => if p.1 = k then (k, v) else p := by
  induction m with
  | nil => cases h
  | cons p m ih =>
    obtain ⟨hp, hm⟩ := List.nodup_cons.1 hm
    rw [insert, List.map_cons]
    by_cases hk : p.1 = k
    · have hrest : m.map (fun q => if q.1 = k then (k, v) else q) = m.map id :=
        List.map_congr_left fun q hq => if_neg fun (he : q.1 = k) =>
          hp (hk.trans he.symm ▸ List.mem_map_of_mem hq)
      rw [if_pos hk, if_pos hk, hrest, List.map_id, hk]
    · rw [if_neg hk, if_neg hk, ih hm ((List.mem_cons.1 h).resolve_left (Ne.symm hk))]

section

variable {κ' γ : Type} [DecidableEq κ'] {f : κ → κ'} (hf : Function.Injective f) (g : β → γ)

include hf

theorem get?_renamed (k : κ) (m : List (κ × β)) :
    get? (f k) (m.map (Prod.map f g)) = (get? k m).map g := by
  induction m with
  | nil => rfl
  | cons p m ih =>
    obtain ⟨k', v'⟩ := p
    by_cases h : k' = k
    · simp [get?, h]
    · simp [get?, h, hf.ne h, ih]

theorem insert_renamed (k : κ) (v : β) (m : List (κ × β)) :
    insert (f k) (g v) (m.map (Prod.map f g)) = (insert k v m).map (Prod.map f g) := by
  induction m with
  | nil => rfl
  | cons p m ih =>
    obtain ⟨k', v'⟩ := p
    by_cases h : k' = k
    · simp [insert, h]
    · simp [insert, h, hf.ne h, ih]

end

end TagRank.Assoc
