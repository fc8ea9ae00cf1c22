import TagRank.Proofs.Store.Keyword

namespace TagRank

namespace Association

variable {policy : Policy} {keyword document : String} {as : List Association} {a : Association}

structure IsOldest (as : List Association) (a : Association) : Prop where
  mem : a ∈ as
  least : ∀ b ∈ as, b.keyword = a.keyword → b.document = a.document → a.id ≤ b.id

theorem Numbered.isOldest_iff (hn : Numbered as) :
    as.find? (isOf keyword document) = some a ↔
      IsOldest as a ∧ a.keyword = keyword ∧ a.document = document := by
  have hfirst {b : Association} (h : as.find? (isOf keyword document) = some b) :
      IsOldest as b ∧ b.keyword = keyword ∧ b.document = document := by
    obtain ⟨hb, before, after, rfl, hc⟩ := List.find?_eq_some_iff_append.1 h
    simp only [isOf, Bool.and_eq_true, beq_iff_eq] at hb
    refine ⟨⟨by simp, fun c hm hk hd => ?_⟩, hb⟩
    rcases List.mem_append.1 hm with hm | hm
    · have := hc c hm
      simp [isOf, hk, hd, hb] at this
    · rcases List.mem_cons.1 hm with rfl | hm
      · exact Nat.le_refl _
      · have hp := (List.pairwise_append.1 hn.pairwise).2.1
        exact Nat.le_of_lt (List.rel_of_pairwise_cons hp hm)
  constructor
  · exact hfirst
  · rintro ⟨ha, rfl, rfl⟩
    cases hf : as.find? (isOf a.keyword a.document) with
    | none =>
      have := List.find?_eq_none.1 hf a ha.mem
      simp [isOf] at this
    | some b =>
      obtain ⟨hb, hk, hd⟩ := hfirst hf
      have hid : b.id = a.id :=
        Nat.le_antisymm (hb.least a ha.mem hk.symm hd.symm) (ha.least b hb.mem hk hd)
      rw [hn.eq_of_id_eq hb.mem ha.mem hid]

theorem Numbered.find?_write (hn : Numbered as) {row : String × Int} (h : row.1 ≠ keyword) :
    (Association.write policy document as row).find? (isOf keyword document) =
      as.find? (isOf keyword document) := by
  cases policy with
  | create => exact find?_concat_of_ne h
  | upsert =>
    simp only [Association.write]
    split
    · exact find?_concat_of_ne h
    · rename_i a ha
      rw [find?_map_isOf (isOf_set _ _)]
      cases hb : as.find? (isOf keyword document) with
      | none => rfl
      | some b =>
        refine congrArg some (if_neg fun hid => h ?_)
        obtain rfl :=
          hn.eq_of_id_eq (List.mem_of_find?_eq_some hb) (List.mem_of_find?_eq_some ha) hid
        exact (eq_of_find? ha).1.symm.trans (eq_of_find? hb).1

theorem Numbered.find?_writeAll_of_not_mem (hn : Numbered as) {rows : List (String × Int)}
    (h : keyword ∉ rows.map Prod.fst) :
    (Association.writeAll policy document rows as).find? (isOf keyword document) =
      as.find? (isOf keyword document) := by
  induction rows generalizing as with
  | nil => rfl
  | cons row rows ih =>
    obtain ⟨hrow, hrows⟩ := not_or.1 (List.mem_cons.not.1 h)
    exact (ih (hn.write row) hrows).trans (hn.find?_write (Ne.symm hrow))

theorem find?_write_self (document : String) (row : String × Int) (as : List Association) :
    ∃ b, (write .upsert document as row).find? (isOf row.1 document) = some b ∧
      b.content = (row.1, document, row.2) := by
  simp only [write]
  cases ha : as.find? (isOf row.1 document) with
  | none => exact ⟨⟨as.length + 1, row.1, document, row.2⟩, by simp [ha, isOf], rfl⟩
  | some a =>
    dsimp only
    have hk := eq_of_find? ha
    rw [find?_map_isOf (isOf_set _ _), ha]
    refine ⟨_, congrArg some (if_pos rfl), ?_⟩
    exact congrArg₂ Prod.mk hk.1 (congrArg₂ Prod.mk hk.2 rfl)

theorem Numbered.find?_writeAll (hn : Numbered as) {rows : List (String × Int)}
    (hd : (rows.map Prod.fst).Nodup) {row : String × Int} (h : row ∈ rows) :
    ∃ b, (Association.writeAll .upsert document rows as).find? (isOf row.1 document) = some b ∧
      b.content = (row.1, document, row.2) := by
  induction rows generalizing as with
  | nil => cases h
  | cons r rows ih =>
    obtain ⟨hr, hd⟩ := List.nodup_cons.1 hd
    rcases List.mem_cons.1 h with rfl | h
    · obtain ⟨b, hb, hc⟩ := find?_write_self document row as
      exact ⟨b, ((hn.write row).find?_writeAll_of_not_mem hr).trans hb, hc⟩
    · exact ih (hn.write r) hd h

theorem Numbered.write_eq_self (hn : Numbered as) {row : String × Int} {b : Association}
    (hb : as.find? (isOf row.1 document) = some b) (hc : b.content = (row.1, document, row.2)) :
    Association.write .upsert document as row = as := by
  simp only [Association.write, hb]
  refine (List.map_congr_left fun a ha => ?_).trans as.map_id
  split
  · rename_i hid
    obtain rfl := hn.eq_of_id_eq ha (List.mem_of_find?_eq_some hb) hid
    rw [show row.2 = a.count from (congrArg (·.2.2) hc).symm]
    rfl
  · rfl

theorem Numbered.writeAll_eq_self (hn : Numbered as) {rows : List (String × Int)}
    (h : ∀ row ∈ rows, ∃ b, as.find? (isOf row.1 document) = some b ∧
      b.content = (row.1, document, row.2)) :
    Association.writeAll .upsert document rows as = as := by
  induction rows with
  | nil => rfl
  | cons row rows ih =>
    obtain ⟨⟨b, hb, hc⟩, hrows⟩ := List.forall_mem_cons.1 h
    have hrow := hn.write_eq_self hb hc
    rw [Association.writeAll, List.foldl_cons, hrow]
    exact ih hrows

theorem find?_of_mem {rows : List (String × Int)} (hd : (rows.map Prod.fst).Nodup)
    {row : String × Int} (h : row ∈ rows) : rows.find? (·.1 == row.1) = some row := by
  induction rows with
  | nil => cases h
  | cons r rows ih =>
    obtain ⟨hr, hd⟩ := List.nodup_cons.1 hd
    rcases List.mem_cons.1 h with rfl | h
    · simp
    · have hne : r.1 ≠ row.1 := fun he => hr (he ▸ List.mem_map_of_mem h)
      simpa [hne] using ih hd h

theorem recount_of_mem {rows : List (String × Int)} (hd : (rows.map Prod.fst).Nodup)
    {row : String × Int} (h : row ∈ rows) {a : Association}
    (ha : as.find? (isOf row.1 document) = some a) :
    recount document rows as a = { a with count := row.2 } := by
  simp only [recount]
  rw [(eq_of_find? ha).1, find?_of_mem hd h]
  exact if_pos ha

theorem recount_of_forall {rows : List (String × Int)} {a : Association}
    (h : ∀ row ∈ rows, as.find? (isOf row.1 document) ≠ some a) :
    recount document rows as a = a := by
  simp only [recount]
  split
  · rfl
  · rename_i row hrow
    exact if_neg (h row (List.mem_of_find?_eq_some hrow))

/-- What setting the counts of some keywords of a document makes of the rows. -/
structure Settled (document : String) (rows : List (String × Int)) (as bs : List Association) :
    Prop where
  counts : ∀ row ∈ rows, ∃ b, IsOldest bs b ∧ b.content = (row.1, document, row.2)
  oldest : ∀ row ∈ rows, ∀ a, IsOldest as a → a.keyword = row.1 → a.document = document →
    IsOldest bs { a with count := row.2 }
  others : ∀ a ∈ as,
    (∀ row ∈ rows, ¬(IsOldest as a ∧ a.keyword = row.1 ∧ a.document = document)) → a ∈ bs
  numbers : as.map id <+: bs.map id

theorem settled_writeAll (hn : Numbered as) {rows : List (String × Int)}
    (hd : (rows.map Prod.fst).Nodup) :
    Settled document rows as (writeAll .upsert document rows as) := by
  obtain ⟨more, hm, -⟩ := writeAll_upsert document hn hd
  have hn' : Numbered (writeAll .upsert document rows as) := hn.writeAll rows
  have hmem (a : Association) (ha : a ∈ as) :
      recount document rows as a ∈ writeAll .upsert document rows as :=
    hm ▸ List.mem_append_left _ (List.mem_map_of_mem ha)
  constructor
  · intro row hrow
    obtain ⟨b, hb, hc⟩ := hn.find?_writeAll hd hrow
    exact ⟨b, (hn'.isOldest_iff.1 hb).1, hc⟩
  · intro row hrow a ha hk hdoc
    have hf := hn.isOldest_iff.2 ⟨ha, hk, hdoc⟩
    have hfound : (writeAll .upsert document rows as).find? (isOf row.1 document) =
        some { a with count := row.2 } := by
      rw [hm, List.find?_append, find?_recount, hf, Option.map_some, recount_of_mem hd hrow hf,
        Option.some_or]
    exact (hn'.isOldest_iff.1 hfound).1
  · intro a ha h
    have hsame : recount document rows as a = a :=
      recount_of_forall fun row hrow hf => h row hrow (hn.isOldest_iff.1 hf)
    exact hsame ▸ hmem a ha
  · have hid : (as.map (recount document rows as)).map id = as.map id :=
      (List.map_map ..).trans (List.map_congr_left fun a _ => recount_id rows a)
    rw [hm, List.map_append, hid]
    exact List.prefix_append _ _

def link (a : Association) : String × String := (a.keyword, a.document)

theorem nodup_links_write (h : (as.map link).Nodup) (row : String × Int) :
    ((write .upsert document as row).map link).Nodup := by
  simp only [write]
  split
  · rename_i hf
    rw [List.map_append, List.map_singleton, ← List.concat_eq_append, List.nodup_concat]
    refine ⟨fun hm => ?_, h⟩
    obtain ⟨a, ha, hl⟩ := List.mem_map.1 hm
    obtain ⟨hk, hd⟩ := Prod.mk.inj hl
    exact List.find?_eq_none.1 hf a ha (by simp [isOf, hk, hd])
  · rename_i a _
    have hlink : link ∘ (fun b => if b.id = a.id then { b with count := row.2 } else b) = link := by
      funext b
      simp only [Function.comp_apply]
      split <;> rfl
    rwa [List.map_map, hlink]

theorem nodup_links_writeAll (h : (as.map link).Nodup) (rows : List (String × Int)) :
    ((writeAll .upsert document rows as).map link).Nodup := by
  induction rows generalizing as with
  | nil => exact h
  | cons row rows ih => exact ih (nodup_links_write h row)

end Association

end TagRank
