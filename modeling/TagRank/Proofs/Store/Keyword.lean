import Mathlib.Data.List.Induction
import Mathlib.Data.List.Nodup
import TagRank.Service.Persist

namespace TagRank

namespace Association

def content (a : Association) : String × String × Int := (a.keyword, a.document, a.count)

def isOf (keyword document : String) (a : Association) : Bool :=
  a.keyword == keyword && a.document == document

def write (policy : Policy) (document : String) (as : List Association) (row : String × Int) :
    List Association :=
  let more := as ++ [⟨as.length + 1, row.1, document, row.2⟩]
  match policy with
  | .create => more
  | .upsert => match as.find? (isOf row.1 document) with
    | none => more
    | some a => as.map fun b => if b.id = a.id then { b with count := row.2 } else b

def writeAll (policy : Policy) (document : String) (rows : List (String × Int))
    (as : List Association) : List Association :=
  rows.foldl (write policy document) as

def Numbered (as : List Association) : Prop := as.map id = List.range' 1 as.length

variable {policy : Policy} {keyword document : String} {as : List Association}

theorem Numbered.append (h : Numbered as) (count : Int) :
    Numbered (as ++ [⟨as.length + 1, keyword, document, count⟩]) := by
  simp only [Numbered] at *
  rw [List.map_append, h, List.length_append, List.length_singleton, List.range'_concat]
  simp [Nat.add_comm]

theorem Numbered.map (h : Numbered as) {f : Association → Association} (hf : ∀ a, (f a).id = a.id) :
    Numbered (as.map f) := by
  simp only [Numbered] at *
  rw [List.map_map, List.length_map, ← h]
  exact congrArg (as.map ·) (funext hf)

theorem Numbered.write (h : Numbered as) (row : String × Int) :
    Numbered (write policy document as row) := by
  cases policy with
  | create => exact h.append _
  | upsert =>
    simp only [Association.write]
    split
    · exact h.append _
    · refine h.map fun b => ?_
      split <;> rfl

theorem Numbered.writeAll (h : Numbered as) (rows : List (String × Int)) :
    Numbered (writeAll policy document rows as) := by
  induction rows generalizing as with
  | nil => exact h
  | cons row rows ih => exact ih (h.write row)

theorem Numbered.pairwise (h : Numbered as) : as.Pairwise fun a b => a.id < b.id := by
  have : (as.map id).Pairwise (· < ·) := h ▸ List.pairwise_lt_range'
  exact List.pairwise_map.1 this

theorem Numbered.eq_of_id_eq (h : Numbered as) {a b : Association} (ha : a ∈ as) (hb : b ∈ as)
    (hid : a.id = b.id) : a = b := by
  have : (as.map id).Nodup := h ▸ List.nodup_range'
  exact List.inj_on_of_nodup_map this ha hb hid

theorem writeAll_create (document : String) (rows : List (String × Int)) (as : List Association) :
    ∃ more, writeAll .create document rows as = as ++ more ∧
      more.map content = rows.map fun row => (row.1, document, row.2) := by
  induction rows generalizing as with
  | nil => exact ⟨[], by simp [writeAll], rfl⟩
  | cons row rows ih =>
    obtain ⟨more, hm, hc⟩ := ih (write .create document as row)
    refine ⟨⟨as.length + 1, row.1, document, row.2⟩ :: more, ?_, ?_⟩
    · simp only [writeAll] at *
      rw [List.foldl_cons, hm]
      simp [write]
    · rw [List.map_cons, hc]
      rfl

theorem length_writeAll_create (document : String) (rows : List (String × Int))
    (as : List Association) :
    (writeAll .create document rows as).length = as.length + rows.length := by
  obtain ⟨more, hm, hc⟩ := writeAll_create document rows as
  have hlength := congrArg List.length hc
  rw [List.length_map, List.length_map] at hlength
  rw [hm, List.length_append, hlength]

/-- The row with the count that some rows to be written give it: the oldest of its keyword and
document takes it. -/
def recount (document : String) (rows : List (String × Int)) (as : List Association)
    (a : Association) : Association :=
  match rows.find? (·.1 == a.keyword) with
  | none => a
  | some row => if as.find? (isOf row.1 document) = some a then { a with count := row.2 } else a

def fresh (document : String) (rows : List (String × Int)) (as : List Association) :
    List (String × Int) :=
  rows.filter fun row => (as.find? (isOf row.1 document)).isNone

theorem find?_map_isOf {g : Association → Association}
    (hg : ∀ a, isOf keyword document (g a) = isOf keyword document a) :
    (as.map g).find? (isOf keyword document) = (as.find? (isOf keyword document)).map g := by
  rw [List.find?_map]
  exact congrArg (fun p => (as.find? p).map g) (funext hg)

theorem eq_of_find? {a : Association} (h : as.find? (isOf keyword document) = some a) :
    a.keyword = keyword ∧ a.document = document := by
  simpa [isOf] using List.find?_some h

theorem isOf_set (a : Association) (count : Int) (b : Association) :
    isOf keyword document (if b.id = a.id then { b with count } else b) =
      isOf keyword document b := by
  split <;> rfl

theorem find?_concat_of_ne {a : Association} (h : a.keyword ≠ keyword) :
    (as ++ [a]).find? (isOf keyword document) = as.find? (isOf keyword document) := by
  simp [List.find?_append, isOf, h]

theorem isNone_find?_write {row : String × Int} (h : row.1 ≠ keyword) :
    ((write policy document as row).find? (isOf keyword document)).isNone =
      (as.find? (isOf keyword document)).isNone := by
  cases policy with
  | create => exact congrArg Option.isNone (find?_concat_of_ne h)
  | upsert =>
    simp only [write]
    split
    · exact congrArg Option.isNone (find?_concat_of_ne h)
    · rw [find?_map_isOf (isOf_set _ _), Option.isNone_map]

theorem fresh_write {row : String × Int} {rows : List (String × Int)}
    (h : row.1 ∉ rows.map Prod.fst) :
    fresh document rows (write policy document as row) = fresh document rows as :=
  List.filter_congr fun _ hr => isNone_find?_write fun he => h (he ▸ List.mem_map_of_mem hr)

theorem length_write_upsert (document : String) (row : String × Int) (as : List Association) :
    (write .upsert document as row).length = as.length + (fresh document [row] as).length := by
  simp only [write, fresh]
  cases h : as.find? (isOf row.1 document) <;> simp [h]

theorem length_writeAll_upsert (document : String) {rows : List (String × Int)}
    (hd : (rows.map Prod.fst).Nodup) (as : List Association) :
    (writeAll .upsert document rows as).length = as.length + (fresh document rows as).length := by
  induction rows generalizing as with
  | nil => rfl
  | cons row rows ih =>
    obtain ⟨hrow, hd⟩ := List.nodup_cons.1 hd
    have hrows : writeAll .upsert document (row :: rows) as =
        writeAll .upsert document rows (write .upsert document as row) := rfl
    have hfresh : fresh document (row :: rows) as =
        fresh document [row] as ++ fresh document rows as := List.filter_append [row] rows
    rw [hrows, ih hd, fresh_write hrow, length_write_upsert, hfresh, List.length_append,
      Nat.add_assoc]

@[simp] theorem recount_id (rows : List (String × Int)) (a : Association) :
    (recount document rows as a).id = a.id := by
  simp only [recount]
  split
  · rfl
  · split <;> rfl

@[simp] theorem recount_keyword (rows : List (String × Int)) (a : Association) :
    (recount document rows as a).keyword = a.keyword := by
  simp only [recount]
  split
  · rfl
  · split <;> rfl

@[simp] theorem recount_document (rows : List (String × Int)) (a : Association) :
    (recount document rows as a).document = a.document := by
  simp only [recount]
  split
  · rfl
  · split <;> rfl

theorem recount_concat {rows : List (String × Int)} {row : String × Int}
    (h : row.1 ∉ rows.map Prod.fst) (a : Association) :
    recount document (rows ++ [row]) as a =
      if as.find? (isOf row.1 document) = some a then { a with count := row.2 }
      else recount document rows as a := by
  simp only [recount]
  rw [List.find?_append]
  by_cases hk : row.1 = a.keyword
  · have : rows.find? (·.1 == a.keyword) = none := by
      rw [List.find?_eq_none]
      rintro r hr hk'
      exact h (List.mem_map.2 ⟨r, hr, by simpa [hk] using hk'⟩)
    simp [this, hk]
  · have : as.find? (isOf row.1 document) ≠ some a := by
      intro hf
      have := List.find?_some hf
      simp [isOf, Ne.symm hk] at this
    simp [this, hk]

theorem find?_recount (rows : List (String × Int)) :
    (as.map (recount document rows as)).find? (isOf keyword document) =
      (as.find? (isOf keyword document)).map (recount document rows as) :=
  find?_map_isOf fun a => by simp [isOf]

theorem find?_of_not_mem {rows : List (String × Int)} {more : List Association}
    (hc : ∀ c ∈ more.map content, c.1 ∈ rows.map Prod.fst) (h : keyword ∉ rows.map Prod.fst) :
    more.find? (isOf keyword document) = none := by
  rw [List.find?_eq_none]
  intro a ha hk
  simp only [isOf, Bool.and_eq_true, beq_iff_eq] at hk
  exact h (hk.1 ▸ hc _ (List.mem_map_of_mem ha))

theorem map_recount_concat {rows : List (String × Int)} {row : String × Int} (hn : Numbered as)
    (h : row.1 ∉ rows.map Prod.fst) {a : Association}
    (ha : as.find? (isOf row.1 document) = some a) :
    (as.map (recount document rows as)).map
        (fun b => if b.id = a.id then { b with count := row.2 } else b) =
      as.map (recount document (rows ++ [row]) as) := by
  have hmem : a ∈ as := List.mem_of_find?_eq_some ha
  rw [List.map_map]
  apply List.map_congr_left
  intro b hb
  have hab : b.id = a.id ↔ a = b :=
    ⟨fun h => (hn.eq_of_id_eq hb hmem h).symm, fun h => h ▸ rfl⟩
  simp only [recount_concat h, ha, Option.some.injEq, Function.comp_apply, recount_id]
  by_cases h : a = b
  · rw [if_pos (hab.2 h), if_pos h, recount_keyword, recount_document]
  · rw [if_neg (hab.not.2 h), if_neg h]

theorem writeAll_upsert (document : String) {rows : List (String × Int)} (hn : Numbered as)
    (hd : (rows.map Prod.fst).Nodup) :
    ∃ more, writeAll .upsert document rows as = as.map (recount document rows as) ++ more ∧
      more.map content = (fresh document rows as).map fun row => (row.1, document, row.2) := by
  induction rows using List.reverseRecOn with
  | nil => exact ⟨[], ((List.append_nil _).trans as.map_id).symm, rfl⟩
  | append_singleton rows row ih =>
    rw [List.map_append, List.nodup_append] at hd
    obtain ⟨more, hm, hc⟩ := ih hd.1
    have hrow : row.1 ∉ rows.map Prod.fst := fun h => hd.2.2 _ h _ (by simp) rfl
    have hmore : ∀ c ∈ more.map content, c.1 ∈ rows.map Prod.fst := by
      intro c h
      obtain ⟨r, hr, rfl⟩ := List.mem_map.1 (hc ▸ h)
      exact List.mem_map_of_mem (List.mem_filter.1 hr).1
    have hfind : (as.map (recount document rows as) ++ more).find? (isOf row.1 document) =
        (as.find? (isOf row.1 document)).map (recount document rows as) := by
      rw [List.find?_append, find?_recount, find?_of_not_mem hmore hrow, Option.or_none]
    have hlast : writeAll .upsert document (rows ++ [row]) as =
        write .upsert document (as.map (recount document rows as) ++ more) row := by
      rw [← hm, writeAll, List.foldl_append]
      rfl
    rw [hlast]
    simp only [write, hfind]
    cases ha : as.find? (isOf row.1 document) with
    | none =>
      have hold :
          as.map (recount document (rows ++ [row]) as) = as.map (recount document rows as) :=
        List.map_congr_left fun a _ => by simp [recount_concat hrow, ha]
      refine ⟨more ++ [⟨(as.map (recount document rows as) ++ more).length + 1, row.1, document,
        row.2⟩], ?_, ?_⟩
      · simp [hold]
      · simp [hc, fresh, ha, content]
    | some a =>
      have hnum : Numbered (as.map (recount document rows as) ++ more) := hm ▸ hn.writeAll rows
      -- the new rows are younger than every old one
      have hyoung : ∀ b ∈ more, b.id ≠ a.id := by
        intro b hb
        have hlt := (List.pairwise_append.1 hnum.pairwise).2.2 _
          (List.mem_map_of_mem (List.mem_of_find?_eq_some ha)) b hb
        rw [recount_id] at hlt
        exact Nat.ne_of_gt hlt
      refine ⟨more, ?_, ?_⟩
      · simp only [Option.map_some, recount_id]
        rw [List.map_append, map_recount_concat hn hrow ha]
        congr 1
        exact (List.map_congr_left fun b hb => if_neg (hyoung b hb)).trans more.map_id
      · simp [hc, fresh, ha]

end Association

end TagRank
