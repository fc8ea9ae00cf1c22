import TagRank.Proofs.Service.Account
import TagRank.Proofs.Service.Reached
import TagRank.Proofs.Store.Upsert

namespace TagRank

namespace Store

variable {f : Filter} {document : String} {counts : Counts} {s t : Store}
  {rows : List (String × Int)}

theorem putAll_eq_self (hs : s.Numbered) (hd : (rows.map Prod.fst).Nodup)
    (hknown : ∀ row ∈ rows, ∃ k ∈ s.keywords, k.id = row.1)
    (hfound : ∀ row ∈ rows, ∃ b, s.associations.find? (Association.isOf row.1 document) = some b ∧
      b.content = (row.1, document, row.2)) : s.putAll .upsert document rows = s := by
  have hunknown : s.unknown (rows.map Prod.fst) = [] := by
    refine List.filter_eq_nil_iff.2 fun key hkey => ?_
    obtain ⟨row, hrow, rfl⟩ := List.mem_map.1 hkey
    obtain ⟨k, hk, hid⟩ := hknown row hrow
    rw [Bool.not_eq_true, Option.isNone_eq_false_iff, keyword?, List.find?_isSome]
    exact ⟨k, hk, beq_iff_eq.2 hid⟩
  have hkeywords := keywords_putAll .upsert document hd s
  rw [hunknown, List.map_nil, List.append_nil] at hkeywords
  obtain ⟨more, hput, -⟩ := putAll_eq .upsert document rows s
  have hmore : s.keywords ++ more = s.keywords := by
    rw [hput] at hkeywords
    exact hkeywords
  rw [hput, hmore, Association.Numbered.writeAll_eq_self hs hfound]

theorem putAll_putAll (hs : s.Numbered) (hd : (rows.map Prod.fst).Nodup) :
    (s.putAll .upsert document rows).putAll .upsert document rows =
      s.putAll .upsert document rows := by
  refine putAll_eq_self (hs.putAll _ _ _) hd ?_ fun row hrow => ?_
  · obtain ⟨_, hput, hknown⟩ := putAll_eq .upsert document rows s
    rw [hput]
    exact hknown
  · rw [associations_putAll]
    exact Association.Numbered.find?_writeAll hs hd hrow

theorem persist_persist (hs : s.Numbered) (hk : (Assoc.keys counts).Nodup) {o o' : PersistOutcome}
    {u : Store} (h : (persist .upsert f document counts).run s = .ok (o, t))
    (h' : (persist .upsert f document counts).run t = .ok (o', u)) : u = t := by
  obtain ⟨-, rows, hrows, rfl⟩ := persist_ok h
  obtain ⟨-, rows', hrows', rfl⟩ := persist_ok h'
  have hinjective : Function.Injective fun row : String × Int =>
      (row.1, (.ok row.2 : Except Error Int)) := by
    rintro ⟨key, n⟩ ⟨key', n'⟩ h
    cases h
    rfl
  rw [List.map_injective_iff.2 hinjective (hrows'.symm.trans hrows)]
  exact putAll_putAll hs (nodup_rows hk hrows)

end Store

open TagRank.Action

variable {α : Type} [Scalar α]

/-- Persisting once more leaves the store as it is. The oldest associations of the keywords with the
document take the counts, and none is linked with it twice that was not before. If nothing is refused
and nothing is measured, what the store accepts is persisted. The associations of every store that is
reached are numbered, whatever they were made by. -/
theorem Service.persist_settles {s : Service α} (hs : s.store.Numbered) (f : Filter)
    (document : String) {counts : Counts} (hk : (Assoc.keys counts).Nodup) :
    let (answer, t) := perform (persist .upsert f document counts) s
    (s.fault = none ∨ (∃ o, answer = .ok o ∧ o.status = .success) →
      ∀ u : Service α, u.store = t.store →
        (perform (persist .upsert f document counts) u).2.store = t.store) ∧
    (∀ o, answer = .ok o → o.status = .success →
      ∃ rows, Store.kept f counts = rows.map (fun row => (row.1, .ok row.2)) ∧
        Association.Settled document rows s.store.associations t.store.associations) ∧
    ((s.store.associations.map Association.link).Nodup →
      (t.store.associations.map Association.link).Nodup) ∧
    (s.fault = none → s.recorder = none → s.store.Accepts f document counts →
      ∃ o, answer = .ok o ∧ o.status = .success) := by
  have again := persist_cases (α := α) .upsert f document counts
  have h := again s
  generalize perform (persist .upsert f document counts) s = q at h
  obtain ⟨answer, t⟩ := q
  obtain ⟨o, hm, -, hunmeasured⟩ | ⟨hstore, hanswer, hfails⟩ := h
  · obtain ⟨hp, rows, hrows, ht⟩ := Store.persist_ok hm
    refine ⟨fun _ u hu => ?_, fun _ _ _ => ⟨rows, hrows, ?_⟩, fun hd => ?_,
      fun _ hr _ => ⟨o, hunmeasured hr, hp.status⟩⟩
    · obtain ⟨o', hm', -⟩ | ⟨h, -⟩ := again u
      · exact Store.persist_persist hs hk hm (hu ▸ hm')
      · exact h.trans hu
    · rw [ht, Store.associations_putAll]
      exact Association.settled_writeAll hs (Store.nodup_rows hk hrows)
    · rw [ht, Store.associations_putAll]
      exact Association.nodup_links_writeAll hd rows
  · refine ⟨fun hfirst u hu => ?_, fun o ho h => absurd h (hanswer o ho), fun hd => hstore ▸ hd,
      fun hfault _ haccepts => ?_⟩
    · obtain hfault | ⟨o, ho, h⟩ := hfirst
      · obtain ⟨e, he⟩ := hfails hfault
        obtain ⟨o', hm', -⟩ | ⟨h, -⟩ := again u
        · rw [hu, hstore] at hm'
          cases he.symm.trans hm'
        · exact h.trans hu
      · exact absurd h (hanswer o ho)
    · obtain ⟨e, he⟩ := hfails hfault
      obtain ⟨_, _, hm⟩ := (Store.accepts_iff .upsert).1 haccepts
      cases he.symm.trans hm

def linkedTwice : Service Rat :=
  Service.run [.load "d" [], .persist .create .default "d" [("abc_", .ok 3)],
    .persist .create .default "d" [("abc_", .ok 4)]] (.new Rat)

theorem Service.persist_settles_linkedTwice :
    let counts : Counts := [("abc_", .ok 2), ("abd_", .ok 1)]
    linkedTwice.store.Numbered ∧ (Assoc.keys counts).Nodup ∧
      ∃ o t, perform (persist .upsert .default "d" counts) linkedTwice = (.ok o, t) ∧
        o.status = .success ∧
        t.store.associations = [⟨1, "abc_", "d", 2⟩, ⟨2, "abc_", "d", 4⟩, ⟨3, "abd_", "d", 1⟩] ∧
        (perform (persist .upsert .default "d" counts) t).2.store = t.store := by
  intro counts
  have hs : linkedTwice.store.Numbered := (Reached.run _ (.start (.new Rat))).numbered
  have hk : (Assoc.keys counts).Nodup := by decide
  have hp : (fun q : Except Error PersistOutcome × Service Rat =>
      (q.1.toOption.map PersistOutcome.status, q.2.store.associations))
        (perform (persist .upsert .default "d" counts) linkedTwice) =
      (some .success, [⟨1, "abc_", "d", 2⟩, ⟨2, "abc_", "d", 4⟩, ⟨3, "abd_", "d", 1⟩]) := by
    decide +kernel
  have hagain := Service.persist_settles hs .default "d" hk
  generalize perform (persist .upsert .default "d" counts) linkedTwice = q at hp hagain
  obtain ⟨_ | o, t⟩ := q
  · cases congrArg Prod.fst hp
  · obtain ⟨hst, ht⟩ := Prod.mk.inj hp
    have hst := Option.some.inj hst
    exact ⟨hs, hk, o, t, rfl, hst, ht, hagain.1 (.inr ⟨o, rfl, hst⟩) t rfl⟩

end TagRank
