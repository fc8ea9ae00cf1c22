import TagRank.Proofs.Service.Write

namespace TagRank

namespace Store

variable {policy : Policy} {f : Filter} {document : String} {counts : Counts} {s t : Store}
  {row : String × Int} {rows : List (String × Int)} {keys : List String}

def unknown (s : Store) (keys : List String) : List String :=
  keys.filter fun key => (s.keyword? key).isNone

def unlinked (s : Store) (document : String) (keys : List String) : List String :=
  keys.filter fun key => (s.oldestAssociation? key document).isNone

theorem keywords_put (policy : Policy) (document : String) (row : String × Int) (s : Store) :
    (s.put policy document row).keywords =
      s.keywords ++ (s.unknown [row.1]).map fun key => ⟨key, Key.value key⟩ := by
  simp only [put, addKeyword, unknown]
  cases h : s.keyword? row.1 <;> simp [h]

theorem isNone_keyword?_put {key : String} (h : row.1 ≠ key) :
    ((s.put policy document row).keyword? key).isNone = (s.keyword? key).isNone := by
  simp only [keyword?, keywords_put, unknown]
  rw [List.find?_append]
  cases (s.keywords.find? fun k => k.id == row.1) <;> simp [h]

theorem unknown_put (h : row.1 ∉ keys) :
    (s.put policy document row).unknown keys = s.unknown keys :=
  List.filter_congr fun _ hk => isNone_keyword?_put fun he => h (he ▸ hk)

theorem keywords_putAll (policy : Policy) (document : String) (hd : (rows.map Prod.fst).Nodup)
    (s : Store) : (s.putAll policy document rows).keywords =
      s.keywords ++ (s.unknown (rows.map Prod.fst)).map fun key => ⟨key, Key.value key⟩ := by
  induction rows generalizing s with
  | nil => exact (List.append_nil _).symm
  | cons row rows ih =>
    obtain ⟨hrow, hd⟩ := List.nodup_cons.1 hd
    have hrows : s.putAll policy document (row :: rows) =
        (s.put policy document row).putAll policy document rows := rfl
    have hunknown : s.unknown ((row :: rows).map Prod.fst) =
        s.unknown [row.1] ++ s.unknown (rows.map Prod.fst) := List.filter_append [row.1] _
    rw [hrows, ih hd, unknown_put hrow, keywords_put, hunknown, List.map_append, List.append_assoc]

theorem length_unlinked (s : Store) (document : String) (rows : List (String × Int)) :
    (s.unlinked document (rows.map Prod.fst)).length =
      (Association.fresh document rows s.associations).length := by
  rw [unlinked, List.filter_map, List.length_map]
  rfl

theorem length_associations_putAll (policy : Policy) (document : String)
    (hd : (rows.map Prod.fst).Nodup) (s : Store) :
    (s.putAll policy document rows).associations.length = s.associations.length +
      match policy with
      | .create => rows.length
      | .upsert => (s.unlinked document (rows.map Prod.fst)).length := by
  rw [associations_putAll]
  cases policy with
  | create => exact Association.length_writeAll_create _ _ _
  | upsert =>
    dsimp only
    rw [length_unlinked]
    exact Association.length_writeAll_upsert _ hd _

theorem Enters.created {o o' : PersistOutcome} (h : Enters policy f document counts o s o' t) :
    o'.created + s.keywords.length = o.created + t.keywords.length := by
  induction h with
  | done => rfl
  | skip _ _ ih => exact ih
  | @wrote key n _ _ s _ _ _ _ _ ih =>
    have hlength : (s.put policy document (key, n)).keywords.length =
        s.keywords.length + (s.keyword? key).isNone.toNat := by
      rw [keywords_put, List.length_append, List.length_map, unknown]
      cases h : s.keyword? key <;> simp [h]
    rw [hlength, PersistOutcome.created_wrote] at ih
    omega

theorem Enters.fits {o o' : PersistOutcome} (h : Enters policy f document counts o s o' t) :
    ∀ c ∈ kept f counts, Fits c.2 := by
  induction h with
  | done => exact fun _ hc => nomatch hc
  | skip hf _ ih => simpa [kept, hf] using ih
  | @wrote key n _ _ _ _ _ hf hn _ ih =>
    rw [kept, List.filter_cons_of_pos (by simp [hf])]
    exact List.forall_mem_cons.2 ⟨⟨n, rfl, hn⟩, ih⟩

/-- The document is known, and every count that is needed can be held. -/
structure Accepts (f : Filter) (document : String) (counts : Counts) (s : Store) : Prop where
  known : s.hasDocument document = true
  fits : ∀ c ∈ kept f counts, Fits c.2

theorem accepts_iff (policy : Policy) : Accepts f document counts s ↔
    ∃ o t, (persist policy f document counts).run s = .ok (o, t) := by
  rw [persist_eq]
  constructor
  · rintro ⟨hd, hfits⟩
    rw [if_pos hd]
    exact persistAll_run policy f hd hfits _
  · rintro ⟨o, t, h⟩
    split at h
    · exact ⟨‹_›, (persistAll_enters ‹_› h).fits⟩
    · cases h

/-- What an outcome says about the stores before and after. -/
structure Accounts (policy : Policy) (f : Filter) (document : String) (counts : Counts)
    (o : PersistOutcome) (s t : Store) : Prop where
  success : o.status = .success
  skipped : o.skipped = Store.skipped f counts
  written : o.written = (kept f counts).length
  touched : o.created + o.reused = o.written
  created : o.created = (s.unknown (Assoc.keys (kept f counts))).length
  keywords : t.keywords =
    s.keywords ++ (s.unknown (Assoc.keys (kept f counts))).map fun key => ⟨key, Key.value key⟩
  linked : s.associations.map Association.id <+: t.associations.map Association.id
  associations : t.associations.length = s.associations.length + match policy with
    | .create => o.written
    | .upsert => (s.unlinked document (Assoc.keys (kept f counts))).length
  others : t = { s with keywords := t.keywords, associations := t.associations }

theorem keys_kept (hrows : kept f counts = rows.map fun row => (row.1, .ok row.2)) :
    Assoc.keys (kept f counts) = rows.map Prod.fst := by
  rw [hrows, Assoc.keys, List.map_map]
  rfl

theorem nodup_rows (hk : (Assoc.keys counts).Nodup)
    (hrows : kept f counts = rows.map fun row => (row.1, .ok row.2)) :
    (rows.map Prod.fst).Nodup :=
  keys_kept hrows ▸ hk.sublist (List.Sublist.map _ List.filter_sublist)

theorem accounts_persist (hk : (Assoc.keys counts).Nodup) {o : PersistOutcome}
    (h : (persist policy f document counts).run s = .ok (o, t)) :
    Accounts policy f document counts o s t := by
  have hwrites := Change.writes_persist (P := fun _ => True) trivial policy f counts h
  have haccepts := (accepts_iff policy).2 ⟨o, t, h⟩
  obtain ⟨hp, rows, hrows, rfl⟩ := persist_ok h
  rw [persist_eq, if_pos haccepts.known] at h
  have hcreated := (persistAll_enters haccepts.known h).created
  have hkeys := keys_kept hrows
  have hd := nodup_rows hk hrows
  have hkeywords := keywords_putAll policy document hd s
  have hwritten : o.written = (kept f counts).length := hp.written.trans (Nat.zero_add _)
  exact {
    success := hp.status
    skipped := hp.skipped
    written := hwritten
    touched := by simpa [PersistOutcome.start] using hp.touched
    created := by
      rw [hkeywords, List.length_append, List.length_map] at hcreated
      rw [hkeys]
      simp only [PersistOutcome.start] at hcreated
      omega
    keywords := hkeys ▸ hkeywords
    linked := hwrites.grows.associations
    associations := by
      rw [length_associations_putAll policy document hd s, hkeys, hwritten, hrows, List.length_map]
    others := by
      obtain ⟨_, ht, _⟩ := putAll_eq policy document rows s
      rw [ht] }

end Store

open TagRank.Action

variable {α : Type} [Scalar α]

/-- Persisting writes all the keywords that are not stopwords, and its outcome says what it has
written; or it writes nothing, and says so. -/
theorem Service.persist_accounts (s : Service α) (policy : Policy) (f : Filter) (document : String)
    {counts : Counts} (hk : (Assoc.keys counts).Nodup) :
    let write := (perform (transaction (persisting policy f document counts)) s).1
    let (answer, t) := perform (persist policy f document counts) s
    (∀ o, answer = .ok o → o.status = .success →
      Store.Accounts policy f document counts o s.store t.store) ∧
    (∀ o, write = .ok o → Store.Accounts policy f document counts o s.store t.store ∧
      (s.recorder = none → answer = .ok o)) ∧
    (∀ e, write = .error e → t.store = s.store ∧ ∀ o, answer = .ok o → o.status ≠ .success) ∧
    (¬s.store.Accepts f document counts → ∃ e, write = .error e) ∧
    (s.fault = none → s.store.Accepts f document counts → ∃ o, write = .ok o) := by
  have hwrite := transaction_cases (means_persist policy f document counts) s
  have htold := told_persist policy f document counts s
  generalize perform (transaction (persisting policy f document counts)) s = p at hwrite htold
  generalize perform (persist policy f document counts) s = q at htold
  obtain ⟨answer, t⟩ := q
  cases hwrite with
  | @committed o u hm hcalm =>
    cases htold with
    | success hn =>
      have haccounts := Store.accounts_persist hk hm
      rw [← hn.store] at haccounts
      refine ⟨fun o' ho _ => ?_, fun o' ho => ?_, fun _ he => (nomatch he),
        fun h => absurd ((Store.accepts_iff policy).2 ⟨o, _, hm⟩) h, fun _ _ => ⟨o, rfl⟩⟩
      · cases hn.answer ho
        exact haccounts
      · cases ho
        exact ⟨haccounts, fun hr => hn.answer_of_none (hcalm.recorder.trans hr)⟩
  | undone hm hs =>
    obtain ⟨hstore, hanswer⟩ := htold.failed
    refine ⟨fun o ho h => absurd h (hanswer o ho), fun _ ho => (nomatch ho),
      fun _ _ => ⟨hstore.trans hs, hanswer⟩, fun _ => ⟨_, rfl⟩, fun _ h => ?_⟩
    obtain ⟨_, _, hrun⟩ := (Store.accepts_iff policy).1 h
    cases hm.symm.trans hrun
  | struck hf hs =>
    obtain ⟨hstore, hanswer⟩ := htold.failed
    exact ⟨fun o ho h => absurd h (hanswer o ho), fun _ ho => (nomatch ho),
      fun _ _ => ⟨hstore.trans hs, hanswer⟩, fun _ => ⟨_, rfl⟩, fun h => absurd h hf⟩

def oneDocument : Service Rat :=
  { Service.new Rat with store := { Store.empty with documents := ["d"] } }

theorem Service.persist_accounts_oneDocument :
    let f : Filter := ⟨["the"], true⟩
    let counts : Counts := [("abc_", .ok 2), ("the_", .ok 1)]
    (Assoc.keys counts).Nodup ∧
      ∃ o t, perform (persist .create f "d" counts) oneDocument = (.ok o, t) ∧
        o.status = .success ∧ o.skipped = ["the_"] ∧
        Store.Accounts .create f "d" counts o oneDocument.store t.store := by
  intro f counts
  have hk : (Assoc.keys counts).Nodup := by decide
  have hp : ((perform (persist .create f "d" counts) oneDocument).1.toOption.map
      fun o => (o.status, o.skipped)) = some (.success, ["the_"]) := by
    decide +kernel
  have haccounts := Service.persist_accounts oneDocument .create f "d" hk
  generalize perform (persist .create f "d" counts) oneDocument = q at hp haccounts
  obtain ⟨_ | o, t⟩ := q
  · cases hp
  · obtain ⟨hs, hskipped⟩ := Prod.mk.inj (Option.some.inj hp)
    exact ⟨hk, o, t, rfl, hs, hskipped, haccounts.1 o rfl hs⟩

example : (perform (persist .create .default "d"
    [("abc_", .ok 2), ("abd_", .ok 0x8000000000000000)]) oneDocument).2.store =
      oneDocument.store := by
  decide +kernel

end TagRank
