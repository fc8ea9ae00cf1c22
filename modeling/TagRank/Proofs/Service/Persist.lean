import TagRank.Proofs.Service.Cooccurrence
import TagRank.Proofs.Store.Keyword

namespace TagRank

namespace PersistOutcome

variable (created : Bool) (o : PersistOutcome)

@[simp] theorem status_wrote : (o.wrote created).status = o.status := by cases created <;> rfl

@[simp] theorem error_wrote : (o.wrote created).error = o.error := by cases created <;> rfl

@[simp] theorem skipped_wrote : (o.wrote created).skipped = o.skipped := by cases created <;> rfl

@[simp] theorem written_wrote : (o.wrote created).written = o.written + 1 := by
  cases created <;> rfl

theorem created_wrote : (o.wrote created).created = o.created + created.toNat := by
  cases created <;> rfl

theorem touched_wrote :
    (o.wrote created).created + (o.wrote created).reused = o.created + o.reused + 1 := by
  cases created
  · rfl
  · exact Nat.add_right_comm ..

end PersistOutcome

namespace Store

variable {policy : Policy} {f : Filter} {document key : String} {s t : Store}

def associate (policy : Policy) (keyword document : String) (count : Except Error Int) :
    Change Unit := do
  let _ ← show Change Association from match policy with
    | .create => newAssociation keyword document count
    | .upsert => putAssociation keyword document count
  return ()

def persistOne (policy : Policy) (f : Filter) (document key : String) (count : Except Error Int)
    (o : PersistOutcome) : Change PersistOutcome :=
  if f.isStopword (Key.value key) then pure { o with skipped := o.skipped ++ [key] }
  else do
    let found ← fun s => .ok (s.findOrCreate key (Key.value key))
    associate policy found.1.id document count
    return o.wrote found.2

def persistAll (policy : Policy) (f : Filter) (document : String) :
    Counts → PersistOutcome → Change PersistOutcome
  | [], o => pure o
  | (key, count) :: counts, o => do
    persistAll policy f document counts (← persistOne policy f document key count o)

def persist (policy : Policy) (f : Filter) (document : String) (counts : Counts) :
    Change PersistOutcome := do
  if !(← fun s => .ok (s.hasDocument document, s)) then fun _ => .error (.documentNotFound document)
  else persistAll policy f document counts (.start document)

def put (policy : Policy) (document : String) (s : Store) (row : String × Int) : Store :=
  let s := (s.addKeyword row.1 (Key.value row.1)).2
  { s with associations := Association.write policy document s.associations row }

def putAll (policy : Policy) (document : String) (rows : List (String × Int)) (s : Store) : Store :=
  rows.foldl (put policy document) s

theorem createAssociation_ok {count : Int} {a : Association}
    (h : s.createAssociation key document count = .ok (a, t)) :
    (s.keyword? key).isSome = true ∧ s.hasDocument document = true ∧
      t = { s with
        associations := s.associations ++ [⟨s.nextAssociation, key, document, count⟩] } := by
  obtain ⟨_, _, h⟩ := bind_eq_ok.1 h
  obtain ⟨_, hk, h⟩ := bind_eq_ok.1 h
  obtain ⟨_, hd, h⟩ := bind_eq_ok.1 h
  cases h
  refine ⟨?_, requireDocument_ok hd, rfl⟩
  simp only [requireKeyword] at hk
  split at hk
  · assumption
  · cases hk

theorem newAssociation_eq (hk : (s.keyword? key).isSome = true)
    (hd : s.hasDocument document = true) (count : Except Error Int) :
    s.newAssociation key document count = do
      let n ← count
      checkFits n
      return (⟨s.nextAssociation, key, document, n⟩, { s with
        associations := Association.write .create document s.associations (key, n) }) := by
  simp only [newAssociation, createAssociation, requireKeyword, requireDocument]
  rw [if_pos hk, if_pos hd]
  rfl

theorem putAssociation_eq (hk : (s.keyword? key).isSome = true)
    (hd : s.hasDocument document = true) (count : Except Error Int) :
    ∃ answer : Int → Association, s.putAssociation key document count = do
      let n ← count
      checkFits n
      return (answer n, { s with
        associations := Association.write .upsert document s.associations (key, n) }) := by
  simp only [putAssociation]
  cases ho : s.oldestAssociation? key document with
  | none =>
    have hf : s.associations.find? (Association.isOf key document) = none := ho
    refine ⟨fun n => ⟨s.nextAssociation, key, document, n⟩, ?_⟩
    simp only [Association.write, hf]
    exact newAssociation_eq hk hd count
  | some a =>
    have hf : s.associations.find? (Association.isOf key document) = some a := ho
    refine ⟨fun n => { a with count := n }, ?_⟩
    simp only [Association.write, hf]
    rfl

theorem associate_eq (hk : (s.keyword? key).isSome = true) (hd : s.hasDocument document = true)
    (policy : Policy) (count : Except Error Int) :
    (associate policy key document count).run s = do
      let n ← count
      checkFits n
      return ((), { s with
        associations := Association.write policy document s.associations (key, n) }) := by
  have forget {β : Type} (answer : Int → β) (after : Int → Store) :
      ((do let n ← count; checkFits n; return (answer n, after n) : Except Error (β × Store)) >>=
        fun p => Except.ok ((), p.2)) = do let n ← count; checkFits n; return ((), after n) := by
    cases count with
    | error e => rfl
    | ok n => cases h : checkFits n <;> simp [h, bind, Except.bind, pure, Except.pure]
  simp only [associate]
  rw [StateT.run_bind]
  cases policy with
  | create =>
    change (s.newAssociation key document count >>= fun p => Except.ok ((), p.2)) = _
    rw [newAssociation_eq hk hd, forget]
  | upsert =>
    obtain ⟨answer, ha⟩ := putAssociation_eq hk hd count
    change (s.putAssociation key document count >>= fun p => Except.ok ((), p.2)) = _
    rw [ha, forget]

theorem findOrCreate_id (id value : String) (s : Store) :
    (s.findOrCreate id value).1.1.id = id := by
  rw [findOrCreate]
  dsimp only
  cases hk : (s.addKeyword id value).2.keyword? id with
  | none => rfl
  | some k => simpa using List.find?_some hk

theorem findOrCreate_created (id value : String) (s : Store) :
    (s.findOrCreate id value).1.2 = (s.keyword? id).isNone := by
  simp only [findOrCreate, addKeyword]
  cases s.keyword? id <;> rfl

theorem fitsWord_of_checkFits {n : Int} {u : Unit} (h : checkFits n = .ok u) :
    Decimal.fitsWord n = true := by
  simp only [checkFits] at h
  split at h
  · assumption
  · cases h

theorem addKeyword_eq (id value : String) (s : Store) :
    ∃ more, (s.addKeyword id value).2 = { s with keywords := s.keywords ++ more } ∧
      ∃ k ∈ s.keywords ++ more, k.id = id := by
  simp only [addKeyword]
  cases hk : s.keyword? id with
  | none => exact ⟨[⟨id, value⟩], rfl, ⟨id, value⟩, by simp, rfl⟩
  | some k =>
    have hid : k.id = id := by simpa using List.find?_some hk
    have hmem : k ∈ s.keywords := List.mem_of_find?_eq_some hk
    exact ⟨[], by simp, k, by simpa using hmem, hid⟩

theorem put_eq (policy : Policy) (document : String) (row : String × Int) (s : Store) :
    ∃ more, s.put policy document row =
        { s with
          keywords := s.keywords ++ more
          associations := Association.write policy document s.associations row } ∧
      ∃ k ∈ s.keywords ++ more, k.id = row.1 := by
  obtain ⟨more, hs, hk⟩ := addKeyword_eq row.1 (Key.value row.1) s
  refine ⟨more, ?_, hk⟩
  simp only [put]
  rw [hs]

theorem putAll_eq (policy : Policy) (document : String) (rows : List (String × Int)) (s : Store) :
    ∃ more, s.putAll policy document rows =
        { s with
          keywords := s.keywords ++ more
          associations := Association.writeAll policy document rows s.associations } ∧
      ∀ row ∈ rows, ∃ k ∈ s.keywords ++ more, k.id = row.1 := by
  induction rows generalizing s with
  | nil => exact ⟨[], by simp [putAll, Association.writeAll], by simp⟩
  | cons row rows ih =>
    obtain ⟨more, hs, k, hk, hid⟩ := put_eq policy document row s
    obtain ⟨more', hs', hk'⟩ := ih (s.put policy document row)
    rw [hs] at hs' hk'
    refine ⟨more ++ more', ?_, ?_⟩
    · simp only [putAll] at hs' ⊢
      rw [List.foldl_cons, hs, hs', ← List.append_assoc]
      rfl
    · simp only [List.append_assoc] at hk'
      refine List.forall_mem_cons.2 ⟨⟨k, ?_, hid⟩, hk'⟩
      rw [← List.append_assoc]
      exact List.mem_append_left _ hk

theorem associations_putAll (policy : Policy) (document : String) (rows : List (String × Int))
    (s : Store) : (s.putAll policy document rows).associations =
      Association.writeAll policy document rows s.associations := by
  obtain ⟨_, h, _⟩ := putAll_eq policy document rows s
  rw [h]

theorem hasDocument_put (h : s.hasDocument document = true) (row : String × Int) :
    (s.put policy document row).hasDocument document = true := by
  obtain ⟨more, hs, _⟩ := put_eq policy document row s
  rw [hs]
  exact h

theorem persistOne_of_stopword (h : f.isStopword (Key.value key) = true) (count : Except Error Int)
    (o : PersistOutcome) : (persistOne policy f document key count o).run s =
      .ok ({ o with skipped := o.skipped ++ [key] }, s) := by
  simp only [persistOne]
  rw [if_pos h]
  rfl

theorem persistOne_eq (h : f.isStopword (Key.value key) = false)
    (hd : s.hasDocument document = true) (count : Except Error Int) (o : PersistOutcome) :
    (persistOne policy f document key count o).run s = do
      let n ← count
      checkFits n
      return (o.wrote (s.findOrCreate key (Key.value key)).1.2,
        s.put policy document (key, n)) := by
  obtain ⟨more, hs, k, hk, hid⟩ := addKeyword_eq key (Key.value key) s
  have hk' : ((s.addKeyword key (Key.value key)).2.keyword? key).isSome = true := by
    rw [hs]
    exact List.find?_isSome.2 ⟨k, hk, by simp [hid]⟩
  have hd' : (s.addKeyword key (Key.value key)).2.hasDocument document = true := by
    rw [hs]
    exact hd
  have ha := associate_eq hk' hd' policy count
  simp only [persistOne]
  rw [if_neg (by simp [h]), StateT.run_bind]
  change (associate policy (s.findOrCreate key _).1.1.id document count >>= fun _ => _).run
    (s.addKeyword key (Key.value key)).2 = _
  rw [findOrCreate_id, StateT.run_bind, ha]
  cases count with
  | error e => rfl
  | ok n =>
    change (do checkFits n; _) >>= _ = (do checkFits n; _)
    cases checkFits n with
    | error e => rfl
    | ok _ => rfl

def kept (f : Filter) (counts : Counts) : Counts :=
  counts.filter fun c => !f.isStopword (Key.value c.1)

def skipped (f : Filter) (counts : Counts) : List String :=
  Assoc.keys (counts.filter fun c => f.isStopword (Key.value c.1))

structure Persists (f : Filter) (counts : Counts) (o o' : PersistOutcome) : Prop where
  status : o'.status = o.status
  error : o'.error = o.error
  skipped : o'.skipped = o.skipped ++ Store.skipped f counts
  written : o'.written = o.written + (kept f counts).length
  touched : o'.created + o'.reused + o.written = o.created + o.reused + o'.written

theorem persists_skip (h : f.isStopword (Key.value key) = true) {count : Except Error Int}
    {counts : Counts} {o o' : PersistOutcome}
    (hp : Persists f counts { o with skipped := o.skipped ++ [key] } o') :
    Persists f ((key, count) :: counts) o o' where
  status := hp.status
  error := hp.error
  skipped := by simp [hp.skipped, Store.skipped, Assoc.keys, h]
  written := by simp [hp.written, kept, h]
  touched := hp.touched

theorem persists_wrote (h : f.isStopword (Key.value key) = false) {count : Except Error Int}
    {created : Bool} {counts : Counts} {o o' : PersistOutcome}
    (hp : Persists f counts (o.wrote created) o') :
    Persists f ((key, count) :: counts) o o' where
  status := by simp [hp.status]
  error := by simp [hp.error]
  skipped := by simp [hp.skipped, Store.skipped, h]
  written := by simp [hp.written, kept, h, Nat.add_assoc, Nat.add_comm 1]
  touched := by
    have := hp.touched
    rw [PersistOutcome.written_wrote, PersistOutcome.touched_wrote] at this
    omega

/-- How counts are entered into a store, one after the other. -/
inductive Enters (policy : Policy) (f : Filter) (document : String) :
    Counts → PersistOutcome → Store → PersistOutcome → Store → Prop
  | done {o s} : Enters policy f document [] o s o s
  | skip {key count counts o s o' t} : f.isStopword (Key.value key) = true →
      Enters policy f document counts { o with skipped := o.skipped ++ [key] } s o' t →
      Enters policy f document ((key, count) :: counts) o s o' t
  | wrote {key n counts o s o' t} : f.isStopword (Key.value key) = false →
      Decimal.fitsWord n = true →
      Enters policy f document counts (o.wrote (s.keyword? key).isNone)
        (s.put policy document (key, n)) o' t →
      Enters policy f document ((key, .ok n) :: counts) o s o' t

theorem persistAll_enters (hd : s.hasDocument document = true) {counts : Counts}
    {o o' : PersistOutcome} (h : (persistAll policy f document counts o).run s = .ok (o', t)) :
    Enters policy f document counts o s o' t := by
  induction counts generalizing s o with
  | nil =>
    cases h
    exact .done
  | cons c counts ih =>
    rw [persistAll, StateT.run_bind] at h
    obtain ⟨⟨o₁, s₁⟩, h₁, h⟩ := bind_eq_ok.1 h
    cases hf : f.isStopword (Key.value c.1) with
    | true =>
      rw [persistOne_of_stopword hf] at h₁
      obtain ⟨rfl, rfl⟩ := Prod.mk.inj (Except.ok.inj h₁)
      exact .skip hf (ih hd h)
    | false =>
      obtain ⟨key, count⟩ := c
      rw [persistOne_eq hf hd] at h₁
      obtain ⟨n, rfl, h₁⟩ := bind_eq_ok.1 h₁
      obtain ⟨_, hn, h₁⟩ := bind_eq_ok.1 h₁
      obtain ⟨rfl, rfl⟩ := Prod.mk.inj (Except.ok.inj h₁)
      rw [findOrCreate_created] at h
      exact .wrote hf (fitsWord_of_checkFits hn) (ih (hasDocument_put hd _) h)

theorem Enters.persists {counts : Counts} {o o' : PersistOutcome}
    (h : Enters policy f document counts o s o' t) : Persists f counts o o' := by
  induction h with
  | done => exact ⟨rfl, rfl, by simp [skipped, Assoc.keys], rfl, rfl⟩
  | skip hf _ ih => exact persists_skip hf ih
  | wrote hf _ _ ih => exact persists_wrote hf ih

theorem Enters.putAll {counts : Counts} {o o' : PersistOutcome}
    (h : Enters policy f document counts o s o' t) : ∃ rows : List (String × Int),
      kept f counts = rows.map (fun row => (row.1, .ok row.2)) ∧
        t = s.putAll policy document rows := by
  induction h with
  | done => exact ⟨[], rfl, rfl⟩
  | skip hf _ ih =>
    obtain ⟨rows, hk, ht⟩ := ih
    exact ⟨rows, by simpa [kept, hf] using hk, ht⟩
  | @wrote key n _ _ _ _ _ hf _ _ ih =>
    obtain ⟨rows, hk, ht⟩ := ih
    simp only [kept] at hk
    exact ⟨(key, n) :: rows, by simp [kept, hf, hk], ht⟩

theorem persistAll_ok (hd : s.hasDocument document = true) {counts : Counts}
    {o o' : PersistOutcome} (h : (persistAll policy f document counts o).run s = .ok (o', t)) :
    Persists f counts o o' ∧ ∃ rows : List (String × Int),
      kept f counts = rows.map (fun row => (row.1, .ok row.2)) ∧
        t = s.putAll policy document rows :=
  ⟨(persistAll_enters hd h).persists, (persistAll_enters hd h).putAll⟩

def Fits (count : Except Error Int) : Prop := ∃ n, count = .ok n ∧ Decimal.fitsWord n = true

theorem persistAll_run (policy : Policy) (f : Filter) (hd : s.hasDocument document = true)
    {counts : Counts} (hc : ∀ c ∈ kept f counts, Fits c.2) (o : PersistOutcome) :
    ∃ o' t, (persistAll policy f document counts o).run s = .ok (o', t) := by
  induction counts generalizing s o with
  | nil => exact ⟨o, s, rfl⟩
  | cons c counts ih =>
    rw [persistAll, StateT.run_bind]
    cases hf : f.isStopword (Key.value c.1) with
    | true =>
      rw [persistOne_of_stopword hf]
      exact ih hd (by simpa [kept, hf] using hc) _
    | false =>
      rw [kept, List.filter_cons_of_pos (by simp [hf]), List.forall_mem_cons] at hc
      obtain ⟨⟨n, hn, hfits⟩, hc⟩ := hc
      have hone : (persistOne policy f document c.1 c.2 o).run s =
          .ok (o.wrote (s.findOrCreate c.1 (Key.value c.1)).1.2,
            s.put policy document (c.1, n)) := by
        rw [persistOne_eq hf hd, hn]
        change (do checkFits n; _) = _
        rw [checkFits, if_pos hfits]
        rfl
      rw [hone]
      exact ih (hasDocument_put hd _) hc _

theorem persist_eq (policy : Policy) (f : Filter) (document : String) (counts : Counts)
    (s : Store) : (persist policy f document counts).run s =
      if s.hasDocument document then (persistAll policy f document counts (.start document)).run s
      else .error (.documentNotFound document) := by
  rw [persist, StateT.run_bind]
  change StateT.run (if !s.hasDocument document then _ else _) s = _
  cases s.hasDocument document <;> rfl

theorem persist_ok {counts : Counts} {o : PersistOutcome}
    (h : (persist policy f document counts).run s = .ok (o, t)) :
    Persists f counts (.start document) o ∧ ∃ rows : List (String × Int),
      kept f counts = rows.map (fun row => (row.1, .ok row.2)) ∧
        t = s.putAll policy document rows := by
  rw [persist_eq] at h
  split at h
  · exact persistAll_ok ‹_› h
  · cases h

end Store

namespace Action

variable {α : Type}

theorem means_associate (policy : Policy) (keyword document : String) (count : Except Error Int) :
    Means (α := α) (associate policy keyword document count)
      (Store.associate policy keyword document count) := by
  cases policy with
  | create => exact means_bind (means_createAssociation _ _ _) fun _ => means_pure _
  | upsert => exact means_bind (means_upsertAssociation _ _ _) fun _ => means_pure _

theorem means_persistOne (policy : Policy) (f : Filter) (document key : String)
    (count : Except Error Int) (o : PersistOutcome) :
    Means (α := α) (persistOne policy f document key count o)
      (Store.persistOne policy f document key count o) :=
  means_skip (means_logAll _) <| means_ite _ (means_pure _) <|
    means_bind (means_findOrCreateKeyword _ _) fun _ =>
      means_bind (means_associate _ _ _ _) fun _ => means_pure _

theorem means_persistAll (policy : Policy) (f : Filter) (document : String) (counts : Counts)
    (o : PersistOutcome) :
    Means (α := α) (persistAll policy f document counts o)
      (Store.persistAll policy f document counts o) := by
  induction counts generalizing o with
  | nil => exact means_pure _
  | cons c counts ih => exact means_bind (means_persistOne _ _ _ _ _ _) fun _ => ih _

def persisting (policy : Policy) (f : Filter) (document : String) (counts : Counts) :
    Action α PersistOutcome := do
  if !(← documentExists document) then throw (.documentNotFound document)
  persistAll policy f document counts (.start document)

theorem means_persist (policy : Policy) (f : Filter) (document : String) (counts : Counts) :
    Means (α := α) (persisting policy f document counts) (Store.persist policy f document counts) :=
  means_bind (means_documentExists _) fun _ =>
    means_ite _ (means_throw_bind _ _) (means_persistAll _ _ _ _ _)

inductive Told : Except Error PersistOutcome × Service α → Except Error PersistOutcome × Service α →
    Prop
  | success {o u p} : Noted o u p → Told (.ok o, u) p
  | failure {e u o p} : o.status ≠ .success → Noted o u p → Told (.error e, u) p
  | raised {e u} : Told (.error e, u) (.error e, u)

/-- How persisting ends: it has written all counts that it keeps, or nothing. -/
inductive Persisted (policy : Policy) (f : Filter) (document : String) (counts : Counts)
    (s : Service α) : Except Error PersistOutcome × Service α → Prop
  | all {rows x t} : Store.kept f counts = rows.map (fun row => (row.1, .ok row.2)) →
      t.store = s.store.putAll policy document rows →
      (∀ o, x = .ok o → Store.Persists f counts (.start document) o) →
      Persisted policy f document counts s (x, t)
  | nothing {x t} : t.store = s.store → (∀ o, x = .ok o → o.status ≠ .success) →
      Persisted policy f document counts s (x, t)

theorem Told.failed {u : Service α} {e : Error} {p : Except Error PersistOutcome × Service α}
    (h : Told (.error e, u) p) : p.2.store = u.store ∧ ∀ o, p.1 = .ok o → o.status ≠ .success := by
  cases h with
  | failure ho hn => exact ⟨hn.store, fun _ hx => hn.answer hx ▸ ho⟩
  | raised => exact ⟨rfl, fun _ hx => nomatch hx⟩

variable [Scalar α]

theorem told_persist (policy : Policy) (f : Filter) (document : String) (counts : Counts)
    (s : Service α) : Told (perform (transaction (persisting policy f document counts)) s)
      (perform (persist policy f document counts) s) := by
  have h : perform (persist policy f document counts) s =
      perform (outcome (transaction (persisting policy f document counts)) >>= _) s := rfl
  rw [h, perform_bind, perform_outcome]
  obtain ⟨e | o, u⟩ := perform (transaction (persisting policy f document counts)) s
  · dsimp only
    split
    · exact .failure PersistStatus.noConfusion
        (notes_counted (m := .persistsMissing) rfl _ _ _ _ policy.name _ u)
    · exact .failure PersistStatus.noConfusion
        (notes_counted (m := .persistsFailed) rfl _ _ _ _ policy.name _ u)
    · exact .raised
  · exact .success (notes_counted (m := .persisted) rfl _ _ _ _ policy.name _ u)

theorem persist_cases (policy : Policy) (f : Filter) (document : String) (counts : Counts)
    (s : Service α) :
    let change := (Store.persist policy f document counts).run s.store
    let (answer, t) := perform (persist policy f document counts) s
    (∃ o, change = .ok (o, t.store) ∧ (∀ o', answer = .ok o' → o' = o) ∧
        (s.recorder = none → answer = .ok o)) ∨
      (t.store = s.store ∧ (∀ o, answer = .ok o → o.status ≠ .success) ∧
        (s.fault = none → ∃ e, change = .error e)) := by
  have ht := transaction_cases (means_persist policy f document counts) s
  have htold := told_persist policy f document counts s
  generalize perform (transaction (persisting policy f document counts)) s = p at ht htold
  generalize perform (persist policy f document counts) s = q at htold
  obtain ⟨answer, t⟩ := q
  cases ht with
  | @committed o u hm hcalm =>
    cases htold with
    | success hn =>
      rw [← hn.store] at hm
      exact .inl ⟨o, hm, fun _ hx => hn.answer hx,
        fun hr => hn.answer_of_none (hcalm.recorder.trans hr)⟩
  | undone hm hs => exact .inr ⟨htold.failed.1.trans hs, htold.failed.2, fun _ => ⟨_, hm⟩⟩
  | struck hf hs => exact .inr ⟨htold.failed.1.trans hs, htold.failed.2, fun h => absurd h hf⟩

theorem persisted (policy : Policy) (f : Filter) (document : String) (counts : Counts)
    (s : Service α) :
    Persisted policy f document counts s (perform (persist policy f document counts) s) := by
  have h := persist_cases policy f document counts s
  generalize perform (persist policy f document counts) s = q at h
  obtain ⟨answer, t⟩ := q
  obtain ⟨o, hm, hx, -⟩ | ⟨hs, hx, -⟩ := h
  · obtain ⟨ho, rows, hk, hs⟩ := Store.persist_ok hm
    exact .all hk hs fun _ ha => hx _ ha ▸ ho
  · exact .nothing hs hx

end Action

end TagRank
