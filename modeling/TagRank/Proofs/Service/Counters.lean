import TagRank.Proofs.Service.Bill

namespace TagRank

open Metrics TagRank.Action

theorem Store.weightOf_built (relation' document relation field : String) (s : Store) :
    Edge.weightOf relation' (s.built document relation field).edges =
      Edge.weightOf relation' s.edges +
        if relation = relation' then (s.scan document).length else 0 :=
  Edge.weightOf_addAll _ _ _ _ _ _

theorem Policy.name_injective : Function.Injective name := by
  intro p q h
  cases p <;> cases q <;> simp [name] at h ⊢

theorem EvaluationStatus.name_injective : Function.Injective name := by
  intro p q h
  cases p <;> cases q <;> simp [name] at h ⊢

variable {α : Type} [Scalar α]

/-- The weight that a build adds to the edges of a relation, if it succeeds. -/
def Action.gain (relation' document relation field : String) (s : Service α) : Int :=
  match perform (build document relation field) s with
  | (.ok true, t) => Edge.weightOf relation' t.store.edges - Edge.weightOf relation' s.store.edges
  | _ => 0

def PersistOutcome.stored (o : PersistOutcome) : Nat :=
  if o.status = .success then o.written else 0

namespace Step

def answered (status : EvaluationStatus) : Step α → Service α → Nat
  | evaluate p f document relation field rounds damping, s =>
    match (perform (Action.evaluate p f document relation field rounds damping) s).1 with
    | .ok e => if e.status = status then 1 else 0
    | .error _ => 0
  | _, _ => 0

/-- The weight that the successful builds of a step have added to the edges of a relation. -/
def gain (relation' : String) : Step α → Service α → Int
  | build document relation field, s => Action.gain relation' document relation field s
  | rebuild document relation field, s =>
    match perform (Action.clear document relation) s with
    | (.ok true, t) => Action.gain relation' document relation field t
    | _ => 0
  | _, _ => 0

def stored (policy : Policy) : Step α → Service α → Nat
  | evaluate p f document relation field rounds damping, s =>
    match (perform (Action.evaluate p f document relation field rounds damping) s).1 with
    | .ok e => if p.policy = policy then e.persisted.elim 0 PersistOutcome.stored else 0
    | .error _ => 0
  | persist policy' f document counts, s =>
    match (perform (Action.persist policy' f document counts) s).1 with
    | .ok o => if policy' = policy then o.stored else 0
    | .error _ => 0
  | _, _ => 0

end Step

def Service.total {β : Type} [AddMonoid β] (f : Step α → Service α → β) :
    List (Step α) → Service α → β
  | [], _ => 0
  | x :: xs, s => f x s + total f xs (x.take s)

variable {space : String} {s : Service Rat}

structure Bill.Agrees (b : Bill) (answered : EvaluationStatus → Nat) (gain : String → Int)
    (stored : Policy → Nat) : Prop where
  evaluations : ∀ status, b .evaluations status.name = answered status
  pairs : ∀ relation, (b .pairs relation : Int) = gain relation
  persisted : ∀ policy, b .persisted policy.name = stored policy

theorem Bill.agrees_zero : (0 : Bill).Agrees 0 0 0 :=
  ⟨fun _ => rfl, fun _ => rfl, fun _ => rfl⟩

theorem Bill.Agrees.add {b c : Bill} {f f' : EvaluationStatus → Nat} {g g' : String → Int}
    {h h' : Policy → Nat} (hb : b.Agrees f g h) (hc : c.Agrees f' g' h') :
    (b + c).Agrees (f + f') (g + g') (h + h') where
  evaluations status := by simp [hb.evaluations, hc.evaluations]
  pairs relation := by simp [hb.pairs, hc.pairs]
  persisted policy := by simp [hb.persisted, hc.persisted]

theorem persistBill_agrees (policy : Policy) (o : PersistOutcome) :
    (persistBill policy o).Agrees 0 0 fun policy' => if policy = policy' then o.stored else 0 := by
  refine ⟨fun status => ?_, fun relation => ?_, fun policy' => ?_⟩ <;>
    cases hs : o.status <;>
    simp [persistBill, PersistOutcome.stored, hs, Bill.one, Policy.name_injective.eq_iff]

theorem agrees_evaluations (status : EvaluationStatus) :
    (Bill.one .evaluations status.name 1).Agrees
      (fun status' => if status = status' then 1 else 0) 0 0 where
  evaluations status' := by simp [Bill.one, EvaluationStatus.name_injective.eq_iff]
  pairs relation := by simp [Bill.one]
  persisted policy := by simp [Bill.one]

theorem evaluationBill_agrees (policy : Policy) (e : Evaluation Rat) :
    (evaluationBill policy e).Agrees (fun status => if e.status = status then 1 else 0) 0
      fun policy' => if policy = policy' then e.persisted.elim 0 PersistOutcome.stored else 0 := by
  have hstatus := agrees_evaluations e.status
  simp only [evaluationBill]
  cases e.persisted with
  | none =>
    have hnone : (fun policy' => if policy = policy' then 0 else 0) = (0 : Policy → Nat) :=
      funext fun _ => ite_self 0
    simp only [Option.elim_none, hnone, zero_add]
    exact hstatus
  | some o => simpa using (persistBill_agrees policy o).add hstatus

theorem clearBill_agrees (relation : String) (answer : Bool) :
    (clearBill relation answer).Agrees 0 0 0 := by
  cases answer <;> constructor <;> simp [clearBill, Bill.one]

theorem buildBill_agrees (relation : String) (n : Nat) (answer : Bool) :
    (buildBill relation n answer).Agrees 0
      (fun relation' => if answer = true ∧ relation = relation' then (n : Int) else 0) 0 := by
  cases answer <;> constructor <;> simp [buildBill, Bill.one]

theorem billed_build_agrees (document relation field : String) (hs : s.Measures space) :
    ∃ b : Bill, s.Billed space b (perform (build document relation field) s).2 ∧
      b.Agrees 0 (fun relation' => Action.gain relation' document relation field s) 0 := by
  have hb := billed_build document relation field hs
  have hc := build_carries document relation field s
  refine ⟨_, hb, ?_⟩
  simp only [Action.gain]
  generalize perform (build document relation field) s = p at hc
  obtain ⟨e | answer, t⟩ := p
  · exact Bill.agrees_zero
  · have hagrees := buildBill_agrees relation (s.store.scan document).length answer
    cases answer with
    | false => simpa [Except.toOption] using hagrees
    | true =>
      have ht : t.store = s.store.built document relation field := by
        have hstore := hc.store
        rwa [← hc.answer true rfl, if_pos rfl] at hstore
      simpa [Except.toOption, ht, Store.weightOf_built] using hagrees

theorem billed_rebuild_agrees (document relation field : String) (hs : s.Measures space) :
    ∃ b : Bill, s.Billed space b (perform (rebuild document relation field) s).2 ∧
      b.Agrees 0 (fun relation' => (Step.rebuild document relation field).gain relation' s) 0 := by
  have hc : s.Billed space _ _ := bills_clear document relation s hs
  simp only [rebuild, Step.gain]
  rw [perform_bind]
  generalize perform (clear document relation) s = p at hc
  obtain ⟨e | answer, t⟩ := p
  · exact ⟨0, hc, Bill.agrees_zero⟩
  · cases answer with
    | false => exact ⟨_, hc, clearBill_agrees relation false⟩
    | true =>
      obtain ⟨b, hb, hagrees⟩ := billed_build_agrees document relation field hc.measures
      exact ⟨b, hc.after hb, hagrees⟩

theorem Step.billed (x : Step Rat) (hs : s.Measures space) :
    ∃ b : Bill, s.Billed space b (x.take s) ∧
      b.Agrees (fun status => x.answered status s) (fun relation => x.gain relation s)
        fun policy => x.stored policy s := by
  cases x with
  | load document sentences =>
    exact ⟨0, unbilled_loadDocument document sentences s hs, Bill.agrees_zero⟩
  | build document relation field => exact billed_build_agrees document relation field hs
  | clear document relation =>
    have hb : s.Billed space _ _ := bills_clear document relation s hs
    refine ⟨_, hb, ?_⟩
    cases (perform (Action.clear document relation) s).1 with
    | error e => exact Bill.agrees_zero
    | ok answer => exact clearBill_agrees relation answer
  | rebuild document relation field => exact billed_rebuild_agrees document relation field hs
  | evaluate p f document relation field rounds damping =>
    have hb : s.Billed space _ _ := bills_evaluate p f document relation field rounds damping s hs
    refine ⟨_, hb, ?_⟩
    simp only [answered, stored]
    cases (perform (Action.evaluate p f document relation field rounds damping) s).1 with
    | error e => exact Bill.agrees_zero
    | ok e => exact evaluationBill_agrees p.policy e
  | persist policy f document counts =>
    have hb : s.Billed space _ _ := bills_persist policy f document counts s hs
    refine ⟨_, hb, ?_⟩
    simp only [stored]
    cases (perform (Action.persist policy f document counts) s).1 with
    | error e => exact Bill.agrees_zero
    | ok o => exact persistBill_agrees policy o
  | refuse fault => exact ⟨0, hs.billed rfl, Bill.agrees_zero⟩

theorem Service.billed_run (xs : List (Step Rat)) {s : Service Rat} (hs : s.Measures space) :
    ∃ b : Bill, s.Billed space b (run xs s) ∧
      b.Agrees (fun status => total (Step.answered status) xs s)
        (fun relation => total (Step.gain relation) xs s)
        fun policy => total (Step.stored policy) xs s := by
  induction xs generalizing s with
  | nil => exact ⟨0, hs.billed rfl, Bill.agrees_zero⟩
  | cons x xs ih =>
    obtain ⟨b, hb, hagrees⟩ := x.billed hs
    obtain ⟨c, hc, hagrees'⟩ := ih hb.measures
    exact ⟨b + c, hb.trans hc, hagrees.add hagrees'⟩

theorem Service.measures_new (space : String) (s : Service Rat) :
    { s with recorder := some (.new true space true) }.Measures
      (Recorder.new (α := Rat) true space true).space :=
  ⟨_, rfl, rfl, rfl, rfl, isBook_nil _⟩

/-- Whatever is done to a service with a new recorder that exports, whatever fails, and whatever the
space is called: the calls fail just as they would without a recorder, so never by a name or a label
of a metric, and the counters that are exported tell how many evaluations have been answered with
each status, how much weight builds have added under each relation, and how many associations
persists have written under each policy. -/
theorem Service.counters_run (space : String) (s : Service Rat) (xs : List (Step Rat)) :
    let s := { s with recorder := some (.new true space true) }
    (∀ x : Step Rat, x.raised (run xs s) = x.raised { run xs s with recorder := none }) ∧
    ∃ r : Recorder Rat, (run xs s).recorder = some r ∧ r.exporting = true ∧
      (Assoc.keys r.counters).Nodup ∧
      (∀ status : EvaluationStatus, r.counter "pipeline.evaluations" "status" status.name =
        (total (Step.answered status) xs s : Nat)) ∧
      (∀ relation : String, r.counter "cooccurrence.pairs" "relation_kind" relation =
        (total (Step.gain relation) xs s : Int)) ∧
      ∀ policy : Policy, r.counter "keywords.persisted" "policy" policy.name =
        (total (Step.stored policy) xs s : Nat) := by
  intro s
  have hs := measures_new space s
  obtain ⟨b, hb, hagrees⟩ := billed_run xs hs
  obtain ⟨r, hr, -, hexporting, -, hbook⟩ := hb.measures
  have hcounter (m : Meter) (value : String) : r.counter m.metric m.tag value = b m value := by
    have hstart : s.counter m value = 0 := rfl
    have h := hb.counter m value
    rw [hstart, zero_add] at h
    simpa only [Service.counter, hr, Option.elim_some] using h
  refine ⟨fun x => x.raised_eq ⟨hb.measures.isOwn, ?_, rfl⟩, r, hr, hexporting,
    hbook.nodup_counters, fun status => ?_, fun relation => ?_, fun policy => ?_⟩
  · intro _ h
    cases h
  · exact (hcounter .evaluations _).trans (congrArg _ (hagrees.evaluations status))
  · rw [← hagrees.pairs relation, Int.cast_natCast]
    exact hcounter .pairs relation
  · exact (hcounter .persisted _).trans (congrArg _ (hagrees.persisted policy))

end TagRank
