import Mathlib.Algebra.Group.Pi.Basic
import Mathlib.Algebra.Order.Field.Rat
import TagRank.Proofs.Metrics.Counter
import TagRank.Proofs.Service.Steady

/-!
What actions add to the counters of a recorder that exports them, whether they succeed or fail.
-/

namespace TagRank

open Metrics TagRank.Action

variable {space : String}

def Service.Measures (space : String) (s : Service Rat) : Prop :=
  ∃ r, s.recorder = some r ∧ r.enabled = true ∧ r.exporting = true ∧ r.space = space ∧
    IsBook r.space r.series

theorem Service.Measures.isOwn {s : Service Rat} (h : s.Measures space) : s.IsOwn := by
  obtain ⟨r, hr, -, -, -, hbook⟩ := h
  intro r' hr'
  rw [hr] at hr'
  cases hr'
  exact hbook.own

def Service.counter (s : Service Rat) (m : Meter) (value : String) : Rat :=
  s.recorder.elim 0 fun r => r.counter m.metric m.tag value

abbrev Bill := Meter → String → Nat

def Bill.one (m : Meter) (value : String) (n : Nat) : Bill :=
  fun m' value' => if m = m' ∧ value = value' then n else 0

/-- A service that comes of another one, whose counters have grown by a bill. -/
structure Service.Billed (space : String) (s : Service Rat) (b : Bill) (t : Service Rat) :
    Prop where
  measures : t.Measures space
  counter : ∀ m value, t.counter m value = s.counter m value + b m value

namespace Service

variable {s t u : Service Rat} {b c : Bill} {r : Recorder Rat} {m : Meter}

theorem Measures.billed (h : s.Measures space) (ht : t.recorder = s.recorder) :
    s.Billed space 0 t := by
  refine ⟨?_, fun m value => ?_⟩
  · simpa only [Measures, ht] using h
  · simp [Service.counter, ht]

theorem Billed.trans (h : s.Billed space b t) (k : t.Billed space c u) :
    s.Billed space (b + c) u := by
  refine ⟨k.measures, fun m value => ?_⟩
  rw [k.counter, h.counter, Pi.add_apply, Pi.add_apply, Nat.cast_add, add_assoc]

theorem Billed.after (h : s.Billed space 0 t) (k : t.Billed space b u) : s.Billed space b u :=
  zero_add b ▸ h.trans k

theorem Measures.observe (hs : s.Measures space) (hr : s.recorder = some r) (m : Meter)
    (value : String) (n : Nat) {x : Rat} (hx : m.shape = .counter → x = n) :
    let p := r.observe m.shape m.metric [(m.tag, value)] x
    p.2 = .ok () ∧ s.Billed space (if m.shape = .counter then .one m value n else 0)
      { s with recorder := some p.1 } := by
  obtain ⟨r', hr', henabled, hexporting, hspace, hbook⟩ := hs
  obtain rfl := Option.some.inj (hr.symm.trans hr')
  obtain ⟨ss, ho, hss, hget⟩ := Recorder.observe_of_isBook hbook hexporting m value x
  rw [ho]
  refine ⟨rfl, ⟨_, rfl, henabled, hexporting, hspace, hss⟩, fun m' value' => ?_⟩
  simp only [Service.counter, hr, Option.elim_some]
  -- both sides are what is found under the line of `m'`
  change (Assoc.get? (m'.line r.space value') (ss.flatMap Series.counters)).getD 0 =
    (Assoc.get? (m'.line r.space value') r.counters).getD 0 + _
  simp only [hget, Meter.line_inj]
  by_cases hm : m.shape = .counter
  · by_cases hv : m = m' ∧ value = value'
    · obtain ⟨rfl, rfl⟩ := hv
      simp [hm, hx hm, Bill.one, Assoc.getD]
    · simp [hm, hv, Bill.one]
  · simp [hm]

def Unbilled (space : String) (s t : Service Rat) : Prop :=
  s.Measures space → s.Billed space 0 t

instance : IsPreorder (Service Rat) (Unbilled space) where
  refl _ h := h.billed rfl
  trans _ _ _ h k hs := (h hs).after (k (h hs).measures)

instance : Patient (Unbilled space) where
  log _ _ h := h.billed rfl
  time hr m hm tag x h := by
    have hne : m.shape ≠ .counter := by simp [hm]
    have hb := (h.observe hr m tag 0 (x := x) fun hc => absurd hc hne).2
    rwa [if_neg hne] at hb

end Service

namespace Action

variable {β γ : Type} {s : Service Rat}

theorem unbilled_transaction {a : Action Rat β} {m : Change β} (h : Means a m) :
    Moves (Service.Unbilled space) (transaction a) :=
  moves_transaction h fun hr hs => hs.billed hr

def Takes (space : String) (a : Action Rat β) (b : β) (c : Bill) : Prop :=
  ∀ s : Service Rat, s.Measures space → ∃ t, perform a s = (.ok b, t) ∧ s.Billed space c t

theorem takes_pure (b : β) : Takes space (pure b) b 0 := fun s hs => ⟨s, rfl, hs.billed rfl⟩

theorem takes_bind {a : Action Rat β} {b : β} {c d : Bill} {f : β → Action Rat γ} {x : γ}
    (ha : Takes space a b c) (hf : Takes space (f b) x d) : Takes space (a >>= f) x (c + d) := by
  intro s hs
  obtain ⟨t, ht, hc⟩ := ha s hs
  obtain ⟨u, hu, hd⟩ := hf t hc.measures
  exact ⟨u, by rw [perform_bind, ht]; exact hu, hc.trans hd⟩

theorem takes_after {a : Action Rat β} {b : β} {c : Bill} {f : β → Action Rat γ} {x : γ}
    (ha : Takes space a b 0) (hf : Takes space (f b) x c) : Takes space (a >>= f) x c :=
  zero_add c ▸ takes_bind ha hf

theorem takes_before {a : Action Rat β} {b : β} {c : Bill} {f : β → Action Rat γ} {x : γ}
    (ha : Takes space a b c) (hf : Takes space (f b) x 0) : Takes space (a >>= f) x c :=
  add_zero c ▸ takes_bind ha hf

theorem takes_ifRecording {a : Action Rat Unit} {c : Bill} (h : Takes space a () c) :
    Takes space (ifRecording a) () c := by
  intro s hs
  obtain ⟨r, hr, henabled, -⟩ := id hs
  simp only [ifRecording]
  rw [perform_bind, perform_get]
  simp only [hr, Option.any_some, henabled, if_true]
  exact h s hs

theorem takes_of_sure {a : Action Rat β} {b : β} (h : Sure a b)
    (hm : Moves (Service.Unbilled space) a) : Takes space a b 0 := by
  intro s hs
  obtain ⟨t, ht, -⟩ := h s hs.isOwn
  have hb := hm s hs
  rw [ht] at hb
  exact ⟨t, ht, hb⟩

theorem takes_log (level : Log.Level) (part text : String) :
    Takes space (log level part text) () 0 :=
  takes_of_sure (sure_log _ _ _) (moves_log _ _ _)

theorem takes_logAll (lines : List Log.Line) : Takes space (logAll lines) () 0 :=
  takes_of_sure (fun _ hs => ⟨_, rfl, hs⟩) (moves_logAll _)

theorem takes_recordTiming {m : Meter} (hm : m.shape = .histogram) (d : Duration Rat)
    (value : String) : Takes space (recordTiming m.metric (.ok d) [(m.tag, .text value)]) () 0 :=
  takes_of_sure (sure_recordTiming hm d value) (moves_recordTiming hm _ _)

theorem takes_observe {m : Meter} (hm : m.shape = .counter) (value : String) (n : Nat) :
    Takes space (observe m.shape m.metric [(m.tag, value)] (some (n : Rat))) ()
      (.one m value n) := by
  intro s hs
  obtain ⟨r, hr, -⟩ := id hs
  obtain ⟨hok, hb⟩ := hs.observe hr m value n fun _ => rfl
  rw [if_pos hm] at hb
  refine ⟨_, ?_, hb⟩
  simp only [observe]
  rw [perform_bind, perform_get]
  simp only [hr, ← hok]
  rfl

theorem takes_increment {m : Meter} (hm : m.shape = .counter) (n : Nat) (value : String) :
    Takes space (increment m.metric (.ok n) [(m.tag, .text value)]) () (.one m value n) := by
  have hx : (Scalar.ofInt? (max (n : Int) 0) : Option Rat) = some (n : Rat) := by
    rw [max_eq_left (Int.natCast_nonneg n)]
    rfl
  refine takes_ifRecording <| takes_after (takes_pure (n : Int)) <|
    takes_after (takes_of_sure (sure_measureLine _ _ _ _) (moves_measureLine _ _ _ _)) ?_
  rw [← hm, Tags.texts_single, hx]
  exact takes_observe hm value n

theorem takes_counted {m : Meter} (hm : m.shape = .counter) (level : Log.Level)
    (part text : String) (n : Nat) (value : String) (b : β) :
    Takes space (do
      log level part text
      increment m.metric (.ok n) [(m.tag, .text value)]
      return b) b (.one m value n) :=
  takes_after (takes_log _ _ _) (takes_before (takes_increment hm n value) (takes_pure b))

/-- What an action adds to the counters goes by its answer, and is nothing if it fails. -/
def Bills (space : String) (a : Action Rat β) (bill : β → Bill) : Prop :=
  ∀ s : Service Rat, s.Measures space →
    s.Billed space ((perform a s).1.toOption.elim 0 bill) (perform a s).2

theorem Takes.bills (bill : β → Bill) {a : Action Rat β} {b : β}
    (h : Takes space a b (bill b)) : Bills space a bill := by
  intro s hs
  obtain ⟨t, ht, hb⟩ := h s hs
  rw [ht]
  exact hb

theorem bills_throw (e : Error) (bill : β → Bill) : Bills space (throw e) bill :=
  fun _ hs => hs.billed rfl

theorem bills_bind {a : Action Rat β} {f : β → Action Rat γ} {bill : γ → Bill}
    (ha : Moves (Service.Unbilled space) a) (hf : ∀ b, Bills space (f b) bill) :
    Bills space (a >>= f) bill := by
  intro s hs
  have hb := ha s hs
  rw [perform_bind]
  generalize perform a s = p at hb
  obtain ⟨e | b, t⟩ := p
  · exact hb
  · exact hb.after (hf b t hb.measures)

theorem Bills.then {a : Action Rat β} {f : β → Action Rat γ} {bill : β → Bill} {bill' : γ → Bill}
    (ha : Bills space a bill)
    (hf : ∀ b, ∃ x c, Takes space (f b) x c ∧ bill' x = bill b + c) :
    Bills space (a >>= f) bill' := by
  intro s hs
  have hb := ha s hs
  rw [perform_bind]
  generalize perform a s = p at hb
  obtain ⟨e | b, t⟩ := p
  · exact hb
  · obtain ⟨x, c, hx, hbill⟩ := hf b
    obtain ⟨u, hu, hc⟩ := hx t hb.measures
    dsimp only
    rw [hu]
    change s.Billed space (bill' x) u
    rw [hbill]
    exact hb.trans hc

inductive Attempted (space : String) (m : Change β) (failed : Bill) (s : Service Rat) :
    Except Error (Option β) × Service Rat → Prop
  | done {b t} : m.run s.store = .ok (b, t.store) → s.Billed space 0 t →
      Attempted space m failed s (.ok (some b), t)
  | refused {t} : s.Billed space failed t → Attempted space m failed s (.ok none, t)
  | failed {e t} : s.Billed space 0 t → Attempted space m failed s (.error e, t)

theorem attempted {a : Action Rat β} {m : Change β} (h : Means a m)
    {handle : Error → Action Rat (Option β)} {failed : Bill}
    (hh : ∀ e, Takes space (handle e) none failed)
    (hs : s.Measures space) : Attempted space m failed s
      (perform (onStoreFailure (some <$> transaction a) handle) s) := by
  have ht := transaction_cases h s
  rw [perform_onStoreFailure, perform_map]
  generalize perform (transaction a) s = p at ht
  have stopped (e : Error) (t : Service Rat) (hr : t.recorder = s.recorder) :
      Attempted space m failed s
        (if e.kind = .store then perform (handle e) t else (.error e, t)) := by
    have hb := hs.billed hr
    split
    · obtain ⟨u, hu, hc⟩ := hh e t hb.measures
      rw [hu]
      exact .refused (hb.after hc)
    · exact .failed hb
  cases ht with
  | committed hm hc => exact .done hm (hs.billed hc.recorder)
  | @undone e t _ _ hc => exact stopped e t hc.recorder
  | @struck text t _ _ hr => exact stopped (.storeFailed text) t hr

theorem billed_of_attempted (bill : Bool → Bill) {a : Action Rat β} {m : Change β}
    (h : Means a m) {handle : Error → Action Rat (Option β)} {f : Option β → Action Rat Bool}
    (hn : f none = pure false) (hh : ∀ e, Takes space (handle e) none (bill false))
    (hf : ∀ b t, m.run s.store = .ok (b, t) → Takes space (f (some b)) true (bill true))
    (hs : s.Measures space) :
    let p := perform (onStoreFailure (some <$> transaction a) handle >>= f) s
    s.Billed space (p.1.toOption.elim 0 bill) p.2 := by
  have ha := attempted h hh hs
  rw [perform_bind]
  generalize perform (onStoreFailure _ _) s = p at ha
  cases ha with
  | @done b t hm hb =>
    obtain ⟨u, hu, hc⟩ := hf b t.store hm t hb.measures
    simp only [hu]
    exact hb.after hc
  | refused hb =>
    dsimp only
    rw [hn]
    exact hb
  | failed hb => exact hb

def clearBill (relation : String) : Bool → Bill
  | true => 0
  | false => .one .clearsFailed relation 1

theorem bills_clear (document relation : String) :
    Bills space (clear document relation) (clearBill relation) := by
  refine bills_bind (moves_ofExcept _) fun _ s hs => ?_
  refine billed_of_attempted (clearBill relation) (means_deleteEdges document relation) rfl
    (fun e => ?_) (fun n t _ => ?_) hs
  · exact takes_counted (m := .clearsFailed) rfl _ _ _ 1 relation none
  · exact takes_after (takes_log _ _ _) (takes_pure true)

def buildBill (relation : String) (pairs : Nat) : Bool → Bill
  | true => .one .pairs relation pairs
  | false => .one .buildsFailed relation 1

theorem billed_build (document relation field : String) (hs : s.Measures space) :
    let p := perform (build document relation field) s
    s.Billed space (p.1.toOption.elim 0 (buildBill relation (s.store.scan document).length))
      p.2 := by
  simp only [build]
  rw [perform_bind, perform_ofExcept]
  cases Label.check .relationKind relation with
  | error e => exact hs.billed rfl
  | ok _ =>
    dsimp only
    rw [perform_bind, perform_ofExcept]
    cases Label.check .weightField field with
    | error e => exact hs.billed rfl
    | ok _ =>
      refine billed_of_attempted (buildBill relation (s.store.scan document).length)
        (means_addPairs document relation field) rfl (fun e => ?_) (fun counts t hm => ?_) hs
      · exact takes_counted (m := .buildsFailed) rfl _ _ _ 1 relation none
      · rw [← (Store.addPairs_eq_ok hm).2]
        exact takes_counted (m := .pairs) rfl _ _ _ counts.2 relation true

theorem bills_outcome {a : Action Rat β} {m : Change β} (h : Means a m)
    {f : Except Error β → Action Rat γ} {bill : γ → Bill}
    (hok : ∀ s b t, m.run s = .ok (b, t) → Bills space (f (.ok b)) bill)
    (herror : ∀ e, Bills space (f (.error e)) bill) :
    Bills space (outcome (transaction a) >>= f) bill := by
  intro s hs
  have ht := transaction_cases h s
  rw [perform_bind, perform_outcome]
  generalize perform (transaction a) s = p at ht
  cases ht with
  | committed hm hc =>
    have hb := hs.billed hc.recorder
    exact hb.after (hok _ _ _ hm _ hb.measures)
  | undone _ _ hc =>
    have hb := hs.billed hc.recorder
    exact hb.after (herror _ _ hb.measures)
  | struck _ _ hr =>
    have hb := hs.billed hr
    exact hb.after (herror _ _ hb.measures)

def persistBill (policy : Policy) (o : PersistOutcome) : Bill :=
  match o.status with
  | .success => .one .persisted policy.name o.written
  | .missingDocument => .one .persistsMissing policy.name 1
  | .failed => .one .persistsFailed policy.name 1

theorem bills_persist (policy : Policy) (f : Filter) (document : String) (counts : Counts) :
    Bills space (persist policy f document counts) (persistBill policy) := by
  refine bills_outcome (means_persist policy f document counts) (fun s o t hm => ?_) fun e => ?_
  · -- the count is taken after the transaction, so `o` is what the store has taken
    have ho : o.status = .success := (Store.persist_ok hm).1.status
    have hbill : persistBill policy o = .one .persisted policy.name o.written := by
      simp only [persistBill, ho]
    refine Takes.bills _ (b := o) ?_
    rw [hbill]
    exact takes_counted (m := .persisted) rfl _ _ _ o.written policy.name o
  · dsimp only
    split
    · exact Takes.bills _ (takes_counted (m := .persistsMissing) rfl _ _ _ 1 policy.name _)
    · exact Takes.bills _ (takes_counted (m := .persistsFailed) rfl _ _ _ 1 policy.name _)
    · exact bills_throw e _

def evaluationBill (policy : Policy) (e : Evaluation Rat) : Bill :=
  e.persisted.elim 0 (persistBill policy) + .one .evaluations e.status.name 1

theorem takes_finish (e : Evaluation Rat) :
    Takes space (finish e) e (.one .evaluations e.status.name 1) :=
  takes_after (takes_log _ _ _) <|
    takes_before (takes_increment (m := .evaluations) rfl 1 e.status.name) <|
    takes_after (takes_recordTiming (m := .evaluation) rfl _ e.status.name) (takes_pure e)

theorem bills_conclude (p : Pipeline Rat) (f : Filter) (document : String)
    (ranked : List (RankedNode Rat)) (found : List (Span Rat)) :
    Bills space (conclude p f document ranked found) (evaluationBill p.policy) :=
  bills_bind (moves_logAll _) fun _ => (bills_persist _ _ _ _).then fun _ =>
    ⟨_, _, takes_after (takes_logAll _) (takes_finish _), rfl⟩

theorem bills_evaluate (p : Pipeline Rat) (f : Filter) (document relation field : String)
    (rounds : Int) (damping : Rat) :
    Bills space (evaluate p f document relation field rounds damping)
      (evaluationBill p.policy) := by
  refine bills_bind (moves_outcome ?_) fun found => ?_
  · exact moves_bind (moves_rank _ _ (unbilled_transaction (means_edges _ _ _)) _ _) fun ranked =>
      moves_bind (moves_spans (fun _ => unbilled_transaction (means_tagOccurrences _ _)) ranked)
        fun _ => moves_pure _
  · cases found with
    | ok found => exact bills_conclude _ _ _ _ _
    | error e =>
      dsimp only
      split
      · exact bills_bind (moves_log _ _ _) fun _ =>
          Takes.bills _ (zero_add (Bill.one .evaluations _ 1) ▸ takes_finish _)
      · exact bills_throw e _

theorem unbilled_loadDocument (document : String) (sentences : List Sentence) :
    Moves (Service.Unbilled space) (loadDocument (α := Rat) document sentences) :=
  moves_loadGiven (unbilled_transaction (means_loading _ _))

end Action

end TagRank
