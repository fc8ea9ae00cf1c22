import TagRank.Proofs.Metrics.Sample
import TagRank.Proofs.Scalar
import TagRank.Proofs.Service.Perform

namespace TagRank

open Metrics TagRank.Action

/-- A call that measures. What it is given as a number need not be one. -/
inductive Measurement (α : Type)
  | increment (metric : String) (value : Except Error Int) (tags : Tags)
  | setGauge (metric shown : String) (value : Except Error α) (tags : Tags)
  | recordTiming (metric : String) (duration : Except Error (Duration α)) (tags : Tags)

namespace Measurement

variable {α : Type}

def shape : Measurement α → Shape
  | increment .. => .counter
  | setGauge .. => .gauge
  | recordTiming .. => .histogram

def metric : Measurement α → String
  | increment metric .. | setGauge metric .. | recordTiming metric .. => metric

def tags : Measurement α → Tags
  | increment _ _ tags | setGauge _ _ _ tags | recordTiming _ _ tags => tags

def taken : Measurement α → List String
  | increment .. | setGauge .. => ["self", "metric", "value"]
  | recordTiming .. => ["self", "metric", "duration_seconds"]

def place (m : Measurement α) : Place := .of m.shape m.metric m.tags.texts

def added (k : Mark) : Measurement α → Int
  | m@(increment _ (.ok n) _) => if m.place.mark = k then max n 0 else 0
  | _ => 0

def set? (k : Mark) : Measurement α → Option α
  | m@(setGauge _ _ (.ok x) _) => if m.place.mark = k then some x else none
  | _ => none

variable [Scalar α]

def amount? : Measurement α → Option α
  | increment _ value _ => value.toOption.bind fun n => Scalar.ofInt? (max n 0)
  | setGauge _ _ value _ => value.toOption
  | recordTiming _ duration _ => duration.toOption.map Duration.seconds

def amountAt? (p : Place) (m : Measurement α) : Option α :=
  if m.place = p then m.amount? else none

def act (m : Measurement α) : Action α Unit := do
  Action.ofExcept (Tags.check m.taken m.tags)
  match m with
  | .increment metric value tags => Action.increment metric value tags
  | .setGauge metric shown value tags => Action.setGauge metric shown value tags
  | .recordTiming metric duration tags => Action.recordTiming metric duration tags

def take (m : Measurement α) (s : Service α) : Service α := (perform m.act s).2

end Measurement

variable {α : Type}

structure Service.Exports (s : Service α) (r : Recorder α) : Prop where
  recorder : s.recorder = some r
  enabled : r.enabled = true
  exporting : r.exporting = true
  orderly : r.IsOrderly

theorem Service.Exports.perform_ifRecording {s : Service α} {r : Recorder α} (h : s.Exports r)
    (a : Action α Unit) : perform (ifRecording a) s = perform a s := by
  simp only [ifRecording]
  rw [perform_bind, perform_get]
  simp [h.recorder, h.enabled]

namespace Measurement

variable [Scalar α] {s : Service α} {r : Recorder α}

inductive Measured (m : Measurement α) (r : Recorder α) : Except Error Unit × Service α → Prop
  | taken {x r' t} : m.amount? = some x → t.Exports r' → r'.space = r.space →
      (∀ q, Assoc.get? q r'.samples =
        if m.place = q then
          some (((Assoc.get? m.place r.samples).getD (.initial m.shape)).record m.shape x)
        else Assoc.get? q r.samples) →
      Measured m r (.ok (), t)
  | refused {e r' t} : t.Exports r' → r'.space = r.space → r'.samples = r.samples →
      Measured m r (.error e, t)

theorem measured_observe (h : s.Exports r) (m : Measurement α) :
    m.Measured r (perform (observe m.shape m.metric m.tags.texts m.amount?) s) := by
  simp only [observe]
  rw [perform_bind, perform_get]
  dsimp only
  rw [h.recorder]
  cases hx : m.amount? with
  | none => exact .refused h rfl rfl
  | some x =>
    have ho := h.orderly.observe h.exporting m.shape m.metric m.tags.texts x
    dsimp only
    generalize r.observe m.shape m.metric m.tags.texts x = p at ho
    cases ho with
    | taken ht hget => exact .taken hx ⟨rfl, h.enabled, h.exporting, ht⟩ rfl hget
    | refused ht hs => exact .refused ⟨rfl, h.enabled, h.exporting, ht⟩ rfl hs

theorem measured_line (h : s.Exports r) {m : Measurement α} {a : Action α Unit}
    (ha : ∀ t : Service α, t.Exports r → m.Measured r (perform a t)) (metric field shown : String)
    (tags : List (String × String)) :
    m.Measured r (perform (do measureLine metric field shown tags; a) s) := by
  simp only [measureLine]
  rw [perform_bind, perform_bind, perform_get]
  dsimp only
  rw [h.recorder]
  exact ha _ ⟨h.recorder, h.enabled, h.exporting, h.orderly⟩

theorem measured (h : s.Exports r) (m : Measurement α) : m.Measured r (perform m.act s) := by
  simp only [act]
  rw [perform_bind, perform_ofExcept]
  cases Tags.check m.taken m.tags with
  | error e => exact .refused h rfl rfl
  | ok =>
    cases m with
    | increment metric value tags =>
      dsimp only [Action.increment]
      rw [h.perform_ifRecording, perform_bind, perform_ofExcept]
      cases value with
      | error e => exact .refused h rfl rfl
      | ok n => exact measured_line h (fun t ht => measured_observe ht _) _ _ _ _
    | setGauge metric shown value tags =>
      dsimp only [Action.setGauge]
      rw [h.perform_ifRecording]
      refine measured_line h (fun t ht => ?_) _ _ _ _
      rw [perform_bind, perform_ofExcept]
      cases value with
      | error e => exact .refused ht rfl rfl
      | ok x => exact measured_observe ht _
    | recordTiming metric duration tags =>
      dsimp only [Action.recordTiming]
      rw [h.perform_ifRecording, perform_bind, perform_ofExcept]
      cases duration with
      | error e => exact .refused h rfl rfl
      | ok d => exact measured_line h (fun t ht => measured_observe ht _) _ _ _ _

end Measurement

namespace Service

variable [Scalar α] {s : Service α} {r : Recorder α}

def measure : List (Measurement α) → Service α → Service α
  | [], s => s
  | m :: ms, s => measure ms (m.take s)

def accepted : List (Measurement α) → Service α → List (Measurement α)
  | [], _ => []
  | m :: ms, s => match (perform m.act s).1 with
    | .ok _ => m :: accepted ms (m.take s)
    | .error _ => accepted ms (m.take s)

theorem Exports.measure (h : s.Exports r) (ms : List (Measurement α)) :
    ∃ r', (measure ms s).Exports r' ∧ r'.space = r.space ∧
      (∀ m ∈ accepted ms s, m.amount? ≠ none) ∧
      ∀ q, Assoc.get? q r'.samples = Sample.replay q.shape
        ((accepted ms s).filterMap (·.amountAt? q)) (Assoc.get? q r.samples) := by
  -- from the first call on: the samples that it leaves are those that the rest starts from
  induction ms generalizing s r with
  | nil => exact ⟨r, h, rfl, by simp [accepted], fun _ => rfl⟩
  | cons m ms ih =>
    have hm := Measurement.measured h m
    simp only [Service.measure, accepted, Measurement.take]
    generalize perform m.act s = p at hm
    cases hm with
    | @taken x r' t hx ht hspace hget =>
      obtain ⟨u, hu, hu', hall, hreplay⟩ := ih ht
      refine ⟨u, hu, hu'.trans hspace, ?_, fun q => ?_⟩
      · exact List.forall_mem_cons.2 ⟨by simp [hx], hall⟩
      · change _ = Sample.replay q.shape ((m :: accepted ms t).filterMap (·.amountAt? q)) _
        rw [hreplay, hget, List.filterMap_cons, Measurement.amountAt?]
        split
        · rename_i hq
          subst hq
          rw [hx]
          rfl
        · rfl
    | @refused e r' t ht hspace hsamples =>
      obtain ⟨u, hu, hu', hall, hreplay⟩ := ih ht
      exact ⟨u, hu, hu'.trans hspace, hall, fun q => hsamples ▸ hreplay q⟩

end Service

namespace Measurement

variable {p : Place} {m : Measurement Rat}

theorem amountAt?_counter (hp : p.shape = .counter) (hm : m.place.mark = p.mark ↔ m.place = p) :
    (m.amountAt? p).getD 0 = (m.added p.mark : Int) := by
  by_cases h : m.place = p
  · have hshape : m.shape = .counter := (congrArg Place.shape h).trans hp
    cases m with
    | increment metric value tags =>
      cases value with
      | error e => simp [amountAt?, amount?, added, Except.toOption]
      | ok n => simp [amountAt?, amount?, added, Except.toOption, h, Scalar.ofInt?]
    | setGauge | recordTiming => cases hshape
  · have hmark : m.place.mark ≠ p.mark := mt hm.1 h
    cases m with
    | increment metric value tags =>
      cases value with
      | error e => simp [amountAt?, h, added]
      | ok n => simp [amountAt?, h, added, hmark]
    | setGauge | recordTiming => simp [amountAt?, h, added]

theorem amountAt?_gauge (hp : p.shape = .gauge) (hm : m.place.mark = p.mark ↔ m.place = p) :
    m.amountAt? p = m.set? p.mark := by
  by_cases h : m.place = p
  · have hshape : m.shape = .gauge := (congrArg Place.shape h).trans hp
    cases m with
    | setGauge metric shown value tags =>
      cases value with
      | error e => simp [amountAt?, amount?, set?, Except.toOption]
      | ok x => simp [amountAt?, amount?, set?, Except.toOption, h]
    | increment | recordTiming => cases hshape
  · have hmark : m.place.mark ≠ p.mark := mt hm.1 h
    cases m with
    | setGauge metric shown value tags =>
      cases value with
      | error e => simp [amountAt?, h, set?]
      | ok x => simp [amountAt?, h, set?, hmark]
    | increment | recordTiming => simp [amountAt?, h, set?]

theorem sum_amountAt? (hp : p.shape = .counter) {ms : List (Measurement Rat)}
    (hms : ∀ m ∈ ms, m.place.mark = p.mark ↔ m.place = p) :
    Scalar.sum (ms.filterMap (·.amountAt? p)) = ((ms.map (added p.mark)).sum : Int) := by
  rw [Scalar.sum_eq]
  induction ms with
  | nil => rfl
  | cons m ms ih =>
    obtain ⟨hm, hms⟩ := List.forall_mem_cons.1 hms
    rw [List.map_cons, List.sum_cons, Int.cast_add, ← ih hms, ← amountAt?_counter hp hm,
      List.filterMap_cons]
    cases m.amountAt? p <;> simp

end Measurement

namespace Service

/-- Whatever calls a recorder that exports has been given, and however many of them failed: every
sample has a metric and labels that no other sample has; a counter stands at the sum of what the
calls that did not fail have added under its metric and labels, a gauge at what they have last set
it to. A further call changes no sample of another metric or other labels, and none if it fails.
Metrics that claim a name in common are one. -/
theorem samples_measure (s : Service Rat) (space : String) (ms : List (Measurement Rat)) :
    let s := { s with recorder := some (.new true space true) }
    let calls := accepted ms s
    ∃ r, (measure ms s).recorder = some r ∧ r.exporting = true ∧
      ((Assoc.keys r.samples).map Place.mark).Nodup ∧
      (∀ m ∈ calls, m.place ∈ Assoc.keys r.samples) ∧
      (∀ p ∈ r.samples, p.1.shape = .counter →
        p.2 = .number ((calls.map (Measurement.added p.1.mark)).sum : Int)) ∧
      (∀ p ∈ r.samples, p.1.shape = .gauge →
        (calls.filterMap (Measurement.set? p.1.mark)).getLast?.map .number = some p.2) ∧
      (∀ m : Measurement Rat, ∃ r', (m.take (measure ms s)).recorder = some r' ∧
        ∀ p, ((perform m.act (measure ms s)).1 = .ok () → m.place.mark ≠ p.mark) →
          Assoc.get? p r'.samples = Assoc.get? p r.samples) ∧
      ∀ m ∈ calls, ∀ n ∈ calls, ¬(m.place.names r.space).Disjoint (n.place.names r.space) →
        m.shape = n.shape ∧ m.metric = n.metric := by
  intro s calls
  have hnew : s.Exports (.new true space true) := ⟨rfl, rfl, rfl, Recorder.isOrderly_new _ _ _⟩
  obtain ⟨r, hr, -, hamount, hreplay⟩ := hnew.measure ms
  have hget (p : Place) : Assoc.get? p r.samples =
      Sample.replay p.shape (calls.filterMap (·.amountAt? p)) none := hreplay p
  have hhit : ∀ m ∈ calls, m.place ∈ Assoc.keys r.samples := by
    intro m hm
    by_contra hnot
    rw [← Assoc.get?_eq_none, hget] at hnot
    refine Sample.replay_ne_none m.place.shape (fun hnil => hamount m hm ?_) hnot
    simpa [Measurement.amountAt?] using List.filterMap_eq_nil_iff.1 hnil m hm
  have hmark {p : Place × Sample Rat} (hp : p ∈ r.samples) :
      ∀ m ∈ calls, m.place.mark = p.1.mark ↔ m.place = p.1 := fun m hm =>
    ⟨hr.orderly.eq_of_mark (hhit m hm) (List.mem_map_of_mem hp), congrArg Place.mark⟩
  have hsample {p : Place × Sample Rat} (hp : p ∈ r.samples) :
      Sample.replay p.1.shape (calls.filterMap (·.amountAt? p.1)) none = some p.2 := by
    rw [← hget, Assoc.get?_of_mem hr.orderly.nodup_samples hp]
  refine ⟨r, hr.recorder, hr.exporting, ?nodup, hhit, ?counter, ?gauge, ?frame, ?names⟩
  case nodup => exact hr.orderly.nodup_marks
  case counter =>
    intro p hp hshape
    have h := hsample hp
    rw [hshape] at h
    rw [Sample.replay_counter_none h, Measurement.sum_amountAt? hshape (hmark hp)]
  case gauge =>
    intro p hp hshape
    have h := hsample hp
    rw [hshape, Sample.replay_gauge_none] at h
    rw [← h]
    congr 2
    exact List.filterMap_congr fun m hm => (Measurement.amountAt?_gauge hshape (hmark hp m hm)).symm
  case frame =>
    intro m
    have hm := Measurement.measured hr m
    simp only [Measurement.take]
    generalize perform m.act (measure ms s) = q at hm
    cases hm with
    | @taken x r' t hx ht hspace hput =>
      refine ⟨r', ht.recorder, fun p hp => ?_⟩
      rw [hput, if_neg]
      rintro rfl
      exact hp rfl rfl
    | @refused e r' t ht hspace hsame => exact ⟨r', ht.recorder, fun p _ => by rw [hsame]⟩
  case names =>
    exact fun m hm n hn => hr.orderly.eq_of_names (hhit m hm) (hhit n hn)

example :
    let calls : List (Measurement Rat) := [.increment "x" (.ok 2) [("a-b", .text "u"), ("c", .null)],
      .increment "x." (.ok 5) [("a_b", .text "u")], .setGauge "x" "1" (.ok 1) [],
      .increment "x" (.ok 3) [("a_b", .text "u")], .increment "x" (.ok (-4)) [("a_b", .text "u")]]
    (accepted calls { new Rat with recorder := some (.new true "" true) }).map
      (Measurement.added ⟨.counter, "x", [("a_b", "u")]⟩) = [2, 3, 0] := by
  decide +kernel

end Service

end TagRank
