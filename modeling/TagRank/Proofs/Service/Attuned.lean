import TagRank.Proofs.Metrics.Meter
import TagRank.Proofs.Service.Persist
import TagRank.Service.Evaluate

/-!
Actions on two services side by side. The services measure alike, so the actions answer alike if
their transactions do; if two rankings differ in strengths alone, then so do two evaluations.
-/

namespace TagRank

open Metrics

/-- The outcome without the difference between new keywords and old ones. -/
def PersistOutcome.ageless (o : PersistOutcome) : PersistOutcome :=
  { o with created := o.created + o.reused, reused := 0 }

theorem PersistOutcome.ageless_wrote (created : Bool) (o : PersistOutcome) :
    (o.wrote created).ageless = o.ageless.wrote true := by
  cases created with
  | true => simp [wrote, ageless, Nat.add_right_comm]
  | false => simp [wrote, ageless, Nat.add_assoc]

def PersistOutcome.Similar (o o' : PersistOutcome) : Prop := o.ageless = o'.ageless

theorem PersistOutcome.Similar.wrote {o o' : PersistOutcome} (h : o.Similar o')
    (created created' : Bool) : (o.wrote created).Similar (o'.wrote created') := by
  simp only [Similar, ageless_wrote]
  rw [h]

theorem PersistOutcome.Similar.skip {o o' : PersistOutcome} (h : o.Similar o') (key : String) :
    { o with skipped := o.skipped ++ [key] : PersistOutcome }.Similar
      { o' with skipped := o'.skipped ++ [key] } :=
  (congrArg (fun o : PersistOutcome => { o with skipped := o.skipped ++ [key] }) h :)

theorem PersistOutcome.Similar.status {o o' : PersistOutcome} (h : o.Similar o') :
    o.status = o'.status := (congrArg PersistOutcome.status h :)

theorem PersistOutcome.Similar.written {o o' : PersistOutcome} (h : o.Similar o') :
    o.written = o'.written := (congrArg PersistOutcome.written h :)

theorem PersistOutcome.Similar.error {o o' : PersistOutcome} (h : o.Similar o') :
    o.error = o'.error := (congrArg PersistOutcome.error h :)

def Evaluation.ageless {α : Type} (e : Evaluation α) : Evaluation α :=
  { e with persisted := e.persisted.map PersistOutcome.ageless }

namespace Action

variable {α β γ : Type} [Scalar α]

/-- A relation of services which is kept when both log something, or measure the same. -/
class Attuned (E : Service α → Service α → Prop) : Prop where
  log {s t : Service α} (lines lines' : List Log.Line) : E s t →
    E { s with log := s.log ++ lines } { t with log := t.log ++ lines' }
  increment {m : Meter} (hm : m.shape = .counter) (n : Int) (tag : String) :
    Parallel E (increment m.metric (.ok n) [(m.tag, .text tag)])
      (increment m.metric (.ok n) [(m.tag, .text tag)]) Eq
  recordTiming {m : Meter} (hm : m.shape = .histogram) (duration : Duration α) (tag : String) :
    Parallel E (recordTiming m.metric (.ok duration) [(m.tag, .text tag)])
      (recordTiming m.metric (.ok duration) [(m.tag, .text tag)]) Eq

section

variable {E : Service α → Service α → Prop} [Attuned E]

theorem parallel_logAll (lines lines' : List Log.Line) :
    Parallel E (logAll lines) (logAll lines') Eq :=
  fun _ _ hs => .done (Attuned.log lines lines' hs) rfl

theorem parallel_log (level level' : Log.Level) (part part' text text' : String) :
    Parallel E (log level part text) (log level' part' text') Eq :=
  fun _ _ hs => .done (Attuned.log [⟨level, part, text⟩] [⟨level', part', text'⟩] hs) rfl

theorem parallel_counted {m : Meter} (hm : m.shape = .counter) (level : Log.Level)
    (part text text' : String) (n : Int) (tag : String) {Q : β → γ → Prop} {b : β} {c : γ}
    (h : Q b c) :
    Parallel E (do log level part text; increment m.metric (.ok n) [(m.tag, .text tag)]; return b)
      (do log level part text'; increment m.metric (.ok n) [(m.tag, .text tag)]; return c) Q :=
  parallel_bind_eq (parallel_log _ _ _ _ _ _) fun _ =>
    parallel_bind_eq (Attuned.increment hm n tag) fun _ => parallel_pure h

theorem parallel_timed {m : Meter} (hm : m.shape = .histogram) (tag : String) {a : Action α β}
    (h : Parallel E a a Eq) :
    Parallel E (timed m.metric [(m.tag, .text tag)] a) (timed m.metric [(m.tag, .text tag)] a)
      Eq := by
  refine parallel_bind (parallel_outcome h) fun x y hxy =>
    parallel_bind_eq (Attuned.recordTiming hm _ tag) fun _ => ?_
  rw [hxy.eq]
  exact parallel_ofExcept y

variable {document relation field : String}

theorem parallel_loadGiven {document : Spelling} {sentences : List GivenSentence}
    (h : Parallel E (transaction (loading document sentences))
      (transaction (loading document sentences)) Eq) :
    Parallel E (loadGiven document sentences) (loadGiven document sentences) Eq :=
  parallel_bind_eq h fun _ => parallel_bind_eq (parallel_log _ _ _ _ _ _) fun _ =>
    parallel_pure rfl

theorem parallel_build
    (h : Parallel E (transaction (addPairs document relation field))
      (transaction (addPairs document relation field)) Eq) :
    Parallel E (build document relation field) (build document relation field) Eq := by
  simp only [build]
  refine parallel_bind_eq (parallel_ofExcept _) fun _ => parallel_bind_eq (parallel_ofExcept _)
    fun _ => parallel_bind_eq (parallel_onStoreFailure ?_ fun e => ?_) fun counts => ?_
  · exact parallel_map h fun _ _ h => congrArg some h
  · exact parallel_counted (m := .buildsFailed) rfl _ _ _ _ _ relation rfl
  · cases counts with
    | none => exact parallel_pure rfl
    | some counts => exact parallel_counted (m := .pairs) rfl _ _ _ _ _ relation rfl

theorem parallel_clear
    (h : Parallel E (transaction (deleteEdges document relation))
      (transaction (deleteEdges document relation)) Eq) :
    Parallel E (clear document relation) (clear document relation) Eq := by
  simp only [clear]
  refine parallel_bind_eq (parallel_ofExcept _) fun _ =>
    parallel_bind_eq (parallel_onStoreFailure ?_ fun e => ?_) fun removed => ?_
  · exact parallel_map h fun _ _ h => congrArg some h
  · exact parallel_counted (m := .clearsFailed) rfl _ _ _ _ _ relation rfl
  · cases removed with
    | none => exact parallel_pure rfl
    | some n => exact parallel_bind_eq (parallel_log _ _ _ _ _ _) fun _ => parallel_pure rfl

theorem parallel_rebuild
    (hc : Parallel E (transaction (deleteEdges document relation))
      (transaction (deleteEdges document relation)) Eq)
    (hb : Parallel E (transaction (addPairs document relation field))
      (transaction (addPairs document relation field)) Eq) :
    Parallel E (rebuild document relation field) (rebuild document relation field) Eq :=
  parallel_bind_eq (parallel_clear hc) fun _ =>
    parallel_ite _ (parallel_build hb) (parallel_pure rfl)

theorem parallel_rank {kernel : Kernel α} {rounds : Int} {damping : α} {count : Int}
    {Q : List Edge → List Edge → Prop} {V : View α → View α → Prop}
    {g : RankedNode α → RankedNode α}
    (he : Parallel E (transaction (edges document relation (some field)))
      (transaction (edges document relation (some field))) Q)
    (hv : ∀ es es', Q es es' → Matched V (View.ofEdges field es) (View.ofEdges field es'))
    (hs : ∀ v v', V v v' →
      kernel v v.field rounds damping = kernel v' v'.field rounds damping)
    (hb : ∀ v v', V v v' → ∀ scores,
      RankedNode.best count v' scores = (RankedNode.best count v scores).map g) :
    Parallel E (rank kernel count document relation field rounds damping)
      (rank kernel count document relation field rounds damping)
      fun ranked ranked' => ranked' = ranked.map g := by
  rw [rank]
  dsimp only
  refine parallel_bind_eq (parallel_ofExcept _) fun _ => parallel_bind_eq (parallel_ofExcept _)
    fun _ => parallel_ite _ (parallel_throw_bind _ _ _) <| parallel_ite _
    (parallel_throw_bind _ _ _) <| parallel_bind ?edges fun es es' hes =>
    parallel_bind (parallel_ofExcept_of_matched (hv es es' hes)) fun v v' hvv =>
    parallel_bind_eq ?score fun _ => parallel_bind_eq (parallel_log _ _ _ _ _ _) fun _ =>
    parallel_pure (hb v v' hvv _)
  case edges =>
    exact parallel_onStoreFailure he fun _ =>
      parallel_bind_eq (parallel_log _ _ _ _ _ _) fun _ => parallel_throw _
  case score =>
    simp only [score, hs v v' hvv]
    refine parallel_tryCatch (parallel_timed (m := .ranking) rfl relation (parallel_ofExcept _))
      fun _ => parallel_ite _ ?_ ?_
    · exact parallel_bind_eq (parallel_log _ _ _ _ _ _) fun _ => parallel_throw _
    · exact parallel_throw _

theorem parallel_spans
    (h : ∀ tags, Parallel E (transaction (tagOccurrences document tags))
      (transaction (tagOccurrences document tags)) Eq) (ranked : List (RankedNode α)) :
    Parallel E (spans document ranked) (spans document ranked) Eq := by
  rw [spans]
  dsimp only
  refine parallel_ite _ (parallel_pure rfl) <| parallel_bind_eq ?_ fun _ => parallel_pure rfl
  exact parallel_onStoreFailure (h _) fun _ =>
    parallel_bind_eq (parallel_log _ _ _ _ _ _) fun _ => parallel_throw _

theorem parallel_persist {policy : Policy} {f : Filter} {counts : Counts}
    (h : Parallel E (transaction (persisting policy f document counts))
      (transaction (persisting policy f document counts)) PersistOutcome.Similar) :
    Parallel E (persist policy f document counts) (persist policy f document counts)
      PersistOutcome.Similar := by
  simp only [persist]
  refine parallel_bind (parallel_outcome h) fun x y hxy => ?_
  cases hxy with
  | @ok o o' h =>
    dsimp only
    rw [h.written]
    exact parallel_counted (m := .persisted) rfl _ _ _ _ _ policy.name h
  | @error e =>
    dsimp only
    split
    · exact parallel_counted (m := .persistsMissing) rfl _ _ _ _ _ policy.name rfl
    · exact parallel_counted (m := .persistsFailed) rfl _ _ _ _ _ policy.name rfl
    · exact parallel_throw e

theorem parallel_finish {e e' : Evaluation α} (h : e.status = e'.status)
    {Q : Evaluation α → Evaluation α → Prop} (hq : Q e e') :
    Parallel E (finish e) (finish e') Q := by
  rw [finish]
  dsimp only
  rw [h]
  exact parallel_bind_eq (parallel_log _ _ _ _ _ _) fun _ =>
    parallel_bind_eq (Attuned.increment (m := .evaluations) rfl _ _) fun _ =>
    parallel_bind_eq (Attuned.recordTiming (m := .evaluation) rfl _ _) fun _ => parallel_pure hq

end

def locate (p : Pipeline α) (document relation field : String) (rounds : Int) (damping : α) :
    Action α (List (RankedNode α) × List (Span α)) := do
  let ranked ← rank p.kernel p.topNodes document relation field rounds damping
  return (ranked, ← spans document ranked)

/-- Changes a node in its strength alone. -/
def IsRestrengthening (g : RankedNode α → RankedNode α) : Prop :=
  ∀ n, (g n).tag = n.tag ∧ (g n).score = n.score

omit [Scalar α] in
theorem isRestrengthening_id : IsRestrengthening (id : RankedNode α → RankedNode α) :=
  fun _ => ⟨rfl, rfl⟩

omit [Scalar α] in
theorem scores_map {g : RankedNode α → RankedNode α} (hg : IsRestrengthening g)
    (ranked : List (RankedNode α)) :
    RankedNode.scores (ranked.map g) = RankedNode.scores ranked := by
  simp only [RankedNode.scores]
  rw [List.map_map]
  apply congrArg Assoc.ofList
  apply List.map_congr_left
  intro n _
  simp [hg n]

theorem spans_map {g : RankedNode α → RankedNode α} (hg : IsRestrengthening g) (document : String)
    (ranked : List (RankedNode α)) : spans document (ranked.map g) = spans document ranked := by
  simp only [spans]
  rw [scores_map hg, List.isEmpty_map]

structure Evaluates (E : Service α → Service α → Prop) (policy : Policy) (f : Filter)
    (document : String) : Prop where
  tagOccurrences : ∀ tags, Parallel E (transaction (tagOccurrences document tags))
    (transaction (tagOccurrences document tags)) Eq
  persisting : ∀ counts, Parallel E (transaction (persisting policy f document counts))
    (transaction (persisting policy f document counts)) PersistOutcome.Similar

variable {E : Service α → Service α → Prop} [Attuned E] {p : Pipeline α} {f : Filter}
  {document relation field : String} {rounds : Int} {damping : α}
  {g : RankedNode α → RankedNode α}

theorem parallel_rank_eq {kernel : Kernel α} {count : Int}
    (h : Parallel E (transaction (edges document relation (some field)))
      (transaction (edges document relation (some field))) Eq) :
    Parallel E (rank kernel count document relation field rounds damping)
      (rank kernel count document relation field rounds damping)
      fun ranked ranked' => ranked' = ranked.map id := by
  refine parallel_rank (V := Eq) h (fun es es' h => ?_) (fun v v' h => by rw [h])
    fun v v' h scores => by rw [h, List.map_id]
  subst h
  cases View.ofEdges (α := α) field es with
  | ok v => exact .ok rfl
  | error e => exact .error

theorem parallel_locate (h : ∀ tags, Parallel E (transaction (tagOccurrences document tags))
      (transaction (tagOccurrences document tags)) Eq) (hg : IsRestrengthening g)
    (hr : Parallel E (rank p.kernel p.topNodes document relation field rounds damping)
      (rank p.kernel p.topNodes document relation field rounds damping)
      fun ranked ranked' => ranked' = ranked.map g) :
    Parallel E (locate p document relation field rounds damping)
      (locate p document relation field rounds damping) fun x y => y = (x.1.map g, x.2) := by
  refine parallel_bind hr fun ranked ranked' hr => ?_
  rw [hr, spans_map hg]
  exact parallel_bind_eq (parallel_spans h ranked) fun _ => parallel_pure rfl

theorem parallel_conclude (h : Evaluates E p.policy f document) (g : RankedNode α → RankedNode α)
    (ranked : List (RankedNode α)) (found : List (Span α)) :
    Parallel E (conclude p f document ranked found) (conclude p f document (ranked.map g) found)
      fun e e' => e'.ageless = { e.ageless with ranked := e.ranked.map g } := by
  simp only [conclude]
  refine parallel_bind_eq (parallel_logAll _ _) fun _ =>
    parallel_bind (parallel_persist (h.persisting _)) fun o o' h =>
    parallel_bind_eq (parallel_logAll _ _) fun _ => parallel_finish ?_ ?_
  · exact congrArg EvaluationStatus.ofPersist h.status
  · simp only [Evaluation.ageless, Option.map_some]
    rw [h, h.status, h.error]

theorem parallel_evaluate (h : Evaluates E p.policy f document) (hg : IsRestrengthening g)
    (hr : Parallel E (rank p.kernel p.topNodes document relation field rounds damping)
      (rank p.kernel p.topNodes document relation field rounds damping)
      fun ranked ranked' => ranked' = ranked.map g) :
    Parallel E (evaluate p f document relation field rounds damping)
      (evaluate p f document relation field rounds damping)
      fun e e' => e'.ageless = { e.ageless with ranked := e.ranked.map g } := by
  refine parallel_bind (parallel_outcome (parallel_locate h.tagOccurrences hg hr))
    fun x y hxy => ?_
  cases hxy with
  | @ok x y hy =>
    rw [hy]
    exact parallel_conclude h g x.1 x.2
  | error =>
    exact parallel_ite _ (parallel_bind_eq (parallel_log _ _ _ _ _ _) fun _ =>
      parallel_finish rfl rfl) (parallel_throw _)

end Action

end TagRank
