import TagRank.Proofs.Service.Persist
import TagRank.Service.Evaluate

namespace TagRank

open Metrics

namespace Action

variable {α β : Type} {R : Service α → Service α → Prop}

section

variable [IsPreorder (Service α) R]

theorem moves_onStoreFailure {a : Action α β} {handle : Error → Action α β} (ha : Moves R a)
    (hh : ∀ e, Moves R (handle e)) : Moves R (onStoreFailure a handle) :=
  moves_tryCatch ha fun e => moves_ite _ (hh e) (moves_throw e)

end

variable [Scalar α] {document : String}

section

variable [Patient R]

theorem moves_loadGiven {document : Spelling} {sentences : List GivenSentence}
    (h : Moves R (transaction (loading document sentences))) :
    Moves R (loadGiven document sentences) :=
  moves_bind h fun _ => moves_bind (moves_log _ _ _) fun _ => moves_pure _

theorem moves_rank (kernel : Kernel α) (count : Int) {relation field : String}
    (h : Moves R (transaction (edges document relation (some field)))) (rounds : Int)
    (damping : α) : Moves R (rank kernel count document relation field rounds damping) := by
  rw [rank]
  dsimp only
  refine moves_bind (moves_ofExcept _) fun _ => moves_bind (moves_ofExcept _) fun _ =>
    moves_ite _ (moves_throw_bind _ _) <| moves_ite _ (moves_throw_bind _ _) <|
    moves_bind ?edges fun _ => moves_bind (moves_ofExcept _) fun _ => moves_bind ?score fun _ =>
    moves_bind (moves_log _ _ _) fun _ => moves_pure _
  case edges =>
    exact moves_onStoreFailure h fun _ => moves_bind (moves_log _ _ _) fun _ => moves_throw _
  case score =>
    refine moves_tryCatch (moves_timed (m := .ranking) rfl relation (moves_ofExcept _)) fun _ =>
      moves_ite _ ?_ ?_
    · exact moves_bind (moves_log _ _ _) fun _ => moves_throw _
    · exact moves_throw _

theorem moves_spans (h : ∀ tags, Moves R (transaction (tagOccurrences document tags)))
    (ranked : List (RankedNode α)) : Moves R (spans document ranked) := by
  rw [spans]
  dsimp only
  refine moves_ite _ (moves_pure _) <| moves_bind ?_ fun _ => moves_pure _
  exact moves_onStoreFailure (h _) fun _ => moves_bind (moves_log _ _ _) fun _ => moves_throw _

end

variable [Tolerant R]

theorem moves_build {relation field : String}
    (h : Moves R (transaction (addPairs document relation field))) :
    Moves R (build document relation field) := by
  simp only [build]
  refine moves_bind (moves_ofExcept _) fun _ => moves_bind (moves_ofExcept _) fun _ =>
    moves_bind (moves_onStoreFailure (moves_map _ h) fun e => ?_) fun counts => ?_
  · exact moves_counted (m := .buildsFailed) rfl _ _ _ _ relation _
  · cases counts with
    | none => exact moves_pure _
    | some counts => exact moves_counted (m := .pairs) rfl _ _ _ _ relation _

theorem moves_clear {relation : String}
    (h : Moves R (transaction (deleteEdges document relation))) :
    Moves R (clear document relation) := by
  simp only [clear]
  refine moves_bind (moves_ofExcept _) fun _ =>
    moves_bind (moves_onStoreFailure (moves_map _ h) fun e => ?_) fun removed => ?_
  · exact moves_counted (m := .clearsFailed) rfl _ _ _ _ relation _
  · cases removed with
    | none => exact moves_pure _
    | some n => exact moves_bind (moves_log _ _ _) fun _ => moves_pure _

theorem moves_rebuild {relation field : String}
    (hc : Moves R (transaction (deleteEdges document relation)))
    (hb : Moves R (transaction (addPairs document relation field))) :
    Moves R (rebuild document relation field) :=
  moves_bind (moves_clear hc) fun _ => moves_ite _ (moves_build hb) (moves_pure _)

theorem moves_persist {policy : Policy} {f : Filter} {counts : Counts}
    (h : Moves R (transaction (persisting policy f document counts))) :
    Moves R (persist policy f document counts) := by
  simp only [persist]
  refine moves_bind (moves_outcome h) fun x => ?_
  cases x with
  | ok o => exact moves_counted (m := .persisted) rfl _ _ _ _ policy.name _
  | error e =>
    dsimp only
    split
    · exact moves_counted (m := .persistsMissing) rfl _ _ _ _ policy.name _
    · exact moves_counted (m := .persistsFailed) rfl _ _ _ _ policy.name _
    · exact moves_throw e

theorem moves_finish (e : Evaluation α) : Moves R (finish e) :=
  moves_bind (moves_log _ _ _) fun _ =>
    moves_bind (moves_increment (m := .evaluations) rfl _ e.status.name) fun _ =>
    moves_bind (moves_recordTiming (m := .evaluation) rfl _ e.status.name) fun _ => moves_pure e

theorem moves_conclude {p : Pipeline α} {f : Filter}
    (h : ∀ counts, Moves R (persist p.policy f document counts)) (ranked : List (RankedNode α))
    (found : List (Span α)) : Moves R (conclude p f document ranked found) :=
  moves_bind (moves_logAll _) fun _ => moves_bind (h _) fun _ =>
    moves_bind (moves_logAll _) fun _ => moves_finish _

theorem moves_evaluate {p : Pipeline α} {f : Filter} {relation field : String} {rounds : Int}
    {damping : α} (hr : Moves R (rank p.kernel p.topNodes document relation field rounds damping))
    (hs : ∀ ranked, Moves R (spans (α := α) document ranked))
    (hp : ∀ counts, Moves R (persist p.policy f document counts)) :
    Moves R (evaluate p f document relation field rounds damping) := by
  simp only [evaluate]
  refine moves_bind (moves_outcome ?_) fun found => ?_
  · exact moves_bind hr fun ranked => moves_bind (hs ranked) fun _ => moves_pure _
  · cases found with
    | ok found => exact moves_conclude hp _ _
    | error e =>
      exact moves_ite _ (moves_bind (moves_log _ _ _) fun _ => moves_finish _) (moves_throw e)

end Action

end TagRank
