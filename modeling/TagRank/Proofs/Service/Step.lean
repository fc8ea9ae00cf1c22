import TagRank.Proofs.Service.Evaluate
import TagRank.Proofs.Store.Tally

namespace TagRank

inductive Step (α : Type)
  | load (document : String) (sentences : List Sentence)
  | build (document relation field : String)
  | clear (document relation : String)
  | rebuild (document relation field : String)
  | evaluate (p : Pipeline α) (f : Filter) (document relation field : String) (rounds : Int)
    (damping : α)
  | persist (policy : Policy) (f : Filter) (document : String) (counts : Counts)
  /-- Not a client's doing: from now on the store refuses something, or nothing. -/
  | refuse (fault : Option Fault)

open TagRank.Action

variable {α : Type} [Scalar α]

namespace Step

def take : Step α → Service α → Service α
  | load document sentences, s => (perform (loadDocument document sentences) s).2
  | build document relation field, s => (perform (Action.build document relation field) s).2
  | clear document relation, s => (perform (Action.clear document relation) s).2
  | rebuild document relation field, s => (perform (Action.rebuild document relation field) s).2
  | evaluate p f document relation field rounds damping, s =>
    (perform (Action.evaluate p f document relation field rounds damping) s).2
  | persist policy f document counts, s => (perform (Action.persist policy f document counts) s).2
  | refuse fault, s => { s with fault }

/-- The changes that a step succeeds in making. -/
def events : Step α → Service α → List Event
  | load document sentences, s =>
    if !sentences.isEmpty && (perform (loadDocument document sentences) s).1.isOk then
      [.loaded document]
    else []
  | build document relation field, s =>
    if builds document relation field s then [.built document relation field] else []
  | clear document relation, s =>
    if clears document relation s then [.cleared document relation] else []
  | rebuild document relation field, s =>
    if clears document relation s then
      let t := (perform (Action.clear document relation) s).2
      .cleared document relation ::
        if builds document relation field t then [.built document relation field] else []
    else []
  | evaluate .., _ | persist .., _ | refuse _, _ => []

end Step

namespace Service

def run : List (Step α) → Service α → Service α
  | [], s => s
  | x :: xs, s => run xs (x.take s)

def history : List (Step α) → Service α → List Event
  | [], _ => []
  | x :: xs, s => x.events s ++ history xs (x.take s)

end Service

namespace Store

/-- One store comes from another by loads, builds, clears and stored keywords, with these changes of
edges and tokens on the way. -/
inductive Follows : Store → List Event → Store → Prop
  | same (s : Store) : Follows s [] s
  | load {s document sentences n t} : s.load document sentences = .ok (n, t) →
      Follows s (if sentences.isEmpty then [] else [.loaded document]) t
  | build (s : Store) (document relation field : String) :
      Follows s [.built document relation field] (s.built document relation field)
  | clear (s : Store) (document relation : String) :
      Follows s [.cleared document relation] (s.removeEdges document relation)
  | put (s : Store) (policy : Policy) (document : String) (rows : List (String × Int)) :
      Follows s [] (s.putAll policy document rows)
  | append {s t u es fs} : Follows s es t → Follows t fs u → Follows s (es ++ fs) u

theorem Follows.of_eq {s t : Store} (h : t = s) : Follows s [] t := h ▸ .same s

theorem Follows.tallied {s t : Store} {es fs : List Event} (h : Follows s fs t)
    (hs : s.Tallied es) : t.Tallied (es ++ fs) := by
  induction h generalizing es with
  | same s => simpa using hs
  | load hl => exact hs.load hl
  | build s document relation field => exact hs.built
  | clear s document relation => exact hs.cleared
  | put s policy document rows =>
    obtain ⟨more, hp, _⟩ := putAll_eq policy document rows s
    rw [List.append_nil, hp]
    exact hs.congr rfl rfl
  | append _ _ ih ih' =>
    rw [← List.append_assoc]
    exact ih' (ih hs)

end Store

theorem Step.follows (x : Step α) (s : Service α) :
    s.store.Follows (x.events s) (x.take s).store := by
  cases x with
  | load document sentences =>
    have hl := loadDocument_cases document sentences s
    simp only [take, events]
    generalize perform (loadDocument document sentences) s = p at hl
    cases hl with
    | committed hm =>
      have h := Store.Follows.load hm
      cases hs : sentences.isEmpty with
      | true => simpa [hs] using h
      | false => simpa [hs, Except.isOk, Except.toBool] using h
    | undone _ ht => simpa [Except.isOk, Except.toBool] using .of_eq ht
    | struck _ ht => simpa [Except.isOk, Except.toBool] using .of_eq ht
  | build document relation field =>
    simp only [take, events, (build_carries document relation field s).store]
    cases builds document relation field s with
    | false => exact .same _
    | true => exact .build _ _ _ _
  | clear document relation =>
    simp only [take, events, (clear_carries document relation s).store]
    cases clears document relation s with
    | false => exact .same _
    | true => exact .clear _ _ _
  | rebuild document relation field =>
    have hc := (clear_carries document relation s).store
    simp only [take, events]
    rw [perform_rebuild]
    cases hb : clears document relation s with
    | false => exact .of_eq (by simpa [hb] using hc)
    | true =>
      rw [hb, if_pos rfl] at hc
      rw [if_pos rfl, if_pos rfl]
      generalize (perform (Action.clear document relation) s).2 = t at hc
      refine .append (.clear _ _ _) ?_
      rw [← hc, (build_carries document relation field t).store]
      cases builds document relation field t with
      | false => exact .same _
      | true => exact .build _ _ _ _
  | evaluate p f document relation field rounds damping =>
    have he := evaluated p f document relation field rounds damping s
    simp only [take, events]
    generalize perform (Action.evaluate p f document relation field rounds damping) s = q at he
    cases he with
    | written _ ht =>
      rw [ht]
      exact .put _ _ _ _
    | nothing ht => exact .of_eq ht
  | persist policy f document counts =>
    have hp := persisted policy f document counts s
    simp only [take, events]
    generalize perform (Action.persist policy f document counts) s = q at hp
    cases hp with
    | all _ ht =>
      rw [ht]
      exact .put _ _ _ _
    | nothing ht => exact .of_eq ht
  | refuse fault => exact .same _

theorem Service.follows_run (xs : List (Step α)) (s : Service α) :
    s.store.Follows (history xs s) (run xs s).store := by
  induction xs generalizing s with
  | nil => exact .same _
  | cons x xs ih => exact .append (x.follows s) (ih (x.take s))

def neighbouring (first second : String) : Sentence :=
  ⟨0, [⟨first, ["NN"], 0, 0, 0, 0, ""⟩, ⟨second, ["NN"], 1, 1, 0, 1, ""⟩]⟩

end TagRank
