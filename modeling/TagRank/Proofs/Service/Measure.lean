import Mathlib.Order.Defs.Unbundled
import TagRank.Proofs.Metrics.Meter
import TagRank.Proofs.Service.Perform

namespace TagRank

open Metrics

theorem Tags.texts_single (tag text : String) :
    Tags.texts [(tag, .text text)] = [(tag, text)] := by
  simp [Tags.texts, measureText]

namespace Action

variable {α β γ δ : Type} {g : Service α → δ}

/-- The service that an action leaves behind stands in a relation to the one that it found. -/
def Moves (R : Service α → Service α → Prop) (a : Action α β) : Prop := ∀ s, R s (perform a s).2

def Kept (g : Service α → δ) (s t : Service α) : Prop := g t = g s

instance : IsPreorder (Service α) (Kept g) where
  refl _ := rfl
  trans _ _ _ h k := k.trans h

abbrev Keeps (g : Service α → δ) (a : Action α β) : Prop := Moves (Kept g) a

section

variable {R : Service α → Service α → Prop}

theorem Moves.mono {R' : Service α → Service α → Prop} {a : Action α β} (h : Moves R a)
    (hR : ∀ s t, R s t → R' s t) : Moves R' a := fun s => hR _ _ (h s)

theorem moves_outcome {a : Action α β} (ha : Moves R a) : Moves R (outcome a) := ha

theorem moves_ite (c : Prop) [Decidable c] {a b : Action α β} (ha : Moves R a) (hb : Moves R b) :
    Moves R (if c then a else b) := by
  split
  · exact ha
  · exact hb

variable [IsPreorder (Service α) R]

theorem moves_pure (b : β) : Moves R (pure b : Action α β) := fun s => refl_of R s

theorem moves_throw (e : Error) : Moves R (throw e : Action α β) := fun s => refl_of R s

theorem moves_throw_bind (e : Error) (f : γ → Action α β) : Moves R (throw e >>= f) :=
  fun s => refl_of R s

theorem moves_ofExcept (x : Except Error β) : Moves R (ofExcept x : Action α β) :=
  fun s => refl_of R s

theorem moves_get : Moves R (get : Action α (Service α)) := fun s => refl_of R s

theorem moves_bind {a : Action α β} {f : β → Action α γ} (ha : Moves R a)
    (hf : ∀ b, Moves R (f b)) : Moves R (a >>= f) := by
  intro s
  have hs := ha s
  rw [perform_bind]
  generalize perform a s = p at hs
  obtain ⟨e | b, t⟩ := p
  · exact hs
  · exact trans_of R hs (hf b t)

theorem moves_map (f : β → γ) {a : Action α β} (ha : Moves R a) : Moves R (f <$> a) := by
  rw [map_eq_pure_bind]
  exact moves_bind ha fun _ => moves_pure _

theorem moves_tryCatch {a : Action α β} {f : Error → Action α β} (ha : Moves R a)
    (hf : ∀ e, Moves R (f e)) : Moves R (tryCatch a f) := by
  intro s
  have hs := ha s
  rw [perform_tryCatch]
  generalize perform a s = p at hs
  obtain ⟨e | b, t⟩ := p
  · exact trans_of R hs (hf e t)
  · exact hs

theorem moves_ifRecording {a : Action α Unit} (h : Moves R a) : Moves R (ifRecording a) :=
  moves_bind moves_get fun _ => moves_ite _ h (moves_pure _)

end

theorem perform_ifRecording_none {s : Service α} (h : s.recorder = none) (a : Action α Unit) :
    perform (ifRecording a) s = (.ok (), s) := by
  simp only [ifRecording]
  rw [perform_bind, perform_get]
  simp [h]

section

variable [Scalar α]

class Patient (R : Service α → Service α → Prop) : Prop extends IsPreorder (Service α) R where
  log (s : Service α) (lines : List Log.Line) : R s { s with log := s.log ++ lines }
  time {s : Service α} {r : Recorder α} : s.recorder = some r →
    ∀ m : Meter, m.shape = .histogram → ∀ (tag : String) (x : α),
      R s { s with recorder := some (r.observe m.shape m.metric [(m.tag, tag)] x).1 }

/-- A relation in which measuring leaves every service to the one before. -/
class Tolerant (R : Service α → Service α → Prop) : Prop extends IsPreorder (Service α) R where
  log (s : Service α) (lines : List Log.Line) : R s { s with log := s.log ++ lines }
  observe {s : Service α} {r : Recorder α} : s.recorder = some r →
    ∀ (m : Meter) (tag : String) (x : α),
      R s { s with recorder := some (r.observe m.shape m.metric [(m.tag, tag)] x).1 }

instance {R : Service α → Service α → Prop} [Tolerant R] : Patient R where
  log := Tolerant.log
  time hr m _ := Tolerant.observe hr m

instance : Tolerant (Kept (Service.outside (α := α))) where
  log _ _ := rfl
  observe _ _ _ _ := rfl

instance : Tolerant (Kept (Service.store (α := α))) where
  log _ _ := rfl
  observe _ _ _ _ := rfl

variable {R : Service α → Service α → Prop}

theorem moves_observe_of [IsPreorder (Service α) R] {m : Meter} {tag : String}
    (h : ∀ {s : Service α} {r : Recorder α}, s.recorder = some r → ∀ x : α,
      R s { s with recorder := some (r.observe m.shape m.metric [(m.tag, tag)] x).1 })
    (x : Option α) : Moves R (observe m.shape m.metric [(m.tag, tag)] x) := by
  intro s
  simp only [observe]
  rw [perform_bind, perform_get]
  dsimp only
  split
  · rename_i hr
    exact h hr _
  · exact refl_of R s
  · exact refl_of R s

section

variable [Patient R]

theorem moves_log (level : Log.Level) (part text : String) : Moves R (log level part text) :=
  fun s => Patient.log s _

theorem moves_logAll (lines : List Log.Line) : Moves R (logAll lines) := fun s => Patient.log s _

theorem moves_measureLine (metric field shown : String) (tags : List (String × String)) :
    Moves R (measureLine metric field shown tags) := by
  refine moves_bind moves_get fun s => ?_
  split
  · exact moves_pure _
  · exact moves_log _ _ _

theorem moves_recordTiming {m : Meter} (hm : m.shape = .histogram)
    (duration : Except Error (Duration α)) (tag : String) :
    Moves R (recordTiming m.metric duration [(m.tag, .text tag)]) := by
  refine moves_ifRecording <| moves_bind (moves_ofExcept _) fun _ =>
    moves_bind (moves_measureLine _ _ _ _) fun _ => ?_
  rw [← hm, Tags.texts_single]
  exact moves_observe_of (fun hr => Patient.time hr m hm tag) _

theorem moves_timed {m : Meter} (hm : m.shape = .histogram) (tag : String) {a : Action α β}
    (h : Moves R a) : Moves R (timed m.metric [(m.tag, .text tag)] a) :=
  moves_bind (moves_outcome h) fun _ => moves_bind (moves_recordTiming hm _ _) fun _ =>
    moves_ofExcept _

end

variable [Tolerant R]

theorem moves_observe (m : Meter) (tag : String) (x : Option α) :
    Moves R (observe m.shape m.metric [(m.tag, tag)] x) :=
  moves_observe_of (fun hr => Tolerant.observe hr m tag) x

theorem moves_increment {m : Meter} (hm : m.shape = .counter) (value : Except Error Int)
    (tag : String) : Moves R (increment m.metric value [(m.tag, .text tag)]) := by
  refine moves_ifRecording <| moves_bind (moves_ofExcept _) fun _ =>
    moves_bind (moves_measureLine _ _ _ _) fun _ => ?_
  rw [← hm, Tags.texts_single]
  exact moves_observe m tag _

theorem moves_counted {m : Meter} (hm : m.shape = .counter) (level : Log.Level)
    (part text : String) (value : Except Error Int) (tag : String) (b : β) :
    Moves R (do log level part text; increment m.metric value [(m.tag, .text tag)]; return b) :=
  moves_bind (moves_log _ _ _) fun _ => moves_bind (moves_increment hm _ _) fun _ => moves_pure b

end

inductive Noted (b : β) (s : Service α) : Except Error β × Service α → Prop
  | taken {t} : t.outside = s.outside → (s.recorder = none → t.recorder = none) →
      Noted b s (.ok b, t)
  | missed {e t} : t.outside = s.outside → s.recorder ≠ none → Noted b s (.error e, t)

def Notes (a : Action α β) (b : β) : Prop := ∀ s, Noted b s (perform a s)

theorem notes_pure (b : β) : Notes (α := α) (pure b) b := fun _ => .taken rfl id

theorem notes_bind {a : Action α β} {b : β} {f : β → Action α γ} {c : γ} (ha : Notes a b)
    (hf : Notes (f b) c) : Notes (a >>= f) c := by
  intro s
  have hs := ha s
  rw [perform_bind]
  generalize perform a s = p at hs
  cases hs with
  | @taken t ht hn =>
    have hb := hf t
    dsimp only
    generalize perform (f b) t = q at hb
    cases hb with
    | taken hu hm => exact .taken (hu.trans ht) fun h => hm (hn h)
    | missed hu hm => exact .missed (hu.trans ht) fun h => hm (hn h)
  | missed ht hn => exact .missed ht hn

theorem notes_log (level : Log.Level) (part text : String) :
    Notes (α := α) (log level part text) () := fun _ => .taken rfl id

theorem notes_logAll (lines : List Log.Line) : Notes (α := α) (logAll lines) () :=
  fun _ => .taken rfl id

theorem notes_of_recording {a : Action α Unit} (h : Keeps Service.outside (ifRecording a)) :
    Notes (ifRecording a) () := by
  intro s
  by_cases hn : s.recorder = none
  · rw [perform_ifRecording_none hn]
    exact .taken rfl id
  · have hs := h s
    generalize perform (ifRecording a) s = p at hs
    obtain ⟨e | _, t⟩ := p
    · exact .missed hs hn
    · exact .taken hs fun h => absurd h hn

theorem Noted.store {b : β} {s : Service α} {p : Except Error β × Service α} (h : Noted b s p) :
    p.2.store = s.store := by
  cases h with
  | taken h => exact congrArg Prod.fst h
  | missed h => exact congrArg Prod.fst h

theorem Noted.answer {b c : β} {s : Service α} {p : Except Error β × Service α} (h : Noted b s p)
    (hc : p.1 = .ok c) : c = b := by
  cases h with
  | taken => exact (Except.ok.inj hc).symm
  | missed => cases hc

theorem Noted.answer_of_none {b : β} {s : Service α} {p : Except Error β × Service α}
    (h : Noted b s p) (hn : s.recorder = none) : p.1 = .ok b := by
  cases h with
  | taken => rfl
  | missed _ h => exact absurd hn h

variable [Scalar α]

theorem notes_increment {m : Meter} (hm : m.shape = .counter) (value : Except Error Int)
    (tag : String) : Notes (α := α) (increment m.metric value [(m.tag, .text tag)]) () :=
  notes_of_recording (moves_increment hm value tag)

theorem notes_counted {m : Meter} (hm : m.shape = .counter) (level : Log.Level)
    (part text : String) (value : Except Error Int) (tag : String) (b : β) :
    Notes (α := α)
      (do log level part text; increment m.metric value [(m.tag, .text tag)]; return b) b :=
  notes_bind (notes_log _ _ _) (notes_bind (notes_increment hm _ _) (notes_pure b))

theorem notes_recordTiming {m : Meter} (hm : m.shape = .histogram)
    (duration : Except Error (Duration α)) (tag : String) :
    Notes (recordTiming m.metric duration [(m.tag, .text tag)]) () :=
  notes_of_recording (moves_recordTiming hm duration tag)

end Action

end TagRank
