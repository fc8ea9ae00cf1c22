import TagRank.Service.Measure

namespace TagRank

def Service.outside {α : Type} (s : Service α) : Store × Option Fault := (s.store, s.fault)

namespace Action

variable {α β γ : Type}

/-- What an action answers, and the service that it leaves behind. -/
def perform (a : Action α β) (s : Service α) : Except Error β × Service α := (ExceptT.run a).run s

/-- What an action answers if the store refuses nothing. -/
def answer (a : Action α β) (s : Service α) : Except Error β :=
  (perform a { s with fault := none }).1

@[simp] theorem perform_pure (b : β) (s : Service α) : perform (pure b) s = (.ok b, s) := rfl

@[simp] theorem perform_get (s : Service α) : perform (get : Action α (Service α)) s = (.ok s, s) :=
  rfl

theorem perform_bind (a : Action α β) (f : β → Action α γ) (s : Service α) :
    perform (a >>= f) s = match perform a s with
      | (.ok b, t) => perform (f b) t
      | (.error e, t) => (.error e, t) := by
  simp only [perform, ExceptT.run_bind, StateT.run_bind]
  cases h : (ExceptT.run a).run s with
  | mk r t => cases r <;> rfl

theorem perform_bind_ok {a : Action α β} {f : β → Action α γ} {s u : Service α} {c : γ} :
    perform (a >>= f) s = (.ok c, u) ↔
      ∃ b t, perform a s = (.ok b, t) ∧ perform (f b) t = (.ok c, u) := by
  rw [perform_bind]
  rcases perform a s with ⟨e | b, t⟩
  · simp
  · constructor
    · exact fun h => ⟨b, t, rfl, h⟩
    · rintro ⟨_, _, h, hf⟩
      cases h
      exact hf

theorem perform_map (f : β → γ) (a : Action α β) (s : Service α) :
    perform (f <$> a) s = ((perform a s).1.map f, (perform a s).2) := by
  rw [map_eq_pure_bind, perform_bind]
  rcases perform a s with ⟨_ | _, t⟩ <;> rfl

theorem perform_tryCatch (a : Action α β) (f : Error → Action α β) (s : Service α) :
    perform (tryCatch a f) s = match perform a s with
      | (.ok b, t) => (.ok b, t)
      | (.error e, t) => perform (f e) t := by
  cases h : perform a s with
  | mk r t =>
    change StateT.run a s = (r, t) at h
    change (ExceptT.run (ExceptT.tryCatch a f)).run s = _
    simp only [ExceptT.tryCatch, ExceptT.run_mk, StateT.run_bind, h]
    cases r <;> rfl

@[simp] theorem perform_outcome (a : Action α β) (s : Service α) :
    perform (outcome a) s = (.ok (perform a s).1, (perform a s).2) := rfl

@[simp] theorem perform_ofExcept (x : Except Error β) (s : Service α) :
    perform (ofExcept x) s = (x, s) := rfl

@[simp] theorem perform_logAll (lines : List Log.Line) (s : Service α) :
    perform (logAll lines) s = (.ok (), { s with log := s.log ++ lines }) := rfl

end Action

end TagRank
