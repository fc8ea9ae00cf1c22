import TagRank.Proofs.Service.Perform
import TagRank.Service.Cooccurrence

/-!
Two runs side by side, on services that stand in some relation. They answer alike, and the services
that they leave stand in that relation again.
-/

namespace TagRank

inductive Matched {β γ : Type} (Q : β → γ → Prop) : Except Error β → Except Error γ → Prop
  | ok {b c} : Q b c → Matched Q (.ok b) (.ok c)
  | error {e} : Matched Q (.error e) (.error e)

theorem Matched.mono {β γ : Type} {Q Q' : β → γ → Prop} {x : Except Error β} {y : Except Error γ}
    (h : Matched Q x y) (hq : ∀ b c, Q b c → Q' b c) : Matched Q' x y := by
  cases h with
  | ok h => exact .ok (hq _ _ h)
  | error => exact .error

theorem Matched.map_eq {β γ δ : Type} {f : β → δ} {g : γ → δ} {x : Except Error β}
    {y : Except Error γ} (h : Matched (fun b c => f b = g c) x y) : x.map f = y.map g := by
  cases h with
  | ok h => exact congrArg Except.ok h
  | error => rfl

theorem Matched.eq_map {β γ : Type} {f : β → γ} {x : Except Error β} {y : Except Error γ}
    (h : Matched (fun b c => c = f b) x y) : y = x.map f := by
  cases h with
  | ok h => exact congrArg Except.ok h
  | error => rfl

theorem Matched.eq {β : Type} {x y : Except Error β} (h : Matched Eq x y) : x = y := by
  cases h with
  | ok h => exact congrArg Except.ok h
  | error => rfl

inductive Paired {α β γ : Type} (E : Service α → Service α → Prop) (Q : β → γ → Prop) :
    Except Error β × Service α → Except Error γ × Service α → Prop
  | done {b c s t} : E s t → Q b c → Paired E Q (.ok b, s) (.ok c, t)
  | failed {e s t} : E s t → Paired E Q (.error e, s) (.error e, t)

namespace Paired

variable {α β γ : Type} {E : Service α → Service α → Prop} {Q : β → γ → Prop}
  {p : Except Error β × Service α} {q : Except Error γ × Service α}

theorem matched (h : Paired E Q p q) : Matched Q p.1 q.1 := by
  cases h with
  | done _ hq => exact .ok hq
  | failed => exact .error

theorem related (h : Paired E Q p q) : E p.2 q.2 := by
  cases h with
  | done h _ => exact h
  | failed h => exact h

end Paired

namespace Action

variable {α β γ δ ε : Type} {E : Service α → Service α → Prop} {Q : β → γ → Prop}

def Parallel (E : Service α → Service α → Prop) (a : Action α β) (b : Action α γ)
    (Q : β → γ → Prop) : Prop :=
  ∀ s t, E s t → Paired E Q (perform a s) (perform b t)

theorem parallel_pure {b : β} {c : γ} (h : Q b c) : Parallel E (pure b) (pure c) Q :=
  fun _ _ hs => .done hs h

theorem parallel_throw (e : Error) : Parallel E (throw e) (throw e) Q := fun _ _ hs => .failed hs

theorem parallel_throw_bind (e : Error) (f : δ → Action α β) (g : ε → Action α γ) :
    Parallel E (throw e >>= f) (throw e >>= g) Q :=
  fun _ _ hs => .failed hs

theorem parallel_ofExcept_of_matched {x : Except Error β} {y : Except Error γ}
    (h : Matched Q x y) : Parallel E (ofExcept x) (ofExcept y) Q := by
  cases h with
  | ok h => exact parallel_pure h
  | error => exact parallel_throw _

theorem parallel_ofExcept (x : Except Error β) : Parallel E (ofExcept x) (ofExcept x) Eq := by
  refine parallel_ofExcept_of_matched ?_
  cases x with
  | ok b => exact .ok rfl
  | error e => exact .error

theorem Parallel.mono {a : Action α β} {b : Action α γ} {Q' : β → γ → Prop}
    (h : Parallel E a b Q) (hq : ∀ b c, Q b c → Q' b c) : Parallel E a b Q' := by
  intro s t hs
  have ha := h s t hs
  generalize perform a s = x at ha
  generalize perform b t = y at ha
  cases ha with
  | done hu h => exact .done hu (hq _ _ h)
  | failed hu => exact .failed hu

theorem parallel_bind {a : Action α β} {b : Action α γ} {f : β → Action α δ} {g : γ → Action α ε}
    {P : δ → ε → Prop} (h : Parallel E a b Q) (hf : ∀ x y, Q x y → Parallel E (f x) (g y) P) :
    Parallel E (a >>= f) (b >>= g) P := by
  intro s t hs
  have ha := h s t hs
  rw [perform_bind, perform_bind]
  generalize perform a s = x at ha
  generalize perform b t = y at ha
  cases ha with
  | done hu hq => exact hf _ _ hq _ _ hu
  | failed hu => exact .failed hu

theorem parallel_bind_eq {a b : Action α β} {f : β → Action α δ} {g : β → Action α ε}
    {P : δ → ε → Prop} (h : Parallel E a b Eq) (hf : ∀ x, Parallel E (f x) (g x) P) :
    Parallel E (a >>= f) (b >>= g) P :=
  parallel_bind h fun x _ hx => hx ▸ hf x

theorem parallel_map {a : Action α β} {b : Action α γ} {f : β → δ} {g : γ → ε}
    {P : δ → ε → Prop} (h : Parallel E a b Q) (hf : ∀ x y, Q x y → P (f x) (g y)) :
    Parallel E (f <$> a) (g <$> b) P := by
  rw [map_eq_pure_bind, map_eq_pure_bind]
  exact parallel_bind h fun x y hq => parallel_pure (hf x y hq)

theorem parallel_tryCatch {a : Action α β} {b : Action α γ} {f : Error → Action α β}
    {g : Error → Action α γ} (h : Parallel E a b Q) (hf : ∀ e, Parallel E (f e) (g e) Q) :
    Parallel E (tryCatch a f) (tryCatch b g) Q := by
  intro s t hs
  have ha := h s t hs
  rw [perform_tryCatch, perform_tryCatch]
  generalize perform a s = x at ha
  generalize perform b t = y at ha
  cases ha with
  | done hu hq => exact .done hu hq
  | failed hu => exact hf _ _ _ hu

theorem parallel_ite (c : Prop) [Decidable c] {a a' : Action α β} {b b' : Action α γ}
    (h : Parallel E a b Q) (h' : Parallel E a' b' Q) :
    Parallel E (if c then a else a') (if c then b else b') Q := by
  split
  · exact h
  · exact h'

theorem parallel_outcome {a : Action α β} {b : Action α γ} (h : Parallel E a b Q) :
    Parallel E (outcome a) (outcome b) (Matched Q) := by
  intro s t hs
  have ha := h s t hs
  rw [perform_outcome, perform_outcome]
  exact .done ha.related ha.matched

theorem parallel_onStoreFailure {a : Action α β} {b : Action α γ} {handle : Error → Action α β}
    {handle' : Error → Action α γ} (h : Parallel E a b Q)
    (hh : ∀ e, Parallel E (handle e) (handle' e) Q) :
    Parallel E (onStoreFailure a handle) (onStoreFailure b handle') Q :=
  parallel_tryCatch h fun e => parallel_ite _ (hh e) (parallel_throw e)

theorem parallel_forM {κ : Type} (ks : List κ) {a b : κ → Action α PUnit}
    (h : ∀ k, Parallel E (a k) (b k) Eq) : Parallel E (ks.forM a) (ks.forM b) Eq := by
  induction ks with
  | nil => exact parallel_pure rfl
  | cons k ks ih => exact parallel_bind_eq (h k) fun _ => ih

end Action

end TagRank
