import Mathlib.Data.List.Forall2

namespace TagRank

variable {ε β γ : Type}

theorem bind_eq_ok {x : Except ε β} {f : β → Except ε γ} {c : γ} :
    (x >>= f) = .ok c ↔ ∃ b, x = .ok b ∧ f b = .ok c := by
  cases x with
  | error e => simp [bind, Except.bind]
  | ok b => simp [bind, Except.bind]

theorem toOption_eq_some {x : Except ε β} {b : β} : x.toOption = some b ↔ x = .ok b := by
  cases x with
  | error e => simp [Except.toOption]
  | ok b => simp [Except.toOption]

theorem throw_ne_ok {e : ε} {b : β} : (throw e : Except ε β) ≠ .ok b := nofun

theorem map_eq_ok {x : Except ε β} {f : β → γ} {c : γ} :
    x.map f = .ok c ↔ ∃ b, x = .ok b ∧ f b = c := by
  cases x with
  | error e => simp [Except.map]
  | ok b => simp [Except.map]

theorem mapM_eq_ok {f : β → Except ε γ} {bs : List β} {cs : List γ} :
    bs.mapM f = .ok cs ↔ List.Forall₂ (fun b c => f b = .ok c) bs cs := by
  induction bs generalizing cs with
  | nil =>
    rw [List.forall₂_nil_left_iff]
    exact ⟨fun h => (Except.ok.inj h).symm, fun h => congrArg Except.ok h.symm⟩
  | cons b bs ih =>
    rw [List.mapM_cons, List.forall₂_cons_left_iff, bind_eq_ok]
    refine exists_congr fun c => ?_
    rw [bind_eq_ok]
    constructor
    · rintro ⟨hc, cs, hcs, h⟩
      exact ⟨cs, hc, ih.1 hcs, (Except.ok.inj h).symm⟩
    · rintro ⟨cs, hc, hcs, rfl⟩
      exact ⟨hc, cs, ih.2 hcs, rfl⟩

theorem forall_of_forall₂ {R : β → γ → Prop} {P : γ → Prop} (hR : ∀ b c, R b c → P c)
    {bs : List β} {cs : List γ} (h : List.Forall₂ R bs cs) : ∀ c ∈ cs, P c := by
  induction h with
  | nil => simp
  | cons hc _ ih => exact List.forall_mem_cons.2 ⟨hR _ _ hc, ih⟩

theorem forall_of_mapM_ok {P : γ → Prop} {f : β → Except ε γ} (hf : ∀ b c, f b = .ok c → P c)
    {bs : List β} {cs : List γ} (h : bs.mapM f = .ok cs) : ∀ c ∈ cs, P c :=
  forall_of_forall₂ hf (mapM_eq_ok.1 h)

/-- Steps that fail, and then with an error of one sort, exactly if `Q`, and lead to `c` if not. -/
inductive FailsIff (Q : Prop) (P : ε → Prop) (c : β) : Except ε β → Prop
  | error {e : ε} : Q → P e → FailsIff Q P c (.error e)
  | ok : ¬Q → FailsIff Q P c (.ok c)

namespace FailsIff

variable {P : ε → Prop} {c : β} {x : Except ε β}

theorem map {Q : Prop} (h : FailsIff Q P c x) (f : β → γ) : FailsIff Q P (f c) (x.map f) := by
  cases h with
  | error hq hp => exact .error hq hp
  | ok hq => exact .ok hq

theorem congr {Q R : Prop} (h : FailsIff Q P c x) (hqr : Q ↔ R) : FailsIff R P c x := by
  rwa [← propext hqr]

theorem bind {Q R : Prop} {f : β → Except ε γ} {d : γ} (h : FailsIff Q P c x)
    (hf : FailsIff R P d (f c)) : FailsIff (Q ∨ R) P d (x >>= f) := by
  cases h with
  | error hq hp => exact .error (.inl hq) hp
  | ok hq =>
    change FailsIff _ P d (f c)
    exact hf.congr (or_iff_right hq).symm

theorem forM {Q : β → Prop} {f : β → Except ε PUnit} {bs : List β}
    (h : ∀ b ∈ bs, FailsIff (Q b) P ⟨⟩ (f b)) : FailsIff (∃ b ∈ bs, Q b) P ⟨⟩ (bs.forM f) := by
  induction bs with
  | nil => exact .ok (by simp)
  | cons b bs ih =>
    obtain ⟨hb, hbs⟩ := List.forall_mem_cons.1 h
    exact (hb.bind (ih hbs)).congr (by simp)

theorem mapM {Q : β → Prop} {f : β → Except ε γ} {g : β → γ}
    (h : ∀ b, FailsIff (Q b) P (g b) (f b)) (bs : List β) :
    FailsIff (∃ b ∈ bs, Q b) P (bs.map g) (bs.mapM f) := by
  induction bs with
  | nil => exact .ok (by simp)
  | cons b bs ih =>
    have hb := h b
    rw [List.mapM_cons]
    generalize f b = x at hb
    generalize bs.mapM f = y at ih
    cases hb with
    | error hq hp => exact .error ⟨b, .head _, hq⟩ hp
    | ok hq =>
      cases ih with
      | error hqs hp => exact .error (hqs.imp fun _ h => ⟨.tail _ h.1, h.2⟩) hp
      | ok hqs => exact .ok (by simpa using ⟨hq, by simpa using hqs⟩)

end FailsIff

end TagRank
