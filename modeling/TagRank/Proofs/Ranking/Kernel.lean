import TagRank.Proofs.Ranking.View
import TagRank.Ranking.Kernel

namespace TagRank

variable {α : Type} [Scalar α]

theorem View.through_of_field {field : String} {v : View α} (h : v.field = field) :
    v.through field = v := if_pos h.symm

namespace Kernel

section

variable {p q : Nat → Bool}

def stop? (settles : Nat → Bool) (n : Nat) : Nat → Option Nat
  | 0 => none
  | rounds + 1 => if settles (n + 1) then some (n + 1) else stop? settles (n + 1) rounds

theorem lt_of_stop? {n m rounds : Nat} (h : stop? p n rounds = some m) : n < m := by
  induction rounds generalizing n with
  | zero => cases h
  | succ rounds ih =>
    rw [stop?] at h
    split at h
    · cases h
      exact Nat.lt_succ_self n
    · exact Nat.lt_of_succ_lt (ih h)

theorem le_of_stop? {n m rounds : Nat} (h : stop? p n rounds = some m) : m ≤ n + rounds := by
  induction rounds generalizing n with
  | zero => cases h
  | succ rounds ih =>
    rw [stop?] at h
    split at h
    · cases h
      omega
    · have hm := ih h
      omega

theorem of_stop? {n m rounds : Nat} (h : stop? p n rounds = some m) : p m := by
  induction rounds generalizing n with
  | zero => cases h
  | succ rounds ih =>
    rw [stop?] at h
    split at h
    · cases h
      assumption
    · exact ih h

theorem exists_stop? {n rounds : Nat} (hr : rounds ≠ 0) (h : p (n + rounds)) :
    ∃ m, stop? p n rounds = some m := by
  induction rounds generalizing n with
  | zero => exact absurd rfl hr
  | succ rounds ih =>
    rw [stop?]
    by_cases hp : p (n + 1)
    · exact ⟨n + 1, if_pos hp⟩
    · have hrounds : rounds ≠ 0 := fun h0 => hp (by simpa [h0] using h)
      obtain ⟨m, hm⟩ := ih hrounds (n := n + 1) (by rwa [Nat.add_assoc, Nat.add_comm 1])
      exact ⟨m, (if_neg hp).trans hm⟩

theorem stop?_le_of_imp (hpq : ∀ n, p n → q n) {n m rounds : Nat}
    (h : stop? p n rounds = some m) : ∃ k ≤ m, stop? q n rounds = some k := by
  induction rounds generalizing n with
  | zero => cases h
  | succ rounds ih =>
    by_cases hq : q (n + 1)
    · exact ⟨n + 1, lt_of_stop? h, by simp [stop?, hq]⟩
    · have hp : ¬p (n + 1) := fun hp => hq (hpq _ hp)
      rw [stop?, if_neg hp] at h
      rw [stop?, if_neg hq]
      exact ih h

end

namespace Power

variable (v : View α) (damping tolerance : α)

def after : Nat → Scores α
  | 0 => start v
  | n + 1 => round v (strengths v) damping (after n)

def settles (n : Nat) : Bool :=
  decide (change (after v damping (n - 1)) (after v damping n) < tolerance)

theorem keys_after (n : Nat) : Assoc.keys (after v damping n) = v.nodes := by
  cases n with
  | zero => exact Assoc.keys_map _ _
  | succ n => simp [after, round, View.nodes, Assoc.keys]

theorem run_after (rounds n : Nat) :
    run v damping tolerance rounds (after v damping n) =
      after v damping ((stop? (settles v damping tolerance) n rounds).getD (n + rounds)) := by
  induction rounds generalizing n with
  | zero => rfl
  | succ rounds ih =>
    rw [run, stop?]
    change (if change (after v damping n) (after v damping (n + 1)) < tolerance then
      after v damping (n + 1) else run v damping tolerance rounds (after v damping (n + 1))) = _
    by_cases h : change (after v damping n) (after v damping (n + 1)) < tolerance
    · simp [settles, h]
    · rw [if_neg h, ih]
      simp [settles, h, Nat.add_assoc, Nat.add_comm 1]

end Power

theorem power_eq {field : String} {v : View α} (h : v.field = field) (tolerance damping : α)
    (rounds : Int) :
    power tolerance v field rounds damping = .ok (Power.after v damping
      ((stop? (Power.settles v damping tolerance) 0 rounds.toNat).getD rounds.toNat)) := by
  have hrun := Power.run_after v damping tolerance rounds.toNat 0
  rw [Nat.zero_add] at hrun
  rw [power, View.through_of_field h]
  exact congrArg Except.ok hrun

namespace Stationary

variable (v : View α) (damping tolerance : α)

def after : Nat → Scores α
  | 0 => start v
  | n + 1 => round v damping (after n)

def settles (n : Nat) : Bool :=
  decide (change (after v damping (n - 1)) (after v damping n) <
    ((v.rows.length : Nat) : α) * tolerance)

theorem keys_after (n : Nat) : Assoc.keys (after v damping n) = v.nodes := by
  cases n with
  | zero => exact Assoc.keys_map _ _
  | succ n => exact Assoc.keys_map _ _

theorem run_after (rounds n : Nat) :
    run v damping tolerance rounds (after v damping n) =
      (stop? (settles v damping tolerance) n rounds).map (after v damping) := by
  induction rounds generalizing n with
  | zero => rfl
  | succ rounds ih =>
    rw [run, stop?]
    change (if change (after v damping n) (after v damping (n + 1)) <
      ((v.rows.length : Nat) : α) * tolerance then some (after v damping (n + 1))
      else run v damping tolerance rounds (after v damping (n + 1))) = _
    by_cases h : change (after v damping n) (after v damping (n + 1)) <
        ((v.rows.length : Nat) : α) * tolerance
    · simp [settles, h]
    · rw [if_neg h, ih]
      simp [settles, h]

end Stationary

theorem stationary_eq {field : String} {v : View α} (h : v.field = field) (hne : v.nodes ≠ [])
    (tolerance damping : α) (rounds : Int) :
    stationary tolerance v field rounds damping =
      (stop? (Stationary.settles v damping tolerance) 0 rounds.toNat).elim
        (.error (.notConverged rounds)) fun n => .ok (Stationary.after v damping n) := by
  have hrows : ¬v.rows.isEmpty := by
    simpa [View.nodes, Assoc.keys] using hne
  have hrun : Stationary.run v damping tolerance rounds.toNat (Stationary.start v) = _ :=
    Stationary.run_after v damping tolerance rounds.toNat 0
  rw [stationary, View.through_of_field h]
  rw [if_neg hrows, hrun]
  cases stop? (Stationary.settles v damping tolerance) 0 rounds.toNat with
  | none => rfl
  | some n => rfl

end Kernel

end TagRank
