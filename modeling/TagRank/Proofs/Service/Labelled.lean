import TagRank.Proofs.Service.Builds
import TagRank.Proofs.Service.Reached
import TagRank.Proofs.Store.Held

namespace TagRank

namespace Label

def IsOpening (c : Char) : Prop := 'a' ≤ c ∧ c ≤ 'z' ∨ 'A' ≤ c ∧ c ≤ 'Z' ∨ c = '_'

inductive IsIdentifier : List Char → Prop
  | first {c} : IsOpening c → IsIdentifier [c]
  | next {cs c} : IsIdentifier cs → IsOpening c ∨ '0' ≤ c ∧ c ≤ '9' → IsIdentifier (cs ++ [c])

/-- What is let through: identifiers, also with a line break behind them. -/
def IsAdmitted (label : String) : Prop :=
  IsIdentifier label.toList ∨ ∃ cs, IsIdentifier cs ∧ label.toList = cs ++ ['\n']

theorem isStart_iff {c : Char} : isStart c = true ↔ IsOpening c := by
  simp [isStart, IsOpening, Char.isAlpha, Char.isUpper, Char.isLower, Char.le_def]
  grind

theorem isInner_iff {c : Char} : isInner c = true ↔ IsOpening c ∨ '0' ≤ c ∧ c ≤ '9' := by
  rw [← isStart_iff]
  simp [isInner, isStart, Char.isAlphanum, Char.isDigit, Char.le_def]
  grind

theorem isIdentifier_concat {cs : List Char} (hcs : cs ≠ []) (c : Char) :
    isIdentifier (cs ++ [c]) = (isIdentifier cs && isInner c) := by
  cases cs with
  | nil => exact absurd rfl hcs
  | cons d cs => simp [isIdentifier, Bool.and_assoc]

theorem isIdentifier_iff {cs : List Char} : isIdentifier cs = true ↔ IsIdentifier cs := by
  constructor
  · intro h
    induction cs using List.reverseRecOn with
    | nil => cases h
    | append_singleton cs c ih =>
      by_cases hcs : cs = []
      · subst hcs
        exact .first (isStart_iff.1 (by simpa [isIdentifier] using h))
      · rw [isIdentifier_concat hcs, Bool.and_eq_true] at h
        exact .next (ih h.1) (isInner_iff.1 h.2)
  · intro h
    induction h with
    | first hc => simpa [isIdentifier] using isStart_iff.2 hc
    | @next cs c _ hc ih =>
      have hcs : cs ≠ [] := by
        rintro rfl
        cases ih
      rw [isIdentifier_concat hcs, ih, isInner_iff.2 hc, Bool.and_true]

theorem not_isIdentifier_concat_break (cs : List Char) : ¬IsIdentifier (cs ++ ['\n']) := by
  rw [← isIdentifier_iff]
  by_cases hcs : cs = []
  · subst hcs
    decide
  · rw [isIdentifier_concat hcs, show isInner '\n' = false by decide, Bool.and_false]
    exact Bool.false_ne_true

theorem isValid_iff {label : String} : isValid label = true ↔ IsAdmitted label := by
  rw [isValid, isIdentifier_iff, dropFinalBreak, IsAdmitted]
  split
  · rename_i hlast
    obtain ⟨cs, hcs⟩ := List.getLast?_eq_some_iff.1 hlast
    rw [hcs, List.dropLast_concat]
    simp [not_isIdentifier_concat_break]
  · rename_i hlast
    refine ⟨.inl, fun h => h.resolve_right ?_⟩
    rintro ⟨cs, -, hcs⟩
    exact hlast (by simp [hcs])

theorem check_eq_ok {role : Role} {label : String} :
    check role label = .ok () ↔ IsAdmitted label := by
  rw [← isValid_iff]
  cases h : isValid label with
  | true => simp [Action.check_of_valid h]
  | false => simp [Action.check_of_not_valid h]

end Label

variable {α : Type} [Scalar α] {document relation field : String}

theorem Event.mem_of_buildCount_ne_zero {es : List Event}
    (h : buildCount document relation field es ≠ 0) : .built document relation field ∈ es := by
  have hmem := List.count_pos_iff.1 (Nat.pos_of_ne_zero h)
  exact (List.rtakeWhile_suffix _ es).subset hmem

theorem Step.valid_of_built {x : Step α} {s : Service α}
    (h : .built document relation field ∈ x.events s) :
    Label.isValid relation = true ∧ Label.isValid field = true := by
  have builds_valid {d r f : String} {s : Service α}
      (hb : Action.builds d r f s = true)
      (h : Event.built document relation field = .built d r f) :
      Label.isValid relation = true ∧ Label.isValid field = true := by
    cases h
    simp only [Action.builds, Bool.and_eq_true] at hb
    exact hb.1
  cases x with
  | load d sentences =>
    simp only [events] at h
    split at h <;> simp at h
  | build d r f =>
    simp only [events] at h
    split at h
    · exact builds_valid ‹_› (List.mem_singleton.1 h)
    · cases h
  | clear d r =>
    simp only [events] at h
    split at h <;> simp at h
  | rebuild d r f =>
    simp only [events] at h
    split at h
    · rcases List.mem_cons.1 h with h | h
      · cases h
      · split at h
        · exact builds_valid ‹_› (List.mem_singleton.1 h)
        · cases h
    · cases h
  | evaluate | persist | refuse => cases h

namespace Service

theorem valid_of_built {xs : List (Step α)} {s : Service α}
    (h : .built document relation field ∈ history xs s) :
    Label.isValid relation = true ∧ Label.isValid field = true := by
  induction xs generalizing s with
  | nil => cases h
  | cons x xs ih =>
    rcases List.mem_append.1 h with h | h
    · exact Step.valid_of_built h
    · exact ih h

theorem exists_edge_of_scan {s : Service α} {es : List Event} (hs : s.store.Sound)
    (ht : s.store.Tallied es) (hc : s.fault = none) {p : String × String}
    (hp : p ∈ s.store.scan document) (hr : Label.isValid relation = true)
    (hf : Label.isValid field = true) :
    ∃ e ∈ (Step.take (.build document relation field) s).store.edges,
      e.relation = relation ∧ e.field = field := by
  have hedges := edgesOf_builds hs ht hc hr hf document 1
  rw [Edge.tally, if_neg (Nat.succ_ne_zero _), Store.edgesOf_eq] at hedges
  have he := List.mem_map_of_mem (f := fun p => Edge.ofPair document relation field
    ((Event.buildCount document relation field es + 1) * (s.store.scan document).count p) p)
    (List.mem_eraseDups.2 hp)
  rw [← hedges] at he
  exact ⟨_, (List.mem_filter.1 he).1, rfl, rfl⟩

set_option maxRecDepth 4096 in
theorem exists_edge_run (s : Service α) (hr : Label.isValid relation = true)
    (hf : Label.isValid field = true) :
    ∃ xs : List (Step α), ∃ e ∈ (run xs { s with store := .empty }).store.edges,
      e.relation = relation ∧ e.field = field := by
  let xs : List (Step α) := [.refuse none, .load "d" [neighbouring "abc" "abd"]]
  let s' := { s with store := .empty }
  have hsound : (run xs s').store.Sound := (Reached.run xs (.start s)).sound
  have htally : (run xs s').store.Tallied (history xs s') :=
    (follows_run xs s').tallied Store.tallied_empty
  have hscan : (run xs s').store.scan "d" = [("abc_", "abd_")] := by cbv
  have hcalm : (run xs s').fault = none := by cbv
  have hpair : ("abc_", "abd_") ∈ (run xs s').store.scan "d" := hscan ▸ List.mem_singleton_self _
  refine ⟨[.refuse none, .load "d" [neighbouring "abc" "abd"], .build "d" relation field], ?_⟩
  exact exists_edge_of_scan hsound htally hcalm hpair hr hf

/-- Exactly the admitted labels are accepted, and exactly those are on edges of stores that were
empty. -/
theorem labels_run (s : Service α) (relation field : String) :
    (∀ role label, Label.check role label = .ok () ↔ Label.IsAdmitted label) ∧
      ((∃ xs : List (Step α), ∃ e ∈ (run xs { s with store := .empty }).store.edges,
          e.relation = relation ∧ e.field = field) ↔
        Label.IsAdmitted relation ∧ Label.IsAdmitted field) := by
  refine ⟨fun role label => Label.check_eq_ok, ?_⟩
  rw [← Label.isValid_iff, ← Label.isValid_iff]
  constructor
  · rintro ⟨xs, e, he, rfl, rfl⟩
    let s' := { s with store := .empty }
    have htally : (run xs s').store.Tallied (history xs s') :=
      (follows_run xs s').tallied Store.tallied_empty
    exact valid_of_built (Event.mem_of_buildCount_ne_zero (htally.of_mem he).2)
  · rintro ⟨hr, hf⟩
    exact exists_edge_run s hr hf

end Service

end TagRank
