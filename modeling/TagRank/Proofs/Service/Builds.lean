import Mathlib
import TagRank.Proofs.Ranking.Weight
import TagRank.Proofs.Service.Own
import TagRank.Proofs.Service.Share
import TagRank.Proofs.Store.Held

namespace TagRank

open Metrics TagRank.Action

theorem RankedNode.times_times (c d : Rat) (n : RankedNode Rat) :
    times c (times d n) = times (c * d) n :=
  congrArg (RankedNode.mk n.tag n.score) (mul_assoc c d n.strength).symm

theorem RankedNode.times_one (n : RankedNode Rat) : times 1 n = n :=
  congrArg (RankedNode.mk n.tag n.score) (one_mul n.strength)

theorem Edge.map_times_tally (document relation field : String) (j : Nat) {k : Nat} (hk : 1 ≤ k)
    (pairs : List (String × String)) :
    (tally document relation field k pairs).map (times j) =
      pairs.eraseDups.map fun p => ofPair document relation field (j * k * pairs.count p) p := by
  rw [tally, if_neg (Nat.one_le_iff_ne_zero.1 hk), List.map_map]
  apply List.map_congr_left
  intro p _
  simp [times, ofPair, Nat.mul_assoc]

namespace Store

structure InRatio (a b : Nat) (document relation field : String) (s t : Store) : Prop where
  documents : s.documents = t.documents
  occurrences : s.occurrences = t.occurrences
  edges : (t.edgesOf document relation (some field)).map (Edge.times a) =
    (s.edgesOf document relation (some field)).map (Edge.times b)

variable {a b : Nat} {document relation field : String} {s t : Store}

theorem shares_inRatio (a b : Nat) (document relation field : String) :
    Shares document (InRatio a b document relation field) where
  known h := by simp only [hasDocument, h.documents]
  occurrencesOf h tags := by simp only [Store.occurrencesOf, h.occurrences]
  put {s t} h policy row := by
    obtain ⟨more, hs, _⟩ := put_eq policy document row s
    obtain ⟨more', ht, _⟩ := put_eq policy document row t
    rw [hs, ht]
    exact ⟨h.documents, h.occurrences, h.edges⟩

end Store

def View.InRatio (a b : Nat) (v v' : View Rat) : Prop := v'.times a = v.times b

namespace View.InRatio

variable {a b : Nat} {v v' : View Rat}

theorem of_edges {field : String} {es es' : List Edge}
    (h : es'.map (Edge.times a) = es.map (Edge.times b)) :
    Matched (InRatio a b) (View.ofEdges (α := Rat) field es) (View.ofEdges field es') := by
  have hmap : (View.ofEdges (α := Rat) field es').map (times a) =
      (View.ofEdges (α := Rat) field es).map (times b) := by
    rw [← ofEdges_times, ← ofEdges_times, h]
  generalize View.ofEdges (α := Rat) field es = x at hmap ⊢
  generalize View.ofEdges (α := Rat) field es' = y at hmap ⊢
  cases x with
  | ok v =>
    cases y with
    | ok v' => exact .ok (Except.ok.inj hmap)
    | error e => cases hmap
  | error e =>
    cases y with
    | ok v' => cases hmap
    | error e' =>
      cases hmap
      exact .error

theorem power (h : InRatio a b v v') (ha : 1 ≤ a) (hb : 1 ≤ b) (tolerance damping : Rat)
    (rounds : Int) :
    Kernel.power tolerance v v.field rounds damping =
      Kernel.power tolerance v' v'.field rounds damping := by
  have hfield : v'.field = v.field := (congrArg View.field h :)
  calc
    Kernel.power tolerance v v.field rounds damping
      = Kernel.power tolerance (v.times b) v.field rounds damping :=
        (Kernel.power_times (Nat.cast_pos.2 hb) v tolerance damping rounds).symm
    _ = Kernel.power tolerance (v'.times a) v'.field rounds damping := by rw [h, hfield]
    _ = Kernel.power tolerance v' v'.field rounds damping :=
        Kernel.power_times (Nat.cast_pos.2 ha) v' tolerance damping rounds

theorem best (h : InRatio a b v v') (ha : 1 ≤ a) (count : Int) (scores : Scores Rat) :
    RankedNode.best count v' scores =
      (RankedNode.best count v scores).map (RankedNode.times (b / a)) := by
  have hne : (a : Rat) ≠ 0 := Nat.cast_ne_zero.2 (Nat.one_le_iff_ne_zero.1 ha)
  have hmap : (RankedNode.best count v' scores).map (RankedNode.times a) =
      (RankedNode.best count v scores).map (RankedNode.times b) := by
    rw [← RankedNode.best_times, ← RankedNode.best_times, h]
  have hback (n : RankedNode Rat) : (RankedNode.times a n).times (a : Rat)⁻¹ = n := by
    rw [RankedNode.times_times, inv_mul_cancel₀ hne, RankedNode.times_one]
  calc
    RankedNode.best count v' scores
      = ((RankedNode.best count v' scores).map (RankedNode.times a)).map
          (RankedNode.times (a : Rat)⁻¹) := by simp [Function.comp_def, hback]
    _ = (RankedNode.best count v scores).map (RankedNode.times (b / a)) := by
        rw [hmap, List.map_map]
        apply List.map_congr_left
        intro n _
        rw [Function.comp_apply, RankedNode.times_times, div_eq_inv_mul]

end View.InRatio

theorem Action.isRestrengthening_times (c : Rat) : IsRestrengthening (RankedNode.times c) :=
  fun _ => ⟨rfl, rfl⟩

theorem Action.parallel_rank_inRatio {K : Recorder Rat → Recorder Rat → Prop} [Concordant K]
    {a b : Nat} (ha : 1 ≤ a) (hb : 1 ≤ b) (tolerance : Rat) (count : Int)
    (document relation field : String) (rounds : Int) (damping : Rat) :
    Parallel (Service.Alike (Store.InRatio a b document relation field) K)
      (rank (Kernel.power tolerance) count document relation field rounds damping)
      (rank (Kernel.power tolerance) count document relation field rounds damping)
      fun ranked ranked' => ranked' = ranked.map (RankedNode.times (b / a)) :=
  parallel_rank (parallel_edges fun _ _ hs => hs.edges) (fun _ _ h => View.InRatio.of_edges h)
    (fun _ _ h => h.power ha hb tolerance damping rounds) fun _ _ h scores => h.best ha count scores

section

variable {α : Type}

def Service.StaysCalm (s t : Service α) : Prop := s.fault = none → t.fault = none

theorem Action.calm_transaction {β : Type} {a : Action α β} {m : Change β} (h : Means a m) :
    Moves Service.StaysCalm (transaction a) := by
  intro s hs
  have ht := transaction_cases h s
  generalize perform (transaction a) s = p at ht
  cases ht with
  | committed _ hc => exact hc.fault hs
  | undone _ _ hc => exact hc.fault hs
  | struck hf => exact absurd hs hf

variable [Scalar α] {document relation field : String}

instance : Tolerant (Service.StaysCalm (α := α)) where
  refl _ h := h
  trans _ _ _ h k hs := k (h hs)
  log _ _ h := h
  observe _ _ _ _ h := h

namespace Service

theorem store_builds (s : Service α) (document relation field : String) (n : Nat) :
    ∃ edges, (run (List.replicate n (.build document relation field)) s).store =
      { s.store with edges } := by
  induction n generalizing s with
  | zero => exact ⟨_, rfl⟩
  | succ n ih =>
    have hc := (build_carries document relation field s).store
    obtain ⟨edges, h⟩ := ih (Step.take (.build document relation field) s)
    refine ⟨edges, h.trans ?_⟩
    simp only [Step.take]
    rw [hc]
    split <;> rfl

theorem history_builds {s : Service α} (hs : s.store.Sound) (hc : s.fault = none)
    (hr : Label.isValid relation = true) (hf : Label.isValid field = true) (document : String)
    (n : Nat) :
    history (List.replicate n (.build document relation field)) s =
      List.replicate n (.built document relation field) := by
  induction n generalizing s with
  | zero => rfl
  | succ n ih =>
    let x : Step α := .build document relation field
    have hb : x.events s = [.built document relation field] :=
      if_pos (hs.builds hc document hr hf)
    have hs' : (x.take s).store.Sound := (x.writes (fun _ _ => trivial) s).sound hs
    have hc' : (x.take s).fault = none :=
      moves_build (calm_transaction (means_addPairs document relation field)) s hc
    rw [List.replicate_succ, history, hb, ih hs' hc']
    rfl

theorem buildCount_append_replicate (document relation field : String) (es : List Event) (n : Nat) :
    Event.buildCount document relation field
        (es ++ List.replicate n (.built document relation field)) =
      Event.buildCount document relation field es + n := by
  induction n with
  | zero => simp
  | succ n ih =>
    rw [List.replicate_succ', ← List.append_assoc, Event.buildCount_concat, ih]
    simp [Event.resets, Nat.add_assoc]

theorem edgesOf_builds {s : Service α} {es : List Event} (hs : s.store.Sound)
    (ht : s.store.Tallied es) (hc : s.fault = none) (hr : Label.isValid relation = true)
    (hf : Label.isValid field = true) (document : String) (n : Nat) :
    (run (List.replicate n (.build document relation field)) s).store.edgesOf document relation
        (some field) =
      Edge.tally document relation field (Event.buildCount document relation field es + n)
        (s.store.scan document) := by
  have h := (follows_run (List.replicate n (.build document relation field)) s).tallied ht
  rw [history_builds hs hc hr hf] at h
  obtain ⟨edges, hstore⟩ := store_builds s document relation field n
  rw [h, buildCount_append_replicate, hstore]
  rfl

theorem inRatio_builds {s : Service α} {es : List Event} (hs : s.store.Sound)
    (ht : s.store.Tallied es) (hc : s.fault = none) (hr : Label.isValid relation = true)
    (hf : Label.isValid field = true) (document : String) {m n : Nat} (hm : 1 ≤ m) (hn : 1 ≤ n) :
    let j := Event.buildCount document relation field es
    Store.InRatio (j + m) (j + n) document relation field
      (run (List.replicate m (.build document relation field)) s).store
      (run (List.replicate n (.build document relation field)) s).store := by
  intro j
  obtain ⟨edges, hstore⟩ := store_builds s document relation field m
  obtain ⟨edges', hstore'⟩ := store_builds s document relation field n
  refine ⟨by rw [hstore, hstore'], by rw [hstore, hstore'], ?_⟩
  rw [edgesOf_builds hs ht hc hr hf, edgesOf_builds hs ht hc hr hf,
    Edge.map_times_tally _ _ _ _ (Nat.le_add_left_of_le hn),
    Edge.map_times_tally _ _ _ _ (Nat.le_add_left_of_le hm), Nat.mul_comm]

end Service

end

/-- Once a graph has been built, building it further times changes what an evaluation finds in its
strengths alone. If it has been built `j` times before, they are as `j + 1` to `j + k` then; so if it
has not, they are multiplied by `k`. -/
theorem Service.evaluate_builds (s : Service Rat) (hs : ∀ r ∈ s.recorder, r.series = [])
    (xs : List (Step Rat)) (document : String) {relation field : String}
    (hr : Label.isValid relation = true) (hf : Label.isValid field = true) {k : Nat} (hk : 1 ≤ k)
    (p : Pipeline Rat) (f : Filter) (tolerance : Rat) (rounds : Int) (damping : Rat) :
    let s := { s with store := .empty }
    let j := Event.buildCount document relation field (history xs s)
    let built (n : Nat) :=
      run (List.replicate n (.build document relation field)) { run xs s with fault := none }
    let p := { p with kernel := .power tolerance }
    let times := RankedNode.times ((j + k : Nat) / (j + 1 : Nat))
    answer (locate p document relation field rounds damping) (built k) =
        (answer (locate p document relation field rounds damping) (built 1)).map
          (fun x => (x.1.map times, x.2)) ∧
      (answer (evaluate p f document relation field rounds damping) (built k)).map
          Evaluation.ageless =
        (answer (evaluate p f document relation field rounds damping) (built 1)).map
          fun e => { e.ageless with ranked := e.ranked.map times } := by
  intro s' j built p times
  have hsound : (run xs s').store.Sound := (Reached.run xs (.start s)).sound
  have htally : (run xs s').store.Tallied (history xs s') :=
    (follows_run xs s').tallied Store.tallied_empty
  have hown : (run xs s').IsOwn :=
    (owns_run xs s' fun r hr => Recorder.isOwn_of_empty (hs r hr)).1
  have howns (n : Nat) : (run xs s').Owns (built n) := owns_run _ { run xs s' with fault := none }
  -- one build and `k` builds of the same service leave weights as `j + 1` to `j + k`
  have hratio := inRatio_builds (s := { run xs s' with fault := none }) hsound htally rfl hr hf
    document (le_refl 1) hk
  have halike : Service.Alike (Store.InRatio (j + 1) (j + k) document relation field)
      Recorder.BothOwn { built 1 with fault := none } { built k with fault := none } := by
    exact ⟨hratio, rfl, rfl, (howns 1).bothOwn_of (howns k) hown⟩
  have hrank := parallel_rank_inRatio (K := Recorder.BothOwn) (a := j + 1) (b := j + k)
    (Nat.le_add_left 1 j) (Nat.le_add_left_of_le hk) tolerance p.topNodes document relation field
    rounds damping
  have hshares := Store.shares_inRatio (j + 1) (j + k) document relation field
  have hev := evaluates_of_shares (α := Rat) (K := Recorder.BothOwn) hshares p.policy f
  have htimes := isRestrengthening_times (((j + k : Nat) : Rat) / (j + 1 : Nat))
  constructor
  · exact (parallel_locate (parallel_tagOccurrences hshares) htimes hrank _ _ halike).matched.eq_map
  · have h := (parallel_evaluate hev htimes hrank _ _ halike).matched
    exact (h.mono fun _ _ => Eq.symm).map_eq.symm

set_option maxRecDepth 4096 in
theorem Service.evaluate_builds_neighbouring :
    let p : Pipeline Rat := ⟨Kernel.power 1, 1, .create, ⟨[], false⟩, .drop, 1⟩
    let built (n : Nat) := run (List.replicate n (.build "d" "near" "weight"))
      { run [.load "d" [neighbouring "abc" "abd"]] (.new Rat) with fault := none }
    let strengths (n : Nat) : List Rat :=
      match answer (evaluate p ⟨[], false⟩ "d" "near" "weight" 1 0) (built n) with
      | .ok e => e.ranked.map (·.strength)
      | .error _ => []
    answer (locate p "d" "near" "weight" 1 0) (built 2) =
        (answer (locate p "d" "near" "weight" 1 0) (built 1)).map
          (fun x => (x.1.map (RankedNode.times 2), x.2)) ∧
      strengths 1 = [1] ∧ strengths 2 = [2] := by
  refine ⟨?_, by cbv, by cbv⟩
  have hr : Label.isValid "near" = true := by decide
  have hf : Label.isValid "weight" = true := by decide
  have h := (evaluate_builds (.new Rat) (by simp [new]) [.load "d" [neighbouring "abc" "abd"]] "d"
    hr hf (k := 2) (by decide) ⟨Kernel.power 1, 1, .create, ⟨[], false⟩, .drop, 1⟩ ⟨[], false⟩ 1 1
    0).1
  have hj : Event.buildCount "d" "near" "weight" (history [.load "d" [neighbouring "abc" "abd"]]
      { new Rat with store := .empty }) = 0 := by decide
  have htwo : (((0 + 2 : Nat) : Rat) / ((0 + 1 : Nat) : Rat)) = 2 := by norm_num
  rw [hj, htwo] at h
  exact h

end TagRank
