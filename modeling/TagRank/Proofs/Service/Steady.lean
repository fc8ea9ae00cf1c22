import TagRank.Proofs.Service.Own
import TagRank.Proofs.Service.Step

namespace TagRank

/-- A service beside another one that may record something else. -/
structure Service.Beside (s t : Service Rat) : Prop where
  own : s.IsOwn
  own' : t.IsOwn
  outside : s.outside = t.outside

namespace Action

variable {β : Type}

theorem beside_of_sure {a : Action Rat β} {b : β} (h : Sure a b) (hk : Keeps Service.outside a) :
    Parallel Service.Beside a a Eq := by
  intro s t hst
  obtain ⟨s', hs, hown⟩ := h s hst.own
  obtain ⟨t', ht, hown'⟩ := h t hst.own'
  have hks : s'.outside = s.outside := by simpa only [Kept, hs] using hk s
  have hkt : t'.outside = t.outside := by simpa only [Kept, ht] using hk t
  rw [hs, ht]
  exact .done ⟨hown, hown', hks.trans (hst.outside.trans hkt.symm)⟩ rfl

instance : Attuned Service.Beside where
  log _ _ h := ⟨h.own, h.own', h.outside⟩
  increment hm _ tag := beside_of_sure (sure_increment hm rfl tag) (moves_increment hm _ _)
  recordTiming hm duration tag :=
    beside_of_sure (sure_recordTiming hm duration tag) (moves_recordTiming hm _ _)

theorem beside_transaction {a : Action Rat β} {m : Change β} (h : Means a m) :
    Parallel Service.Beside (transaction a) (transaction a) Eq := by
  intro s t hst
  have hs := owns_transaction h s hst.own
  have ht := owns_transaction h t hst.own'
  have hb := blind_transaction h.blind s t hst.outside
  generalize perform (transaction a) s = x at hs hb
  generalize perform (transaction a) t = y at ht hb
  cases hb with
  | done hu hq => exact .done ⟨hs.1, ht.1, hu⟩ hq
  | failed hu => exact .failed ⟨hs.1, ht.1, hu⟩

def raised {α : Type} (a : Action α β) (s : Service α) : Option Error :=
  match (perform a s).1 with
  | .ok _ => none
  | .error e => some e

theorem Parallel.raised {α : Type} {E : Service α → Service α → Prop} {a : Action α β}
    {Q : β → β → Prop} (h : Parallel E a a Q) {s t : Service α} (hst : E s t) :
    raised a s = raised a t := by
  have hm := (h s t hst).matched
  simp only [Action.raised]
  generalize (perform a s).1 = x at hm
  generalize (perform a t).1 = y at hm
  cases hm with
  | ok => rfl
  | error => rfl

end Action

open TagRank.Action

def Step.raised {α : Type} [Scalar α] : Step α → Service α → Option Error
  | load document sentences => Action.raised (loadDocument document sentences)
  | build document relation field => Action.raised (Action.build document relation field)
  | clear document relation => Action.raised (Action.clear document relation)
  | rebuild document relation field => Action.raised (Action.rebuild document relation field)
  | evaluate p f document relation field rounds damping =>
    Action.raised (Action.evaluate p f document relation field rounds damping)
  | persist policy f document counts => Action.raised (Action.persist policy f document counts)
  | refuse _ => fun _ => none

theorem Step.raised_eq (x : Step Rat) {s t : Service Rat} (h : s.Beside t) :
    x.raised s = x.raised t := by
  have hadd (document relation field : String) :=
    beside_transaction (means_addPairs document relation field)
  have hdelete (document relation : String) :=
    beside_transaction (means_deleteEdges document relation)
  have hpersist (policy : Policy) (f : Filter) (document : String) (counts : Counts) :
      Parallel Service.Beside (transaction (persisting policy f document counts))
        (transaction (persisting policy f document counts)) PersistOutcome.Similar :=
    (beside_transaction (means_persist policy f document counts)).mono fun _ _ h =>
      congrArg PersistOutcome.ageless h
  cases x with
  | load => exact (parallel_loadGiven (beside_transaction (means_loading _ _))).raised h
  | build => exact (parallel_build (hadd _ _ _)).raised h
  | clear => exact (parallel_clear (hdelete _ _)).raised h
  | rebuild => exact (parallel_rebuild (hdelete _ _) (hadd _ _ _)).raised h
  | evaluate p f document relation field =>
    have hev : Evaluates Service.Beside p.policy f document :=
      ⟨fun tags => beside_transaction (means_tagOccurrences document tags),
        hpersist p.policy f document⟩
    exact (parallel_evaluate hev isRestrengthening_id
      (parallel_rank_eq (beside_transaction (means_edges _ _ _)))).raised h
  | persist policy f document counts => exact (parallel_persist (hpersist _ _ _ _)).raised h
  | refuse => rfl

end TagRank
