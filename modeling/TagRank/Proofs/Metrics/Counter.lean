import TagRank.Metrics.Exposition
import TagRank.Proofs.Assoc
import TagRank.Proofs.Metrics.Meter

namespace TagRank.Metrics

variable {α : Type}

def Series.counters (s : Series α) : List ((String × List (String × String)) × α) :=
  s.samples.filterMap fun (values, sample) => match s.shape, sample with
    | .counter, .number x => some ((s.family ++ "_total", s.labels.zip values), x)
    | _, _ => none

def Recorder.counters (r : Recorder α) : List ((String × List (String × String)) × α) :=
  r.series.flatMap Series.counters

/-- What is exported of a counter with one tag; one that is missing stands at zero. -/
def Recorder.counter [Zero α] (r : Recorder α) (metric tag value : String) : α :=
  Assoc.getD (metricName r.space metric ++ "_total", [(tag, value)]) 0 r.counters

def Meter.line (space : String) (m : Meter) (value : String) : String × List (String × String) :=
  (metricName space m.metric ++ "_total", [(m.tag, value)])

theorem Meter.line_injective (space : String) (m : Meter) : Function.Injective (m.line space) := by
  intro v w h
  simpa [line] using h

theorem Meter.eq_of_line {space v w : String} {m n : Meter}
    (h : m.line space v = n.line space w) : m = n := by
  have hname : m.name = n.name := by
    have hl := congrArg Prod.fst h
    simp only [line, metricName_metric, String.append_assoc] at hl
    rw [String.append_right_inj, ← String.toList_inj, String.toList_append,
      String.toList_append] at hl
    exact String.toList_inj.1 (List.append_cancel_right hl)
  exact Decidable.byContradiction fun hne =>
    disjoint_claims hne m.name (.head _) (hname ▸ .head _)

theorem Meter.line_inj {space v w : String} {m n : Meter} :
    m.line space v = n.line space w ↔ m = n ∧ v = w := by
  constructor
  · intro h
    obtain rfl := eq_of_line h
    exact ⟨rfl, m.line_injective space h⟩
  · rintro ⟨rfl, rfl⟩
    rfl

def Sample.numbers (m : List (String × α)) : List (List String × Sample α) :=
  m.map (Prod.map (fun v => [v]) .number)

def Series.IsTallied (s : Series α) : Prop :=
  s.shape = .counter → ∃ t, (Assoc.keys t).Nodup ∧ s.samples = Sample.numbers t

/-- Series of the metrics of a service, one for a metric. -/
structure IsBook (space : String) (ss : List (Series α)) : Prop where
  own : ∀ s ∈ ss, ∃ m : Meter, s.IsOf space m
  once : (ss.map Series.metric).Nodup
  tallied : ∀ s ∈ ss, s.IsTallied

theorem isBook_nil (space : String) : IsBook (α := α) space [] where
  own := by simp
  once := List.nodup_nil
  tallied := by simp

theorem IsBook.tail {space : String} {s : Series α} {ss : List (Series α)}
    (h : IsBook space (s :: ss)) : IsBook space ss where
  own := fun t ht => h.own t (.tail _ ht)
  once := (List.nodup_cons.1 h.once).2
  tallied := fun t ht => h.tallied t (.tail _ ht)

variable {m n : Meter} {space : String} {s : Series α}

theorem Series.counters_of_ne (h : s.shape ≠ .counter) : s.counters = [] := by
  simp only [Series.counters]
  cases hs : s.shape with
  | counter => exact absurd hs h
  | gauge => exact List.filterMap_eq_nil_iff.2 fun _ _ => rfl
  | histogram => exact List.filterMap_eq_nil_iff.2 fun _ _ => rfl

theorem Series.IsOf.counters (h : s.IsOf space m) (hm : m.shape = .counter)
    {t : List (String × α)} (hs : s.samples = Sample.numbers t) :
    s.counters = t.map (Prod.map (m.line space) id) := by
  simp only [Series.counters, hs, Sample.numbers, List.filterMap_map, h.shape, hm, h.family,
    h.labels, ← metricName_metric]
  exact congrFun List.filterMap_eq_map t

theorem Series.IsOf.get?_counters_of_ne (h : s.IsOf space m) (hs : s.IsTallied) (hne : m ≠ n)
    (value : String) : Assoc.get? (n.line space value) s.counters = none := by
  by_cases hc : s.shape = .counter
  · obtain ⟨t, -, ht⟩ := hs hc
    rw [h.counters (h.shape ▸ hc) ht, Assoc.get?_eq_none]
    intro hmem
    obtain ⟨p, hp, he⟩ := List.mem_map.1 hmem
    obtain ⟨q, -, rfl⟩ := List.mem_map.1 hp
    exact hne (Meter.eq_of_line he)
  · rw [Series.counters_of_ne hc]
    rfl

theorem IsBook.get?_counters_of_forall {ss : List (Series α)} (h : IsBook space ss)
    (hm : ∀ s ∈ ss, ¬s.IsOf space m) (value : String) :
    Assoc.get? (m.line space value) (ss.flatMap Series.counters) = none := by
  induction ss with
  | nil => rfl
  | cons s ss ih =>
    obtain ⟨n, hn⟩ := h.own s (.head _)
    have hne : n ≠ m := fun he => hm s (.head _) (he ▸ hn)
    rw [List.flatMap_cons, Assoc.get?_append, hn.get?_counters_of_ne (h.tallied s (.head _)) hne,
      ih h.tail fun t ht => hm t (.tail _ ht), Option.or_none]

theorem IsBook.not_isOf {ss : List (Series α)} (h : IsBook space (s :: ss)) (hs : s.IsOf space m) :
    ∀ t ∈ ss, ¬t.IsOf space m := fun _ ht hof =>
  (List.nodup_cons.1 h.once).1 (hs.metric.trans hof.metric.symm ▸ List.mem_map_of_mem ht)

theorem IsBook.nodup_counters {ss : List (Series α)} (h : IsBook space ss) :
    (Assoc.keys (ss.flatMap Series.counters)).Nodup := by
  induction ss with
  | nil => exact List.nodup_nil
  | cons s ss ih =>
    obtain ⟨m, hm⟩ := h.own s (.head _)
    rw [List.flatMap_cons, Assoc.keys, List.map_append]
    by_cases hc : s.shape = .counter
    · obtain ⟨t, ht, hs⟩ := h.tallied s (.head _) hc
      rw [hm.counters (hm.shape ▸ hc) hs]
      refine List.nodup_append.2 ⟨Assoc.nodup_renamed (m.line_injective space) _ ht, ih h.tail, ?_⟩
      rintro key hkey _ hrest rfl
      obtain ⟨p, hp, rfl⟩ := List.mem_map.1 hkey
      obtain ⟨q, -, rfl⟩ := List.mem_map.1 hp
      exact Assoc.get?_eq_none.1 (h.tail.get?_counters_of_forall (h.not_isOf hm) q.1) hrest
    · rw [Series.counters_of_ne hc]
      exact ih h.tail

variable [Scalar α]

theorem Series.samples_record (hs : (Assoc.keys s.samples).Nodup) (values : List String) (x : α) :
    (s.record values x).samples = Assoc.insert values
      (((Assoc.get? values s.samples).getD (.initial s.shape)).record s.shape x) s.samples := by
  have hany : s.samples.any (·.1 == values) = true ↔ values ∈ Assoc.keys s.samples := by
    simp [Assoc.keys]
  simp only [Series.record, Assoc.lookup_eq]
  by_cases h : values ∈ Assoc.keys s.samples
  · rw [if_pos (hany.2 h), Assoc.insert_of_mem hs h]
    refine List.map_congr_left fun p _ => ?_
    by_cases hp : p.1 = values <;> simp [hp]
  · rw [if_neg (mt hany.1 h), Assoc.insert_of_not_mem h]

theorem Series.numbers_record (hs : s.shape = .counter) {t : List (String × α)}
    (ht : (Assoc.keys t).Nodup) (h : s.samples = Sample.numbers t) (value : String) (x : α) :
    (s.record [value] x).samples =
      Sample.numbers (Assoc.insert value (Assoc.getD value 0 t + x) t) := by
  have hf : Function.Injective fun v : String => [v] := fun _ _ he => List.singleton_inj.1 he
  have hkeys : (Assoc.keys s.samples).Nodup := h ▸ Assoc.nodup_renamed hf _ ht
  rw [samples_record hkeys, h, hs, Sample.numbers, Assoc.get?_renamed hf, Sample.numbers,
    ← Assoc.insert_renamed hf, Assoc.getD]
  cases Assoc.get? value t <;> rfl

theorem Series.IsOf.counters_record (h : s.IsOf space m) (hm : m.shape = .counter)
    {t : List (String × α)} (ht : (Assoc.keys t).Nodup) (hs : s.samples = Sample.numbers t)
    (value : String) (x : α) :
    (s.record [value] x).counters = Assoc.insert (m.line space value)
      (Assoc.getD (m.line space value) 0 s.counters + x) s.counters := by
  have hline := m.line_injective space
  rw [(h.record [value] x).counters hm (numbers_record (h.shape ▸ hm) ht hs value x),
    ← Assoc.insert_renamed hline, h.counters hm hs, Assoc.getD, Assoc.getD,
    Assoc.get?_renamed hline, Option.map_id]
  rfl

theorem Series.IsOf.isTallied_record (h : s.IsOf space m) (hs : s.IsTallied) (value : String)
    (x : α) : (s.record [value] x).IsTallied := by
  intro hc
  have hshape : s.shape = .counter := h.shape.trans ((h.record [value] x).shape.symm.trans hc)
  obtain ⟨t, ht, hsamples⟩ := hs hshape
  exact ⟨_, Assoc.nodup_insert ht _ _, numbers_record hshape ht hsamples value x⟩

def Series.updated (m : Meter) (value : String) (x : α) (s : Series α) : Series α :=
  if s.isFor m.shape m.metric [m.tag] then s.record [value] x else s

theorem Series.IsOf.updated_self (h : s.IsOf space m) (value : String) (x : α) :
    s.updated m value x = s.record [value] x := if_pos (h.isFor.2 rfl)

theorem Series.IsOf.updated_of_ne (h : s.IsOf space n) (hne : n ≠ m) (value : String) (x : α) :
    s.updated m value x = s := if_neg (mt h.isFor.1 hne)

theorem Series.metric_updated (m : Meter) (value : String) (x : α) (s : Series α) :
    (s.updated m value x).metric = s.metric := by
  simp only [updated, record]
  split
  · split <;> rfl
  · rfl

theorem IsBook.updated {ss : List (Series α)} (h : IsBook space ss) (m : Meter) (value : String)
    (x : α) : IsBook space (ss.map (Series.updated m value x)) where
  own := by
    intro s hs
    obtain ⟨t, ht, rfl⟩ := List.mem_map.1 hs
    obtain ⟨n, hn⟩ := h.own t ht
    refine ⟨n, ?_⟩
    by_cases hne : n = m
    · rw [(hne ▸ hn : t.IsOf space m).updated_self]
      exact hn.record _ _
    · rw [hn.updated_of_ne hne]
      exact hn
  once := by
    rw [List.map_map]
    exact (List.map_congr_left fun s _ => Series.metric_updated m value x s) ▸ h.once
  tallied := by
    intro s hs
    obtain ⟨t, ht, rfl⟩ := List.mem_map.1 hs
    obtain ⟨n, hn⟩ := h.own t ht
    by_cases hne : n = m
    · rw [(hne ▸ hn : t.IsOf space m).updated_self]
      exact hn.isTallied_record (h.tallied t ht) _ _
    · rw [hn.updated_of_ne hne]
      exact h.tallied t ht

theorem IsBook.counters_updated_of_ne {ss : List (Series α)} (h : IsBook space ss)
    (hm : m.shape ≠ .counter) (value : String) (x : α) :
    (ss.map (Series.updated m value x)).flatMap Series.counters = ss.flatMap Series.counters := by
  rw [List.flatMap_def, List.flatMap_def, List.map_map]
  refine congrArg List.flatten (List.map_congr_left fun s hs => ?_)
  rw [Function.comp_apply]
  obtain ⟨n, hn⟩ := h.own s hs
  by_cases hne : n = m
  · have hn : s.IsOf space m := hne ▸ hn
    rw [hn.updated_self, Series.counters_of_ne ((hn.record [value] x).shape ▸ hm),
      Series.counters_of_ne (hn.shape ▸ hm)]
  · rw [hn.updated_of_ne hne]

theorem IsBook.get?_counters_updated {ss : List (Series α)} (h : IsBook space ss)
    (hm : m.shape = .counter) (hmem : ∃ s ∈ ss, s.IsOf space m) (value : String) (x : α)
    (key : String × List (String × String)) :
    Assoc.get? key ((ss.map (Series.updated m value x)).flatMap Series.counters) =
      if m.line space value = key then
        some (Assoc.getD (m.line space value) 0 (ss.flatMap Series.counters) + x)
      else Assoc.get? key (ss.flatMap Series.counters) := by
  induction ss with
  | nil => simp at hmem
  | cons s ss ih =>
    obtain ⟨n, hn⟩ := h.own s (.head _)
    simp only [List.map_cons, List.flatMap_cons, Assoc.get?_append, Assoc.getD]
    by_cases hne : n = m
    · -- the series of the metric: the others are left alone and have no counter of this name
      subst hne
      have hothers := h.not_isOf hn
      have hrest : ss.map (Series.updated n value x) = ss := by
        refine (List.map_congr_left fun t ht => ?_).trans (List.map_id ss)
        obtain ⟨k, hk⟩ := h.tail.own t ht
        have hne : k ≠ n := fun he => hothers t ht (he ▸ hk)
        exact hk.updated_of_ne hne value x
      have hnone := h.tail.get?_counters_of_forall hothers value
      obtain ⟨t, ht, hsamples⟩ := h.tallied s (.head _) (hn.shape.trans hm)
      rw [hn.updated_self, hn.counters_record hm ht hsamples, Assoc.get?_insert, hrest, hnone,
        Option.or_none, Assoc.getD]
      split <;> rfl
    · -- the series of the metric comes later
      have hhead : Assoc.get? (m.line space value) s.counters = none :=
        hn.get?_counters_of_ne (h.tallied s (.head _)) hne value
      have hmem : ∃ t ∈ ss, t.IsOf space m := by
        obtain ⟨t, ht, hof⟩ := hmem
        rcases List.mem_cons.1 ht with rfl | ht
        · exact absurd (Meter.metric_injective (hn.metric.symm.trans hof.metric)) hne
        · exact ⟨t, ht, hof⟩
      rw [hn.updated_of_ne hne, ih h.tail hmem, hhead, Option.none_or, Assoc.getD]
      split
      · rename_i hk
        rw [← hk, hhead, Option.none_or]
      · rfl

namespace Recorder

variable {r : Recorder α}

theorem withSeries_of_isBook (h : IsBook r.space r.series) (m : Meter) :
    ∃ ss, r.withSeries m.shape m.metric [m.tag] = .ok { r with series := ss } ∧
      IsBook r.space ss ∧ (∃ s ∈ ss, s.IsOf r.space m) ∧
      ss.flatMap Series.counters = r.series.flatMap Series.counters := by
  simp only [Recorder.withSeries]
  split
  · rename_i hany
    obtain ⟨s, hs, hfor⟩ := List.any_eq_true.1 hany
    obtain ⟨n, hn⟩ := h.own s hs
    exact ⟨r.series, rfl, h, ⟨s, hs, hn.isFor.1 hfor ▸ hn⟩, rfl⟩
  · rename_i hany
    have hnot : ∀ s ∈ r.series, ¬s.IsOf r.space m := fun s hs hm =>
      hany (List.any_eq_true.2 ⟨s, hs, hm.isFor.2 rfl⟩)
    have hnew := Series.isOf_new (α := α) r.space m
    refine ⟨_, IsOwn.register h.own hnot, ⟨?own, ?once, ?tallied⟩, ?mem, ?same⟩
    case own =>
      intro s hs
      rcases List.mem_append.1 hs with hs | hs
      · exact h.own s hs
      · exact ⟨m, List.mem_singleton.1 hs ▸ hnew⟩
    case once =>
      rw [List.map_append]
      refine List.nodup_append.2 ⟨h.once, by simp, ?_⟩
      rintro metric hmetric _ hlast rfl
      obtain ⟨s, hs, rfl⟩ := List.mem_map.1 hmetric
      obtain ⟨n, hn⟩ := h.own s hs
      have he : n.metric = m.metric := hn.metric.symm.trans (List.mem_singleton.1 hlast)
      exact hnot s hs (Meter.metric_injective he ▸ hn)
    case tallied =>
      intro s hs
      rcases List.mem_append.1 hs with hs | hs
      · exact h.tallied s hs
      · obtain rfl := List.mem_singleton.1 hs
        exact fun _ => ⟨[], List.nodup_nil, rfl⟩
    case mem => exact ⟨_, List.mem_append_right _ (List.mem_singleton_self _), hnew⟩
    case same => simp [Series.counters, Series.new]

theorem observe_of_isBook (h : IsBook r.space r.series) (he : r.exporting = true) (m : Meter)
    (value : String) (x : α) :
    ∃ ss, r.observe m.shape m.metric [(m.tag, value)] x = ({ r with series := ss }, .ok ()) ∧
      IsBook r.space ss ∧ ∀ key, Assoc.get? key (ss.flatMap Series.counters) =
        if m.shape = .counter ∧ m.line r.space value = key then
          some (Assoc.getD (m.line r.space value) 0 r.counters + x)
        else Assoc.get? key r.counters := by
  obtain ⟨ss, hss, hbook, hmem, hsame⟩ := withSeries_of_isBook h m
  refine ⟨ss.map (Series.updated m value x), ?_, hbook.updated m value x, fun key => ?_⟩
  · simp only [Recorder.observe, List.map_cons, List.map_nil, m.labelName_tag, he, hss]
    rfl
  · by_cases hm : m.shape = .counter
    · rw [hbook.get?_counters_updated hm hmem, hsame]
      simp only [hm, true_and]
      rfl
    · rw [hbook.counters_updated_of_ne hm, hsame, if_neg fun hc => hm hc.1]
      rfl

end Recorder

end TagRank.Metrics
