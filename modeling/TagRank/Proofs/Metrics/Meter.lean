import TagRank.Metrics.Recorder

namespace TagRank.Metrics

inductive Meter
  | buildsFailed
  | pairs
  | clearsFailed
  | persisted
  | persistsMissing
  | persistsFailed
  | evaluations
  | ranking
  | evaluation
  deriving DecidableEq

namespace Meter

def shape : Meter → Shape
  | ranking | evaluation => .histogram
  | _ => .counter

def metric : Meter → String
  | buildsFailed => "cooccurrence.build.failed"
  | pairs => "cooccurrence.pairs"
  | clearsFailed => "cooccurrence.clear.failed"
  | persisted => "keywords.persisted"
  | persistsMissing => "keywords.persist.missing_document"
  | persistsFailed => "keywords.persist.failed"
  | evaluations => "pipeline.evaluations"
  | ranking => "ranking.duration"
  | evaluation => "pipeline.evaluation_duration"

def tag : Meter → String
  | buildsFailed | pairs | clearsFailed | ranking => "relation_kind"
  | persisted | persistsMissing | persistsFailed => "policy"
  | evaluations | evaluation => "status"

def all : List Meter :=
  [buildsFailed, pairs, clearsFailed, persisted, persistsMissing, persistsFailed, evaluations,
    ranking, evaluation]

theorem mem_all (m : Meter) : m ∈ all := by
  cases m <;> decide

theorem metric_injective : Function.Injective metric := by
  have h : ∀ m ∈ all, ∀ n ∈ all, m.metric = n.metric → m = n := by decide +kernel
  exact fun m n => h m m.mem_all n n.mem_all

def name (m : Meter) : String := plain m.metric

theorem name_ne_nil (m : Meter) : m.name.toList ≠ [] := by
  cases m <;> decide +kernel

theorem dropWhile_name (m : Meter) : m.name.toList.dropWhile isUnderscore = m.name.toList := by
  cases m <;> decide +kernel

theorem dropWhile_reverse_name (m : Meter) :
    m.name.toList.reverse.dropWhile isUnderscore = m.name.toList.reverse := by
  cases m <;> decide +kernel

theorem name_not_total (m : Meter) :
    "_total".toList.length ≤ m.name.toList.length ∧ ¬"_total".toList <:+ m.name.toList := by
  cases m <;> decide +kernel

theorem disjoint_claims {m n : Meter} (h : m ≠ n) :
    ∀ c ∈ claims m.shape m.name, c ∉ claims n.shape n.name := by
  have disjoint : ∀ m ∈ all, ∀ n ∈ all, m ≠ n →
      ∀ c ∈ claims m.shape m.name, c ∉ claims n.shape n.name := by
    decide +kernel
  exact disjoint m m.mem_all n n.mem_all h

theorem labelName_tag (m : Meter) : labelName m.tag = m.tag := by
  cases m <;> decide +kernel

theorem isLabelAllowed_tag (m : Meter) : Series.isLabelAllowed m.shape m.tag = true := by
  cases m <;> decide +kernel

end Meter

def lead (space : String) : String :=
  String.ofList ((plain space ++ "_").toList.dropWhile isUnderscore)

variable (space : String) (m : Meter)

theorem dropWhile_ends {β : Type} {p : β → Bool} (xs : List β) {ys : List β} (hne : ys ≠ [])
    (hfirst : ys.dropWhile p = ys) (hlast : ys.reverse.dropWhile p = ys.reverse) :
    (((xs ++ ys).dropWhile p).reverse.dropWhile p).reverse = xs.dropWhile p ++ ys := by
  have hdrop : (xs ++ ys).dropWhile p = xs.dropWhile p ++ ys := by
    rw [List.dropWhile_append, hfirst]
    split
    · rename_i h
      rw [List.isEmpty_iff.1 h, List.nil_append]
    · rfl
  rw [hdrop, List.reverse_append, List.dropWhile_append, hlast, if_neg (by simpa using hne),
    List.reverse_append, List.reverse_reverse, List.reverse_reverse]

theorem metricName_metric : metricName space m.metric = lead space ++ m.name := by
  simp only [metricName]
  rw [← Meter.name, String.toList_append,
    dropWhile_ends _ m.name_ne_nil m.dropWhile_name m.dropWhile_reverse_name, String.ofList_append,
    String.ofList_toList, lead]

theorem familyName_lead : familyName m.shape (lead space ++ m.name) = lead space ++ m.name := by
  obtain ⟨hlength, hnot⟩ := m.name_not_total
  refine if_neg fun h => hnot ?_
  simp only [Bool.and_eq_true, List.isSuffixOf_iff_suffix, String.toList_append] at h
  exact List.suffix_of_suffix_length_le h.2 (List.suffix_append _ _) hlength

theorem claims_append (shape : Shape) (first family : String) :
    claims shape (first ++ family) = (claims shape family).map (first ++ ·) := by
  simp [claims, String.append_assoc]

variable {α : Type} {m n : Meter} {space : String}

structure Series.IsOf (space : String) (m : Meter) (s : Series α) : Prop where
  shape : s.shape = m.shape
  metric : s.metric = m.metric
  family : s.family = lead space ++ m.name
  labels : s.labels = [m.tag]

theorem Series.IsOf.isFor {s : Series α} (h : s.IsOf space m) :
    s.isFor n.shape n.metric [n.tag] = true ↔ m = n := by
  simp only [Series.isFor, h.shape, h.metric, h.labels, Bool.and_eq_true, decide_eq_true_eq]
  constructor
  · exact fun h => Meter.metric_injective h.1.2
  · rintro rfl
    exact ⟨⟨rfl, rfl⟩, rfl⟩

theorem Series.IsOf.not_mem_claims {s : Series α} (h : s.IsOf space m) (hne : m ≠ n) {c : String}
    (hc : c ∈ Metrics.claims n.shape (lead space ++ n.name)) : c ∉ s.claims := by
  rw [Series.claims, h.shape, h.family, claims_append]
  rw [claims_append] at hc
  obtain ⟨d, hd, rfl⟩ := List.mem_map.1 hc
  rw [List.mem_map]
  rintro ⟨d', hd', he⟩
  rw [String.append_right_inj] at he
  exact Meter.disjoint_claims hne d (he ▸ hd') hd

/-- Nothing is recorded but the metrics of a service. -/
def Recorder.IsOwn (r : Recorder α) : Prop := ∀ s ∈ r.series, ∃ m : Meter, s.IsOf r.space m

theorem Recorder.isOwn_of_empty {r : Recorder α} (h : r.series = []) : r.IsOwn := by
  simp [IsOwn, h]

variable [Scalar α]

theorem Series.isOf_new (space : String) (m : Meter) :
    (Series.new (α := α) m.shape m.metric (lead space ++ m.name) [m.tag]).IsOf space m :=
  ⟨rfl, rfl, rfl, rfl⟩

theorem Series.IsOf.record {s : Series α} (h : s.IsOf space m) (values : List String) (x : α) :
    (s.record values x).IsOf space m := by
  simp only [Series.record]
  split
  · exact ⟨h.shape, h.metric, h.family, h.labels⟩
  · exact ⟨h.shape, h.metric, h.family, h.labels⟩

namespace Recorder

variable {r : Recorder α}

theorem IsOwn.register (h : r.IsOwn) (hm : ∀ s ∈ r.series, ¬s.IsOf r.space m) :
    r.register m.shape m.metric [m.tag] = .ok { r with
      series := r.series ++ [.new m.shape m.metric (lead r.space ++ m.name) [m.tag]] } := by
  have hfree : ¬(claims m.shape (lead r.space ++ m.name)).any fun c =>
      r.series.any fun s => s.claims.contains c := by
    simp only [List.any_eq_true, not_exists, not_and, List.contains_iff_mem]
    intro c hc s hs hmem
    obtain ⟨n, hn⟩ := h s hs
    refine hn.not_mem_claims (fun he => ?_) hc hmem
    exact hm s hs (he ▸ hn)
  have hnamed : lead r.space ++ m.name ≠ "" := by
    intro he
    rw [← String.toList_inj, String.toList_append] at he
    exact m.name_ne_nil (List.append_eq_nil_iff.1 he).2
  simp only [Recorder.register, metricName_metric, familyName_lead]
  rw [if_neg (by simp [hnamed, m.isLabelAllowed_tag]), if_neg hfree]
  rfl

theorem IsOwn.withSeries (h : r.IsOwn) (m : Meter) :
    ∃ series, r.withSeries m.shape m.metric [m.tag] = .ok { r with series } ∧
      IsOwn { r with series } := by
  simp only [Recorder.withSeries]
  split
  · exact ⟨r.series, rfl, h⟩
  · rename_i hany
    refine ⟨_, h.register fun s hs hm => hany ?_, ?_⟩
    · exact List.any_eq_true.2 ⟨s, hs, hm.isFor.2 rfl⟩
    · intro s hs
      rcases List.mem_append.1 hs with hs | hs
      · exact h s hs
      · exact ⟨m, List.mem_singleton.1 hs ▸ Series.isOf_new r.space m⟩

theorem IsOwn.observe (h : r.IsOwn) (m : Meter) (value : String) (x : α) :
    ∃ series, r.observe m.shape m.metric [(m.tag, value)] x = ({ r with series }, .ok ()) ∧
      IsOwn { r with series } := by
  simp only [Recorder.observe, List.map_cons, List.map_nil, m.labelName_tag]
  split
  · exact ⟨r.series, rfl, h⟩
  · obtain ⟨series, hs, ho⟩ := h.withSeries m
    rw [hs]
    dsimp only
    rw [if_pos (by simp)]
    refine ⟨_, rfl, fun s hs => ?_⟩
    obtain ⟨t, ht, rfl⟩ := List.mem_map.1 hs
    obtain ⟨n, hn⟩ := ho t ht
    refine ⟨n, ?_⟩
    split
    · exact hn.record _ _
    · exact hn

end Recorder

end TagRank.Metrics
