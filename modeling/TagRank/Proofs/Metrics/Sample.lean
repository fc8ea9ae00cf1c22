import Mathlib.Data.List.Lattice
import Mathlib.Data.List.Pairwise
import Mathlib.Data.String.Basic
import TagRank.Proofs.Except
import TagRank.Proofs.Metrics.Counter
import TagRank.Proofs.Sorted

/-!
The samples of a recorder, whatever its metrics. A recorder refuses what it could not tell apart, so
an observation that it takes changes one sample, and one that it refuses changes none.
-/

namespace TagRank.Metrics

/-- Where a sample is kept: in the series of a metric with its labels, under their values. -/
@[ext]
structure Place where
  shape : Shape
  metric : String
  labels : List String
  values : List String
  deriving DecidableEq

/-- What is seen of a place: labels belong to their values, in whatever order they were given. -/
structure Mark where
  shape : Shape
  metric : String
  labels : List (String × String)
  deriving DecidableEq

def ordered (labels : List (String × String)) : List (String × String) :=
  labels.mergeSort fun a b => !(b.1 < a.1)

def Place.mark (p : Place) : Mark := ⟨p.shape, p.metric, ordered (p.labels.zip p.values)⟩

def Place.names (space : String) (p : Place) : List String :=
  claims p.shape (familyName p.shape (metricName space p.metric))

def Place.lines (space : String) (p : Place) (sample : Sample Float) : List String :=
  sample.lines (familyName p.shape (metricName space p.metric)) p.shape (p.labels.zip p.values)

def Place.of (shape : Shape) (metric : String) (tags : List (String × String)) : Place :=
  ⟨shape, metric, tags.map fun t => labelName t.1, tags.map Prod.snd⟩

variable {α : Type}

namespace Series

def place (s : Series α) (values : List String) : Place := ⟨s.shape, s.metric, s.labels, values⟩

def placed (s : Series α) : List (Place × Sample α) := s.samples.map (Prod.map s.place id)

theorem isFor_iff {s : Series α} {shape : Shape} {metric : String} {labels : List String} :
    s.isFor shape metric labels = true ↔
      s.shape = shape ∧ s.metric = metric ∧ s.labels = labels := by
  simp only [isFor, Bool.and_eq_true, decide_eq_true_eq, and_assoc]

theorem place_injective (s : Series α) : Function.Injective s.place := by
  intro v w h
  exact congrArg Place.values h

theorem mem_placed {s : Series α} {p : Place} {x : Sample α} :
    (p, x) ∈ s.placed ↔
      s.isFor p.shape p.metric p.labels = true ∧ (p.values, x) ∈ s.samples := by
  rw [isFor_iff, placed, List.mem_map]
  constructor
  · rintro ⟨⟨v, y⟩, hy, h⟩
    cases h
    exact ⟨⟨rfl, rfl, rfl⟩, hy⟩
  · rintro ⟨⟨hs, hm, hl⟩, hx⟩
    exact ⟨_, hx, by simp [place, hs, hm, hl]⟩

end Series

namespace Recorder

def samples (r : Recorder α) : List (Place × Sample α) := r.series.flatMap Series.placed

/-- No name is claimed twice, and label values have one sample. -/
structure IsOrderly (r : Recorder α) : Prop where
  apart : r.series.Pairwise fun s t => s.claims.Disjoint t.claims
  named : ∀ s ∈ r.series, s.family = familyName s.shape (metricName r.space s.metric)
  once : ∀ s ∈ r.series, (Assoc.keys s.samples).Nodup
  labelled : ∀ s ∈ r.series, ∀ p ∈ s.samples, s.labels.Nodup ∧ p.1.length = s.labels.length

variable {r : Recorder α}

theorem mem_samples {p : Place} {x : Sample α} :
    (p, x) ∈ r.samples ↔ ∃ s ∈ r.series,
      s.isFor p.shape p.metric p.labels = true ∧ (p.values, x) ∈ s.samples := by
  simp only [samples, List.mem_flatMap, Series.mem_placed]

theorem isOrderly_new (enabled : Bool) (space : String) (exporting : Bool) :
    (Recorder.new (α := α) enabled space exporting).IsOrderly := by
  constructor <;> simp [new]

namespace IsOrderly

variable (h : r.IsOrderly)

include h

theorem eq_of_claims {s t : Series α} (hs : s ∈ r.series) (ht : t ∈ r.series) {c : String}
    (hc : c ∈ s.claims) (hd : c ∈ t.claims) : s = t := by
  have hsymm : Std.Symm fun s t : Series α => s.claims.Disjoint t.claims :=
    ⟨fun _ _ h => h.symm⟩
  by_contra hne
  exact h.apart.forall hs ht hne hc hd

theorem eq_of_metric {s t : Series α} (hs : s ∈ r.series) (ht : t ∈ r.series)
    (hshape : s.shape = t.shape) (hmetric : s.metric = t.metric) : s = t := by
  have hfamily : s.family = t.family := by rw [h.named s hs, h.named t ht, hshape, hmetric]
  exact h.eq_of_claims hs ht (.head _) (hfamily ▸ .head _)

theorem eq_of_isFor {s t : Series α} (hs : s ∈ r.series) (ht : t ∈ r.series) {shape : Shape}
    {metric : String} {labels : List String} (hfor : s.isFor shape metric labels = true)
    (hfor' : t.isFor shape metric labels = true) : s = t := by
  rw [Series.isFor_iff] at hfor hfor'
  exact h.eq_of_metric hs ht (hfor.1.trans hfor'.1.symm) (hfor.2.1.trans hfor'.2.1.symm)

theorem claims_eq {s : Series α} (hs : s ∈ r.series) {p : Place}
    (hfor : s.isFor p.shape p.metric p.labels = true) : s.claims = p.names r.space := by
  obtain ⟨hshape, hmetric, -⟩ := Series.isFor_iff.1 hfor
  rw [Series.claims, h.named s hs, hshape, hmetric, Place.names]

theorem eq_of_names {p q : Place} (hp : p ∈ Assoc.keys r.samples) (hq : q ∈ Assoc.keys r.samples)
    (hpq : ¬(p.names r.space).Disjoint (q.names r.space)) :
    p.shape = q.shape ∧ p.metric = q.metric := by
  obtain ⟨⟨p, x⟩, hx, rfl⟩ := List.mem_map.1 hp
  obtain ⟨⟨q, y⟩, hy, rfl⟩ := List.mem_map.1 hq
  obtain ⟨s, hs, hfor, -⟩ := mem_samples.1 hx
  obtain ⟨t, ht, hfor', -⟩ := mem_samples.1 hy
  simp only [List.Disjoint, not_forall] at hpq
  obtain ⟨c, hc, hd, -⟩ := hpq
  obtain rfl := h.eq_of_claims hs ht (h.claims_eq hs hfor ▸ hc) (h.claims_eq ht hfor' ▸ hd)
  rw [Series.isFor_iff] at hfor hfor'
  exact ⟨hfor.1.symm.trans hfor'.1, hfor.2.1.symm.trans hfor'.2.1⟩

theorem nodup_samples : (Assoc.keys r.samples).Nodup := by
  rw [Assoc.keys, samples, List.map_flatMap, List.nodup_flatMap]
  refine ⟨fun s hs => Assoc.nodup_renamed s.place_injective id (h.once s hs), ?_⟩
  refine h.apart.imp_of_mem fun {s t} hs ht hst p hp hq => ?_
  obtain ⟨⟨_, x⟩, hx, rfl⟩ := List.mem_map.1 hp
  obtain ⟨⟨q, y⟩, hy, rfl⟩ := List.mem_map.1 hq
  have heq := h.eq_of_isFor hs ht (Series.mem_placed.1 hx).1 (Series.mem_placed.1 hy).1
  exact hst (.head _) (heq ▸ .head _)

theorem get?_samples {s : Series α} (hs : s ∈ r.series) {p : Place}
    (hfor : s.isFor p.shape p.metric p.labels = true) :
    Assoc.get? p r.samples = Assoc.get? p.values s.samples := by
  ext x
  rw [Assoc.get?_eq_some h.nodup_samples, Assoc.get?_eq_some (h.once s hs), mem_samples]
  constructor
  · rintro ⟨t, ht, hfor', hx⟩
    exact h.eq_of_isFor ht hs hfor' hfor ▸ hx
  · exact fun hx => ⟨s, hs, hfor, hx⟩

end IsOrderly

theorem get?_samples_eq_none {p : Place}
    (h : ∀ s ∈ r.series, ¬s.isFor p.shape p.metric p.labels = true) :
    Assoc.get? p r.samples = none := by
  rw [Assoc.get?_eq_none]
  intro hp
  obtain ⟨⟨_, x⟩, hx, rfl⟩ := List.mem_map.1 hp
  obtain ⟨s, hs, hfor, -⟩ := mem_samples.1 hx
  exact h s hs hfor

end Recorder

section

variable [Scalar α]

def Series.observed (p : Place) (x : α) (s : Series α) : Series α :=
  if s.isFor p.shape p.metric p.labels then s.record p.values x else s

theorem Series.observed_eq (p : Place) (x : α) (s : Series α) :
    s.observed p x = { s with samples := (s.observed p x).samples } := by
  simp only [observed, record]
  split
  · split <;> rfl
  · rfl

theorem Series.claims_observed (p : Place) (x : α) (s : Series α) :
    (s.observed p x).claims = s.claims := by
  rw [observed_eq]
  rfl

theorem Series.record_eq {s : Series α} (hs : (Assoc.keys s.samples).Nodup)
    (values : List String) (x : α) :
    s.record values x =
      let y := ((Assoc.get? values s.samples).getD (.initial s.shape)).record s.shape x
      { s with samples := Assoc.insert values y s.samples } := by
  dsimp only
  rw [← samples_record hs, record]
  split <;> rfl

namespace Recorder

variable {r t : Recorder α} {shape : Shape} {metric : String} {labels : List String}

theorem register_ok (h : r.register shape metric labels = .ok t) :
    let family := familyName shape (metricName r.space metric)
    t = { r with series := r.series ++ [.new shape metric family labels] } ∧
      ∀ s ∈ r.series, s.claims.Disjoint (claims shape family) := by
  simp only [register] at h
  split at h
  · cases h
  · split at h
    · cases h
    · rename_i hfree
      refine ⟨(Except.ok.inj h).symm, fun s hs c hc hd => hfree ?_⟩
      simp only [List.any_eq_true, List.contains_iff_mem]
      exact ⟨c, hd, s, hs, hc⟩

structure IsPrepared (r : Recorder α) (shape : Shape) (metric : String) (labels : List String)
    (t : Recorder α) : Prop where
  orderly : t.IsOrderly
  held : ∃ s ∈ t.series, s.isFor shape metric labels = true
  setup : ∃ ss, t = { r with series := ss }
  samples : t.samples = r.samples ∨
    labels = [] ∧ t.samples = r.samples ++ [(⟨shape, metric, [], []⟩, .initial shape)]

theorem IsOrderly.register (h : r.IsOrderly) (hr : r.register shape metric labels = .ok t) :
    r.IsPrepared shape metric labels t := by
  obtain ⟨rfl, hfree⟩ := register_ok hr
  generalize hf : familyName shape (metricName r.space metric) = family at hfree
  have hmem {P : Series α → Prop} (hold : ∀ s ∈ r.series, P s)
      (hnew : P (.new shape metric family labels)) :
      ∀ s ∈ r.series ++ [.new shape metric family labels], P s := by
    simpa [or_imp, forall_and] using ⟨hold, hnew⟩
  refine ⟨⟨?apart, hmem h.named hf.symm, hmem h.once ?once, hmem h.labelled ?labelled⟩, ?held,
    ⟨_, rfl⟩, ?samples⟩
  case apart =>
    refine List.pairwise_append.2 ⟨h.apart, List.pairwise_singleton _ _, fun s hs t ht => ?_⟩
    exact List.mem_singleton.1 ht ▸ hfree s hs
  case once =>
    simp only [Series.new]
    split <;> simp [Assoc.keys]
  case labelled =>
    simp only [Series.new]
    split
    · rename_i hl
      simp [List.isEmpty_iff.1 hl]
    · simp
  case held =>
    refine ⟨_, List.mem_append_right _ (List.mem_singleton_self _), ?_⟩
    exact Series.isFor_iff.2 ⟨rfl, rfl, rfl⟩
  case samples =>
    simp only [Recorder.samples, List.flatMap_append, List.flatMap_singleton, Series.placed]
    cases labels with
    | nil => exact .inr ⟨rfl, rfl⟩
    | cons => exact .inl (List.append_nil _)

theorem IsOrderly.withSeries (h : r.IsOrderly) (hr : r.withSeries shape metric labels = .ok t) :
    r.IsPrepared shape metric labels t := by
  simp only [Recorder.withSeries] at hr
  split at hr
  · rename_i hany
    cases hr
    exact ⟨h, List.any_eq_true.1 hany, ⟨_, rfl⟩, .inl rfl⟩
  · exact h.register hr

theorem IsPrepared.samples_of_not_nodup (h : r.IsPrepared shape metric labels t)
    (hl : ¬labels.Nodup) : t.samples = r.samples := by
  refine h.samples.resolve_right fun hs => hl ?_
  rw [hs.1]
  exact List.nodup_nil

section

variable {p : Place} (hp : p.labels.Nodup) (hv : p.values.length = p.labels.length)

include hp hv

theorem IsOrderly.map_observed (h : r.IsOrderly) (x : α) :
    IsOrderly { r with series := r.series.map (Series.observed p x) } := by
  refine ⟨?apart, ?named, ?once, ?labelled⟩
  case apart =>
    refine List.pairwise_map.2 (h.apart.imp fun {s t} hst => ?_)
    rwa [Series.claims_observed, Series.claims_observed]
  case named =>
    refine List.forall_mem_map.2 fun s hs => ?_
    rw [Series.observed_eq]
    exact h.named s hs
  case once =>
    refine List.forall_mem_map.2 fun s hs => ?_
    rw [Series.observed]
    split
    · rw [Series.record_eq (h.once s hs)]
      exact Assoc.nodup_insert (h.once s hs) _ _
    · exact h.once s hs
  case labelled =>
    refine List.forall_mem_map.2 fun s hs => ?_
    rw [Series.observed]
    split
    · rename_i hfor
      have hlabels := (Series.isFor_iff.1 hfor).2.2
      rw [Series.record_eq (h.once s hs)]
      intro q hq
      rcases Assoc.mem_insert hq with rfl | hq
      · exact ⟨hlabels ▸ hp, hlabels ▸ hv⟩
      · exact h.labelled s hs q hq
    · exact h.labelled s hs

theorem IsOrderly.get?_observed (h : r.IsOrderly)
    (hs : ∃ s ∈ r.series, s.isFor p.shape p.metric p.labels = true) (x : α) (q : Place) :
    Assoc.get? q (samples { r with series := r.series.map (Series.observed p x) }) =
      if p = q then some (((Assoc.get? p r.samples).getD (.initial p.shape)).record p.shape x)
      else Assoc.get? q r.samples := by
  have ht := h.map_observed hp hv x
  by_cases hq : ∃ s ∈ r.series, s.isFor q.shape q.metric q.labels = true
  · obtain ⟨s, hs, hfor⟩ := hq
    have hfor' : (s.observed p x).isFor q.shape q.metric q.labels = true := by
      rw [Series.observed_eq]
      exact hfor
    rw [ht.get?_samples (List.mem_map_of_mem hs) hfor', h.get?_samples hs hfor, Series.observed]
    split
    · -- both places are in one series
      rename_i hpfor
      obtain ⟨hshape, hmetric, hlabels⟩ := Series.isFor_iff.1 hpfor
      obtain ⟨hshape', hmetric', hlabels'⟩ := Series.isFor_iff.1 hfor
      have hpq : p.values = q.values ↔ p = q :=
        ⟨Place.ext (hshape.symm.trans hshape') (hmetric.symm.trans hmetric')
          (hlabels.symm.trans hlabels'), congrArg Place.values⟩
      simp only [h.get?_samples hs hpfor, Series.record_eq (h.once s hs), Assoc.get?_insert, hpq,
        hshape]
    · rename_i hnot
      rw [if_neg]
      rintro rfl
      exact hnot hfor
  · have hne : p ≠ q := by
      rintro rfl
      exact hq hs
    rw [if_neg hne, get?_samples_eq_none, get?_samples_eq_none]
    · exact fun s hs hfor => hq ⟨s, hs, hfor⟩
    · refine List.forall_mem_map.2 fun s hs hfor => hq ⟨s, hs, ?_⟩
      rw [Series.observed_eq] at hfor
      exact hfor

end

theorem IsPrepared.get?_samples {p : Place} (h : r.IsPrepared p.shape p.metric p.labels t)
    (hv : p.values.length = p.labels.length) :
    (Assoc.get? p t.samples).getD (.initial p.shape) =
        (Assoc.get? p r.samples).getD (.initial p.shape) ∧
      ∀ q, p ≠ q → Assoc.get? q t.samples = Assoc.get? q r.samples := by
  rcases h.samples with hs | ⟨hl, hs⟩
  · rw [hs]
    exact ⟨rfl, fun _ _ => rfl⟩
  · have hp : (⟨p.shape, p.metric, [], []⟩ : Place) = p := by
      rw [hl, List.length_nil, List.length_eq_zero_iff] at hv
      obtain ⟨shape, metric, labels, values⟩ := p
      obtain rfl : labels = [] := hl
      obtain rfl : values = [] := hv
      rfl
    rw [hs, hp]
    refine ⟨?_, fun q hq => ?_⟩
    · cases hr : Assoc.get? p r.samples <;> simp [Assoc.get?_append, Assoc.get?, hr]
    · simp [Assoc.get?_append, Assoc.get?, hq]

inductive Observed (r : Recorder α) (p : Place) (x : α) : Recorder α × Except Error Unit → Prop
  | taken {ss} : IsOrderly { r with series := ss } →
      (∀ q, Assoc.get? q (samples { r with series := ss }) =
        if p = q then some (((Assoc.get? p r.samples).getD (.initial p.shape)).record p.shape x)
        else Assoc.get? q r.samples) →
      Observed r p x ({ r with series := ss }, .ok ())
  | refused {ss e} : IsOrderly { r with series := ss } →
      samples { r with series := ss } = r.samples →
      Observed r p x ({ r with series := ss }, .error e)

theorem IsOrderly.observe (h : r.IsOrderly) (he : r.exporting = true) (shape : Shape)
    (metric : String) (tags : List (String × String)) (x : α) :
    r.Observed (.of shape metric tags) x (r.observe shape metric tags x) := by
  simp only [Recorder.observe]
  rw [he, if_neg (by decide)]
  cases hw : r.withSeries shape metric (tags.map fun t => labelName t.1) with
  | error e => exact .refused h rfl
  | ok t =>
    have hp := h.withSeries hw
    obtain ⟨ss, rfl⟩ := hp.setup
    dsimp only
    split
    · rename_i hl
      have hv : (Place.of shape metric tags).values.length =
          (Place.of shape metric tags).labels.length := by simp [Place.of]
      obtain ⟨hfirst, hothers⟩ := IsPrepared.get?_samples (p := .of shape metric tags) hp hv
      have ht := hp.orderly.map_observed (p := .of shape metric tags) hl hv x
      refine .taken ht fun q => (hp.orderly.get?_observed hl hv hp.held x q).trans ?_
      rw [hfirst]
      split
      · rfl
      · exact hothers q ‹_›
    · rename_i hl
      exact .refused hp.orderly (hp.samples_of_not_nodup hl)

end Recorder

def Sample.replay (shape : Shape) (xs : List α) (y? : Option (Sample α)) : Option (Sample α) :=
  xs.foldl (fun y? x => some ((y?.getD (.initial shape)).record shape x)) y?

theorem Sample.replay_ne_none (shape : Shape) {xs : List α} (h : xs ≠ []) :
    replay shape xs none ≠ none := by
  have later (xs : List α) (y : Sample α) : replay shape xs (some y) ≠ none := by
    induction xs generalizing y with
    | nil => exact Option.some_ne_none y
    | cons x xs ih => exact ih _
  cases xs with
  | nil => exact absurd rfl h
  | cons x xs => exact later xs _

theorem Sample.replay_counter (xs : List α) (y : α) :
    replay .counter xs (some (.number y)) = some (.number (xs.foldl (· + ·) y)) := by
  induction xs generalizing y with
  | nil => rfl
  | cons x xs ih => exact ih (y + x)

theorem Sample.replay_counter_none {xs : List α} {y : Sample α}
    (h : replay .counter xs none = some y) : y = .number (Scalar.sum xs) := by
  cases xs with
  | nil => cases h
  | cons x xs => exact (Option.some.inj ((replay_counter xs (0 + x)).symm.trans h)).symm

theorem Sample.replay_gauge_none (xs : List α) :
    replay .gauge xs none = xs.getLast?.map .number := by
  have last (xs : List α) (y : α) :
      replay .gauge xs (some (.number y)) = some (.number (xs.getLast?.getD y)) := by
    induction xs generalizing y with
    | nil => rfl
    | cons x xs ih =>
      rw [List.getLast?_cons]
      exact ih x
  cases xs with
  | nil => rfl
  | cons x xs =>
    rw [List.getLast?_cons]
    exact last xs x

end

theorem ordered_eq_iff {xs ys : List (String × String)} (h : (xs.map Prod.fst).Nodup) :
    ordered xs = ordered ys ↔ xs.Perm ys := by
  have hxs : (ordered xs).Perm xs := List.mergeSort_perm xs _
  have hys : (ordered ys).Perm ys := List.mergeSort_perm ys _
  have le_iff (a b : String × String) : (!decide (b.1 < a.1)) = true ↔ a.1 ≤ b.1 := by
    rw [Bool.not_eq_true', decide_eq_false_iff_not, not_lt]
  have trans (a b c : String × String) :
      (!decide (b.1 < a.1)) → (!decide (c.1 < b.1)) → !decide (c.1 < a.1) := by
    rw [le_iff, le_iff, le_iff]
    exact le_trans
  have total (a b : String × String) : !decide (b.1 < a.1) || !decide (a.1 < b.1) := by
    rw [Bool.or_eq_true, le_iff, le_iff]
    exact le_total a.1 b.1
  constructor
  · exact fun he => hxs.symm.trans (he ▸ hys)
  · intro hp
    refine mergeSort_eq_of_pairwise trans total (hys.trans hp.symm) ?_
    have hsorted := List.pairwise_mergeSort trans total ys
    have hnames : (ordered ys).Pairwise fun a b => a.1 ≠ b.1 :=
      List.pairwise_map.1 (((hys.trans hp.symm).map Prod.fst).nodup_iff.2 h)
    refine (hsorted.and hnames).imp fun {a b} ⟨hab, hne⟩ => ⟨hab, ?_⟩
    rw [le_iff] at hab ⊢
    exact not_le.2 (lt_of_le_of_ne hab hne)

theorem eq_of_zip_perm {labels v w : List String} (hl : labels.Nodup)
    (hv : v.length = labels.length) (hw : w.length = labels.length)
    (h : (labels.zip v).Perm (labels.zip w)) : v = w := by
  induction labels generalizing v w with
  | nil => rw [List.length_eq_zero_iff.1 hv, List.length_eq_zero_iff.1 hw]
  | cons l labels ih =>
    obtain ⟨hmem, hl⟩ := List.nodup_cons.1 hl
    obtain ⟨a, v, rfl⟩ := List.exists_cons_of_length_eq_add_one hv
    obtain ⟨b, w, rfl⟩ := List.exists_cons_of_length_eq_add_one hw
    rw [List.zip_cons_cons, List.zip_cons_cons] at h
    have hab : a = b := by
      rcases List.mem_cons.1 (h.subset (.head _)) with hab | hab
      · exact (Prod.mk.inj hab).2
      · exact absurd (List.of_mem_zip hab).1 hmem
    subst hab
    rw [ih hl (Nat.succ.inj hv) (Nat.succ.inj hw) (List.perm_cons _ |>.1 h)]

theorem Recorder.IsOrderly.eq_of_mark {r : Recorder α} (h : r.IsOrderly) {p q : Place}
    (hp : p ∈ Assoc.keys r.samples) (hq : q ∈ Assoc.keys r.samples) (hm : p.mark = q.mark) :
    p = q := by
  obtain ⟨⟨p, x⟩, hx, rfl⟩ := List.mem_map.1 hp
  obtain ⟨⟨q, y⟩, hy, rfl⟩ := List.mem_map.1 hq
  obtain ⟨s, hs, hfor, hx⟩ := mem_samples.1 hx
  obtain ⟨t, ht, hfor', hy⟩ := mem_samples.1 hy
  obtain ⟨hnodup, hv⟩ := h.labelled s hs _ hx
  have hw := (h.labelled t ht _ hy).2
  obtain ⟨hshape, hmetric, hlabels⟩ := Series.isFor_iff.1 hfor
  obtain ⟨hshape', hmetric', hlabels'⟩ := Series.isFor_iff.1 hfor'
  simp only [Place.mark, Mark.mk.injEq] at hm
  obtain ⟨hms, hmm, hml⟩ := hm
  obtain rfl : s = t := h.eq_of_metric hs ht (hshape.trans (hms.trans hshape'.symm))
    (hmetric.trans (hmm.trans hmetric'.symm))
  rw [← hlabels, ← hlabels', ordered_eq_iff (by rwa [List.map_fst_zip hv.ge])] at hml
  exact Place.ext hms hmm (hlabels.symm.trans hlabels') (eq_of_zip_perm hnodup hv hw hml)

theorem Recorder.IsOrderly.nodup_marks {r : Recorder α} (h : r.IsOrderly) :
    ((Assoc.keys r.samples).map Place.mark).Nodup :=
  h.nodup_samples.map_on fun _ hp _ hq => h.eq_of_mark hp hq

/-- What is exported besides comments are the samples. -/
theorem Recorder.IsOrderly.mem_lines {r : Recorder Float} (h : r.IsOrderly) {lines : List String}
    (hr : r.lines = .ok lines) (line : String) :
    line ∈ lines ↔ (∃ s ∈ r.series, line ∈ s.lines.take 2) ∨
      ∃ p ∈ r.samples, line ∈ p.1.lines r.space p.2 := by
  have hseries : ∀ s ∈ r.series, s.lines = s.lines.take 2 ++
      s.placed.flatMap fun p => p.1.lines r.space p.2 := by
    intro s hs
    simp only [Series.placed, List.flatMap_map, Place.lines, Prod.map, Series.place]
    rw [← h.named s hs]
    rfl
  simp only [Recorder.lines] at hr
  split at hr
  · cases hr
    rw [List.mem_flatMap]
    constructor
    · rintro ⟨s, hs, hl⟩
      rw [hseries s hs, List.mem_append, List.mem_flatMap] at hl
      rcases hl with hl | ⟨p, hp, hl⟩
      · exact .inl ⟨s, hs, hl⟩
      · exact .inr ⟨p, List.mem_flatMap.2 ⟨s, hs, hp⟩, hl⟩
    · rintro (⟨s, hs, hl⟩ | ⟨p, hp, hl⟩)
      · exact ⟨s, hs, List.mem_of_mem_take hl⟩
      · obtain ⟨s, hs, hp⟩ := List.mem_flatMap.1 hp
        refine ⟨s, hs, ?_⟩
        rw [hseries s hs]
        exact List.mem_append_right _ (List.mem_flatMap.2 ⟨p, hp, hl⟩)
  · cases hr

end TagRank.Metrics
