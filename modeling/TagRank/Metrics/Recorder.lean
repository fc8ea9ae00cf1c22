import TagRank.Metrics.Series

/-!
The recorder of metrics: all series, in the order in which they were first needed.
-/

namespace TagRank.Metrics

structure Recorder (α : Type) where
  enabled : Bool
  space : String
  exporting : Bool
  series : List (Series α)

namespace Recorder

variable {α : Type} [Scalar α]

def new (enabled : Bool) (space : String) (exporting : Bool) : Recorder α :=
  let space := Text.trim space
  ⟨enabled, if space = "" then "keygraph" else space, exporting, []⟩

def register (shape : Shape) (metric : String) (labels : List String) (r : Recorder α) :
    Except Error (Recorder α) :=
  let family := familyName shape (metricName r.space metric)
  if metricName r.space metric = "" ∨ !labels.all (Series.isLabelAllowed shape) then
    throw .badSeriesName
  else if (claims shape family).any fun n => r.series.any fun s => s.claims.contains n then
    throw .duplicateSeries
  else return { r with series := r.series ++ [.new shape metric family labels] }

def withSeries (shape : Shape) (metric : String) (labels : List String) (r : Recorder α) :
    Except Error (Recorder α) :=
  if r.series.any (Series.isFor shape metric labels) then return r
  else r.register shape metric labels

/-- Records an observation under tags, given in the order of their names. A series stays registered
even when two of its tags turn out to have one label. -/
def observe (shape : Shape) (metric : String) (tags : List (String × String)) (x : α)
    (r : Recorder α) : Recorder α × Except Error Unit :=
  if !r.exporting then (r, .ok ())
  else
    let labels := tags.map fun t => labelName t.1
    match r.withSeries shape metric labels with
    | .error e => (r, .error e)
    | .ok r =>
      if labels.Nodup then
        let update (s : Series α) :=
          if s.isFor shape metric labels then s.record (tags.map Prod.snd) x else s
        ({ r with series := r.series.map update }, .ok ())
      else (r, .error .badSeriesName)

end Recorder

end TagRank.Metrics
