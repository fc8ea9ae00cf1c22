import TagRank.Error
import TagRank.Scalar
import TagRank.Text.Blank

namespace TagRank.Metrics

inductive Shape
  | counter
  | gauge
  | histogram
  deriving DecidableEq

def Shape.description : Shape → String
  | .counter => "counter"
  | .gauge => "gauge"
  | .histogram => "duration"

def plain (s : String) : String :=
  String.ofList (s.toList.map fun c => if c.isAlphanum then c else '_')

def labelName (tag : String) : String := if tag = "" then "label" else plain tag

def isUnderscore (c : Char) : Bool := c == '_'

def metricName (space metric : String) : String :=
  let cs := (plain space ++ "_" ++ plain metric).toList.dropWhile isUnderscore
  String.ofList (cs.reverse.dropWhile isUnderscore).reverse

def familyName (shape : Shape) (name : String) : String :=
  let ending := "_total".toList
  let cs := name.toList
  if shape = .counter && ending.isSuffixOf cs then
    String.ofList (cs.take (cs.length - ending.length))
  else name

/-- The names that a series claims: its own and those of its parts. -/
def claims (shape : Shape) (family : String) : List String :=
  family :: (match shape with
    | .counter => ["_total", "_created"]
    | .gauge => []
    | .histogram => ["_bucket", "_sum", "_count", "_created"]).map (family ++ ·)

/-- Upper bounds of the histogram buckets in thousandths; a last bucket has no bound. -/
def bounds : List Nat := [5, 10, 25, 50, 75, 100, 250, 500, 750, 1000, 2500, 5000, 7500, 10000]

inductive Sample (α : Type)
  | number (value : α)
  /-- How many observations fell into each bucket and into no lower one, and their sum. -/
  | spread (counts : List Nat) (sum : α)

section

variable {α : Type} [Scalar α]

def Sample.initial : Shape → Sample α
  | .histogram => .spread (List.replicate (bounds.length + 1) 0) 0
  | _ => .number 0

def bucket (x : α) : Nat :=
  bounds.findIdx fun (n : Nat) => decide (x ≤ (n : α) / ((1000 : Nat) : α))

def Sample.record (shape : Shape) (x : α) : Sample α → Sample α
  | .number y => .number (if shape = .gauge then x else y + x)
  | .spread counts sum => .spread (counts.modify (bucket x) (· + 1)) (sum + x)

end

structure Series (α : Type) where
  shape : Shape
  metric : String
  family : String
  labels : List String
  /-- Label values, in the order of `labels`, with their samples. -/
  samples : List (List String × Sample α)

namespace Series

variable {α : Type} [Scalar α]

def new (shape : Shape) (metric family : String) (labels : List String) : Series α :=
  ⟨shape, metric, family, labels, if labels.isEmpty then [([], .initial shape)] else []⟩

def claims (s : Series α) : List String := Metrics.claims s.shape s.family

def isLabelAllowed (shape : Shape) (label : String) : Bool :=
  !"__".toList.isPrefixOf label.toList && !(shape = .histogram && label = "le")

def isFor (shape : Shape) (metric : String) (labels : List String) (s : Series α) : Bool :=
  s.shape = shape && s.metric = metric && s.labels = labels

def record (values : List String) (x : α) (s : Series α) : Series α :=
  let sample := (s.samples.lookup values).getD (.initial s.shape)
  let recorded := sample.record s.shape x
  if s.samples.any (·.1 == values) then
    { s with samples := s.samples.map fun (v, y) => if v == values then (v, recorded) else (v, y) }
  else { s with samples := s.samples ++ [(values, recorded)] }

end Series

end TagRank.Metrics
