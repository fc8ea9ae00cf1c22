import TagRank.Decimal.Format
import TagRank.Metrics.Recorder

namespace TagRank.Metrics

def typeName : Shape → String
  | .counter => "counter"
  | .gauge => "gauge"
  | .histogram => "histogram"

def writtenName (name : String) : String :=
  match name.toList with
  | c :: cs => if c.isDigit then String.ofList ('_' :: cs) else name
  | [] => name

def dropTrailing (p : Char → Bool) (cs : List Char) : List Char := (cs.reverse.dropWhile p).reverse

def numberText (x : Float) : String :=
  if x.isNaN then "NaN"
  else if x.isInf then (if x < 0 then "-Inf" else "+Inf")
  else
    let s := Decimal.shortest x
    let cs := s.toList
    let whole := cs.takeWhile (· != '.')
    if 0 < x && cs.contains '.' && 6 < whole.length then
      let mantissa := whole.take 1 ++ ['.'] ++ whole.drop 1 ++ cs.drop (whole.length + 1)
      let power := whole.length - 1
      String.ofList (dropTrailing (fun c => c == '0' || c == '.') mantissa) ++
        Decimal.exponentText power
    else s

def escapeDocument (s : String) : String :=
  String.ofList (s.toList.flatMap fun c =>
    if c = '\\' then ['\\', '\\'] else if c = '\n' then ['\\', 'n'] else [c])

def escapeValue (s : String) : String :=
  String.ofList ((escapeDocument s).toList.flatMap fun c => if c = '"' then ['\\', '"'] else [c])

def labelText (labels : List (String × String)) : String :=
  let sorted := labels.mergeSort fun a b => !(b.1 < a.1)
  let written := sorted.map fun (name, value) =>
    writtenName name ++ "=\"" ++ escapeValue value ++ "\""
  if labels.isEmpty then "" else "\x7b" ++ Text.join "," written ++ "\x7d"

def sampleLine (name : String) (labels : List (String × String)) (value : Float) : String :=
  writtenName name ++ labelText labels ++ " " ++ numberText value

def boundTexts : List String :=
  bounds.map (fun n => numberText (Float.ofScientific n true 3)) ++ ["+Inf"]

def cumulate (total : Nat) : List Nat → List Nat
  | [] => []
  | n :: ns => (total + n) :: cumulate (total + n) ns

def Sample.lines (family : String) (shape : Shape) (labels : List (String × String)) :
    Sample Float → List String
  | .number x => [sampleLine (if shape = .counter then family ++ "_total" else family) labels x]
  | .spread counts sum =>
    let totals := cumulate 0 counts
    (boundTexts.zip totals).map (fun (bound, n) =>
      sampleLine (family ++ "_bucket") (labels ++ [("le", bound)]) n.toFloat) ++
    [sampleLine (family ++ "_count") labels (totals.getLastD 0).toFloat,
      sampleLine (family ++ "_sum") labels sum]

def Series.lines (s : Series Float) : List String :=
  let name := writtenName (if s.shape = .counter then s.family ++ "_total" else s.family)
  ["# HELP " ++ name ++ " " ++ escapeDocument (s.metric ++ " " ++ s.shape.description),
    "# TYPE " ++ name ++ " " ++ typeName s.shape] ++
  s.samples.flatMap fun (values, sample) => sample.lines s.family s.shape (s.labels.zip values)

def Recorder.lines (r : Recorder Float) : Except Error (List String) :=
  if r.exporting then return r.series.flatMap Series.lines else throw .exportDisabled

def stableLines (lines : List String) : List String :=
  let isMeasured (line : String) :=
    let name := line.toList.takeWhile fun c => c != ' ' && c != '\x7b'
    "duration_bucket".toList.isSuffixOf name || "duration_sum".toList.isSuffixOf name
  lines.filter fun line => !isMeasured line

end TagRank.Metrics
