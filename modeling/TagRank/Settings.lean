import TagRank.Decimal.Reader
import TagRank.Stopword.File

namespace TagRank

structure Settings where
  storePath : String := "data/keygraph.sqlite"
  relationKind : String := "CO_OCCURRENCE"
  weightField : String := "weight"
  iterations : Int := 30
  damping : Float := 0.85
  tolerance : Float := 1e-6
  kernel : String := "power"
  topNodes : Int := 10
  wordLimit : Int := 8
  stopwords : Option String := none
  stopwordsPath : Option String := none
  removeStopwords : Option Bool := none
  flushTrailing : Bool := false
  policy : String := "create"
  metricsEnabled : Bool := true
  metricsNamespace : String := "keygraph"
  exportEnabled : Bool := false
  logLevel : String := "INFO"

abbrev Environment := List (String × String)

namespace Environment

def text (env : Environment) (name default : String) : String := (env.lookup name).getD default

def bool? (env : Environment) (name : String) : Except Error (Option Bool) :=
  match env.lookup name with
  | none => return none
  | some raw =>
    let word := Text.lower (Text.trim raw)
    if ["1", "true", "yes", "on"].contains word then return some true
    else if ["0", "false", "no", "off"].contains word then return some false
    else throw (.environmentBool name)

def bool (env : Environment) (name : String) (default : Bool) : Except Error Bool :=
  return (← env.bool? name).getD default

/-- A blank variable counts as not set. -/
def given? (env : Environment) (name : String) : Option String :=
  ((env.lookup name).map Text.trim).filter (· != "")

def int (env : Environment) (name : String) (default : Int) : Except Error Int :=
  match env.given? name with
  | none => return default
  | some s => match Decimal.readInt s with
    | .ok i => return i
    | .error _ => throw (.environmentInt name)

def float (env : Environment) (name : String) (default : Float) : Except Error Float :=
  match env.given? name with
  | none => return default
  | some s => match Decimal.readFloat? s with
    | some x => return x
    | none => throw (.environmentFloat name)

def word (env : Environment) (name default : String) : String :=
  Text.lower (Text.trim (env.text name default))

end Environment

namespace Settings

def default : Settings := {}

/-- The settings of an environment. The first variable with a bad value decides; the one for metrics
is looked at before all others. -/
def ofEnvironment (env : Environment) : Except Error Settings := do
  let metricsEnabled ← env.bool "OBSERVABILITY_METRICS_ENABLED" default.metricsEnabled
  let iterations ← env.int "TEXTRANK_ITERATIONS" default.iterations
  let damping ← env.float "TEXTRANK_DAMPING" default.damping
  let tolerance ← env.float "TEXTRANK_TOLERANCE" default.tolerance
  let topNodes ← env.int "TEXTRANK_TOP_NODES" default.topNodes
  let wordLimit ← env.int "KEYWORD_SINGLE_WORD_LIMIT" default.wordLimit
  let removeStopwords ← env.bool? "KEYWORD_REMOVE_STOPWORDS"
  let flushTrailing ← env.bool "KEYWORD_FLUSH_TRAILING_PHRASE" default.flushTrailing
  let exportEnabled ← env.bool "OBSERVABILITY_PROMETHEUS_ENABLED" default.exportEnabled
  return {
    storePath := env.text "GRAPH_DB_PATH" default.storePath
    relationKind := env.text "COOCCURRENCE_RELATION_KIND" default.relationKind
    weightField := env.text "COOCCURRENCE_WEIGHT_FIELD" default.weightField
    iterations := max 1 iterations
    damping, tolerance
    kernel := env.word "TEXTRANK_KERNEL" default.kernel
    topNodes := max 1 topNodes
    wordLimit := max 0 wordLimit
    stopwords := env.lookup "KEYWORD_STOPWORDS"
    stopwordsPath := env.lookup "KEYWORD_STOPWORDS_PATH"
    removeStopwords, flushTrailing
    policy := env.word "KEYWORD_ASSOCIATION_POLICY" default.policy
    metricsEnabled
    metricsNamespace := env.text "OBSERVABILITY_NAMESPACE" default.metricsNamespace
    exportEnabled
    logLevel := Text.upper (Text.trim (env.text "KEYGRAPH_LOG_LEVEL" default.logLevel)) }

def stopwordSet (files : Files) (s : Settings) : Except Error (List String) := do
  let own := Stopword.parse (s.stopwords.map .line)
  match s.stopwordsPath.filter (· != "") with
  | none => return own
  | some path => return WordSet.union (← Stopword.load files path) own

def filter (files : Files) (s : Settings) : Except Error Filter := do
  return .ofStopwords (some (.words (← s.stopwordSet files))) s.removeStopwords

end Settings

end TagRank
