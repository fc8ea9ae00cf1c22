import TagRank.Text.Blank
import TagRank.Text.Case
import TagRank.WordSet

/-!
Stopwords and the filter that knows them. Words are kept trimmed and folded, so that a text is
compared with them once it is folded.
-/

namespace TagRank

inductive WordSource
  | line (s : String)
  | words (ws : List String)

namespace WordSource

def items : Option WordSource → List String
  | none => []
  | some (line s) => Text.splitAt ',' s
  | some (words ws) => ws

end WordSource

namespace Stopword

def normalize (w : String) : String := Text.fold (Text.trim w)

def parse (source : Option WordSource) : List String :=
  WordSet.ofList (((WordSource.items source).map normalize).filter (· != ""))

def defaults : List String :=
  WordSet.ofList ["new", "old", "large", "big", "small", "many", "few"]

end Stopword

structure Filter where
  words : List String
  enabled : Bool
  deriving DecidableEq

namespace Filter

def default : Filter := ⟨Stopword.defaults, false⟩

/-- Words that a user gives enable the filter unless `enabled` says otherwise; without any word the
default ones stand, disabled. -/
def ofStopwords (source : Option WordSource) (enabled : Option Bool) : Filter :=
  match Stopword.parse source with
  | [] => ⟨Stopword.defaults, enabled.getD false⟩
  | words => ⟨words, enabled.getD true⟩

def isStopword (f : Filter) (value : String) : Bool :=
  f.enabled && f.words.contains (Text.fold value)

def withEnabled (f : Filter) (enabled : Bool) : Filter := { f with enabled }

end Filter

end TagRank
