import TagRank.Tag
import TagRank.Text.Case
import TagRank.WordSet

namespace TagRank

structure Token where
  text : String
  pos : List String
  start : Int
  stop : Int
  sentence : Int
  order : Int
  language : String
  deriving DecidableEq

structure Sentence where
  index : Int
  tokens : List Token
  deriving DecidableEq

namespace Token

def defaultLanguage : String := "en"

def normalized (t : Token) : String := Text.fold (Text.trim t.text)

def tag (t : Token) : Except Error Tag := Tag.make t.normalized t.language

def qualifyingTags : List String := ["NN", "NNS", "NNP", "NNPS", "JJ", "JJR", "JJS"]

/-- A noun or adjective of more than two characters. -/
def isCandidate (t : Token) : Bool :=
  2 < t.normalized.length && t.pos.any (qualifyingTags.contains ·)

def candidates (ts : List Token) : List Token := ts.filter isCandidate

end Token

def neighbours {α : Type} : List α → List (α × α)
  | [] => []
  | [_] => []
  | x :: y :: r => (x, y) :: neighbours (y :: r)

end TagRank
