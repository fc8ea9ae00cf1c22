import TagRank.Error
import TagRank.Files
import TagRank.Stopword.Filter
import TagRank.Yaml.Value

namespace TagRank.Stopword

open Yaml (Value)

def wordsOf? : Value → Option (List String)
  | .null => some []
  | .map ps =>
    match (Value.field? "stopwords" ps).filter Value.isGiven with
    | none => some []
    | some (.text s) => some (parse (some (.line s)))
    | some (.list xs) => some (ofItems xs)
    | some _ => none
  | .text s => some (parse (some (.line s)))
  | .list xs => some (ofItems xs)
  | _ => none
where
  ofItems (xs : List Value) : List String :=
    parse (some (.words ((xs.filter fun | .null => false | _ => true).map Value.spoken)))

def ofText (path text : String) : Except Error (List String) :=
  match Value.ofText text with
  | .error .malformed => throw (.stopwordSyntax (cleanPath path))
  | .error (.fault e) => throw e
  | .ok v => match wordsOf? v with
    | some words => return words
    | none => throw (.stopwordShape (cleanPath path))

/-- The words of a file; a file that is not there has none. -/
def load (files : Files) (path : String) : Except Error (List String) :=
  match files.read? path with
  | none => return []
  | some text => ofText path text

end TagRank.Stopword
