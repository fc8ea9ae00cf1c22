import TagRank.Error
import TagRank.Log
import TagRank.Text.Blank

namespace TagRank

structure Tag where
  value : String
  language : String
  value_ne : value ≠ ""
  language_plain : '_' ∉ language.toList
  deriving DecidableEq

namespace Tag

def make (value language : String) : Except Error Tag :=
  if hv : value = "" then throw .emptyTag
  else if hl : '_' ∈ language.toList then throw (.separatorInLanguage language)
  else return ⟨value, language, hv, hl⟩

def key (t : Tag) : String := t.value ++ "_" ++ t.language

end Tag

namespace Key

def parts (key : String) : List String := Text.splitAt '_' key

def separators (key : String) : Nat := (parts key).length - 1

/-- The text before the first separator and the text after the last one. -/
def split (key : String) : String × String :=
  match parts key with
  | [] => ("", "")
  | [value] => (value, "")
  | value :: more => (value, more.getLastD "")

def value (key : String) : String := (split key).1

def language (key : String) : String := (split key).2

def ofWords (words : List String) (language : String) : String :=
  Text.join " " words ++ "_" ++ language

def isAmbiguous (key : String) : Bool := 1 < separators key

def warnings (key : String) : List Log.Line :=
  if isAmbiguous key then
    let count := separators key
    [⟨.warning, "identity", s!"identity.malformed key={key} separators={count}"⟩]
  else []

end Key

def Tag.ofKey (key : String) : Except Error Tag := Tag.make (Key.split key).1 (Key.split key).2

end TagRank
