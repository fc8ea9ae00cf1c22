import TagRank.Store.Basic
import TagRank.Token.Given

namespace TagRank

namespace Occurrence

/-- The part-of-speech tags of a row are written as JSON and read back from it; here they are
kept as they are. -/
def ofToken (document : String) (sentence : Int) (t : Token) : Except Error Occurrence := do
  return ⟨document, (← t.tag).key, { t with sentence }⟩

def isSamePlace (o p : Occurrence) : Bool :=
  o.document == p.document && o.token.sentence == p.token.sentence &&
    o.token.order == p.token.order

end Occurrence

/-- A row as it is handed to the store, with what in it has no encoding. -/
structure Row where
  occurrence : Occurrence
  torn? : Option TornText

namespace Row

def ofSentences (document : String) (sentences : List GivenSentence) :
    Except Error (List Row) := do
  let rows ← sentences.mapM fun s => s.tokens.mapM fun t => do
    return ⟨← Occurrence.ofToken document s.index t.legible, t.torn?⟩
  return rows.flatten

/-- The columns of a row are bound one after the other: the place, the texts, and the offsets. -/
def check (r : Row) : Except Error Unit := do
  Store.checkFits r.occurrence.token.sentence
  Store.checkFits r.occurrence.token.order
  r.torn?.forM fun t => throw (.unencodable t)
  Store.checkFits r.occurrence.token.start
  Store.checkFits r.occurrence.token.stop

end Row

def isLexLe : List Int → List Int → Bool
  | [], _ => true
  | _ :: _, [] => false
  | x :: xs, y :: ys => x < y || (x == y && isLexLe xs ys)

namespace Store

def withoutTokens (document : String) (s : Store) : Store :=
  { s with occurrences := s.occurrences.filter (·.document != document) }

def withoutEdges (document : String) (s : Store) : Store :=
  { s with edges := s.edges.filter (·.document != document) }

def countEdges (s : Store) (document : String) : Nat :=
  (s.edges.filter (·.document == document)).length

/-- A new occurrence takes the place of the one that stood there. -/
def putOccurrence (o : Occurrence) (s : Store) : Store :=
  { s with occurrences := s.occurrences.filter (!·.isSamePlace o) ++ [o] }

def putRows : List Row → Store → Except Error Store
  | [], s => return s
  | r :: rs, s => do
    r.check
    putRows rs (s.putOccurrence r.occurrence)

def tokensOf (s : Store) (document : String) : List Token :=
  (s.occurrences.filter (·.document == document)).map Occurrence.token

def sentencesOf (s : Store) (document : String) : List (List Token) :=
  let place (t : Token) := [t.sentence, t.start, t.order]
  ((s.tokensOf document).mergeSort fun t u => isLexLe (place t) (place u)).splitBy
    fun t u => t.sentence == u.sentence

def occurrencesOf (s : Store) (document : String) (tags : List String) : List Occurrence :=
  let place (o : Occurrence) := [o.token.start, o.token.sentence, o.token.order]
  (s.occurrences.filter fun o => o.document == document && tags.contains o.tag).mergeSort
    fun o p => isLexLe (place o) (place p)

end Store

end TagRank
