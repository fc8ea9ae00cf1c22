import TagRank.Decimal.Binary
import TagRank.Token.Basic

/-!
The store: registered documents, the occurrences of tags in them, weighted edges between the tags of
one document, keywords, and which keywords describe which documents.
-/

namespace TagRank

structure Occurrence where
  document : String
  tag : String
  token : Token
  deriving DecidableEq

/-- An undirected edge; its ends are in order. -/
structure Edge where
  document : String
  relation : String
  field : String
  a : String
  b : String
  weight : Nat
  deriving DecidableEq

structure Keyword where
  id : String
  value : String
  deriving DecidableEq

structure Association where
  id : Nat
  keyword : String
  document : String
  count : Int
  deriving DecidableEq

structure Store where
  documents : List String
  occurrences : List Occurrence
  edges : List Edge
  keywords : List Keyword
  associations : List Association
  deriving DecidableEq

namespace Store

def empty : Store := ⟨[], [], [], [], []⟩

def hasDocument (s : Store) (id : String) : Bool := s.documents.contains id

def addDocument (id : String) (s : Store) : Store :=
  if s.hasDocument id then s else { s with documents := s.documents ++ [id] }

def checkFits (i : Int) : Except Error Unit :=
  if Decimal.fitsWord i then return () else throw .intBeyondStore

def requireDocument (s : Store) (id : String) : Except Error Unit :=
  if s.hasDocument id then return () else throw .brokenReference

end Store

end TagRank
