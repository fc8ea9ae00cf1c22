import TagRank.Store.Basic

namespace TagRank.Store

def keyword? (s : Store) (id : String) : Option Keyword := s.keywords.find? (·.id == id)

def addKeyword (id value : String) (s : Store) : Bool × Store :=
  if (s.keyword? id).isSome then (false, s)
  else (true, { s with keywords := s.keywords ++ [⟨id, value⟩] })

def requireKeyword (s : Store) (id : String) : Except Error Unit :=
  if (s.keyword? id).isSome then return () else throw .brokenReference

def nextAssociation (s : Store) : Nat := s.associations.length + 1

def createAssociation (keyword document : String) (count : Int) (s : Store) :
    Except Error (Association × Store) := do
  checkFits count
  s.requireKeyword keyword
  s.requireDocument document
  let a := ⟨s.nextAssociation, keyword, document, count⟩
  return (a, { s with associations := s.associations ++ [a] })

/-- The first association of a keyword with a document. -/
def oldestAssociation? (s : Store) (keyword document : String) : Option Association :=
  s.associations.find? fun a => a.keyword == keyword && a.document == document

def setCount (a : Association) (count : Int) (s : Store) : Except Error (Association × Store) := do
  checkFits count
  let set (b : Association) := if b.id = a.id then { b with count } else b
  return ({ a with count }, { s with associations := s.associations.map set })

def associationsOf (s : Store) (document : String) : List Association :=
  s.associations.filter (·.document == document)

end TagRank.Store
