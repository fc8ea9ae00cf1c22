import TagRank.Store.Basic

namespace TagRank

namespace Edge

def single (document relation field first second : String) : Edge :=
  if second < first then ⟨document, relation, field, second, first, 1⟩
  else ⟨document, relation, field, first, second, 1⟩

def isSame (e f : Edge) : Bool :=
  e.document == f.document && e.relation == f.relation && e.field == f.field && e.a == f.a &&
    e.b == f.b

/-- Makes the edge, or adds its weight to the one that is there. -/
def add (e : Edge) : List Edge → List Edge
  | [] => [e]
  | f :: fs => if f.isSame e then { f with weight := f.weight + e.weight } :: fs else f :: add e fs

end Edge

namespace Store

def upsertEdge (document relation field first second : String) (s : Store) :
    Except Error Store := do
  s.requireDocument document
  return { s with edges := Edge.add (.single document relation field first second) s.edges }

def edgesOf (s : Store) (document relation : String) (field : Option String) : List Edge :=
  s.edges.filter fun e =>
    e.document == document && e.relation == relation && (field.all (· == e.field))

def removeEdges (document relation : String) (s : Store) : Store :=
  { s with edges := s.edges.filter fun e => !(e.document == document && e.relation == relation) }

end Store

end TagRank
