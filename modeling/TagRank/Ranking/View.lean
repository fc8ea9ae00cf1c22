import TagRank.Error
import TagRank.Assoc
import TagRank.Scalar
import TagRank.Store.Edge

/-!
The weighted view of a list of edges: an undirected simple graph. Nodes stand in the order of their
first mention, and so do the neighbours of a node.
-/

namespace TagRank

/-- The weights of a view are those of one weight field. -/
structure View (α : Type) where
  field : String
  rows : List (String × List (String × α))

namespace View

variable {α : Type} [Scalar α]

def nodes (v : View α) : List String := Assoc.keys v.rows

def row (v : View α) (node : String) : List (String × α) := Assoc.getD node [] v.rows

def addNode (node : String) (v : View α) : View α :=
  if Assoc.contains node v.rows then v else { v with rows := Assoc.insert node [] v.rows }

def link (a b : String) (weight : α) (v : View α) : View α :=
  { v with rows := Assoc.insert a (Assoc.insert b weight (v.row a)) v.rows }

def addEdge (a b : String) (weight : α) (v : View α) : View α :=
  (((v.addNode a).addNode b).link a b weight).link b a weight

def ofWeighted (field : String) (edges : List (String × String × α)) : View α :=
  edges.foldl (fun v (a, b, weight) => v.addEdge a b weight) ⟨field, []⟩

/-- Weight fields that no edge can have. -/
def reservedFields : List String := ["self", "u_of_edge", "v_of_edge"]

def ofWeighted? (field : String) (edges : List (String × String × α)) : Except Error (View α) :=
  if !edges.isEmpty && reservedFields.contains field then throw .reservedField
  else return ofWeighted field edges

def ofEdges (field : String) (edges : List Edge) : Except Error (View α) :=
  ofWeighted? field (edges.map fun e => (e.a, e.b, (e.weight : α)))

/-- The view as seen through a weight field; edges without that field weigh one. -/
def through (field : String) (v : View α) : View α :=
  if field = v.field then v
  else ⟨field, v.rows.map fun (a, ns) => (a, ns.map fun (b, _) => (b, 1))⟩

/-- The weights at a node; a loop counts once. -/
def strength (v : View α) (node : String) : α := Scalar.sum ((v.row node).map Prod.snd)

def size (v : View α) : Nat :=
  v.rows.foldl (fun n (a, ns) => n + ns.length + (ns.filter (·.1 == a)).length) 0 / 2

end View

abbrev Scores (α : Type) := List (String × α)

namespace Scores

variable {α : Type} [Scalar α]

def get (scores : Scores α) (node : String) : α := Assoc.getD node 0 scores

end Scores

end TagRank
