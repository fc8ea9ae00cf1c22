import TagRank.Json.Reader
import TagRank.Json.Writer
import TagRank.Store.Basic

namespace TagRank

def rows? {α : Type} (row? : List Json → Option α) : Json → Option (List α)
  | .list vs => vs.mapM fun v => match v with
    | .list cells => row? cells
    | _ => none
  | _ => none

def text? : Json → Option String
  | .text s => some s
  | _ => none

def texts? : Json → Option (List String)
  | .list vs => vs.mapM text?
  | _ => none

namespace Occurrence

def toRow (o : Occurrence) : Json :=
  let t := o.token
  .list [.text o.document, .text o.tag, .text t.text, .list (t.pos.map .text), .int t.start,
    .int t.stop, .int t.sentence, .int t.order, .text t.language]

def ofRow? : List Json → Option Occurrence
  | [.text document, .text tag, .text text, pos, .int start, .int stop, .int sentence, .int order,
      .text language] => do
    return ⟨document, tag, text, ← texts? pos, start, stop, sentence, order, language⟩
  | _ => none

end Occurrence

namespace Edge

def toRow (e : Edge) : Json :=
  .list [.text e.document, .text e.relation, .text e.field, .text e.a, .text e.b, .int e.weight]

def ofRow? : List Json → Option Edge
  | [.text document, .text relation, .text field, .text a, .text b, .int weight] =>
    some ⟨document, relation, field, a, b, weight.toNat⟩
  | _ => none

end Edge

namespace Keyword

def toRow (k : Keyword) : Json := .list [.text k.id, .text k.value]

def ofRow? : List Json → Option Keyword
  | [.text id, .text value] => some ⟨id, value⟩
  | _ => none

end Keyword

namespace Association

def toRow (a : Association) : Json :=
  .list [.int a.id, .text a.keyword, .text a.document, .int a.count]

def ofRow? : List Json → Option Association
  | [.int id, .text keyword, .text document, .int count] =>
    some ⟨id.toNat, keyword, document, count⟩
  | _ => none

end Association

namespace Store

def toJson (s : Store) : Json := .object [
  ("documents", .list (s.documents.map .text)),
  ("occurrences", .list (s.occurrences.map Occurrence.toRow)),
  ("edges", .list (s.edges.map Edge.toRow)),
  ("keywords", .list (s.keywords.map Keyword.toRow)),
  ("associations", .list (s.associations.map Association.toRow))]

def ofJson? (v : Json) : Option Store := do
  return {
    documents := ← (v.field? "documents").bind texts?
    occurrences := ← (v.field? "occurrences").bind (rows? Occurrence.ofRow?)
    edges := ← (v.field? "edges").bind (rows? Edge.ofRow?)
    keywords := ← (v.field? "keywords").bind (rows? Keyword.ofRow?)
    associations := ← (v.field? "associations").bind (rows? Association.ofRow?) }

def toText (s : Store) : String := s.toJson.render

def ofText? (text : String) : Option Store := (Json.read text).toOption.bind ofJson?

end Store

end TagRank
