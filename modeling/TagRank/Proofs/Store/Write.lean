import Mathlib.Data.List.Infix
import Mathlib.Logic.Relation
import TagRank.Proofs.Store.Keyword
import TagRank.Proofs.Store.Occurrence

namespace TagRank

namespace Store

def linked (document relation field first second : String) (s : Store) : Store :=
  { s with edges := Edge.add (.single document relation field first second) s.edges }

def associated (keyword document : String) (count : Int) (s : Store) : Store :=
  { s with associations := s.associations ++ [⟨s.nextAssociation, keyword, document, count⟩] }

def recounted (a : Association) (count : Int) (s : Store) : Store :=
  { s with
    associations := s.associations.map fun b => if b.id = a.id then { b with count } else b }

/-- One change, about a document with `P` or about none. -/
inductive Write (P : String → Prop) : Store → Store → Prop
  | register {document} (s : Store) : P document → Write P s (s.addDocument document)
  | replace {document rows s} : P document → s.hasDocument document = true →
      (∀ o ∈ rows, o.Belongs document) → Write P s (s.replaced document rows)
  | link {document s} (relation field first second : String) : P document →
      s.hasDocument document = true → Write P s (s.linked document relation field first second)
  | unlink {document} (relation : String) (s : Store) : P document →
      Write P s (s.removeEdges document relation)
  | name {id s} (value : String) : s.keyword? id = none →
      Write P s { s with keywords := s.keywords ++ [⟨id, value⟩] }
  | associate {keyword document s} (count : Int) : P document → s.hasDocument document = true →
      (s.keyword? keyword).isSome = true → Write P s (s.associated keyword document count)
  | recount {a s} (count : Int) : P a.document → a ∈ s.associations →
      Write P s (s.recounted a count)

def Writes (P : String → Prop) : Store → Store → Prop := Relation.ReflTransGen (Write P)

variable {P : String → Prop} {s t u : Store}

theorem Write.writes (h : Write P s t) : s.Writes P t := .single h

theorem Writes.of_eq (h : t = s) : s.Writes P t := h ▸ .refl

theorem Writes.trans (h : s.Writes P t) (k : t.Writes P u) : s.Writes P u :=
  Relation.ReflTransGen.trans h k

def Numbered (s : Store) : Prop := Association.Numbered s.associations

/-- Keywords stay as they are, and associations keep their numbers and their order. -/
structure Grows (s t : Store) : Prop where
  keywords : s.keywords <+: t.keywords
  associations : s.associations.map Association.id <+: t.associations.map Association.id

theorem Grows.refl (s : Store) : s.Grows s := ⟨List.prefix_rfl, List.prefix_rfl⟩

theorem Grows.trans (h : s.Grows t) (k : t.Grows u) : s.Grows u :=
  ⟨h.keywords.trans k.keywords, h.associations.trans k.associations⟩

theorem Write.grows (h : Write P s t) : s.Grows t := by
  cases h with
  | register => exact ⟨by rw [addDocument_keywords], by rw [addDocument_associations]⟩
  | replace => exact ⟨List.prefix_rfl, List.prefix_rfl⟩
  | link => exact ⟨List.prefix_rfl, List.prefix_rfl⟩
  | unlink => exact ⟨List.prefix_rfl, List.prefix_rfl⟩
  | name => exact ⟨List.prefix_append _ _, List.prefix_rfl⟩
  | associate =>
    refine ⟨List.prefix_rfl, ?_⟩
    simp only [associated, List.map_append]
    exact List.prefix_append _ _
  | @recount a _ count =>
    refine ⟨List.prefix_rfl, ?_⟩
    have hid : Association.id ∘ (fun b => if b.id = a.id then { b with count } else b) =
        Association.id := by
      funext b
      simp only [Function.comp_apply]
      split <;> rfl
    rw [recounted, List.map_map, hid]

theorem Writes.grows (h : s.Writes P t) : s.Grows t := by
  induction h with
  | refl => exact .refl _
  | tail _ hw ih => exact ih.trans hw.grows

end Store

end TagRank
