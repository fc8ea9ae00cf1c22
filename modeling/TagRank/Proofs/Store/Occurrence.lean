import TagRank.Proofs.Except
import TagRank.Store.Occurrence

namespace TagRank

namespace Occurrence

variable {document other : String} {o : Occurrence} {rows os : List Occurrence}

def place (os : List Occurrence) (o : Occurrence) : List Occurrence :=
  os.filter (!·.isSamePlace o) ++ [o]

def placeAll (rows os : List Occurrence) : List Occurrence := rows.foldl place os

theorem filter_place_of_eq (h : o.document = document) :
    (place os o).filter (·.document == document) =
      place (os.filter (·.document == document)) o := by
  simp only [place]
  rw [List.filter_append, List.filter_cons_of_pos (by simp [h]), List.filter_nil,
    List.filter_filter, List.filter_filter]
  congr 1
  apply List.filter_congr
  intro p _
  exact Bool.and_comm _ _

theorem filter_place_of_ne (h : o.document ≠ other) :
    (place os o).filter (·.document == other) = os.filter (·.document == other) := by
  simp only [place]
  rw [List.filter_append, List.filter_cons_of_neg (by simp [h]), List.filter_nil, List.append_nil,
    List.filter_filter]
  apply List.filter_congr
  intro p _
  by_cases hp : p.document = other
  · simp [isSamePlace, hp, Ne.symm h]
  · simp [hp]

theorem filter_placeAll_of_eq (h : ∀ o ∈ rows, o.document = document) :
    (placeAll rows os).filter (·.document == document) =
      placeAll rows (os.filter (·.document == document)) := by
  induction rows generalizing os with
  | nil => rfl
  | cons o rows ih =>
    obtain ⟨ho, h⟩ := List.forall_mem_cons.1 h
    simp only [placeAll] at ih ⊢
    rw [List.foldl_cons, List.foldl_cons, ih h, filter_place_of_eq ho]

theorem filter_placeAll_of_ne (h : ∀ o ∈ rows, o.document = document) (hne : document ≠ other) :
    (placeAll rows os).filter (·.document == other) = os.filter (·.document == other) := by
  induction rows generalizing os with
  | nil => rfl
  | cons o rows ih =>
    obtain ⟨ho, h⟩ := List.forall_mem_cons.1 h
    simp only [placeAll] at ih ⊢
    rw [List.foldl_cons, ih h, filter_place_of_ne (ho ▸ hne)]

structure Belongs (document : String) (o : Occurrence) : Prop where
  document : o.document = document
  tagged : o.token.tag.map Tag.key = .ok o.tag

theorem belongs_of_ofToken {sentence : Int} {t : Token} (h : ofToken document sentence t = .ok o) :
    o.Belongs document := by
  obtain ⟨g, hg, h⟩ := bind_eq_ok.1 h
  cases h
  exact ⟨rfl, map_eq_ok.2 ⟨g, hg, rfl⟩⟩

end Occurrence

theorem Row.belongs_of_ofSentences {document : String} {sentences : List GivenSentence}
    {rows : List Row} (h : ofSentences document sentences = .ok rows) :
    ∀ o ∈ rows.map Row.occurrence, o.Belongs document := by
  obtain ⟨rows', hr, h⟩ := bind_eq_ok.1 h
  cases h
  have hs : ∀ rs ∈ rows', ∀ r ∈ rs, Occurrence.Belongs document (Row.occurrence r) :=
    forall_of_mapM_ok (fun s rs hs => forall_of_mapM_ok (fun t r hr => by
      obtain ⟨o, ho, hr⟩ := bind_eq_ok.1 hr
      cases hr
      exact Occurrence.belongs_of_ofToken ho) hs) hr
  intro o ho
  obtain ⟨r, hr, rfl⟩ := List.mem_map.1 ho
  obtain ⟨rs, hrs, hr⟩ := List.mem_flatten.1 hr
  exact hs rs hrs r hr

namespace Store

theorem putRows_eq (rows : List Row) (s : Store) :
    s.putRows rows = (rows.forM Row.check).map fun _ =>
      { s with occurrences := Occurrence.placeAll (rows.map Row.occurrence) s.occurrences } := by
  induction rows generalizing s with
  | nil => rfl
  | cons r rows ih =>
    change (do r.check; (s.putOccurrence r.occurrence).putRows rows) =
      Except.map _ (do r.check; rows.forM _)
    cases r.check with
    | error e => rfl
    | ok _ => exact ih (s.putOccurrence r.occurrence)

def replaceGiven (document : String) (sentences : List GivenSentence) (s : Store) :
    Except Error (Nat × Store) := do
  if !s.hasDocument document then throw (.documentNotFound document)
  let rows ← Row.ofSentences document sentences
  let s ← ((s.withoutTokens document).withoutEdges document).putRows rows
  return (rows.length, s)

def loadGiven (document : Spelling) (sentences : List GivenSentence) (s : Store) :
    Except Error (Nat × Store) :=
  match document with
  | .torn t => .error (.unencodable t)
  | .text document =>
    if sentences.isEmpty then .ok (0, s.addDocument document)
    else (s.addDocument document).replaceGiven document sentences

def load (document : String) (sentences : List Sentence) : Store → Except Error (Nat × Store) :=
  loadGiven (.text document) (sentences.map Sentence.given)

section

variable (document : String) (s : Store)

@[simp] theorem addDocument_occurrences :
    (s.addDocument document).occurrences = s.occurrences := by
  simp only [addDocument]
  split <;> rfl

@[simp] theorem addDocument_edges : (s.addDocument document).edges = s.edges := by
  simp only [addDocument]
  split <;> rfl

@[simp] theorem addDocument_keywords : (s.addDocument document).keywords = s.keywords := by
  simp only [addDocument]
  split <;> rfl

@[simp] theorem addDocument_associations :
    (s.addDocument document).associations = s.associations := by
  simp only [addDocument]
  split <;> rfl

@[simp] theorem hasDocument_addDocument : (s.addDocument document).hasDocument document = true := by
  simp only [addDocument]
  split
  · assumption
  · simp [hasDocument]

end

def replaced (document : String) (rows : List Occurrence) (s : Store) : Store :=
  { s with
    occurrences := Occurrence.placeAll rows (s.occurrences.filter (·.document != document))
    edges := s.edges.filter (·.document != document) }

theorem replaceGiven_ok {document : String} {sentences : List GivenSentence} {s t : Store} {n : Nat}
    (h : s.replaceGiven document sentences = .ok (n, t)) :
    s.hasDocument document = true ∧ ∃ rows : List Occurrence,
      (∀ o ∈ rows, o.Belongs document) ∧ t = s.replaced document rows := by
  simp only [replaceGiven] at h
  split at h
  · cases h
  · rename_i hd
    obtain ⟨rows, hr, h⟩ := bind_eq_ok.1 h
    rw [putRows_eq] at h
    obtain ⟨t', ht, h⟩ := bind_eq_ok.1 h
    obtain ⟨_, _, rfl⟩ := map_eq_ok.1 ht
    obtain ⟨_, rfl⟩ := Prod.mk.inj (Except.ok.inj h)
    exact ⟨by simpa using hd, _, Row.belongs_of_ofSentences hr, rfl⟩

/-- The store with some occurrences in the place of the old ones of a document. -/
def loaded (document : String) (rows : List Occurrence) (s : Store) : Store :=
  { s.addDocument document with
    occurrences := Occurrence.placeAll rows (s.occurrences.filter (·.document != document))
    edges := s.edges.filter (·.document != document) }

theorem filter_filter_bne {β : Type} (of : β → String) (document : String) (xs : List β) :
    (xs.filter (of · != document)).filter (of · == document) = [] := by
  rw [List.filter_filter, List.filter_eq_nil_iff]
  intro x _
  simp +contextual

theorem occurrences_loaded {document : String} {rows : List Occurrence}
    (h : ∀ o ∈ rows, o.document = document) (s : Store) :
    (s.loaded document rows).occurrences.filter (·.document == document) =
      Occurrence.placeAll rows [] := by
  simp only [loaded]
  rw [Occurrence.filter_placeAll_of_eq h, filter_filter_bne Occurrence.document]

theorem loadGiven_eq {document : String} {sentences : List GivenSentence}
    (h : sentences.isEmpty = false) (s : Store) :
    loadGiven (.text document) sentences s = do
      let rows ← Row.ofSentences document sentences
      rows.forM Row.check
      return (rows.length, s.loaded document (rows.map Row.occurrence)) := by
  simp only [loadGiven, replaceGiven]
  rw [h, if_neg Bool.false_ne_true, hasDocument_addDocument]
  change (do let rows ← Row.ofSentences document sentences; _) = _
  cases Row.ofSentences document sentences with
  | error e => rfl
  | ok rows =>
    change (do let s ← putRows rows _; _) = (do rows.forM _; _)
    rw [putRows_eq]
    cases rows.forM Row.check with
    | error e => rfl
    | ok _ =>
      simp only [loaded, withoutEdges, withoutTokens]
      simp only [addDocument_occurrences, addDocument_edges]
      rfl

theorem loadGiven_cases (document : Spelling) {sentences : List GivenSentence}
    (h : sentences.isEmpty = false) :
    (∃ rows : List Occurrence, (∀ o ∈ rows, o.Belongs document.legible) ∧
      ∀ s, loadGiven document sentences s =
        .ok (rows.length, s.loaded document.legible rows)) ∨
    ∃ e, ∀ s, loadGiven document sentences s = .error e := by
  cases document with
  | torn t => exact .inr ⟨_, fun _ => rfl⟩
  | text document =>
    cases hr : Row.ofSentences document sentences with
    | error e =>
      refine .inr ⟨e, fun s => ?_⟩
      rw [loadGiven_eq h, hr]
      rfl
    | ok rows =>
      cases hf : rows.forM Row.check with
      | error e =>
        refine .inr ⟨e, fun s => ?_⟩
        simp only [loadGiven_eq h, hr, hf, bind, Except.bind]
      | ok _ =>
        refine .inl ⟨rows.map Row.occurrence, Row.belongs_of_ofSentences hr, fun s => ?_⟩
        simp only [loadGiven_eq h, hr, hf, bind, Except.bind, List.length_map]
        rfl

theorem load_ok {document : String} {sentences : List Sentence} {s t : Store} {n : Nat}
    (h : s.load document sentences = .ok (n, t)) :
    sentences.isEmpty = true ∧ t = s.addDocument document ∨
      sentences.isEmpty = false ∧ ∃ rows : List Occurrence, (∀ o ∈ rows, o.Belongs document) ∧
        t = s.loaded document rows := by
  rw [← List.isEmpty_map (f := Sentence.given)]
  cases hs : (sentences.map Sentence.given).isEmpty with
  | true =>
    simp only [load, loadGiven, hs, if_true] at h
    exact .inl ⟨rfl, (Prod.mk.inj (Except.ok.inj h)).2.symm⟩
  | false =>
    rw [load] at h
    rcases loadGiven_cases (.text document) hs with ⟨rows, hr, hok⟩ | ⟨e, he⟩
    · rw [hok] at h
      exact .inr ⟨rfl, rows, hr, (Prod.mk.inj (Except.ok.inj h)).2.symm⟩
    · rw [he] at h
      cases h

end Store

end TagRank
