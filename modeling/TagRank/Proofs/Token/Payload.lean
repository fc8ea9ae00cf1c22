import TagRank.Proofs.Except
import TagRank.Proofs.Sorted
import TagRank.Token.Payload

namespace TagRank

theorem Json.field?_of_require {key : String} {v w : Json} (h : v.require key = .ok w) :
    v.field? key = some w := by
  rw [require] at h
  split at h
  · cases h
    assumption
  · cases h

namespace Token

/-- Part-of-speech tags as they may be given: a list, or one alone. -/
def givenTags (v : Json) : Except Error (List Json) :=
  match (v.given? "pos").or (v.given? "pos_tags") with
  | none => .ok []
  | some (.text tag) => .ok [.text tag]
  | some (.torn tag) => .ok [.torn tag]
  | some tags => tags.elements

/-- What is read of a value at a place in a sentence that is in `language`. -/
structure IsRead (language : String) (sentence order : Nat) (v : Json) (t : Token) : Prop where
  text : ∃ w, v.field? "text" = some w ∧ t.text = w.spoken
  pos : ∃ ws, givenTags v = .ok ws ∧ ∀ tag, tag ∈ t.pos ↔ tag ∈ ws.map Json.spoken
  start : ∃ w, v.field? "start" = some w ∧ w.toInt = .ok t.start
  stop : ∃ w, v.field? "end" = some w ∧ w.toInt = .ok t.stop
  sentence : t.sentence = sentence
  order : t.order = order
  language : t.language = ((v.given? "language").map Json.spoken).getD language

end Token

theorem Json.legible_getD_spelled (v : Option Json) (s : Spelling) :
    ((v.map Json.spelled).getD s).legible = (v.map Json.spoken).getD s.legible := by
  cases v <;> rfl

namespace GivenToken

theorem mem_posOfPayload {v : Json} {pos : List String} (h : posOfPayload v = .ok pos) :
    ∃ ws, Token.givenTags v = .ok ws ∧ ∀ tag, tag ∈ pos ↔ tag ∈ ws.map Json.spoken := by
  rw [posOfPayload] at h
  rw [Token.givenTags]
  generalize (v.given? "pos").or (v.given? "pos_tags") = tags at h ⊢
  cases tags with
  | none =>
    cases h
    exact ⟨[], rfl, fun _ => Iff.rfl⟩
  | some tags =>
    cases tags with
    | text tag =>
      cases h
      exact ⟨[.text tag], rfl, fun _ => Iff.rfl⟩
    | torn tag =>
      cases h
      exact ⟨[.torn tag], rfl, fun _ => Iff.rfl⟩
    | _ =>
      obtain ⟨ws, hws, h⟩ := bind_eq_ok.1 h
      cases h
      exact ⟨ws, hws, fun _ => WordSet.mem_ofList⟩

theorem isRead_of_ofPayload {language : Spelling} {sentence order : Nat} {v : Json}
    {t : GivenToken} (h : ofPayload sentence order language v = .ok t) :
    t.legible.IsRead language.legible sentence order v := by
  cases v with
  | object fields =>
    simp only [ofPayload] at h
    obtain ⟨text, htext, h⟩ := bind_eq_ok.1 h
    obtain ⟨pos, hpos, h⟩ := bind_eq_ok.1 h
    obtain ⟨first, hfirst, h⟩ := bind_eq_ok.1 h
    obtain ⟨start, hstart, h⟩ := bind_eq_ok.1 h
    obtain ⟨last, hlast, h⟩ := bind_eq_ok.1 h
    obtain ⟨stop, hstop, h⟩ := bind_eq_ok.1 h
    cases h
    exact {
      text := ⟨text, Json.field?_of_require htext, rfl⟩
      pos := mem_posOfPayload hpos
      start := ⟨first, Json.field?_of_require hfirst, hstart⟩
      stop := ⟨last, Json.field?_of_require hlast, hstop⟩
      sentence := rfl
      order := rfl
      language := Json.legible_getD_spelled _ _ }
  | _ => cases h

end GivenToken

namespace Sentence

def listing : Json → Json
  | .object fields => ((Json.object fields).given? "tokens").getD (.list [])
  | v => v

structure IsRead (language : String) (i : Nat) (v : Json) (x : Sentence) : Prop where
  index : x.index = i
  tokens : ∃ ws, (listing v).elements = .ok ws ∧
    List.Forall₂ (fun w t => Token.IsRead (((v.given? "language").map Json.spoken).getD language)
      i w.2 w.1 t) ws.zipIdx x.tokens

end Sentence

namespace GivenSentence

def legible (x : GivenSentence) : Sentence := ⟨x.index, x.tokens.map GivenToken.legible⟩

theorem isRead_of_tokensOfPayload {language : Spelling} {index order : Nat} {ws : List Json}
    {ts : List GivenToken} (h : tokensOfPayload index language order ws = .ok ts) :
    List.Forall₂ (fun w t => Token.IsRead language.legible index w.2 w.1 t) (ws.zipIdx order)
      (ts.map GivenToken.legible) := by
  induction ws generalizing order ts with
  | nil =>
    cases h
    exact .nil
  | cons w ws ih =>
    obtain ⟨t, ht, h⟩ := bind_eq_ok.1 h
    obtain ⟨ts, hts, h⟩ := bind_eq_ok.1 h
    cases h
    exact .cons (GivenToken.isRead_of_ofPayload ht) (ih hts)

theorem isRead_of_ofPayload {language : Spelling} {index : Nat} {v : Json} {x : GivenSentence}
    (h : ofPayload index language v = .ok x) : x.legible.IsRead language.legible index v := by
  cases v with
  | object fields =>
    obtain ⟨ws, hws, h⟩ := bind_eq_ok.1 h
    obtain ⟨ts, hts, h⟩ := bind_eq_ok.1 h
    cases h
    have hread := isRead_of_tokensOfPayload hts
    rw [Json.legible_getD_spelled] at hread
    exact ⟨rfl, ws, hws, hread⟩
  | _ =>
    obtain ⟨ws, hws, h⟩ := bind_eq_ok.1 h
    obtain ⟨ts, hts, h⟩ := bind_eq_ok.1 h
    cases h
    exact ⟨rfl, ws, hws, isRead_of_tokensOfPayload hts⟩

end GivenSentence

namespace Sentence

theorem IsRead.placed {language : String} {i : Nat} {v : Json} {x : Sentence}
    (h : x.IsRead language i v) : ∀ t ∈ x.tokens, t.sentence = x.index := by
  obtain ⟨ws, -, hts⟩ := h.tokens
  exact forall_of_forall₂ (fun _ _ ht => ht.sentence.trans h.index.symm) hts

end Sentence

end TagRank
