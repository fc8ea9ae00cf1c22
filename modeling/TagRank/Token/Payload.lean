import TagRank.Json.Access
import TagRank.Token.Given

/-!
Documents given as JSON: a list of sentences, each an object with a list of tokens or that list
itself. Every field of a token is read in a fixed order, and the first that fails decides.
-/

namespace TagRank

namespace GivenToken

/-- The part-of-speech tags of a token: a list, or one tag alone, under one of two names. In a tag
that is torn, as in those that are stored, the halves are replaced: it qualifies no token. -/
def posOfPayload (v : Json) : Except Error (List String) :=
  match (v.given? "pos").or (v.given? "pos_tags") with
  | none => return []
  | some (.text s) => return [s]
  | some (.torn t) => return [t.legible]
  | some tags => do return WordSet.ofList ((← tags.elements).map Json.spoken)

def ofPayload (sentence order : Int) (language : Spelling) : Json → Except Error GivenToken
  | .object fields => do
    let v := Json.object fields
    let text ← v.require "text"
    let pos ← posOfPayload v
    let start ← (← v.require "start").toInt
    let stop ← (← v.require "end").toInt
    return {
      text := text.spelled
      pos, start, stop, sentence, order
      language := ((v.given? "language").map Json.spelled).getD language }
  | _ => throw .notAnObject

end GivenToken

namespace GivenSentence

def tokensOfPayload (sentence : Int) (language : Spelling) (order : Nat) :
    List Json → Except Error (List GivenToken)
  | [] => return []
  | v :: vs => do
    let t ← GivenToken.ofPayload sentence order language v
    return t :: (← tokensOfPayload sentence language (order + 1) vs)

def ofPayload (index : Nat) (language : Spelling) (v : Json) : Except Error GivenSentence := do
  let (raw, language) := match v with
    | .object _ =>
      ((v.given? "tokens").getD (.list []), ((v.given? "language").map Json.spelled).getD language)
    | _ => (v, language)
  return ⟨index, ← tokensOfPayload index language 0 (← raw.elements)⟩

def listOfPayload (language : Spelling) (index : Nat) :
    List Json → Except Error (List GivenSentence)
  | [] => return []
  | v :: vs => do
    let s ← ofPayload index language v
    return s :: (← listOfPayload language (index + 1) vs)

end GivenSentence

def givenOfPayload (payload : Json) (language : Spelling) : Except Error (List GivenSentence) := do
  GivenSentence.listOfPayload language 0 (← payload.elements)

/-- The sentences of a document all of whose texts have an encoding. -/
def sentencesOfPayload (payload : Json) (language : String) : Except Error (List Sentence) := do
  (← givenOfPayload payload (.text language)).mapM GivenSentence.encode

end TagRank
