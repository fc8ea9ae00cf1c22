import TagRank.Text.Spelling
import TagRank.Token.Basic

/-!
Tokens and sentences as callers give them. Those whose texts have an encoding are tokens and
sentences that can be stored.
-/

namespace TagRank

structure GivenToken where
  text : Spelling
  pos : List String
  start : Int
  stop : Int
  sentence : Int
  order : Int
  language : Spelling
  deriving DecidableEq

structure GivenSentence where
  index : Int
  tokens : List GivenToken
  deriving DecidableEq

def Token.given (t : Token) : GivenToken where
  text := .text t.text
  pos := t.pos
  start := t.start
  stop := t.stop
  sentence := t.sentence
  order := t.order
  language := .text t.language

def Sentence.given (x : Sentence) : GivenSentence := ⟨x.index, x.tokens.map Token.given⟩

namespace GivenToken

def legible (t : GivenToken) : Token where
  text := t.text.legible
  pos := t.pos
  start := t.start
  stop := t.stop
  sentence := t.sentence
  order := t.order
  language := t.language.legible

/-- The first text of the token's row that has no encoding. The key of its tag, which ends in the
language, stands before the language there. -/
def torn? (t : GivenToken) : Option TornText :=
  match t.text, t.language with
  | .torn text, _ => some text
  | .text _, .torn language => some (language.after (t.legible.normalized ++ "_"))
  | .text _, .text _ => none

def encode (t : GivenToken) : Except Error Token :=
  match t.torn? with
  | some torn => throw (.unencodable torn)
  | none => return t.legible

end GivenToken

def GivenSentence.encode (x : GivenSentence) : Except Error Sentence :=
  return ⟨x.index, ← x.tokens.mapM GivenToken.encode⟩

end TagRank
