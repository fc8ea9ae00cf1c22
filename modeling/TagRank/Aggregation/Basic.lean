import TagRank.Ranking.Ranked
import TagRank.Stopword.Filter
import TagRank.Tag

/-!
Keywords from spans. Spans that follow each other closely make phrases, which are counted; the tags
with the best scores are keywords of one word.
-/

namespace TagRank

/-- What becomes of the phrase that is still open after the last span. -/
inductive Trailing
  | drop
  | flush
  deriving DecidableEq

def Trailing.ofName : String → Except Error Trailing
  | "drop" => return .drop
  | "flush" => return .flush
  | name => throw (.unknownTrailingPolicy name)

structure Candidate where
  key : String
  display : String
  count : Nat
  deriving DecidableEq

def Candidate.isPhrase (c : Candidate) : Bool := 1 < Text.wordCount c.display

structure Aggregation where
  /-- Keys with their counts, phrases first. -/
  counts : List (String × Nat)
  filtered : Bool
  phrases : List String
  singles : List String
  deriving DecidableEq

namespace Aggregation

/-- A span that starts at most this far behind the end of the last one continues its phrase. -/
def maxGap : Int := 1

def noEnd : Int := -1000

structure Progress (α : Type) where
  counts : List (String × Nat)
  phrases : List String
  words : List String
  language : String
  previousEnd : Int
  scores : Scores α

namespace Progress

variable {α : Type}

def start : Progress α := ⟨[], [], [], "", noEnd, []⟩

def flush (p : Progress α) : Progress α :=
  if 1 < p.words.length then
    let key := Key.ofWords p.words p.language
    { p with
      phrases := if Assoc.contains key p.counts then p.phrases else p.phrases ++ [key]
      counts := Assoc.insert key (Assoc.getD key 0 p.counts + 1) p.counts }
  else p

/-- A stopword is passed over, without moving the end of the last span. -/
def step (f : Filter) (p : Progress α) (span : Span α) : Progress α :=
  let (value, language) := Key.split span.tag
  if f.isStopword value then p
  else
    let p :=
      if span.start - p.previousEnd ≤ maxGap then { p with words := p.words ++ [value] }
      else { p.flush with words := [value], language }
    { p with previousEnd := span.stop, scores := Assoc.insert span.tag span.score p.scores }

end Progress

variable {α : Type} [Scalar α]

def ofSpans (f : Filter) (trailing : Trailing) (limit : Int) (spans : List (Span α)) :
    Aggregation :=
  let p := spans.foldl (Progress.step f) Progress.start
  let p := if trailing = .flush then p.flush else p
  let singles := ((Scores.descending p.scores).take limit.toNat).map Prod.fst
  { counts := singles.foldl (fun counts tag => Assoc.insert tag 1 counts) p.counts
    filtered := f.enabled
    phrases := p.phrases
    singles }

def warnings (spans : List (Span α)) : List Log.Line := spans.flatMap fun s => Key.warnings s.tag

def candidates (a : Aggregation) : List Candidate :=
  a.counts.map fun (key, count) => ⟨key, Key.value key, count⟩

def candidateWarnings (a : Aggregation) : List Log.Line :=
  a.counts.flatMap fun c => Key.warnings c.1

end Aggregation

end TagRank
