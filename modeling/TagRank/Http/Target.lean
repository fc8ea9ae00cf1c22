import TagRank.Label
import TagRank.Text.Digit

namespace TagRank.Http

def escapedBytes : List Char → List UInt8
  | [] => []
  | '%' :: h :: l :: cs => match Text.ofDigits? 16 [h, l] with
    | some n => n.toUInt8 :: escapedBytes cs
    | none => "%".toUTF8.toList ++ escapedBytes (h :: l :: cs)
  | c :: cs => (String.singleton c).toUTF8.toList ++ escapedBytes cs

def charOf? (n : Nat) (bs : List UInt8) : Option Char := do
  let s ← String.fromUTF8? ⟨(bs.take n).toArray⟩
  match s.toList with
  | [c] => return c
  | _ => none

def isSecond (first second : UInt8) : Bool :=
  if first = 0xE0 then 0xA0 ≤ second && second ≤ 0xBF
  else if first = 0xED then 0x80 ≤ second && second ≤ 0x9F
  else if first = 0xF0 then 0x90 ≤ second && second ≤ 0xBF
  else if first = 0xF4 then 0x80 ≤ second && second ≤ 0x8F
  else 0xE0 < first && first < 0xF4 && 0x80 ≤ second && second ≤ 0xBF

def brokenLength : List UInt8 → Nat
  | a :: b :: c :: _ =>
    if !isSecond a b then 1 else if 0xF0 ≤ a && 0x80 ≤ c && c ≤ 0xBF then 3 else 2
  | [a, b] => if isSecond a b then 2 else 1
  | _ => 1

/-- Bytes as text; the beginning of a character that breaks off, and every other byte that is not
UTF-8, become the replacement character. -/
def textOfBytes : Nat → List UInt8 → List Char
  | 0, _ => []
  | _ + 1, [] => []
  | n + 1, bs =>
    match [1, 2, 3, 4].findSome? fun k => (charOf? k bs).map (k, ·) with
    | some (k, c) => c :: textOfBytes n (bs.drop k)
    | none => '\ufffd' :: textOfBytes n (bs.drop (brokenLength bs))

def unescape (s : String) : String :=
  let bytes := escapedBytes s.toList
  String.ofList (textOfBytes bytes.length bytes)

def queryFields (query : String) : List (String × String) :=
  let fields := (Text.splitAt '&' query).filter (· != "")
  let plain (cs : List Char) :=
    unescape (String.ofList (cs.map fun c => if c = '+' then ' ' else c))
  fields.map fun f =>
    let name := f.toList.takeWhile (· != '=')
    (plain name, plain (f.toList.drop (name.length + 1)))

structure Target where
  path : String
  query : List (String × String)

def resolveSteps (done : List String) : List String → List String
  | [] => done.reverse
  | "." :: steps => resolveSteps done steps
  | ".." :: steps => resolveSteps (if done = [""] then done else done.tail) steps
  | s :: steps => resolveSteps (s :: done) steps

def resolvePath (path : String) : String :=
  Text.join "/" (resolveSteps [] (Text.splitAt '/' path))

def Target.ofText (s : String) : Target :=
  let cs := s.toList.takeWhile (· != '#')
  let path := cs.takeWhile (· != '?')
  ⟨unescape (resolvePath (String.ofList path)),
    queryFields (String.ofList (cs.drop (path.length + 1)))⟩

inductive Route
  | health
  | documents
  | cooccurrences (document : String)
  | keywords (document : String)
  | metrics

def Route.ofPath? (path : String) : Option Route :=
  match Text.splitAt '/' (String.ofList (Label.dropFinalBreak path.toList)) with
  | ["", "health"] => some .health
  | ["", "documents"] => some .documents
  | ["", "documents", document, "cooccurrences"] =>
    if document = "" then none else some (.cooccurrences document)
  | ["", "documents", document, "keywords"] =>
    if document = "" then none else some (.keywords document)
  | ["", "metrics"] => some .metrics
  | _ => none

def withoutFinalSlashes (path : String) : String :=
  String.ofList (path.toList.reverse.dropWhile (· == '/')).reverse

/-- A path that leads nowhere is tried again without the slashes at its end. -/
def Route.find? (path : String) : Option Route :=
  (Route.ofPath? path).or (Route.ofPath? (withoutFinalSlashes path))

end TagRank.Http
