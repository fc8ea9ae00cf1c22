import TagRank.Command.Arguments
import TagRank.Disk
import TagRank.Json.Reader
import TagRank.Service.Evaluate
import TagRank.Token.Payload

/-!
The command: load a tagged document into a store, build its co-occurrence graph anew, and list the
keywords that the evaluation finds.
-/

namespace TagRank.Command

inductive Outcome
  | help
  | refused (e : UsageError)
  | failed (e : Error)
  /-- The exit status with what goes to the two outputs. -/
  | ended (status : Nat) (output complaint : String)

def Outcome.ofStop : Stop → Outcome
  | .help => .help
  | .refused e => .refused e
  | .failed e => .failed e

structure Source where
  id : Spelling
  language : Spelling
  sentences : Json

namespace Source

def ofJson (path : String) : Json → Except Error Source
  | .object fields =>
    let v := Json.object fields
    return {
      id := ((v.given? "id").map Json.spelled).getD (.text (fileStem path))
      language := ((v.given? "language").map Json.spelled).getD (.text Token.defaultLanguage)
      sentences := (v.given? "sentences").getD (.list []) }
  | _ => throw .notAnObject

def read (texts : Files) (path : String) : Except Stop Source :=
  match texts.read? path with
  | none => throw (.refused (.noFile path))
  | some text => match Json.read text with
    | .error .malformed => throw (.refused (.malformedFile path))
    | .error (.tooManyDigits count) => throw (.failed (.tooManyDigits count))
    | .ok v => (ofJson path v).mapError .failed

end Source

def Arguments.storePath (a : Arguments) (s : Settings) : String :=
  (a.store.filter (· != "")).getD (resolvedPath s.storePath)

def Arguments.rounds (a : Arguments) (s : Settings) : Int :=
  (a.iterations.filter (· != 0)).getD s.iterations

def Arguments.filter (a : Arguments) (p : Pipeline Float) : Filter :=
  match a.stopwords with
  | some words => .ofStopwords (some (.line words)) none
  | none => p.filter

def keywordLine (c : Candidate) : String := s!"{c.display}\t{c.count}\t{c.key}\n"

def Outcome.ofEvaluation (e : Evaluation Float) : Outcome :=
  if e.status = .success then .ended 0 (Text.join "" (e.keywords.map keywordLine)) ""
  else .ended 1 "" (s!"Keyword evaluation failed for {e.document}: {e.status.name} " ++
    e.error.getD "" ++ "\n")

def extract (a : Arguments) (s : Settings) (p : Pipeline Float) (source : Source) :
    Action Float Outcome := do
  let sentences ← Action.ofExcept (givenOfPayload source.sentences source.language)
  let _ ← Action.loadGiven source.id sentences
  -- a torn id has failed the load, so nothing is replaced in this one
  let document := source.id.legible
  if ← Action.rebuild document s.relationKind s.weightField then
    .ofEvaluation <$> Action.evaluate p (a.filter p) document s.relationKind s.weightField
      (a.rounds s) (a.damping.getD s.damping)
  else return .ended 1 "" s!"Failed to build co-occurrences for {document}\n"

def runOn (store : Store) (a : Arguments) (s : Settings) (p : Pipeline Float) (source : Source) :
    Outcome × Store :=
  match ((extract a s p source).run).run { Service.new Float with store } with
  | (.ok outcome, service) => (outcome, service.store)
  | (.error e, service) => (.failed e, service.store)

/-- A run with arguments that could be read. The store is there as soon as it has been opened. -/
def runWith (a : Arguments) (env : Environment) (d : Disk) : Except Stop (Outcome × Disk) := do
  let source ← Source.read d.texts a.path
  let s ← (Settings.ofEnvironment env).mapError .failed
  let path := a.storePath s
  let store ← (d.openStore path).mapError .failed
  match Pipeline.ofSettings (d.writeStore path store).texts s with
  | .error e => return (.failed e, d.writeStore path store)
  | .ok p =>
    let (outcome, store) := runOn store a s p source
    return (outcome, d.writeStore path store)

def run (args : List String) (env : Environment) (d : Disk) : Outcome × Disk :=
  match Arguments.read args >>= fun a => runWith a env d with
  | .ok result => result
  | .error stop => (.ofStop stop, d)

end TagRank.Command
