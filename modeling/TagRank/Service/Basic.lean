import TagRank.Log
import TagRank.Metrics.Recorder
import TagRank.Store.Edge
import TagRank.Store.Keyword
import TagRank.Store.Occurrence

/-!
A service: a store with what watches over it. Actions may fail; what they have logged and measured
stays, and a failed transaction leaves the store as it was.
-/

namespace TagRank

inductive Operation
  | transaction
  | commit
  | documentExists
  | addDocument
  | addSentences
  | documentSentences
  | tagOccurrences
  | upsertEdge
  | deleteEdges
  | edges
  | getKeyword
  | findOrCreateKeyword
  | createAssociation
  | upsertAssociation
  | associations
  | countKeywords
  deriving DecidableEq

/-- The store refuses an operation, after it has let it through `skip` times. -/
structure Fault where
  operation : Operation
  text : String
  skip : Nat

structure Service (α : Type) where
  store : Store
  fault : Option Fault
  recorder : Option (Metrics.Recorder α)
  log : List Log.Line

def Service.new (α : Type) : Service α := ⟨.empty, none, none, []⟩

abbrev Action (α β : Type) := ExceptT Error (StateM (Service α)) β

namespace Action

variable {α β : Type}

def log (level : Log.Level) (part text : String) : Action α Unit :=
  modify fun s => { s with log := s.log ++ [⟨level, part, text⟩] }

def logAll (lines : List Log.Line) : Action α Unit :=
  modify fun s => { s with log := s.log ++ lines }

def gate (operation : Operation) : Action α Unit := do
  match (← get).fault with
  | none => return ()
  | some f =>
    if f.operation = operation then
      match f.skip with
      | 0 => throw (.storeFailed f.text)
      | n + 1 => modify fun s => { s with fault := some { f with skip := n } }

def committing (body : Action α β) : Action α β := do
  let b ← body
  gate .commit
  return b

/-- Everything or nothing: if the body fails, or what it has done cannot be committed, the store is
what it was before. -/
def transaction (body : Action α β) : Action α β := do
  gate .transaction
  let before := (← get).store
  try committing body
  catch e =>
    modify fun s => { s with store := before }
    throw e

def change (f : Store → Store) : Action α Unit := modify fun s => { s with store := f s.store }

def apply (f : Store → β × Store) : Action α β :=
  modifyGet fun s => let (b, store) := f s.store; (b, { s with store })

def attempt (f : Store → Except Error (β × Store)) : Action α β := do
  let s ← get
  match f s.store with
  | .ok (b, store) => set { s with store }; return b
  | .error e => throw e

def attemptChange (f : Store → Except Error Store) : Action α Unit :=
  attempt fun s => (f s).map ((), ·)

def ofExcept (x : Except Error β) : Action α β := ExceptT.mk (pure x)

def outcome (a : Action α β) : Action α (Except Error β) :=
  ExceptT.mk do return .ok (← a.run)

end Action

end TagRank
