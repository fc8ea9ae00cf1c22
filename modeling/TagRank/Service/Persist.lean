import TagRank.Service.Cooccurrence
import TagRank.Stopword.Filter

/-!
Storing the keywords of a document, all of them or none.
-/

namespace TagRank

/-- How a document that already has keywords is linked to them: by further associations, or by
setting the counts of the ones that are there. -/
inductive Policy
  | create
  | upsert
  deriving DecidableEq

def Policy.name : Policy → String
  | .create => "create"
  | .upsert => "upsert"

def Policy.ofName : String → Except Error Policy
  | "create" => return .create
  | "upsert" => return .upsert
  | name => throw (.unknownAssociationPolicy name)

inductive PersistStatus
  | success
  | missingDocument
  | failed
  deriving DecidableEq

def PersistStatus.name : PersistStatus → String
  | .success => "success"
  | .missingDocument => "missing_document"
  | .failed => "error"

structure PersistOutcome where
  document : String
  status : PersistStatus
  created : Nat
  reused : Nat
  written : Nat
  skipped : List String
  error : Option String
  deriving DecidableEq

namespace PersistOutcome

def start (document : String) : PersistOutcome := ⟨document, .success, 0, 0, 0, [], none⟩

def failure (document : String) (status : PersistStatus) (e : Error) : PersistOutcome :=
  { start document with status, error := some e.message }

def wrote (created : Bool) (o : PersistOutcome) : PersistOutcome :=
  if created then { o with created := o.created + 1, written := o.written + 1 }
  else { o with reused := o.reused + 1, written := o.written + 1 }

end PersistOutcome

/-- Keys with their counts; a count that is not a whole number fails when it is needed. -/
abbrev Counts := List (String × Except Error Int)

namespace Action

variable {α : Type} [Scalar α]

def associate (policy : Policy) (keyword document : String) (count : Except Error Int) :
    Action α Unit := do
  let _ ← match policy with
    | .create => createAssociation keyword document count
    | .upsert => upsertAssociation keyword document count

def persistOne (policy : Policy) (f : Filter) (document key : String) (count : Except Error Int)
    (o : PersistOutcome) : Action α PersistOutcome := do
  logAll (Key.warnings key)
  let value := Key.value key
  if f.isStopword value then return { o with skipped := o.skipped ++ [key] }
  else
    let (keyword, created) ← findOrCreateKeyword key value
    associate policy keyword.id document count
    return o.wrote created

def persistAll (policy : Policy) (f : Filter) (document : String) :
    Counts → PersistOutcome → Action α PersistOutcome
  | [], o => return o
  | (key, count) :: counts, o => do
    persistAll policy f document counts (← persistOne policy f document key count o)

def countOutcome (policy : Policy) (metric : String) (value : Nat) : Action α Unit :=
  increment metric (.ok value) [("policy", .text policy.name)]

def persist (policy : Policy) (f : Filter) (document : String) (counts : Counts) :
    Action α PersistOutcome := do
  let write : Action α PersistOutcome := transaction do
    if !(← documentExists document) then throw (.documentNotFound document)
    persistAll policy f document counts (.start document)
  match ← outcome write with
  | .ok o =>
    log .info "persistence"
      (s!"keywords.persist.completed doc_id={document} created={o.created} reused={o.reused} " ++
        s!"associations={o.written} skipped={o.skipped.length}")
    countOutcome policy "keywords.persisted" o.written
    return o
  | .error e => match e.kind with
    | .missingDocument =>
      log .error "persistence" s!"keywords.persist.missing_document doc_id={document}"
      countOutcome policy "keywords.persist.missing_document" 1
      return .failure document .missingDocument e
    | .store =>
      log .error "persistence" s!"keywords.persist.failed doc_id={document} error={e.message}"
      countOutcome policy "keywords.persist.failed" 1
      return .failure document .failed e
    | _ => throw e

end Action

end TagRank
