import TagRank.Decimal.Format
import TagRank.Json.Access
import TagRank.Service.Basic

namespace TagRank

abbrev Tags := List (String × Json)

structure Duration (α : Type) where
  shown : String
  seconds : α

def measureText : Json → String
  | .real x => match Decimal.isWhole x, Decimal.truncate? x with
    | true, some i => toString i
    | _, _ => Decimal.fixed 4 x
  | v => v.spoken

def Tags.texts (tags : Tags) : List (String × String) :=
  let given := tags.filter fun | (_, .null) => false | _ => true
  (given.map fun (k, v) => (k, measureText v)).mergeSort fun a b => !(b.1 < a.1)

/-- Names that stand for something else in a measurement cannot name a tag. -/
def Tags.check (taken : List String) (tags : Tags) : Except Error Unit :=
  if tags.any fun t => taken.contains t.1 then throw .wrongType else return ()

def Duration.ofSeconds (v : Json) : Except Error (Duration Float) := do
  let seconds ← match v with
    | .text _ | .torn _ => throw .wrongType
    | _ => v.toFloat
  let ms := seconds * 1000.0
  let ms := if ms < 0.0 then 0.0 else ms
  return ⟨measureText (.real (Decimal.roundTo 4 ms)), if seconds < 0.0 then 0.0 else seconds⟩

namespace Action

variable {α : Type} [Scalar α]

def observe (shape : Metrics.Shape) (metric : String) (tags : List (String × String))
    (x : Option α) : Action α Unit := do
  let s ← get
  match s.recorder, x with
  | some r, some x =>
    let (r, result) := r.observe shape metric tags x
    set { s with recorder := some r }
    ofExcept result
  | _, none => throw .intBeyondFloat
  | none, _ => return ()

def measureLine (metric field shown : String) (tags : List (String × String)) : Action α Unit := do
  match (← get).recorder with
  | none => return ()
  | some r =>
    let fields := ((field, shown) :: tags).map fun (k, v) => k ++ "=" ++ v
    log .info "metrics" (r.space ++ "." ++ metric ++ " " ++ Text.join " " fields)

def ifRecording (a : Action α Unit) : Action α Unit := do
  if (← get).recorder.any (·.enabled) then a

/-- Adds to a counter; a negative number is logged but adds nothing. -/
def increment (metric : String) (value : Except Error Int) (tags : Tags) : Action α Unit :=
  ifRecording do
    let value ← ofExcept value
    let tags := tags.texts
    measureLine metric "value" (toString value) tags
    observe .counter metric tags (Scalar.ofInt? (max value 0))

def setGauge (metric shown : String) (value : Except Error α) (tags : Tags) : Action α Unit :=
  ifRecording do
    let tags := tags.texts
    measureLine metric "value" shown tags
    observe .gauge metric tags (some (← ofExcept value))

def recordTiming (metric : String) (duration : Except Error (Duration α)) (tags : Tags) :
    Action α Unit :=
  ifRecording do
    let duration ← ofExcept duration
    let tags := tags.texts
    measureLine metric "duration_ms" duration.shown tags
    observe .histogram metric tags (some duration.seconds)

/-- Clocks are not part of the service: a measured duration is shown as a star. -/
def unmeasured : Duration α := ⟨"*", 0⟩

def timed {β : Type} (metric : String) (tags : Tags) (a : Action α β) : Action α β := do
  let result ← outcome a
  recordTiming metric (.ok unmeasured) tags
  ofExcept result

end Action

end TagRank
