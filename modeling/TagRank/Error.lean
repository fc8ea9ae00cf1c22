import TagRank.Text.Spelling

namespace TagRank

inductive Kind
  | invalidValue
  | unencodable
  | missingKey
  | noAttribute
  | outOfBounds
  | wrongType
  | outOfRange
  | arithmetic
  | graph
  | runtime
  | store
  | ranking
  | missingDocument
  | stopwords
  | duplicateSeries
  | other (name : String)
  deriving DecidableEq

/-- A text without an encoding is an invalid value of its own kind. -/
def Kind.isInvalid (k : Kind) : Bool := k = .invalidValue || k = .unencodable

inductive Error
  | emptyTag
  | separatorInLanguage (language : String)
  | invalidLabel (role label : String)
  | missingKey (key : String)
  | notAnObject
  | wrongType
  | malformedInt (base : Nat) (text : Spelling)
  | unencodable (text : TornText)
  | noDigits
  | badMoment (fault : String)
  | tooManyDigits (count : Nat)
  | malformedFloat (text : Spelling)
  | infiniteInt
  | undefinedInt
  | intBeyondFloat
  | iterationsBelowOne
  | dampingOutOfRange
  | unknownKernel (name : String)
  | unknownAssociationPolicy (name : String)
  | unknownTrailingPolicy (name : String)
  | environmentBool (name : String)
  | environmentInt (name : String)
  | environmentFloat (name : String)
  | stopwordSyntax (path : String)
  | stopwordShape (path : String)
  | documentNotFound (id : String)
  | brokenReference
  | intBeyondStore
  | storeFailed (text : String)
  | storeUnreadable (path : String)
  | storeIsDirectory (path : String)
  | reservedField
  | notConverged (rounds : Int)
  | kernelFailed (text : String)
  | edgesUnreadable (document : String)
  | occurrencesUnreadable (document : String)
  | exportDisabled
  | badSeriesName
  | duplicateSeries
  | raised (kind : Kind) (text : String)
  deriving DecidableEq

namespace Error

def kind : Error → Kind
  | unencodable _ => .unencodable
  | missingKey _ => .missingKey
  | notAnObject => .noAttribute
  | noDigits => .outOfBounds
  | wrongType | reservedField => .wrongType
  | infiniteInt | intBeyondFloat | intBeyondStore => .outOfRange
  | stopwordSyntax _ | stopwordShape _ => .stopwords
  | documentNotFound _ => .missingDocument
  | brokenReference | storeFailed _ | storeUnreadable _ | storeIsDirectory _ => .store
  | notConverged _ | kernelFailed _ | edgesUnreadable _ | occurrencesUnreadable _ => .ranking
  | exportDisabled => .runtime
  | duplicateSeries => .duplicateSeries
  | raised kind _ => kind
  | _ => .invalidValue

def excerpt (s : String) : String := String.ofList (s.toList.take 200)

def tear (t : TornText) : String :=
  match t.firstTear with
  | (start, [.half n]) =>
    " '" ++ String.ofList (CodePoint.escapedHalf n) ++ s!"' in position {start}"
  | (start, halves) => s!"s in position {start}-{start + halves.length - 1}"

def message? : Error → Option String
  | emptyTag => some "Tag identity requires a non-empty value"
  | separatorInLanguage language => some s!"Language '{language}' must not contain '_'"
  | invalidLabel role label =>
    some s!"Invalid {role} '{label}': expected letters, digits and underscores"
  | missingKey key => some (Text.quoted key)
  | notAnObject | wrongType | reservedField | badSeriesName | duplicateSeries => none
  | malformedInt base text =>
    some (s!"invalid literal for int() with base {base}: " ++ excerpt text.quoted)
  | unencodable text =>
    some ("'utf-8' codec can't encode character" ++ tear text ++ ": surrogates not allowed")
  | noDigits => some "string index out of range"
  | badMoment fault => some fault
  | tooManyDigits count =>
    some (s!"Exceeds the limit (4300 digits) for integer string conversion: value has {count} " ++
      "digits; use sys.set_int_max_str_digits() to increase the limit")
  | malformedFloat text => some ("could not convert string to float: " ++ text.quoted)
  | infiniteInt => some "cannot convert float infinity to integer"
  | undefinedInt => some "cannot convert float NaN to integer"
  | intBeyondFloat => some "int too large to convert to float"
  | iterationsBelowOne => some "iterations must be at least 1"
  | dampingOutOfRange => some "damping factor must be between 0 and 1"
  | unknownKernel name =>
    some s!"Unknown centrality kernel '{name}' (expected 'power' or 'networkx')"
  | unknownAssociationPolicy name => some (Text.quoted name ++ " is not a valid AssociationPolicy")
  | unknownTrailingPolicy name => some (Text.quoted name ++ " is not a valid TrailingPhrasePolicy")
  | environmentBool name =>
    some s!"Environment variable {name} must be a boolean value (true/false)."
  | environmentInt name => some s!"Environment variable {name} must be an integer"
  | environmentFloat name => some s!"Environment variable {name} must be a float"
  | stopwordSyntax path => some s!"Unable to parse stopword file {path}"
  | stopwordShape path => some s!"Stopword file {path} must contain a list of words"
  | documentNotFound id => some s!"Document '{id}' not found"
  | brokenReference => some "FOREIGN KEY constraint failed"
  | intBeyondStore => some "Python int too large to convert to SQLite INTEGER"
  | storeFailed text => some text
  | storeUnreadable path => some s!"Unable to open graph store at {path}: file is not a database"
  | storeIsDirectory path =>
    some s!"Unable to open graph store at {path}: unable to open database file"
  | notConverged rounds => some s!"PageRank did not converge within {rounds} iterations"
  | kernelFailed text => some s!"Centrality kernel failed: {text}"
  | edgesUnreadable document => some s!"Unable to read co-occurrence edges for '{document}'"
  | occurrencesUnreadable document => some s!"Unable to read tag occurrences for '{document}'"
  | exportDisabled => some "Prometheus export is disabled"
  | raised _ text => some text

def message (e : Error) : String := e.message?.getD ""

end Error

end TagRank
