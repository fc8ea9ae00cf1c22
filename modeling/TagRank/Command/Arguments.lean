import TagRank.Error
import TagRank.Label
import TagRank.Decimal.Reader

namespace TagRank.Command

inductive Flag
  | help
  | store
  | iterations
  | damping
  | stopwords
  deriving DecidableEq

def spellings : List (String × Flag) := [
  ("-h", .help), ("--help", .help), ("--db", .store), ("--iterations", .iterations),
  ("--damping", .damping), ("--stopwords", .stopwords)]

namespace Flag

def takesValue (f : Flag) : Bool := f != .help

def name (f : Flag) : String := Text.join "/" ((spellings.filter (·.2 == f)).map Prod.fst)

end Flag

inductive UsageError
  | ambiguous (argument : String) (candidates : List String)
  | noValue (f : Flag)
  | uselessValue (f : Flag) (value : String)
  | badInt (f : Flag) (value : String)
  | badFloat (f : Flag) (value : String)
  | noPath
  | unknown (arguments : List String)
  | noFile (path : String)
  | malformedFile (path : String)
  deriving DecidableEq

def UsageError.message : UsageError → String
  | ambiguous argument candidates =>
    s!"ambiguous option: {argument} could match " ++ Text.join ", " candidates
  | noValue f => s!"argument {f.name}: expected one argument"
  | uselessValue f value => s!"argument {f.name}: ignored explicit argument " ++ Text.quoted value
  | badInt f value => s!"argument {f.name}: invalid int value: " ++ Text.quoted value
  | badFloat f value => s!"argument {f.name}: invalid float value: " ++ Text.quoted value
  | noPath => "the following arguments are required: path"
  | unknown arguments => "unrecognized arguments: " ++ Text.join " " arguments
  | noFile path => s!"File '{path}' does not exist"
  | malformedFile path => s!"Invalid JSON in {path}"

inductive Stop
  | help
  | refused (e : UsageError)
  | failed (e : Error)

inductive Attachment
  | nothing
  /-- A value after an equals sign. -/
  | assigned (value : String)
  /-- What follows a letter directly. -/
  | glued (letters : List Char)

inductive Role
  | value
  /-- Two dashes. -/
  | divider
  | flag (f : Flag) (attachment : Attachment)
  | unknown

def cutAssigned (argument : String) : String × Attachment :=
  let head := argument.toList.takeWhile (· != '=')
  match argument.toList.drop head.length with
  | [] => (argument, .nothing)
  | _ :: value => (String.ofList head, .assigned (String.ofList value))

/-- The options that an argument may be meant for: with two dashes those that it is short for, with
one dash that of its letter. -/
def candidates (argument : String) : List (String × Flag × Attachment) :=
  match argument.toList with
  | '-' :: '-' :: _ =>
    let (start, attachment) := cutAssigned argument
    (spellings.filter fun s => start.toList.isPrefixOf s.1.toList).map
      fun (s, f) => (s, f, attachment)
  | c :: d :: rest =>
    (spellings.filter fun s => s.1.toList == [c, d]).map fun (s, f) => (s, f, .glued rest)
  | _ => []

def isDigitText (cs : List Char) : Bool :=
  !cs.isEmpty && cs.all fun c => (Text.digitValue? c).isSome

def isNegativeNumber (argument : String) : Bool :=
  match argument.toList with
  | '-' :: cs =>
    let cs := Label.dropFinalBreak cs
    let whole := cs.takeWhile (· != '.')
    isDigitText cs ||
      ((whole.isEmpty || isDigitText whole) && isDigitText (cs.drop (whole.length + 1)))
  | _ => false

def looseRole (argument : String) : Except UsageError Role :=
  let (start, attachment) := cutAssigned argument
  match spellings.lookup start with
  | some f => return .flag f attachment
  | none => match candidates argument with
    | [(_, f, attachment)] => return .flag f attachment
    | [] =>
      if isNegativeNumber argument || argument.toList.contains ' ' then return .value
      else return .unknown
    | several => throw (.ambiguous argument (several.map Prod.fst))

def roleOf (argument : String) : Except UsageError Role :=
  match spellings.lookup argument with
  | some f => return .flag f .nothing
  | none => match argument.toList with
    | '-' :: _ :: _ => looseRole argument
    | _ => return .value

def classify : List String → Except UsageError (List (String × Role))
  | [] => return []
  | "--" :: rest => return ("--", .divider) :: rest.map (·, .value)
  | a :: rest => return (a, ← roleOf a) :: (← classify rest)

structure Arguments where
  path : String
  store : Option String := none
  iterations : Option Int := none
  damping : Option Float := none
  stopwords : Option String := none

structure Reading where
  arguments : Arguments
  hasPath : Bool
  /-- Arguments that nothing has a use for. -/
  extras : List String

namespace Reading

def start : Reading := ⟨⟨"", none, none, none, none⟩, false, []⟩

def addExtra (a : String) (r : Reading) : Reading := { r with extras := r.extras ++ [a] }

def setPath (a : String) (r : Reading) : Reading :=
  { r with arguments := { r.arguments with path := a }, hasPath := true }

def set (f : Flag) (value : String) (r : Reading) : Except Stop Reading :=
  let a := r.arguments
  match f with
  | .help => throw .help
  | .store => return { r with arguments := { a with store := some value } }
  | .stopwords => return { r with arguments := { a with stopwords := some value } }
  | .iterations => match Decimal.readInt value with
    | .ok i => return { r with arguments := { a with iterations := some i } }
    | .error _ => throw (.refused (.badInt f value))
  | .damping => match Decimal.readFloat? value with
    | some x => return { r with arguments := { a with damping := some x } }
    | none => throw (.refused (.badFloat f value))

def useless (value : List Char) : Stop :=
  .refused (.uselessValue .help (String.ofList value))

def helpWith : List Char → Stop
  | '-' :: cs => useless ('-' :: cs)
  | 'h' :: '=' :: cs => useless cs
  | 'h' :: cs => helpWith cs
  | _ => .help

def run : List (String × Role) → Reading → Except Stop Reading
  | [], r => return r
  | (a, .unknown) :: rest, r => run rest (r.addExtra a)
  | (_, .flag f (.assigned value)) :: rest, r => do
    if f.takesValue then run rest (← r.set f value) else throw (useless value.toList)
  | (_, .flag f (.glued letters)) :: rest, r => do
    if f.takesValue then run rest (← r.set f (String.ofList letters)) else throw (helpWith letters)
  | (_, .flag f .nothing) :: rest, r => do
    if f.takesValue then
      match rest with
      | (value, .value) :: rest => run rest (← r.set f value)
      | _ => throw (.refused (.noValue f))
    else throw .help
  | (a, .value) :: rest, r =>
    if r.hasPath then run rest (r.addExtra a)
    else match rest with
      | (_, .divider) :: rest => run rest (r.setPath a)
      | rest => run rest (r.setPath a)
  | (d, .divider) :: rest, r =>
    if r.hasPath then run rest (r.addExtra d)
    else match rest with
      | (a, .value) :: rest => run rest (r.setPath a)
      | rest => run rest (r.addExtra d)

end Reading

/-- The arguments of a command line. A missing path counts before arguments without a use. -/
def Arguments.read (args : List String) : Except Stop Arguments := do
  let roles ← (classify args).mapError .refused
  let r ← Reading.run roles .start
  if !r.hasPath then throw (.refused .noPath)
  else if !r.extras.isEmpty then throw (.refused (.unknown r.extras))
  else return r.arguments

end TagRank.Command
