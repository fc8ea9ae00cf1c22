namespace TagRank.Yaml

inductive Token
  | versionDirective (major : Nat)
  | tagDirective (handle stem : String)
  | otherDirective
  | documentStart
  | documentEnd
  | streamEnd
  | flowSequenceStart
  | flowSequenceEnd
  | flowMappingStart
  | flowMappingEnd
  | flowEntry
  | blockSequenceStart
  | blockMappingStart
  | blockEnd
  | blockEntry
  | key
  | value
  | alias (name : String)
  | anchor (name : String)
  | tag (handle : Option String) (suffix : String)
  | scalar (text : String) (plain : Bool)
  deriving DecidableEq

/-- Line breaks; carriage returns do not occur in a text that is read by lines. -/
def isBreak (c : Char) : Bool := c == '\n' || c == '\x85' || c == '\u2028' || c == '\u2029'

def breakText (c : Char) : Char := if c = '\x85' then '\n' else c

def isEndOr (p : Char → Bool) : Option Char → Bool
  | none => true
  | some c => p c

def atBreak : Option Char → Bool := isEndOr isBreak

def atSpaceOrBreak : Option Char → Bool := isEndOr fun c => c == ' ' || isBreak c

def atBlank : Option Char → Bool := isEndOr fun c => c == ' ' || c == '\t' || isBreak c

def isNameChar (c : Char) : Bool := c.isAlphanum || c == '-' || c == '_'

def isUriChar (c : Char) : Bool := c.isAlphanum || "-;/?:@&=+$,_.!~*'()[]%".toList.contains c

def isPermitted (c : Char) : Bool :=
  let n := c.toNat
  n == 9 || n == 10 || n == 13 || (32 ≤ n && n ≤ 126) || n == 0x85 || (0xA0 ≤ n && n ≤ 0xFFFD) ||
    0x10000 ≤ n

end TagRank.Yaml
