import TagRank.Error
import TagRank.Json.Writer

namespace TagRank.Label

def isStart (c : Char) : Bool := c.isAlpha || c == '_'

def isInner (c : Char) : Bool := c.isAlphanum || c == '_'

def isIdentifier : List Char → Bool
  | [] => false
  | c :: cs => isStart c && cs.all isInner

def dropFinalBreak (cs : List Char) : List Char :=
  if cs.getLast? = some '\n' then cs.dropLast else cs

def isValid (label : String) : Bool := isIdentifier (dropFinalBreak label.toList)

inductive Role
  | relationKind
  | weightField

def Role.name : Role → String
  | .relationKind => "relation kind"
  | .weightField => "weight field"

def check (role : Role) (label : String) : Except Error Unit :=
  if isValid label then return () else throw (.invalidLabel role.name label)

def checkValue (role : String) : Json → Except Error Unit
  | .text label => if isValid label then return () else throw (.invalidLabel role label)
  | v => throw (.invalidLabel role v.spoken)

end TagRank.Label
