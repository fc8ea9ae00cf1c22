import TagRank.Yaml.Lexer.Basic

namespace TagRank.Yaml.Lex

def takeHandle : Lex String := do
  expect ((← peek 0) == some '!')
  skip 1
  if (← peek 0) == some ' ' then return "!"
  let cs ← takeWhile isNameChar
  expect ((← peek 0) == some '!')
  skip 1
  return String.ofList ('!' :: cs ++ ['!'])

def hexByte? (h l : Char) : Option Nat := Text.ofDigits? 16 [h, l]

def decodeEscapes : Nat → List Char → List UInt8 → Option (List Char)
  | 0, _, _ => none
  | _ + 1, [], bytes => do return (← String.fromUTF8? ⟨bytes.toArray⟩).toList
  | n + 1, '%' :: h :: l :: more, bytes => do
    decodeEscapes n more (bytes ++ [(← hexByte? h l).toUInt8])
  | n + 1, c :: more, bytes => do
    guard (c != '%')
    return (← String.fromUTF8? ⟨bytes.toArray⟩).toList ++ c :: (← decodeEscapes n more [])

def takeUri : Lex String := do
  let cs ← takeWhile isUriChar
  expect !cs.isEmpty
  return String.ofList (← decodeEscapes (cs.length + 1) cs [])

def directive : Lex Token := do
  skip 1
  let name ← takeName
  expect (atSpaceOrBreak (← peek 0))
  let token ←
    if name = "YAML" then do
      skipSpaces
      let major ← takeNumber
      expect ((← peek 0) == some '.')
      skip 1
      let _ ← takeNumber
      expect (atSpaceOrBreak (← peek 0))
      pure (.versionDirective major)
    else if name = "TAG" then do
      skipSpaces
      let handle ← takeHandle
      expect ((← peek 0) == some ' ')
      skipSpaces
      let stem ← takeUri
      expect (atSpaceOrBreak (← peek 0))
      pure (.tagDirective handle stem)
    else do
      let _ ← takeWhile (!isBreak ·)
      pure .otherDirective
  skipComment
  return token

def anchorName : Lex String := do
  skip 1
  let name ← takeName
  let follows (c : Char) :=
    c == ' ' || c == '\t' || isBreak c || "?:,]\x7d%@\x60".toList.contains c
  expect (isEndOr follows (← peek 0))
  return name

def hasHandle (cs : List Char) : Bool :=
  (cs.takeWhile fun c => !(c == ' ' || isBreak c)).contains '!'

def tagToken : Lex Token := do
  let token ←
    if (← peek 1) == some '<' then do
      skip 2
      let suffix ← takeUri
      expect ((← peek 0) == some '>')
      skip 1
      pure (.tag none suffix)
    else if atBlank (← peek 1) then do
      skip 1
      pure (.tag none "!")
    else if hasHandle ((← get).rest.drop 1) then do
      let handle ← takeHandle
      pure (.tag (some handle) (← takeUri))
    else do
      skip 1
      pure (.tag (some "!") (← takeUri))
  expect (atSpaceOrBreak (← peek 0))
  return token

end TagRank.Yaml.Lex
