import TagRank.Decimal.Format
import TagRank.Json.Basic
import TagRank.Text.Blank
import TagRank.Text.Quoted

namespace TagRank.Json

def escapeChar (c : Char) : List Char :=
  if c = '"' then ['\\', '"']
  else if c = '\\' then ['\\', '\\']
  else if c = '\n' then ['\\', 'n']
  else if c = '\r' then ['\\', 'r']
  else if c = '\t' then ['\\', 't']
  else if c.toNat < 32 then ['\\', 'u'] ++ (Text.hex 4 c.toNat).toList
  else [c]

def quote (s : String) : String := String.ofList ('"' :: s.toList.flatMap escapeChar ++ ['"'])

def quoteTorn (t : TornText) : String :=
  String.ofList ('"' :: t.points.flatMap (fun
    | .char c => escapeChar c
    | .half n => CodePoint.escapedHalf n) ++ ['"'])

def renderReal (x : Float) : String :=
  if x.isNaN then "NaN"
  else if x.isInf then (if x < 0 then "-Infinity" else "Infinity")
  else Decimal.shortest x

mutual

def render : Json → String
  | .null => "null"
  | .bool b => if b then "true" else "false"
  | .int i => toString i
  | .real x => renderReal x
  | .text s => quote s
  | .torn t => quoteTorn t
  | .list xs => "[" ++ Text.join ", " (renderElements xs) ++ "]"
  | .object fields => "\x7b" ++ Text.join ", " (renderFields fields) ++ "\x7d"

def renderElements : List Json → List String
  | [] => []
  | x :: xs => render x :: renderElements xs

def renderFields : List (String × Json) → List String
  | [] => []
  | (k, v) :: fields => (quote k ++ ": " ++ render v) :: renderFields fields

end

mutual

def shown : Json → String
  | .null => "None"
  | .bool b => if b then "True" else "False"
  | .int i => toString i
  | .real x => Decimal.shortest x
  | .text s => Text.quoted s
  | .torn t => t.quoted
  | .list xs => "[" ++ Text.join ", " (shownElements xs) ++ "]"
  | .object fields => "\x7b" ++ Text.join ", " (shownFields fields) ++ "\x7d"

def shownElements : List Json → List String
  | [] => []
  | x :: xs => shown x :: shownElements xs

def shownFields : List (String × Json) → List String
  | [] => []
  | (k, v) :: fields => (Text.quoted k ++ ": " ++ shown v) :: shownFields fields

end

def spelled : Json → Spelling
  | .text s => .text s
  | .torn t => .torn t
  | v => .text (shown v)

def spoken (v : Json) : String := v.spelled.legible

@[simp] theorem spoken_text (s : String) : (Json.text s).spoken = s := rfl

end TagRank.Json
