import TagRank.Text.Digit
import TagRank.Text.InvisibleTable

namespace TagRank.Text

def isVisible (c : Char) : Bool :=
  let n := c.toNat
  if n < 127 then 32 ≤ n else !(invisibleRanges.any fun (a, b) => a ≤ n && n ≤ b)

def delimiter (cs : List Char) : Char :=
  if cs.contains '\'' && !cs.contains '"' then '"' else '\''

def escaped (quote c : Char) : List Char :=
  if c = quote || c = '\\' then ['\\', c]
  else if c = '\t' then ['\\', 't']
  else if c = '\n' then ['\\', 'n']
  else if c = '\r' then ['\\', 'r']
  else if isVisible c then [c]
  else
    let n := c.toNat
    if n < 0x100 then ['\\', 'x'] ++ (hex 2 n).toList
    else if n < 0x10000 then ['\\', 'u'] ++ (hex 4 n).toList
    else ['\\', 'U'] ++ (hex 8 n).toList

def quoted (s : String) : String :=
  let q := delimiter s.toList
  String.ofList (q :: s.toList.flatMap (escaped q) ++ [q])

end TagRank.Text
