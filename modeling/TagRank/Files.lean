import TagRank.Text.Blank

namespace TagRank

def cleanPath (path : String) : String :=
  let steps := (Text.splitAt '/' path).filter fun s => s != "" && s != "."
  let relative := Text.join "/" steps
  if path.toList.head? = some '/' then "/" ++ relative
  else if relative = "" then "." else relative

def fileName (path : String) : String := ((Text.splitAt '/' (cleanPath path)).getLast?).getD ""

def directoryOf (path : String) : String :=
  cleanPath (Text.join "/" (Text.splitAt '/' (cleanPath path)).dropLast)

def fileStem (path : String) : String :=
  let name := (fileName path).toList
  let extension := name.reverse.takeWhile (· != '.')
  let stem := name.take (name.length - extension.length - 1)
  if extension.isEmpty || stem.isEmpty || extension.length = name.length then String.ofList name
  else String.ofList stem

def unifyBreaks : List Char → List Char
  | '\r' :: '\n' :: cs => '\n' :: unifyBreaks cs
  | '\r' :: cs => '\n' :: unifyBreaks cs
  | c :: cs => c :: unifyBreaks cs
  | [] => []

structure Files where
  /-- Clean paths with the texts of their files. -/
  entries : List (String × String)

namespace Files

def empty : Files := ⟨[]⟩

def raw? (fs : Files) (path : String) : Option String := fs.entries.lookup (cleanPath path)

def read? (fs : Files) (path : String) : Option String :=
  (fs.raw? path).map fun s => String.ofList (unifyBreaks s.toList)

def write (path text : String) (fs : Files) : Files :=
  ⟨(cleanPath path, text) :: fs.entries.filter (·.1 != cleanPath path)⟩

def ofList (ps : List (String × String)) : Files :=
  ps.foldl (fun fs (path, text) => fs.write path text) empty

end Files

end TagRank
