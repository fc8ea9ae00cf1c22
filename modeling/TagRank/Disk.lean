import TagRank.Files
import TagRank.Store.Basic

namespace TagRank

def withoutReturns (done : List String) : List String → List String
  | [] => done.reverse
  | ".." :: steps => match done with
    | [] | ".." :: _ => withoutReturns (".." :: done) steps
    | _ :: done => withoutReturns done steps
  | s :: steps => withoutReturns (s :: done) steps

def resolvedPath (path : String) : String :=
  cleanPath (Text.join "/" (withoutReturns [] (Text.splitAt '/' (cleanPath path))))

structure Disk where
  texts : Files
  stores : List (String × Store)

namespace Disk

def empty : Disk := ⟨.empty, []⟩

def store? (d : Disk) (path : String) : Option Store := d.stores.lookup (resolvedPath path)

def writeText (path text : String) (d : Disk) : Disk :=
  ⟨d.texts.write path text, d.stores.filter (·.1 != resolvedPath path)⟩

def writeStore (path : String) (s : Store) (d : Disk) : Disk :=
  let path := resolvedPath path
  ⟨⟨d.texts.entries.filter (·.1 != path)⟩, (path, s) :: d.stores.filter (·.1 != path)⟩

def paths (d : Disk) : List String := d.texts.entries.map Prod.fst ++ d.stores.map Prod.fst

def isDirectory (d : Disk) (path : String) : Bool :=
  resolvedPath path = "." ||
    d.paths.any fun p => (resolvedPath path ++ "/").toList.isPrefixOf p.toList

/-- The store at a path. Nothing and an empty text are the empty store; any other text is none. -/
def openStore (d : Disk) (path : String) : Except Error Store :=
  match d.store? path, d.texts.raw? (resolvedPath path) with
  | some s, _ => return s
  | none, none =>
    if d.isDirectory path then throw (.storeIsDirectory (cleanPath path)) else return .empty
  | none, some text =>
    if text = "" then return .empty else throw (.storeUnreadable (cleanPath path))

end Disk

end TagRank
