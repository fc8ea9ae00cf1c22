import TagRank.Command.Extract
import TagRank.Store.Record

namespace TagRank.Command

def settingNames : List String := [
  "GRAPH_DB_PATH", "COOCCURRENCE_RELATION_KIND", "COOCCURRENCE_WEIGHT_FIELD",
  "TEXTRANK_ITERATIONS", "TEXTRANK_DAMPING", "TEXTRANK_TOLERANCE", "TEXTRANK_KERNEL",
  "TEXTRANK_TOP_NODES", "KEYWORD_SINGLE_WORD_LIMIT", "KEYWORD_STOPWORDS",
  "KEYWORD_STOPWORDS_PATH", "KEYWORD_REMOVE_STOPWORDS", "KEYWORD_FLUSH_TRAILING_PHRASE",
  "KEYWORD_ASSOCIATION_POLICY", "OBSERVABILITY_METRICS_ENABLED", "OBSERVABILITY_NAMESPACE",
  "OBSERVABILITY_PROMETHEUS_ENABLED", "KEYGRAPH_LOG_LEVEL"]

def readEnvironment : IO Environment := do
  let values ← settingNames.mapM fun name => return (← IO.getEnv name).map (name, ·)
  return values.filterMap id

def readText (path : String) : IO (Option String) := do
  try
    let bytes ← IO.FS.readBinFile path
    return some ((String.fromUTF8? bytes).getD "\ufffd")
  catch _ => return none

def pathsOf (args : List String) (env : Environment) : List String × List String :=
  match Arguments.read args, Settings.ofEnvironment env with
  | .ok a, .ok s => (a.path :: s.stopwordsPath.toList, [a.storePath s])
  | .ok a, .error _ => ([a.path], [])
  | .error _, _ => ([], [])

def loadDisk (texts stores : List String) : IO Disk := do
  let mut d := Disk.empty
  for path in texts do
    if let some text ← readText path then d := d.writeText path text
  for path in stores do
    if let some text ← readText path then
      d := match Store.ofText? text with
        | some s => d.writeStore path s
        | none => d.writeText path text
  return d

def saveStores (d : Disk) : IO Unit :=
  for (path, s) in d.stores do
    IO.FS.createDirAll (directoryOf path)
    IO.FS.writeFile path s.toText

def usage : String :=
  "usage: extract [-h] [--db DB] [--iterations N] [--damping D] [--stopwords WORDS] path"

def report (outcome : Outcome) : IO UInt32 := do
  match outcome with
  | .help => IO.println usage; return 0
  | .refused e => IO.eprintln usage; IO.eprintln ("error: " ++ e.message); return 2
  | .failed e => IO.eprintln ("error: " ++ e.message); return 1
  | .ended status output complaint =>
    IO.print output
    IO.eprint complaint
    return status.toUInt32

end TagRank.Command

open TagRank.Command in
def main (args : List String) : IO UInt32 := do
  let env ← readEnvironment
  let (texts, stores) := pathsOf args env
  let (outcome, d) := run args env (← loadDisk texts stores)
  saveStores d
  report outcome
