import TagRank.Error
import TagRank.Json.Basic
import TagRank.Log
import TagRank.Text.Case

namespace TagRank.Log

def threshold (name : String) : Nat :=
  match Text.upper name with
  | "NOTSET" => 0
  | "DEBUG" => Level.debug.rank
  | "WARN" | "WARNING" => Level.warning.rank
  | "ERROR" => Level.error.rank
  | "CRITICAL" | "FATAL" => Level.critical.rank
  | _ => Level.info.rank

structure Setup where
  /-- Handlers of the logger's own. -/
  own : Nat
  /-- Handlers that it has in common with the server's logger. -/
  shared : Nat
  level : Nat
  isDone : Bool
  deriving DecidableEq

namespace Setup

def fresh (own : Nat) : Setup := ⟨own, 0, Level.warning.rank, false⟩

def handlers (s : Setup) : Nat := s.own + s.shared

/-- The server's handlers take the place of all others; without any, one more handler is made. -/
def attach (server : Nat) (s : Setup) : Setup :=
  if server = 0 then { s with own := s.own + 1 } else { s with own := 0, shared := server }

def run (server : Nat) (level : Json) (s : Setup) : Except Error Unit × Setup :=
  if s.isDone then (.ok (), s)
  else match level with
    | .text name => (.ok (), { s.attach server with level := threshold name, isDone := true })
    | _ => (.error .notAnObject, s.attach server)

end Setup

end TagRank.Log
