namespace TagRank.Log

inductive Level
  | debug
  | info
  | warning
  | error
  | critical
  deriving DecidableEq

def Level.rank : Level → Nat
  | .debug => 10
  | .info => 20
  | .warning => 30
  | .error => 40
  | .critical => 50

def Level.name : Level → String
  | .debug => "DEBUG"
  | .info => "INFO"
  | .warning => "WARNING"
  | .error => "ERROR"
  | .critical => "CRITICAL"

structure Line where
  level : Level
  part : String
  text : String

def Line.logger (l : Line) : String := "keygraph." ++ l.part

def Line.render (l : Line) : String := l.level.name ++ " " ++ l.logger ++ " " ++ l.text

def atLeast (level : Level) (lines : List Line) : List Line :=
  lines.filter fun l => level.rank ≤ l.level.rank

end TagRank.Log
