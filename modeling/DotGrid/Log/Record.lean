/-!
# Log records

A record has the name of its logger, a level and a message. Levels are integers; five of them have names.
-/

namespace DotGrid.Log

/-- One message to the log. -/
structure Record where
  logger : String
  level : Int
  message : String
deriving DecidableEq

/-- The level of details. -/
def debug : Int := 10

/-- The level of progress. -/
def info : Int := 20

/-- The level of what may need attention. -/
def warning : Int := 30

/-- The level of failures. -/
def error : Int := 40

/-- The name of a level. -/
def levelName (level : Int) : String :=
  if level = 10 then "DEBUG"
  else if level = 20 then "INFO"
  else if level = 30 then "WARNING"
  else if level = 40 then "ERROR"
  else if level = 50 then "CRITICAL"
  else "Level " ++ toString level

/-- A record as a line of a log. -/
def Record.line (r : Record) : String :=
  "[" ++ levelName r.level ++ "] " ++ r.logger ++ ": " ++ r.message

end DotGrid.Log
