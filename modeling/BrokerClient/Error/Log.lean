/-!
# Log entries

What the client reports about its own doings.
-/
namespace BrokerClient

/-- How much attention a log entry asks for. -/
inductive LogLevel where
  | debug
  | info
  | warning
  deriving DecidableEq, Repr

/-- The word for a level. -/
def LogLevel.word : LogLevel → String
  | debug => "DEBUG"
  | info => "INFO"
  | warning => "WARNING"

/-- A line of the log. -/
structure LogEntry where
  level : LogLevel
  text : String
  deriving DecidableEq, Repr

/-- The entries of the three levels. -/
def LogEntry.debug (text : String) : LogEntry := ⟨.debug, text⟩

def LogEntry.info (text : String) : LogEntry := ⟨.info, text⟩

def LogEntry.warning (text : String) : LogEntry := ⟨.warning, text⟩

end BrokerClient
