import ByteStreams.Command.Report

/-! The log of a command: what it tells about its work besides the results. -/

namespace ByteStreams

namespace Command

inductive LogLevel
  | error
  | warn
  | info
  | debug
  | trace
deriving DecidableEq, Repr

namespace LogLevel

def name : LogLevel → String
  | .error => "ERROR"
  | .warn => "WARN"
  | .info => "INFO"
  | .debug => "DEBUG"
  | .trace => "TRACE"

def rank : LogLevel → Nat
  | .error => 0
  | .warn => 1
  | .info => 2
  | .debug => 3
  | .trace => 4

/-- Whether a log that goes down to a level keeps entries of another. -/
def admits (threshold level : LogLevel) : Bool := level.rank ≤ threshold.rank

end LogLevel

structure LogEntry where
  level : LogLevel
  message : String
  fields : Fields

namespace LogEntry

def text (entry : LogEntry) : String :=
  let details := entry.fields.map fun (name, value) => s!" {name}={value.render}"
  entry.level.name ++ " " ++ entry.message ++ String.join details

def object (entry : LogEntry) : String :=
  let fields := renderObject (("message", .text entry.message) :: entry.fields)
  s!"\x7b\"level\":\"{entry.level.name}\",\"fields\":{fields}\x7d"

def line (entry : LogEntry) : ReportForm → String
  | .text => entry.text
  | .object => entry.object

end LogEntry

end Command

end ByteStreams
