import ByteStreams.Command.Arguments

/-! The whole program, from its arguments to its exit code. -/

namespace ByteStreams

namespace Command

def helpLines : List String :=
  ["Byte-stream primitives CLI", "",
    "Usage: streamprims [OPTIONS] <COMMAND>", "",
    "Commands:",
    "  encode [INPUT] [-o, --output <PATH>] [--signal <BYTE>]",
    "  decode [INPUT] [-o, --output <PATH>] [--signal <BYTE>]",
    "  pipe-bench [--capacity <N>] [--size <N>] [--chunk <N>] [--timeout <TIME>]",
    "  version [--extended]",
    "  help [COMMAND]", "",
    "Options:",
    "  --format <text|json>",
    "  --log-format <text|json>",
    "  --log-level <error|warn|info|debug|trace>",
    "  -h, --help",
    "  -V, --version"]

def Order.carryOut (order : Order) (build : Build) (form : ReportForm) (threshold : LogLevel) :
    Session (Except Refusal Unit) :=
  match order with
  | .codec order => order.carryOut form threshold
  | .bench order => order.carryOut form threshold
  | .version extended => build.carryOut extended form

def Invocation.carryOut (invocation : Invocation) (build : Build) :
    Session (Except Refusal Unit) :=
  match invocation.form with
  | some form => invocation.order.carryOut build form invocation.threshold
  | none =>
      .isTerminal fun shown =>
        invocation.order.carryOut build (.default shown) invocation.threshold

/-- The exit code of a command, and a complaint if it failed and can still complain. -/
def exit : Except Refusal Unit → Session Exit
  | .ok () => .done .success
  | .error refusal =>
      if refusal.exit.isSudden then .done refusal.exit
      else .complain refusal.message (.done refusal.exit)

def Stop.carryOut : Stop → Session Exit
  | .help => helpLines.foldr .print (.done .success)
  | .version => .print nameAndVersion (.done .success)
  | .fault cause => .complain cause.message (.done .badArguments)

def program (build : Build) (arguments : List String) : Session Exit :=
  match readArguments arguments with
  | .error stop => stop.carryOut
  | .ok invocation => (invocation.carryOut build).bind exit

def logForm (arguments : List String) : ReportForm :=
  match readArguments arguments with
  | .error _ => .text
  | .ok invocation => invocation.logForm

end Command

end ByteStreams
