import ByteStreams.Command.Bench
import ByteStreams.Command.Codec
import ByteStreams.Command.Operand
import ByteStreams.Command.Version

/-!
Invocations, what the program is asked for.

An invocation is one command with its order, and what holds for all commands: the
form of reports, and the form and the threshold of the log. Options fill the fields
of a `Given` one by one; a field that is filled already is not filled again, and
fields that stay empty have defaults.
-/

namespace ByteStreams

namespace Command

inductive Name
  | codec (direction : Direction)
  | bench
  | version
deriving DecidableEq, Repr

def Name.ofWord? : String → Option Name
  | "encode" => some (.codec .encode)
  | "decode" => some (.codec .decode)
  | "pipe-bench" => some .bench
  | "version" => some .version
  | _ => none

inductive OptionName
  | format
  | logFormat
  | logLevel
  | output
  | signal
  | capacity
  | size
  | chunk
  | timeout
deriving DecidableEq, Repr

def OptionName.long : OptionName → String
  | .format => "--format"
  | .logFormat => "--log-format"
  | .logLevel => "--log-level"
  | .output => "--output"
  | .signal => "--signal"
  | .capacity => "--capacity"
  | .size => "--size"
  | .chunk => "--chunk"
  | .timeout => "--timeout"

inductive ArgumentFault
  /-- Nothing of this name is known here. -/
  | unexpected (argument : String)
  /-- No command has this name. -/
  | unknownCommand (word : String)
  | noCommand
  | noValue (option : OptionName)
  | badValue (option : OptionName) (value : String)
  | repeatedOption (option : OptionName)
  | repeatedSwitch
  /-- A switch came with a value. -/
  | needlessValue (argument : String)
  | emptyOperand
deriving DecidableEq, Repr

def ArgumentFault.message : ArgumentFault → String
  | .unexpected argument => s!"unexpected argument '{argument}' found"
  | .unknownCommand word => s!"unrecognized subcommand '{word}'"
  | .noCommand => "a subcommand is required but one was not provided"
  | .noValue option => s!"a value is required for '{option.long}' but none was supplied"
  | .badValue option value => s!"invalid value '{value}' for '{option.long}'"
  | .repeatedOption option => s!"the argument '{option.long}' cannot be used multiple times"
  | .repeatedSwitch => "the argument '--extended' cannot be used multiple times"
  | .needlessValue argument => s!"unexpected value in '{argument}'"
  | .emptyOperand => "a value is required for '[INPUT]' but none was supplied"

/-! ## Values -/

def readForm? : String → Option ReportForm
  | "text" => some .text
  | "json" => some .object
  | _ => none

def readLevel? : String → Option LogLevel
  | "error" => some .error
  | "warn" => some .warn
  | "info" => some .info
  | "debug" => some .debug
  | "trace" => some .trace
  | _ => none

def readPath? (text : String) : Option String := if text.isEmpty then none else some text

def readSize? (text : String) : Option Nat := Numeral.parse? 10 greatestCount text.toList

structure Given where
  format : Option ReportForm
  logFormat : Option ReportForm
  logLevel : Option LogLevel
  input : Option String
  output : Option String
  signal : Option UInt8
  capacity : Option Nat
  size : Option Nat
  chunk : Option Nat
  timeout : Option Span
  extended : Bool
deriving DecidableEq, Repr

namespace Given

def empty : Given :=
  ⟨none, none, none, none, none, none, none, none, none, none, false⟩

def fill {α : Type} (option : OptionName) (text : String) (field : Option α)
    (value : Option α) : Except ArgumentFault (Option α) :=
  match field, value with
  | some _, _ => .error (.repeatedOption option)
  | none, some value => .ok (some value)
  | none, none => .error (.badValue option text)

def put (given : Given) (option : OptionName) (text : String) : Except ArgumentFault Given :=
  match option with
  | .format =>
      (fill option text given.format (readForm? text)).map fun field =>
        { given with format := field }
  | .logFormat =>
      (fill option text given.logFormat (readForm? text)).map fun field =>
        { given with logFormat := field }
  | .logLevel =>
      (fill option text given.logLevel (readLevel? text)).map fun field =>
        { given with logLevel := field }
  | .output =>
      (fill option text given.output (readPath? text)).map fun field =>
        { given with output := field }
  | .signal =>
      (fill option text given.signal (readByte text).toOption).map fun field =>
        { given with signal := field }
  | .capacity =>
      (fill option text given.capacity (readSize? text)).map fun field =>
        { given with capacity := field }
  | .size =>
      (fill option text given.size (readSize? text)).map fun field =>
        { given with size := field }
  | .chunk =>
      (fill option text given.chunk (readSize? text)).map fun field =>
        { given with chunk := field }
  | .timeout =>
      (fill option text given.timeout (readSpan text).toOption).map fun field =>
        { given with timeout := field }

def putInput (given : Given) (text : String) : Except ArgumentFault Given :=
  match readPath? text with
  | some path => .ok { given with input := some path }
  | none => .error .emptyOperand

def extend (given : Given) : Except ArgumentFault Given :=
  if given.extended then .error .repeatedSwitch else .ok { given with extended := true }

/-- What was given after the name of a command, together with what was given before
it. What comes after the name counts more. -/
def within (given outer : Given) : Given :=
  { given with
    format := given.format.or outer.format
    logFormat := given.logFormat.or outer.logFormat
    logLevel := given.logLevel.or outer.logLevel }

end Given

/-! ## Invocations -/

inductive Order
  | codec (order : CodecOrder)
  | bench (order : BenchOrder)
  | version (extended : Bool)
deriving DecidableEq, Repr

structure Invocation where
  /-- The form of reports, if one was asked for. -/
  form : Option ReportForm
  logForm : ReportForm
  threshold : LogLevel
  order : Order
deriving DecidableEq, Repr

namespace Given

def order (given : Given) : Name → Order
  | .codec direction =>
      .codec ⟨direction, .ofOperand given.input, .ofOperand given.output,
        given.signal.getD RunLength.defaultSignal⟩
  | .bench =>
      .bench ⟨given.capacity.getD 4096, given.size.getD (1024 * 1024), given.chunk.getD 512,
        given.timeout.getD (Span.ofSeconds 10)⟩
  | .version => .version given.extended

def invocation (given : Given) (name : Name) : Invocation :=
  ⟨given.format, given.logFormat.getD .text, given.logLevel.getD .info,
    given.order name⟩

end Given

end Command

end ByteStreams
