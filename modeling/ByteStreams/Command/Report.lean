import ByteStreams.Bytes
import ByteStreams.Number.Binary64
import ByteStreams.Time.Span

/-!
Reports of finished commands.

A report has a text of one line, and an object of named fields in a fixed order.
-/

namespace ByteStreams

namespace Command

/-! ## Objects -/

inductive FieldValue
  | number (value : Nat)
  | decimal (value : Binary64)
  | truth (value : Bool)
  | text (value : String)

def escapeQuoted (text : String) : String :=
  String.join (text.toList.map fun character =>
    if character = '"' then "\\\""
    else if character = '\\' then "\\\\"
    else if character = '\n' then "\\n"
    else if character = '\r' then "\\r"
    else if character = '\t' then "\\t"
    else if character.toNat = 8 then "\\b"
    else if character.toNat = 12 then "\\f"
    else if character.toNat < 32 then "\\u00" ++ Bytes.hexDigits (UInt8.ofNat character.toNat)
    else String.singleton character)

def FieldValue.render : FieldValue → String
  | .number value => toString value
  | .decimal value => value.shortest?.getD "null"
  | .truth value => if value then "true" else "false"
  | .text value => "\"" ++ escapeQuoted value ++ "\""

abbrev Fields := List (String × FieldValue)

def renderObject (fields : Fields) : String :=
  let members := fields.map fun (name, value) => "\"" ++ name ++ "\":" ++ value.render
  "\x7b" ++ String.intercalate "," members ++ "\x7d"

inductive ReportForm
  | text
  | object
deriving DecidableEq, Repr

/-- The form of reports that nobody asked for one of: text is for terminals. -/
def ReportForm.default (terminal : Bool) : ReportForm := if terminal then .text else .object

/-! ## Codec reports -/

inductive Direction
  | encode
  | decode
deriving DecidableEq, Repr

def Direction.name : Direction → String
  | .encode => "encode"
  | .decode => "decode"

structure CodecReport where
  direction : Direction
  signal : UInt8
  bytesIn : Nat
  bytesOut : Nat
  milliseconds : Nat
deriving DecidableEq, Repr

namespace CodecReport

/-- The size of the code relative to the size of what it stands for; one, if that is
empty. -/
def ratio (report : CodecReport) : Binary64 :=
  let (encoded, decoded) := match report.direction with
    | .encode => (report.bytesOut, report.bytesIn)
    | .decode => (report.bytesIn, report.bytesOut)
  if decoded = 0 then .ofFloat 1.0
  else .ofFloat ((UInt64.ofNat encoded).toFloat / (UInt64.ofNat decoded).toFloat)

def text (report : CodecReport) : String :=
  s!"{report.direction.name}: {report.bytesIn} bytes in, {report.bytesOut} bytes out " ++
    s!"(ratio {report.ratio.fixed 3}, signal 0x{Bytes.hexDigits report.signal}) " ++
    s!"in {report.milliseconds} ms"

def fields (report : CodecReport) : Fields :=
  [("command", .text report.direction.name), ("signal", .number report.signal.toNat),
    ("bytes_in", .number report.bytesIn), ("bytes_out", .number report.bytesOut),
    ("elapsed_ms", .number report.milliseconds)]

def line (report : CodecReport) : ReportForm → String
  | .text => report.text
  | .object => renderObject report.fields

end CodecReport

/-! ## Bench reports -/

structure BenchReport where
  capacity : Nat
  chunk : Nat
  bytes : Nat
  milliseconds : Nat
  /-- Mebibytes a second. -/
  throughput : Binary64
  /-- Whether the bytes were seen to arrive in order. -/
  verified : Bool
deriving DecidableEq, Repr

namespace BenchReport

/-- Mebibytes a second of a transfer; zero if it took no time. -/
def throughputOf (bytes : Nat) (elapsed : Span) : Binary64 :=
  let seconds := (UInt64.ofNat elapsed.seconds).toFloat +
    (UInt64.ofNat elapsed.fraction).toFloat / 1000000000.0
  if 0.0 < seconds then .ofFloat ((UInt64.ofNat bytes).toFloat / 1048576.0 / seconds)
  else .ofFloat 0.0

def text (report : BenchReport) : String :=
  let order := if report.verified then "verified" else "NOT verified"
  s!"pipe-bench: {report.bytes} bytes through a {report.capacity}-byte pipe " ++
    s!"in {report.chunk}-byte chunks, {report.milliseconds} ms " ++
    s!"({report.throughput.fixed 1} MiB/s), order {order}"

def fields (report : BenchReport) : Fields :=
  [("capacity", .number report.capacity), ("chunk", .number report.chunk),
    ("bytes", .number report.bytes), ("elapsed_ms", .number report.milliseconds),
    ("throughput_mib_s", .decimal report.throughput), ("verified", .truth report.verified)]

def line (report : BenchReport) : ReportForm → String
  | .text => report.text
  | .object => renderObject report.fields

end BenchReport

end Command

end ByteStreams
