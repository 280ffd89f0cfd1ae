import ByteStreams.Text.Blank
import ByteStreams.Text.Numeral
import ByteStreams.Time.Span

/-!
Bytes and lengths of time as they are written on the command line.

White space around an operand does not count. A byte is decimal, or hexadecimal
after `0x`. A length of time is a positive number of seconds, or of milliseconds
before `ms`.
-/

namespace ByteStreams

namespace Command

/-- Why a text is no operand of the kind that is due; the texts are those without
the white space around them. -/
inductive OperandFault
  | notAByte (text : String)
  | noSpan
  | notASpan (text : String)
  | zeroSpan
deriving DecidableEq, Repr

def OperandFault.message : OperandFault → String
  | .notAByte text => s!"invalid byte value: {text} (expected 0..=255 or 0x00..=0xFF)"
  | .noSpan => "duration must not be empty"
  | .notASpan text => s!"invalid duration value: {text}"
  | .zeroSpan => "duration must be greater than zero"

def trimmedByte? : List Char → Option Nat
  | '0' :: 'x' :: digits | '0' :: 'X' :: digits => Numeral.parse? 16 255 digits
  | digits => Numeral.parse? 10 255 digits

def readByte (text : String) : Except OperandFault UInt8 :=
  let trimmed := Blank.trim text.toList
  match trimmedByte? trimmed with
  | some value => .ok (UInt8.ofNat value)
  | none => .error (.notAByte (String.ofList trimmed))

inductive SpanUnit
  | second
  | millisecond
deriving DecidableEq, Repr

def SpanUnit.times : SpanUnit → Nat → Span
  | .second, count => Span.ofSeconds count
  | .millisecond, count => Span.ofMilliseconds count

/-- Cut the unit off the end of a text; without one, seconds are meant. -/
def cutUnit (text : List Char) : List Char × SpanUnit :=
  match text.reverse with
  | 's' :: 'm' :: number => (number.reverse, .millisecond)
  | 's' :: number => (number.reverse, .second)
  | _ => (text, .second)

def greatestCount : Nat := UInt64.size - 1

def readSpan (text : String) : Except OperandFault Span :=
  let trimmed := Blank.trim text.toList
  if trimmed.isEmpty then
    .error .noSpan
  else
    let (number, unit) := cutUnit trimmed
    match Numeral.parse? 10 greatestCount number with
    | none => .error (.notASpan (String.ofList trimmed))
    | some 0 => .error .zeroSpan
    | some (count + 1) => .ok (unit.times (count + 1))

example : (readByte " 0xE2 ").toOption = some 226 := by decide +kernel

example : (readSpan "150ms").toOption = some (Span.ofMilliseconds 150) := by
  decide +kernel

end Command

end ByteStreams
