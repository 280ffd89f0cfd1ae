/-! Lengths of time, in whole nanoseconds. -/

namespace ByteStreams

structure Span where
  nanoseconds : Nat
deriving DecidableEq, Repr

namespace Span

def ofSeconds (seconds : Nat) : Span := ⟨seconds * 1000000000⟩

def ofMilliseconds (milliseconds : Nat) : Span := ⟨milliseconds * 1000000⟩

/-- The longest span: `UInt64.size - 1` seconds and every nanosecond below the next. -/
def longest : Span := ⟨UInt64.size * 1000000000 - 1⟩

def seconds (span : Span) : Nat := span.nanoseconds / 1000000000

def fraction (span : Span) : Nat := span.nanoseconds % 1000000000

def milliseconds (span : Span) : Nat := span.nanoseconds / 1000000

/-! ## Text -/

def paddedDigits (width number : Nat) : List Char :=
  let digits := Nat.toDigits 10 number
  List.replicate (width - digits.length) '0' ++ digits

/-- `number / 10 ^ places` as a decimal without zeros at its end, and without a
point if it is whole. -/
def decimal (places number : Nat) : String :=
  let unit := Nat.pow 10 places
  let whole := toString (number / unit)
  let digits := paddedDigits places (number % unit)
  let kept := (digits.reverse.dropWhile (· = '0')).reverse
  if number % unit = 0 then whole else whole ++ "." ++ String.ofList kept

/-- A span in the largest of the units second, millisecond, microsecond and
nanosecond of which it holds at least one. -/
def text (span : Span) : String :=
  let count := span.nanoseconds
  if 1000000000 ≤ count then decimal 9 count ++ "s"
  else if 1000000 ≤ count then decimal 6 count ++ "ms"
  else if 1000 ≤ count then decimal 3 count ++ "µs"
  else decimal 0 count ++ "ns"

example : (ofMilliseconds 1500).text = "1.5s" := by decide +kernel

example : text ⟨1000000001⟩ = "1.000000001s" := by decide +kernel

example : text ⟨0⟩ = "0ns" := by decide +kernel

end Span

end ByteStreams
