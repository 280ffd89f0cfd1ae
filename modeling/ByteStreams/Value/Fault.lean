import ByteStreams.Text.Utf8

/-! What can be wrong with typed values on a byte stream. -/

namespace ByteStreams

namespace Value

inductive Fault
  /-- Of the `expected` bytes only `obtained` came before the end. -/
  | unexpectedEnd (expected obtained : Nat)
  /-- A length is negative or above what is allowed. -/
  | invalidLength (length : Int) (longest : Nat)
  /-- An integer of `bits` bits has no `width` bytes. -/
  | invalidWidth (width bits : Nat)
  /-- The call breaks down instead of answering: no word has `width` bytes. -/
  | beyondWord (width : Nat)
  /-- The bytes of a text are not UTF-8. -/
  | invalidUtf8 (fault : Utf8.Fault)
deriving DecidableEq, Repr

def Fault.message : Fault → String
  | .unexpectedEnd expected obtained =>
      s!"unexpected end of stream ({obtained} of {expected} bytes)"
  | .invalidLength length longest =>
      s!"invalid length prefix {length} (must be 0..={longest})"
  | .invalidWidth width bits => s!"invalid width {width} for a {bits}-bit integer"
  | .beyondWord width => s!"no word has {width} bytes"
  | .invalidUtf8 fault => s!"string is not valid UTF-8: {fault.message}"

end Value

end ByteStreams
