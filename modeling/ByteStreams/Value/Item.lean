import ByteStreams.Value.Fault
import ByteStreams.Value.Scalar

/-!
Items, what a stream of typed values is made of, and how each lies in bytes.

Text and integers of any size follow their length, which is a signed 32-bit number
in the byte order of the stream. The content of an integer has its most significant
byte first in every order.
-/

namespace ByteStreams

namespace Value

/-! ## Settings -/

structure Settings where
  order : ByteOrder
  /-- The longest text or integer that is read, in bytes. -/
  longest : Nat
deriving DecidableEq, Repr

def defaultLongest : Nat := 16 * 1024 * 1024

namespace Settings

def withOrder (order : ByteOrder) : Settings := ⟨order, defaultLongest⟩

def default : Settings := withOrder .big

def effective (settings : Settings) (order : Option ByteOrder) : ByteOrder :=
  order.getD settings.order

def description (settings : Settings) : String :=
  let order := match settings.order with
    | .big => "Big"
    | .little => "Little"
  s!"PrimitiveConfig \x7b endian: {order}, max_length: {settings.longest} \x7d"

def writerDescription (settings : Settings) : String :=
  s!"PrimitiveWriter \x7b config: {settings.description} \x7d"

def readerDescription (settings : Settings) : String :=
  s!"PrimitiveReader \x7b config: {settings.description} \x7d"

end Settings

/-! ## Items -/

inductive Item
  | scalar (value : Scalar)
  /-- The lowest `width` bytes of a 32-bit word. -/
  | narrow32 (value : UInt32) (width : Nat)
  /-- The lowest `width` bytes of a 64-bit word. -/
  | narrow64 (value : UInt64) (width : Nat)
  | text (value : String)
  | integer (value : Int)
  /-- Bytes as they are. -/
  | raw (data : Bytes)

def longestContent : Nat := 0x7FFFFFFF

/-- Whether an integer of `bits` bits has `width` bytes. The product wraps around like one of
machine words, so a huge width may pass; the call then breaks down where as many bytes are to be
cut out of a word of 8. -/
def checkWidth (width bits : Nat) : Except Fault Unit :=
  if bits < width * 8 % UInt64.size then .error (.invalidWidth width bits)
  else if 8 < width then .error (.beyondWord width)
  else .ok ()

def lengthBytes (order : ByteOrder) (length : Nat) : Bytes :=
  Scalar.encode order (.int32 (Int32.ofNat length))

/-- Content that follows its length: the two go to the sink one after the other. -/
def lengthLed (order : ByteOrder) (content : Bytes) : Except Fault (List Bytes) :=
  let length := content.length
  if longestContent < length then
    .error (.invalidLength length longestContent)
  else
    .ok [lengthBytes order length, content]

def Item.pieces (order : ByteOrder) : Item → Except Fault (List Bytes)
  | .scalar value => .ok [value.encode order]
  | .narrow32 value width =>
      (checkWidth width 32).map fun _ => [order.encode width value.toNat]
  | .narrow64 value width =>
      (checkWidth width 64).map fun _ => [order.encode width value.toNat]
  | .text value => lengthLed order (Utf8.encode value)
  | .integer value => lengthLed order (TwosComplement.encode value)
  | .raw data => .ok [data]

def Item.encode (order : ByteOrder) (item : Item) : Except Fault Bytes :=
  (item.pieces order).map List.flatten

/-! ## What is read -/

/-- What is asked of a stream in one call. -/
inductive Request
  | scalar (kind : ScalarKind)
  /-- An integer of which `width` bytes were written. -/
  | narrow (kind : NarrowKind) (width : Nat)
  | text
  | integer
  | raw (count : Nat)
  /-- That so many bytes be passed over. -/
  | skip (count : Nat)
deriving DecidableEq, Repr

inductive Answer
  | scalar (value : Scalar)
  | text (value : String)
  | integer (value : Int)
  | raw (data : Bytes)
  | skipped
deriving DecidableEq

end Value

end ByteStreams
