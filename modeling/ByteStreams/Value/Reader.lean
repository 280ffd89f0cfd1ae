import ByteStreams.Channel.Reading
import ByteStreams.Value.Item

/-! Reading values from a source. No call takes more bytes than its own. -/

namespace ByteStreams

namespace Value

open Channel (Reading)

/-- What the end of a loop over the source means for a call that wants `expected`
bytes and got `obtained`. -/
def ending (expected obtained : Nat) : Reading.Ending → Except Failure Unit
  | .complete => .ok ()
  | .ended => .error (.fault (.unexpectedEnd expected obtained))
  | .failed failure => .error (.channel failure)

def readFully (count : Nat) : Reading (Except Failure Bytes) :=
  (Reading.gather count).map fun (bytes, how) =>
    (ending count bytes.length how).map fun _ => bytes

def skipFully (count : Nat) : Reading (Except Failure Unit) :=
  (Reading.skip count).map fun (skipped, how) => ending count skipped how

def readAs {α : Type} (count : Nat) (make : Bytes → Except Fault α) :
    Reading (Except Failure α) :=
  (readFully count).map fun
    | .error failure => .error failure
    | .ok bytes => (make bytes).mapError Failure.fault

/-- Read content that follows its length and make an answer of it. A length that is
negative or above the settings' longest is refused before any content is read. -/
def readLengthLed {α : Type} (settings : Settings) (order : ByteOrder)
    (make : Bytes → Except Fault α) : Reading (Except Failure α) :=
  (readFully 4).bind fun
    | .error failure => .done (.error failure)
    | .ok bytes =>
        let length := (UInt32.ofNat (order.value bytes)).toInt32.toInt
        if 0 ≤ length ∧ length ≤ settings.longest then
          readAs length.toNat make
        else
          .done (.error (.fault (.invalidLength length settings.longest)))

def read (settings : Settings) (request : Request) (order : Option ByteOrder) :
    Reading (Except Failure Answer) :=
  let order := settings.effective order
  match request with
  | .scalar kind => readAs kind.width fun bytes => .ok (.scalar (Scalar.decode order kind bytes))
  | .narrow kind width =>
      match checkWidth width kind.bits with
      | .error fault => .done (.error (.fault fault))
      | .ok () => readAs width fun bytes => .ok (.scalar (kind.decode order bytes))
  | .text =>
      readLengthLed settings order fun bytes =>
        ((Utf8.decode bytes).mapError Fault.invalidUtf8).map Answer.text
  | .integer =>
      readLengthLed settings order fun bytes => .ok (.integer (TwosComplement.value bytes))
  | .raw count => readAs count fun bytes => .ok (.raw bytes)
  | .skip count => (skipFully count).map fun outcome => outcome.map fun _ => .skipped

end Value

end ByteStreams
