import ByteStreams.Pipe.Fault
import ByteStreams.RunLength.Fault
import ByteStreams.Value.Fault

/-!
Failures of byte channels.

Every sink and source fails in the same type, so that layers stack freely. A fault
of a layer travels through the layers above it unchanged; its kind is what loops
that retry, and exit codes, look at.
-/

namespace ByteStreams

namespace Channel

inductive Kind
  | notFound
  | permissionDenied
  | connectionRefused
  | connectionReset
  | brokenPipe
  | alreadyExists
  | wouldBlock
  | notADirectory
  | isADirectory
  | invalidFilename
  | invalidInput
  | invalidData
  | timedOut
  | writeZero
  | storageFull
  | interrupted
  | unexpectedEof
  | other
deriving DecidableEq, Repr

def Kind.description : Kind → String
  | .notFound => "entity not found"
  | .permissionDenied => "permission denied"
  | .connectionRefused => "connection refused"
  | .connectionReset => "connection reset"
  | .brokenPipe => "broken pipe"
  | .alreadyExists => "entity already exists"
  | .wouldBlock => "operation would block"
  | .notADirectory => "not a directory"
  | .isADirectory => "is a directory"
  | .invalidFilename => "invalid filename"
  | .invalidInput => "invalid input parameter"
  | .invalidData => "invalid data"
  | .timedOut => "timed out"
  | .writeZero => "write zero"
  | .storageFull => "no storage space"
  | .interrupted => "operation interrupted"
  | .unexpectedEof => "unexpected end of file"
  | .other => "other error"

inductive PathFault
  | noEntry
  | inputOutput
  | noDevice
  | permissionDenied
  | notADirectory
  | isADirectory
  | noSpace
  | nameTooLong
deriving DecidableEq, Repr

def PathFault.kind : PathFault → Kind
  | .noEntry => .notFound
  | .inputOutput | .noDevice => .other
  | .permissionDenied => .permissionDenied
  | .notADirectory => .notADirectory
  | .isADirectory => .isADirectory
  | .noSpace => .storageFull
  | .nameTooLong => .invalidFilename

def PathFault.message : PathFault → String
  | .noEntry => "No such file or directory (os error 2)"
  | .inputOutput => "Input/output error (os error 5)"
  | .noDevice => "No such device or address (os error 6)"
  | .permissionDenied => "Permission denied (os error 13)"
  | .notADirectory => "Not a directory (os error 20)"
  | .isADirectory => "Is a directory (os error 21)"
  | .noSpace => "No space left on device (os error 28)"
  | .nameTooLong => "File name too long (os error 36)"

inductive Failure
  | bare (kind : Kind)
  /-- A kind, and a text of its own. -/
  | noted (kind : Kind) (text : String)
  | path (fault : PathFault)
  | pipe (fault : Pipe.Fault)
  | runLength (fault : RunLength.Fault)
  | value (fault : Value.Fault)
deriving DecidableEq, Repr

def kindOfPipe : Pipe.Fault → Kind
  | .closed => .brokenPipe
  | .timeout _ => .timedOut
  | .invalidCapacity _ => .invalidInput

def kindOfRunLength : RunLength.Fault → Kind
  | .closed => .brokenPipe
  | .invalidRunLength _ _ => .invalidInput
  | .truncated _ _ | .reservedIndicator _ | .emptyRun => .invalidData

def kindOfValue : Value.Fault → Kind
  | .unexpectedEnd _ _ => .unexpectedEof
  | .invalidWidth _ _ => .invalidInput
  | .invalidLength _ _ | .invalidUtf8 _ => .invalidData
  | .beyondWord _ => .other

namespace Failure

def kind : Failure → Kind
  | .bare kind | .noted kind _ => kind
  | .path fault => fault.kind
  | .pipe fault => kindOfPipe fault
  | .runLength fault => kindOfRunLength fault
  | .value fault => kindOfValue fault

def message : Failure → String
  | .bare kind => kind.description
  | .noted _ text => text
  | .path fault => fault.message
  | .pipe fault => fault.message
  | .runLength fault => fault.message
  | .value fault => fault.message

def isInterruption (failure : Failure) : Bool := failure.kind = .interrupted

def writeZero : Failure := .noted .writeZero "failed to write whole buffer"

def shortRead : Failure := .noted .unexpectedEof "failed to fill whole buffer"

end Failure

end Channel

/-! ## Failures of one layer

A layer fails by a fault of its own, or because the channel below it failed. -/

inductive RunLength.Failure
  | fault (fault : RunLength.Fault)
  | channel (failure : Channel.Failure)
deriving DecidableEq, Repr

namespace RunLength.Failure

def message : RunLength.Failure → String
  | .fault cause => cause.message
  | .channel cause => "rle I/O error: " ++ cause.message

def toChannel : RunLength.Failure → Channel.Failure
  | .fault cause => .runLength cause
  | .channel cause => cause

end RunLength.Failure

inductive Value.Failure
  | fault (fault : Value.Fault)
  | channel (failure : Channel.Failure)
deriving DecidableEq, Repr

namespace Value.Failure

def message : Value.Failure → String
  | .fault cause => cause.message
  | .channel cause => "primitive I/O error: " ++ cause.message

def toChannel : Value.Failure → Channel.Failure
  | .fault cause => .value cause
  | .channel cause => cause

end Value.Failure

/-! A fault at the bottom is the failure that comes out at the top. -/

theorem RunLength.Failure.toChannel_channel (cause : Channel.Failure) :
    (RunLength.Failure.channel cause).toChannel = cause := rfl

theorem Value.Failure.toChannel_channel (cause : Channel.Failure) :
    (Value.Failure.channel cause).toChannel = cause := rfl

end ByteStreams
