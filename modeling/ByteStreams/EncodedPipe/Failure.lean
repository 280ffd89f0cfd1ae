import ByteStreams.Channel.Failure

/-! Why an encoded pipe fails, whichever layer fails. -/

namespace ByteStreams

namespace EncodedPipe

inductive Failure
  | pipe (fault : Pipe.Fault)
  | runLength (failure : RunLength.Failure)
  | value (failure : Value.Failure)
  | channel (failure : Channel.Failure)
deriving DecidableEq, Repr

namespace Failure

def message : Failure → String
  | .pipe cause => "pipe: " ++ cause.message
  | .runLength cause => "rle: " ++ cause.message
  | .value cause => "primitive: " ++ cause.message
  | .channel cause => "I/O error: " ++ cause.message

def toChannel : Failure → Channel.Failure
  | .pipe cause => .pipe cause
  | .runLength cause => cause.toChannel
  | .value cause => cause.toChannel
  | .channel cause => cause

end Failure

end EncodedPipe

end ByteStreams
