import ByteStreams.Channel.Writing
import ByteStreams.Value.Item

/-!
Writers of values with their buffer.

A writer stages a value in a buffer before the value goes to the sink. It keeps the buffer
from call to call, also past a call that failed or broke down, and clears it first in each
call that uses it. Text and integers of any size have only their length staged.
-/

namespace ByteStreams

namespace Value

open Channel (Writing)

structure StagingWriter where
  settings : Settings
  staged : Bytes

namespace StagingWriter

def clear (writer : StagingWriter) : StagingWriter := { writer with staged := [] }

def put (writer : StagingWriter) (bytes : Bytes) : StagingWriter :=
  { writer with staged := writer.staged ++ bytes }

/-- Bytes go to the sink from the buffer, and stay there whether or not the sink takes them. -/
def stage (writer : StagingWriter) (bytes : Bytes) :
    Writing (Except Failure Unit × StagingWriter) :=
  let filled := writer.clear.put bytes
  .writeAll filled.staged fun answer => .done (answer.mapError Failure.channel, filled)

/-- Bytes go to the sink past the buffer. -/
def pass (writer : StagingWriter) (data : Bytes) :
    Writing (Except Failure Unit × StagingWriter) :=
  .writeAll data fun answer => .done (answer.mapError Failure.channel, writer)

/-- The buffer is cleared before the bytes are cut out of a word that may not have them. -/
def stageNarrow (writer : StagingWriter) (order : ByteOrder) (value width bits : Nat) :
    Writing (Except Failure Unit × StagingWriter) :=
  match checkWidth width bits with
  | .error (.beyondWord width) => .done (.error (.fault (.beyondWord width)), writer.clear)
  | .error fault => .done (.error (.fault fault), writer)
  | .ok () => writer.stage (order.encode width value)

def writeLed (writer : StagingWriter) (order : ByteOrder) (content : Bytes) :
    Writing (Except Failure Unit × StagingWriter) :=
  if longestContent < content.length then
    .done (.error (.fault (.invalidLength content.length longestContent)), writer)
  else
    (writer.stage (lengthBytes order content.length)).bind fun
      | (.ok (), writer) => writer.pass content
      | (.error failure, writer) => .done (.error failure, writer)

def write (writer : StagingWriter) (item : Item) (own : Option ByteOrder) :
    Writing (Except Failure Unit × StagingWriter) :=
  let order := writer.settings.effective own
  match item with
  | .scalar value => writer.stage (value.encode order)
  | .narrow32 value width => writer.stageNarrow order value.toNat width 32
  | .narrow64 value width => writer.stageNarrow order value.toNat width 64
  | .text value => writer.writeLed order (Utf8.encode value)
  | .integer value => writer.writeLed order (TwosComplement.encode value)
  | .raw data => writer.pass data

end StagingWriter

end Value

end ByteStreams
