import ByteStreams.Command.Program

/-! The program, carried out by the operating system. -/

namespace ByteStreams

namespace Command

open Channel (PathFault)

def pathFault (error : IO.Error) : PathFault :=
  match error with
  | .inappropriateType _ 20 _ | .noSuchThing _ 20 _ | .invalidArgument _ 20 _ => .notADirectory
  | .inappropriateType _ 21 _ | .noSuchThing _ 21 _ | .invalidArgument _ 21 _ => .isADirectory
  | .hardwareFault 5 _ => .inputOutput
  | .noSuchThing _ 6 _ => .noDevice
  | .resourceExhausted _ 28 _ => .noSpace
  | .permissionDenied _ _ _ => .permissionDenied
  | .inappropriateType _ 36 _ | .noSuchThing _ 36 _ | .invalidArgument _ 36 _ => .nameTooLong
  | _ => .noEntry

partial def readStream (stream : IO.FS.Stream) (found : ByteArray) : IO ByteArray := do
  let piece ← stream.read 65536
  if piece.isEmpty then return found else readStream stream (found ++ piece)

def attempt (action : IO Unit) : IO (Except PathFault Unit) := do
  try
    action
    return .ok ()
  catch error => return .error (pathFault error)

/-- Take all that an input gives. An input without end is taken for ever. -/
def receiveAll : Place → IO Feed
  | .standard => do
      let data ← readStream (← IO.getStdin) ByteArray.empty
      return .ends (.ofBytes data.toList)
  | .path path => do
      try
        let data ← IO.FS.readBinFile path
        return .ends (.ofBytes data.toList)
      catch error => return .ends ⟨[.error (.path (pathFault error))]⟩

def deliverAll (data : Bytes) : Place → IO (Except PathFault Unit)
  | .standard => attempt do
      let stream ← IO.getStdout
      stream.write ⟨data.toArray⟩
      stream.flush
  | .path path => attempt do
      let handle ← IO.FS.Handle.mk path .write
      handle.write ⟨data.toArray⟩
      handle.flush

partial def goOn {α : Type} : IO α := do
  IO.sleep 1000
  goOn

/-- Carry out a session. Entries of the log and complaints go to the standard
error. -/
def perform {α : Type} (logForm : ReportForm) : Session α → IO α
  | .done result => return result
  | .forever => goOn
  | .openInput path next => do
      let answer ← attempt (do let _ ← IO.FS.Handle.mk path .read)
      perform logForm (next answer)
  | .openOutput path next => do
      let answer ← attempt (IO.FS.writeBinFile path ByteArray.empty)
      perform logForm (next answer)
  | .receive input next => do
      let feed ← receiveAll input
      perform logForm (next feed)
  | .deliver output data next => do
      let answer ← deliverAll data output
      perform logForm (next answer)
  | .print line next => do
      IO.println line
      perform logForm next
  | .note entry next => do
      IO.eprintln (entry.line logForm)
      perform logForm next
  | .complain message next => do
      IO.eprintln s!"error: {message}"
      perform logForm next
  | .clock next => do
      let time ← IO.monoNanosNow
      perform logForm (next ⟨time⟩)
  | .isTerminal next => do
      let shown ← (← IO.getStdout).isTty
      perform logForm (next shown)
  | .memory _ next => perform logForm (next true)

end Command

end ByteStreams

def main (arguments : List String) : IO UInt32 := do
  let session := ByteStreams.Command.program .unknown arguments
  let exit ← ByteStreams.Command.perform (ByteStreams.Command.logForm arguments) session
  return UInt32.ofNat exit.code
