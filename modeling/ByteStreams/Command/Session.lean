import ByteStreams.Channel.Source
import ByteStreams.Command.FileSystem
import ByteStreams.Command.Log
import ByteStreams.Text.Utf8

/-!
Sessions, what commands do with the world around them.

A session is the tree of a command's calls: it opens files, takes all that an input
gives, delivers all that an output is to hold, prints, notes entries in the log,
complains, asks for memory and looks at the clock and the terminal. It may also go on
for ever. The same session runs against surroundings that are a value, or is carried
out by the operating system.
-/

namespace ByteStreams

namespace Command

open Channel (PathFault Source)

inductive Place
  | standard
  | path (path : String)
deriving DecidableEq, Repr

namespace Place

/-- The place that an operand stands for. A dash, or nothing, is the standard input or
output. Slashes and dots after the dash make no difference. -/
def ofOperand : Option String → Place
  | none => .standard
  | some operand =>
      match Path.parts operand with
      | "-" :: rest =>
          if rest.all fun part => part = "" || part = "." then .standard else .path operand
      | _ => .path operand

example : ofOperand (some "-") = .standard ∧ ofOperand (some "./-") = .path "./-" := by
  decide +kernel

end Place

inductive Feed
  | ends (source : Source)
  /-- Zeros without end. -/
  | zeros

namespace Feed

/-- What is looked at of an input: the first of zeros without end, or all. -/
def front : Feed → Source
  | .ends source => source
  | .zeros => .ofBytes (List.replicate 65536 0)

def isEndless : Feed → Bool
  | .ends _ => false
  | .zeros => true

end Feed

/-- A program that works with files, the standard streams, a log and a clock, and
then has a result, if it comes to an end. -/
inductive Session (α : Type) where
  | done (result : α)
  | forever
  /-- Open a file to read it. -/
  | openInput (path : String) (next : Except PathFault Unit → Session α)
  /-- Make an empty file, or empty the one that is there. -/
  | openOutput (path : String) (next : Except PathFault Unit → Session α)
  /-- Take all that an input gives. -/
  | receive (input : Place) (next : Feed → Session α)
  /-- Deliver all that an output is to hold. -/
  | deliver (output : Place) (data : Bytes) (next : Except PathFault Unit → Session α)
  | print (line : String) (next : Session α)
  | note (entry : LogEntry) (next : Session α)
  /-- Say that something went wrong. -/
  | complain (message : String) (next : Session α)
  | clock (next : Span → Session α)
  /-- Whether the standard output is a terminal. -/
  | isTerminal (next : Bool → Session α)
  /-- Whether there is memory for so many bytes more. -/
  | memory (size : Nat) (next : Bool → Session α)

namespace Session

def bind {α β : Type} : Session α → (α → Session β) → Session β
  | .done result, andThen => andThen result
  | .forever, _ => .forever
  | .openInput path next, andThen => .openInput path fun answer => (next answer).bind andThen
  | .openOutput path next, andThen => .openOutput path fun answer => (next answer).bind andThen
  | .receive input next, andThen => .receive input fun feed => (next feed).bind andThen
  | .deliver output data next, andThen =>
      .deliver output data fun answer => (next answer).bind andThen
  | .print line next, andThen => .print line (next.bind andThen)
  | .note entry next, andThen => .note entry (next.bind andThen)
  | .complain message next, andThen => .complain message (next.bind andThen)
  | .clock next, andThen => .clock fun time => (next time).bind andThen
  | .isTerminal next, andThen => .isTerminal fun shown => (next shown).bind andThen
  | .memory size next, andThen => .memory size fun granted => (next granted).bind andThen

/-- Make entries in the log, those alone that it admits. -/
def noteAll {α : Type} (threshold : LogLevel) (entries : List LogEntry) (next : Session α) :
    Session α :=
  (entries.filter fun entry => threshold.admits entry.level).foldr .note next

end Session

/-! ## Surroundings as a value -/

/-- In what pieces a file gives what it holds. Nothing is lost or added. -/
structure Cutting where
  source : Bytes → Source
  remaining_eq : ∀ content, (source content).remaining = content

def Cutting.whole : Cutting where
  source := .ofBytes
  remaining_eq := Source.remaining_ofBytes

structure Surroundings where
  files : FileSystem
  cutting : Cutting
  /-- What the standard input gives. -/
  input : Source
  terminal : Bool
  /-- Whether there is memory for so many bytes. -/
  memory : Nat → Bool
  /-- What went to the standard output, last piece first. -/
  printed : List Bytes
  /-- The entries of the log, last one first. -/
  entries : List LogEntry
  /-- What was complained of, last message first. -/
  complaints : List String
  time : Span

namespace Surroundings

/-- No terminal, and as much memory as may be asked for. -/
def new (files : FileSystem) (input : Source) : Surroundings :=
  ⟨files, .whole, input, false, fun _ => true, [], [], [], ⟨0⟩⟩

def output (surroundings : Surroundings) : Bytes := Bytes.join surroundings.printed

def log (surroundings : Surroundings) : List LogEntry := surroundings.entries.reverse

/-- What an input gives. A folder can be opened, but not read. -/
def feed (surroundings : Surroundings) : Place → Feed
  | .standard => .ends surroundings.input
  | .path path =>
      match surroundings.files.locate path with
      | .error fault => .ends ⟨[.error (.path fault)]⟩
      | .ok location =>
          match surroundings.files.lookup location with
          | some (.file content) => .ends (surroundings.cutting.source content)
          | some (.device .standardInput) => .ends surroundings.input
          | some (.device .zeros) | some (.device .full) => .zeros
          | some (.device .memory) => .ends ⟨[.error (.path .inputOutput)]⟩
          | some (.device _) => .ends ⟨[]⟩
          | some .folder | none => .ends ⟨[.error (.path .isADirectory)]⟩

def emit (surroundings : Surroundings) (data : Bytes) : Surroundings :=
  { surroundings with printed := data :: surroundings.printed }

/-- Make a file hold data, if it can be made, or pass data to a device. -/
def store (surroundings : Surroundings) (path : String) (data : Bytes) :
    Except PathFault Unit × Surroundings :=
  match surroundings.files.create path with
  | .error fault => (.error fault, surroundings)
  | .ok (location, files) =>
      match files.lookup location with
      | some (.device .full) =>
          (if data.isEmpty then .ok () else .error .noSpace, surroundings)
      | some (.device .memory) =>
          (if data.isEmpty then .ok () else .error .inputOutput, surroundings)
      | some (.device .standardOutput) => (.ok (), surroundings.emit data)
      | some (.device _) => (.ok (), surroundings)
      | _ => (.ok (), { surroundings with files := files.put location (.file data) })

end Surroundings

/-- What a session comes to, and what it leaves behind, if it comes to an end. -/
def Session.run {α : Type} : Session α → Surroundings → Option (α × Surroundings)
  | .done result, surroundings => some (result, surroundings)
  | .forever, _ => none
  | .openInput path next, surroundings =>
      (next ((surroundings.files.locate path).map fun _ => ())).run surroundings
  | .openOutput path next, surroundings =>
      match surroundings.files.create path with
      | .error fault => (next (.error fault)).run surroundings
      | .ok (_, files) => (next (.ok ())).run { surroundings with files := files }
  | .receive input next, surroundings => (next (surroundings.feed input)).run surroundings
  | .deliver .standard data next, surroundings => (next (.ok ())).run (surroundings.emit data)
  | .deliver (.path path) data next, surroundings =>
      (next (surroundings.store path data).1).run (surroundings.store path data).2
  | .print line next, surroundings =>
      next.run (surroundings.emit (Utf8.encode (line ++ "\n")))
  | .note entry next, surroundings =>
      next.run { surroundings with entries := entry :: surroundings.entries }
  | .complain message next, surroundings =>
      next.run { surroundings with complaints := message :: surroundings.complaints }
  | .clock next, surroundings => (next surroundings.time).run surroundings
  | .isTerminal next, surroundings => (next surroundings.terminal).run surroundings
  | .memory size next, surroundings => (next (surroundings.memory size)).run surroundings

theorem Session.run_bind {α β : Type} (session : Session α) (andThen : α → Session β)
    (surroundings : Surroundings) :
    (session.bind andThen).run surroundings =
      (session.run surroundings).bind fun (result, after) => (andThen result).run after := by
  fun_induction Session.run session surroundings <;> simp_all [Session.bind, Session.run]

end Command

end ByteStreams
