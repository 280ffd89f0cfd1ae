import ByteStreams.Bytes
import ByteStreams.Command.Path

/-!
Files, folders and devices, and the paths that lead to them.

Empty parts of a path and single dots lead nowhere else, two dots lead up, and every
part but the last has to be a folder. Every anchor is a folder. Of what lies outside of
the directory that a command runs in, only that is known which every system has.
-/

namespace ByteStreams

namespace Command

open Channel (PathFault)

inductive Device
  /-- Gives nothing and keeps nothing. -/
  | null
  /-- Gives zeros without end, and keeps nothing. -/
  | zeros
  /-- Gives zeros without end, and has room for nothing. -/
  | full
  | standardInput
  | standardOutput
  | standardError
  /-- The terminal, which a program that works with files and pipes does not have. -/
  | terminal
  /-- The memory of a process, where the first bytes can be neither read nor written. -/
  | memory
deriving DecidableEq, Repr

inductive Node
  | file (content : Bytes)
  | folder
  | device (device : Device)
deriving DecidableEq, Repr

/-- A file system, as seen from the directory that a command runs in. -/
structure FileSystem where
  nodes : List (Location × Node)
deriving DecidableEq, Repr

namespace FileSystem

/-- The devices that every system has, under the names that lead to them from the
root, but for those of bytes that nobody can tell. -/
def devices : List (List String × Device) := [
  (["dev", "null"], .null), (["dev", "zero"], .zeros), (["dev", "full"], .full),
  (["dev", "tty"], .terminal), (["dev", "stdin"], .standardInput),
  (["dev", "stdout"], .standardOutput), (["dev", "stderr"], .standardError),
  (["dev", "fd", "0"], .standardInput), (["dev", "fd", "1"], .standardOutput),
  (["dev", "fd", "2"], .standardError), (["proc", "self", "fd", "0"], .standardInput),
  (["proc", "self", "fd", "1"], .standardOutput),
  (["proc", "self", "fd", "2"], .standardError), (["proc", "self", "mem"], .memory)]

def folders : List (List String) :=
  ["bin", "boot", "etc", "home", "lib", "media", "mnt", "opt", "root", "run", "sbin", "srv",
    "sys", "tmp"].map (fun name => [name]) ++
  ["pts", "shm"].map (fun name => ["dev", name]) ++
  ["bin", "lib", "local", "sbin", "share"].map (fun name => ["usr", name]) ++
  ["cache", "lib", "log", "spool", "tmp"].map fun name => ["var", name]

def system : List (Location × Node) :=
  devices.map (fun (names, device) => (⟨.root, names⟩, .device device)) ++
    folders.map fun names => (⟨.root, names⟩, .folder)

/-- A file system with these things in the directory, each under the names that lead to
it. -/
def ofEntries (entries : List (List String × Node)) : FileSystem :=
  ⟨entries.map (fun (names, node) => (⟨.above 0, names⟩, node)) ++ system⟩

/-- What is at a location. Whatever has something below it is a folder. -/
def lookup (files : FileSystem) (location : Location) : Option Node :=
  match files.nodes.lookup location with
  | some node => some node
  | none =>
      if location.names.isEmpty || files.nodes.any fun (place, _) => place.isWithin location then
        some .folder
      else none

def put (files : FileSystem) (location : Location) (node : Node) : FileSystem :=
  ⟨(location, node) :: files.nodes.filter fun (place, _) => place ≠ location⟩

theorem lookup_put_self (files : FileSystem) (location : Location) (node : Node) :
    (files.put location node).lookup location = some node := by
  simp [lookup, put]

/-! ## Following paths -/

def walk (files : FileSystem) (here : Location) : List String → Except PathFault Location
  | [] => .ok here
  | part :: rest =>
      if part = "" ∨ part = "." then
        files.walk here rest
      else if part = ".." then
        files.walk here.parent rest
      else
        match here.child part with
        | .error fault => .error fault
        | .ok there =>
            match files.lookup there with
            | some .folder => files.walk there rest
            | some _ => .error .notADirectory
            | none => .error .noEntry

def walkToName (files : FileSystem) (path : String) (before : List String) (name : String) :
    Except PathFault Location :=
  match files.walk (.start path) before with
  | .error fault => .error fault
  | .ok here => here.child name

def locate (files : FileSystem) (path : String) : Except PathFault Location :=
  if Path.longestPath < path.utf8ByteSize then
    .error .nameTooLong
  else
    match (Path.parts path).reverse with
    | [] => .error .noEntry
    | last :: before =>
        if Path.isName last then
          match files.walkToName path before.reverse last with
          | .error fault => .error fault
          | .ok location =>
              match files.lookup location with
              | none => .error .noEntry
              | some (.device .terminal) => .error .noDevice
              | some _ => .ok location
        else
          files.walk (.start path) (Path.parts path)

/-- Why no file can be made at a location. The folders that show processes and the
devices of the system take none. -/
def closedTo? (location : Location) : Option PathFault :=
  match location with
  | ⟨.root, "proc" :: _⟩ => some .noEntry
  | ⟨.root, "sys" :: _⟩ => some .permissionDenied
  | _ => none

/-- Make an empty file, or empty the one that is there. A device stays as it is. The
location comes with the file system. A path that ends with a slash or with dots asks
for a folder. -/
def create (files : FileSystem) (path : String) : Except PathFault (Location × FileSystem) :=
  if Path.longestPath < path.utf8ByteSize then
    .error .nameTooLong
  else
    match (Path.parts path).reverse with
    | [] => .error .noEntry
    | last :: before =>
        if Path.isName last then
          match files.walkToName path before.reverse last with
          | .error fault => .error fault
          | .ok location =>
              match files.lookup location with
              | some .folder => .error .isADirectory
              | some (.device .terminal) => .error .noDevice
              | some (.device _) => .ok (location, files)
              | some (.file _) => .ok (location, files.put location (.file []))
              | none =>
                  match closedTo? location with
                  | some fault => .error fault
                  | none => .ok (location, files.put location (.file []))
        else
          match (last :: before).dropWhile (· = "") with
          | [] => .error .isADirectory
          | _ :: before =>
              match files.walk (.start path) before.reverse with
              | .error fault => .error fault
              | .ok _ => .error .isADirectory

def content? (files : FileSystem) (path : String) : Option Bytes :=
  match (files.locate path).toOption.bind files.lookup with
  | some (.file content) => some content
  | some (.device .null) => some []
  | _ => none

section Examples

private def sample : FileSystem :=
  .ofEntries [(["notes"], .file [1, 2]), (["store", "old"], .file [])]

example : (sample.locate "./store//old").toOption = some ⟨.above 0, ["store", "old"]⟩ := by
  decide +kernel

example : (sample.locate "store/../notes").toOption = some ⟨.above 0, ["notes"]⟩ := by
  decide +kernel

/-- The directory itself has a name above, but it is not known. -/
example : (sample.locate "store/../../").toOption = some ⟨.above 1, []⟩ ∧
    (sample.locate "/..").toOption = some .root := by
  decide +kernel

example : (sample.create "store/new").toOption.isSome = true := by decide +kernel

example : (sample.create "store").toOption = none := by decide +kernel

end Examples

end FileSystem

end Command

end ByteStreams
