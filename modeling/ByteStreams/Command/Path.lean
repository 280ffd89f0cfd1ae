import ByteStreams.Channel.Failure

/-!
Paths as text, and the locations that they lead to.

A path is read part by part between its slashes. A location is what plain names lead
to from an anchor: from the directory that a command runs in, from one of those above
it, or from the root. How far the root is above that directory is not known, so no
directory above is the root.
-/

namespace ByteStreams

namespace Command

open Channel (PathFault)

namespace Path

def cutAtSlashes : List Char → List (List Char)
  | [] => [[]]
  | '/' :: rest => [] :: cutAtSlashes rest
  | character :: rest =>
      match cutAtSlashes rest with
      | [] => [[character]]
      | part :: parts => (character :: part) :: parts

/-- The parts of a path between its slashes. -/
def parts (path : String) : List String := (cutAtSlashes path.toList).map String.ofList

def isAbsolute (path : String) : Bool := path.toList.head? = some '/'

/-- Whether a part names something in the directory where the path has led to. -/
def isName (part : String) : Bool := part ≠ "" && part ≠ "." && part ≠ ".."

def longestName : Nat := 255

def longestPath : Nat := 4095

end Path

inductive Anchor
  /-- The directory so many levels above the one that the command runs in. -/
  | above (levels : Nat)
  | root
deriving DecidableEq, Repr

def Anchor.parent : Anchor → Anchor
  | .above levels => .above (levels + 1)
  | .root => .root

structure Location where
  anchor : Anchor
  names : List String
deriving DecidableEq, Repr

namespace Location

def here : Location := ⟨.above 0, []⟩

def root : Location := ⟨.root, []⟩

def start (path : String) : Location := if Path.isAbsolute path then root else here

def parent (location : Location) : Location :=
  if location.names.isEmpty then ⟨location.anchor.parent, []⟩
  else ⟨location.anchor, location.names.dropLast⟩

def child (location : Location) (name : String) : Except PathFault Location :=
  if Path.longestName < name.utf8ByteSize then .error .nameTooLong
  else .ok ⟨location.anchor, location.names ++ [name]⟩

def isWithin (location above : Location) : Bool :=
  location.anchor = above.anchor && above.names.isPrefixOf location.names

end Location

end Command

end ByteStreams
