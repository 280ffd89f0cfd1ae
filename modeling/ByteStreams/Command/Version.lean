import ByteStreams.Command.Exit
import ByteStreams.Command.Session

/-! The command that tells the program's version. -/

namespace ByteStreams

namespace Command

structure Build where
  target : String
  profile : String
  targetOs : String
  targetArch : String
  compiler : String
  revision : String
deriving DecidableEq, Repr

def programName : String := "streamprims"

def programVersion : String := "0.2.1"

def nameAndVersion : String := programName ++ " " ++ programVersion

namespace Build

def unknown : Build := ⟨"unknown", "unknown", "unknown", "unknown", "unknown", "unknown"⟩

/-- The names and values that are told of the program; those of its build only if
`extended`. -/
def facts (build : Build) (extended : Bool) : List (String × String) :=
  [("name", programName), ("version", programVersion)] ++
    if extended then
      [("target", build.target), ("profile", build.profile), ("target_os", build.targetOs),
        ("target_arch", build.targetArch), ("rustc", build.compiler),
        ("git_hash", build.revision)]
    else []

def lines (build : Build) (extended : Bool) : ReportForm → List String
  | .object =>
      [renderObject ((build.facts extended).map fun (name, value) => (name, .text value))]
  | .text =>
      if extended then (build.facts extended).map fun (name, value) => name ++ ": " ++ value
      else [nameAndVersion]

def carryOut (build : Build) (extended : Bool) (form : ReportForm) :
    Session (Except Refusal Unit) :=
  (build.lines extended form).foldr .print (.done (.ok ()))

end Build

end Command

end ByteStreams
