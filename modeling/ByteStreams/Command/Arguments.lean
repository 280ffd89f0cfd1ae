import ByteStreams.Command.Invocation

/-!
Reading the arguments of the program.

Arguments are read from left to right, first those of the program and, after the
name of a command, those of the command. Two dashes and a name are an option or a
switch, one dash and a letter are short for one. A value follows its option as the
next argument, or directly after an equals sign or the letter; as the next argument
it does not begin with a dash, unless it is nothing else. After two dashes alone,
all that follows are operands.

A value is taken in when the next option, switch or operand is read. The name of a
command is none of these, so what was given before the name is checked after the
arguments of the command. What asks for help ends the reading at once.
-/

namespace ByteStreams

namespace Command

inductive Stop
  | help
  | version
  | fault (fault : ArgumentFault)
deriving DecidableEq, Repr

/-! ## Names -/

/-- Whose arguments are read: those of a command, or those of the program before
it. -/
abbrev Scope := Option Name

inductive Switch
  | help
  | version
  | extended
deriving DecidableEq, Repr

inductive Named
  | option (option : OptionName)
  | switch (switch : Switch)
deriving DecidableEq, Repr

namespace Scope

def named? (scope : Scope) (name : String) : Option Named :=
  match scope, name with
  | _, "format" => some (.option .format)
  | _, "log-format" => some (.option .logFormat)
  | _, "log-level" => some (.option .logLevel)
  | _, "help" => some (.switch .help)
  | none, "version" => some (.switch .version)
  | some (.codec _), "output" => some (.option .output)
  | some (.codec _), "signal" => some (.option .signal)
  | some .bench, "capacity" => some (.option .capacity)
  | some .bench, "size" => some (.option .size)
  | some .bench, "chunk" => some (.option .chunk)
  | some .bench, "timeout" => some (.option .timeout)
  | some .version, "extended" => some (.switch .extended)
  | _, _ => none

def lettered? (scope : Scope) (letter : Char) : Option Named :=
  match scope, letter with
  | _, 'h' => some (.switch .help)
  | none, 'V' => some (.switch .version)
  | some (.codec _), 'o' => some (.option .output)
  | _, _ => none

def takesOperand : Scope → Bool
  | some (.codec _) => true
  | _ => false

end Scope

/-! ## Shapes -/

inductive Shape
  | endOfOptions
  /-- Two dashes and a name, and what follows an equals sign. -/
  | long (name : String) (value : Option String)
  /-- One dash, a letter and what follows it. -/
  | short (letter : Char) (rest : List Char)
  | word
deriving DecidableEq, Repr

def shape (argument : String) : Shape :=
  match argument.toList with
  | ['-', '-'] => .endOfOptions
  | '-' :: '-' :: rest =>
      let name := String.ofList (rest.takeWhile (· ≠ '='))
      match rest.dropWhile (· ≠ '=') with
      | [] => .long name none
      | _ :: value => .long name (some (String.ofList value))
  | '-' :: letter :: rest => .short letter rest
  | _ => .word

def attached? : List Char → Option String
  | [] => none
  | '=' :: value => some (String.ofList value)
  | value => some (String.ofList value)

/-! ## Reading -/

/-- What was read last and not taken in yet. -/
inductive Pending
  | nothing
  | option (option : OptionName) (value : Option String)
  | operand (text : String)
deriving DecidableEq, Repr

structure Reader where
  given : Given
  pending : Pending
  hasOperand : Bool
deriving DecidableEq, Repr

namespace Reader

def new : Reader := ⟨.empty, .nothing, false⟩

def takeIn (reader : Reader) : Except Stop Given :=
  match reader.pending with
  | .nothing => .ok reader.given
  | .option option none => .error (.fault (.noValue option))
  | .option option (some value) => (reader.given.put option value).mapError .fault
  | .operand text => (reader.given.putInput text).mapError .fault

def turnTo (reader : Reader) (pending : Pending) : Except Stop Reader :=
  reader.takeIn.map fun given => { reader with given := given, pending := pending }

/-- Read an option. A value that is part of the same argument is taken in at
once. -/
def option (reader : Reader) (option : OptionName) (value : Option String) :
    Except Stop Reader :=
  match value with
  | none => reader.turnTo (.option option none)
  | some value =>
      match reader.takeIn with
      | .error stop => .error stop
      | .ok given =>
          match given.put option value with
          | .error fault => .error (.fault fault)
          | .ok given => .ok { reader with given := given, pending := .nothing }

def switch (reader : Reader) (switch : Switch) : Except Stop Reader :=
  match reader.takeIn with
  | .error stop => .error stop
  | .ok given =>
      match switch with
      | .help => .error .help
      | .version => .error .version
      | .extended =>
          match given.extend with
          | .error fault => .error (.fault fault)
          | .ok given => .ok { reader with given := given, pending := .nothing }

def operand (reader : Reader) (scope : Scope) (text : String) : Except Stop Reader :=
  if scope.takesOperand && !reader.hasOperand then
    (reader.turnTo (.operand text)).map fun reader => { reader with hasOperand := true }
  else
    .error (.fault (.unexpected text))

/-- Read a word, which is the value that the last option lacks, or an operand. -/
def word (reader : Reader) (scope : Scope) (text : String) : Except Stop Reader :=
  match reader.pending with
  | .option option none => .ok { reader with pending := .option option (some text) }
  | _ => reader.operand scope text

/-- Read an argument of any shape but that of two dashes alone. -/
def argument (reader : Reader) (scope : Scope) (text : String) : Except Stop Reader :=
  match shape text with
  | .long name value =>
      match scope.named? name, value with
      | none, _ => .error (.fault (.unexpected text))
      | some (.option option), value => reader.option option value
      | some (.switch _), some _ => .error (.fault (.needlessValue text))
      | some (.switch switch), none => reader.switch switch
  | .short letter rest =>
      match scope.lettered? letter with
      | none => .error (.fault (.unexpected text))
      | some (.option option) => reader.option option (attached? rest)
      | some (.switch switch) => reader.switch switch
  | .word | .endOfOptions => reader.word scope text

/-- Whether a word may name a command: it is not the value of an option. -/
def mayBeginCommand (reader : Reader) : Bool :=
  match reader.pending with
  | .option _ none => false
  | _ => true

def operands (reader : Reader) (scope : Scope) : List String → Except Stop Given
  | [] => reader.takeIn
  | text :: rest =>
      match reader.operand scope text with
      | .error stop => .error stop
      | .ok reader => reader.operands scope rest

def command (reader : Reader) (name : Name) : List String → Except Stop Given
  | [] => reader.takeIn
  | text :: rest =>
      if text = "--" then
        reader.operands (some name) rest
      else
        match reader.argument (some name) text with
        | .error stop => .error stop
        | .ok reader => reader.command name rest

def help : List String → Stop
  | [] => .help
  | word :: rest =>
      if (Name.ofWord? word).isNone && word ≠ "help" then .fault (.unknownCommand word)
      else match rest with
        | [] => .help
        | other :: _ => .fault (.unknownCommand other)

def program (reader : Reader) : List String → Except Stop Invocation
  | [] =>
      match reader.takeIn with
      | .error stop => .error stop
      | .ok _ => .error (.fault .noCommand)
  | text :: rest =>
      if reader.mayBeginCommand && text = "help" then
        .error (help rest)
      else
        match (Name.ofWord? text).filter fun _ => reader.mayBeginCommand with
        | some name =>
            match new.command name rest with
            | .error stop => .error stop
            | .ok inner => reader.takeIn.map fun outer => (inner.within outer).invocation name
        | none =>
            if text = "--" then
              match reader.operands none rest with
              | .error stop => .error stop
              | .ok _ => .error (.fault .noCommand)
            else
              match reader.argument none text with
              | .error stop => .error stop
              | .ok reader => reader.program rest

end Reader

def readArguments (arguments : List String) : Except Stop Invocation :=
  Reader.new.program arguments

section Examples

private def orderOf? (arguments : List String) : Option Order :=
  (readArguments arguments).toOption.map Invocation.order

example : orderOf? ["--log-level", "warn", "decode", "-oplain", "--", "-"] =
    some (.codec ⟨.decode, .standard, .path "plain", 0xE2⟩) := by
  decide +kernel

example : orderOf? ["pipe-bench", "--size=+7", "--timeout", "5s"] =
    some (.bench ⟨4096, 7, 512, Span.ofSeconds 5⟩) := by
  decide +kernel

/-- A value does not begin with a dash. -/
example : orderOf? ["encode", "--signal", "-1"] = none := by decide +kernel

end Examples

end Command

end ByteStreams
