import VoxelLogic.Position
import VoxelLogic.Text.Numeral

/-!
# Arguments of the command line

The first argument names a task.  The others are the file that the task works on and options, in any
order; after `--` there are no options.  An option has a long name and may have a short one.  Short
options without a value can be written in one argument, and the value of an option is the rest of
its argument or the next argument, which then must not look like an option itself.  No option may
come twice.

Arguments are taken from left to right, and the first mistake, or the first request for help, ends
it.

* `Task`, `Switch`: what can be asked for.
* `Command`: a task with everything it needs.
* `Request.ofArguments`: what a list of arguments asks for.
-/

namespace VoxelLogic

/-- What the program can do. -/
inductive Task where
  | summarize
  | compile
  | decode
  | generate
  deriving DecidableEq, Repr

/-- An option of a task. -/
inductive Switch where
  | print
  | output
  | inputs
  | outputs
  | seed
  | help
  | version
  deriving DecidableEq, Repr

/-- A task with everything it needs. -/
inductive Command where
  | summarize (file : String)
  | compile (file : String) (print : Bool) (output : Option String)
  | decode (file : String) (output : Option String)
  | generate (inputs outputs : Nat) (seed : UInt64) (print : Bool) (output : Option String)
  deriving DecidableEq, Repr

/-- What arguments ask for. -/
inductive Request where
  | run (command : Command)
  | help
  | misuse
  deriving DecidableEq, Repr

namespace Task

/-- All tasks. -/
def all : List Task := [summarize, compile, decode, generate]

/-- The name of a task. -/
def name : Task → String
  | summarize => "show"
  | compile => "compile"
  | decode => "decode"
  | generate => "random"

/-- The task of a name. -/
def ofName? (name : String) : Option Task := all.find? fun task => task.name == name

/-- The options of a task. -/
def switches : Task → List Switch
  | summarize => [.help, .version]
  | compile => [.print, .output, .help, .version]
  | decode => [.output, .help, .version]
  | generate => [.inputs, .outputs, .seed, .print, .output, .help, .version]

/-- Number of files that a task works on. -/
def fileCount : Task → Nat
  | generate => 0
  | _ => 1

end Task

namespace Switch

/-- The long name of an option. -/
def long : Switch → String
  | print => "print"
  | output => "output"
  | inputs => "nb-inputs"
  | outputs => "nb-outputs"
  | seed => "seed"
  | help => "help"
  | version => "version"

/-- The short name of an option. -/
def short? : Switch → Option Char
  | print => some 'p'
  | output => some 'o'
  | inputs => some 'i'
  | outputs => some 'n'
  | seed => none
  | help => some 'h'
  | version => some 'V'

/-- Whether an option has a value. -/
def hasValue : Switch → Bool
  | output => true
  | inputs => true
  | outputs => true
  | seed => true
  | _ => false

/-- Whether an option asks for help. -/
def isHelp : Switch → Bool
  | help => true
  | version => true
  | _ => false

end Switch

namespace Request

open Text

/-- Reads a decimal number up to a bound, which may have a plus sign. -/
def number? (largest : Nat) (text : String) : Option Nat :=
  let digits := match text.toList with
    | '+' :: digits => digits
    | digits => digits
  (ofDecimal? digits).filter (· ≤ largest)

/-- Whether an option takes a value. -/
def takes (switch : Switch) (value : String) : Bool :=
  match switch with
  | .output => value != ""
  | .inputs => (number? Position.siteCount value).isSome
  | .outputs => (number? Position.siteCount value).isSome
  | .seed => (number? (UInt64.size - 1) value).isSome
  | _ => value == ""

/-- What has been collected from arguments. -/
structure Collected where
  files : List String
  options : List (Switch × String)
  /-- An option whose value is due. -/
  pending : Option Switch

namespace Collected

/-- Nothing collected. -/
def empty : Collected := ⟨[], [], none⟩

/-- Adds an option with its value, unless it came before or does not take the value. -/
def add (c : Collected) (switch : Switch) (value : String) : Except Request Collected :=
  if (c.options.lookup switch).isSome || !takes switch value then .error .misuse
  else .ok { c with options := (switch, value) :: c.options, pending := none }

/-- Adds a file, unless there is one more than the task works on. -/
def addFile (c : Collected) (task : Task) (file : String) : Except Request Collected :=
  if file = "" ∨ task.fileCount ≤ c.files.length then .error .misuse
  else .ok { c with files := c.files ++ [file] }

/-- Adds files. -/
def addFiles (c : Collected) (task : Task) : List String → Except Request Collected
  | [] => .ok c
  | file :: files => (c.addFile task file).bind fun c => c.addFiles task files

/-- Takes an option that is written with its long name and perhaps a value. -/
def addLong (c : Collected) (task : Task) (name : String) (value : Option String) :
    Except Request Collected :=
  match task.switches.find? fun s => s.long == name with
  | none => .error .misuse
  | some switch =>
    match switch.hasValue, value with
    | true, some value => c.add switch value
    | true, none => .ok { c with pending := some switch }
    | false, some _ => .error .misuse
    | false, none => if switch.isHelp then .error .help else c.add switch ""

/-- Takes options that are written with their short names in one argument. -/
def addShort (c : Collected) (task : Task) : List Char → Except Request Collected
  | [] => .ok c
  | letter :: rest =>
    match task.switches.find? fun s => s.short? == some letter with
    | none => .error .misuse
    | some switch =>
      if switch.isHelp then .error .help
      else if switch.hasValue then
        match rest with
        | [] => .ok { c with pending := some switch }
        | '=' :: value => c.add switch (String.ofList value)
        | value => c.add switch (String.ofList value)
      else (c.add switch "").bind fun c => c.addShort task rest

/-- Takes the value of the option that waits for one. -/
def addPending (c : Collected) (switch : Switch) (argument : String) : Except Request Collected :=
  match argument.toList with
  | '-' :: _ :: _ => .error .misuse
  | _ => c.add switch argument

/-- Takes one argument that is not the value of an option. -/
def addArgument (c : Collected) (task : Task) (argument : String) : Except Request Collected :=
  match argument.toList with
  | '-' :: '-' :: text =>
    let name := String.ofList (text.takeWhile (· != '='))
    match text.dropWhile (· != '=') with
    | [] => c.addLong task name none
    | _ :: value => c.addLong task name (some (String.ofList value))
  | '-' :: letter :: letters => c.addShort task (letter :: letters)
  | _ => c.addFile task argument

/-- Takes all arguments. -/
def addAll (c : Collected) (task : Task) : List String → Except Request Collected
  | [] => if c.pending.isSome then .error .misuse else .ok c
  | argument :: arguments =>
    match c.pending with
    | some switch => (c.addPending switch argument).bind fun c => c.addAll task arguments
    | none =>
      if argument = "--" then c.addFiles task arguments
      else (c.addArgument task argument).bind fun c => c.addAll task arguments

/-- The number that an option gives, or a default. -/
def number (c : Collected) (switch : Switch) (default : Nat) : Nat :=
  ((c.options.lookup switch).bind (number? (UInt64.size - 1))).getD default

/-- Whether the table is to be printed. -/
def print (c : Collected) : Bool := (c.options.lookup .print).isSome

/-- The file to be written. -/
def output (c : Collected) : Option String := c.options.lookup .output

/-- The command that has been collected. -/
def command? (c : Collected) (task : Task) : Option Command :=
  match task, c.files with
  | .summarize, [file] => some (.summarize file)
  | .compile, [file] => some (.compile file c.print c.output)
  | .decode, [file] => some (.decode file c.output)
  | .generate, [] =>
    some (.generate (c.number .inputs 3) (c.number .outputs 1) (UInt64.ofNat (c.number .seed 1))
      c.print c.output)
  | _, _ => none

end Collected

/-- What the arguments of a task ask for. -/
def ofTask (task : Task) (arguments : List String) : Request :=
  match Collected.empty.addAll task arguments with
  | .error request => request
  | .ok c =>
    match c.command? task with
    | none => .misuse
    | some command => .run command

/-- What the names behind `help` ask for. -/
def ofHelp : List String → Request
  | [] => .help
  | [name] => if (Task.ofName? name).isSome ∨ name = "help" then .help else .misuse
  | _ => .misuse

/-- What arguments ask for. -/
def ofArguments : List String → Request
  | [] => .misuse
  | name :: arguments =>
    match Task.ofName? name with
    | some task => ofTask task arguments
    | none =>
      if name = "help" then ofHelp arguments
      else if name = "--help" ∨ name = "--version" then .help
      else
        match name.toList with
        | '-' :: letter :: _ => if letter = 'h' ∨ letter = 'V' then .help else .misuse
        | _ => .misuse

end Request

end VoxelLogic
