import Chip8.CommandLine.Switch
import Chip8.Keymap
import Chip8.Text.Lines
import Chip8.Text.Quoted

/-!
# Chip8.CommandLine

Reads the arguments of the command line: one file name, and switches anywhere
around it.  After `--` every argument is taken as it is; where `--` stands in the
place of a switch's value, the switch is given no value at all.
-/

namespace Chip8

/-- What a switch with a value was given: nothing, as it does not occur; `--`,
which stands for no value; or a value. -/
inductive Given (α : Type)
  | unset
  | empty
  | value (a : α)
  deriving DecidableEq, Repr

/-- What the arguments ask for. -/
structure Options where
  filename : Option String := none
  clockSpeed : Given Int := .unset
  renderer : Given String := .unset
  scale : Given Int := .unset
  keymap : Given String := .value Keymap.defaultText
  stackDepth : Given Int := .unset
  debug : Bool := false
  deriving DecidableEq, Repr

/-- What is wrong with the arguments. -/
inductive UsageError
  | ambiguous (argument : String) (names : List String)
  | valueMissing (switch : Switch)
  | valueIgnored (switch : Switch) (value : String)
  | notInteger (switch : Switch) (value : String)
  | notChoice (switch : Switch) (value : String) (choices : List String)
  | filenameMissing
  | unrecognized (arguments : List String)
  deriving DecidableEq, Repr

def UsageError.message : UsageError → String
  | ambiguous argument names =>
    "ambiguous option: " ++ argument ++ " could match " ++ ", ".intercalate names
  | valueMissing s => "argument " ++ s.label ++ ": expected one argument"
  | valueIgnored s v => "argument " ++ s.label ++ ": ignored explicit argument " ++ quoted v
  | notInteger s v => "argument " ++ s.label ++ ": invalid int value: " ++ quoted v
  | notChoice s v choices =>
    "argument " ++ s.label ++ ": invalid choice: " ++ quoted v ++ " (choose from "
      ++ ", ".intercalate (choices.map quoted) ++ ")"
  | filenameMissing => "the following arguments are required: filename"
  | unrecognized arguments => "unrecognized arguments: " ++ " ".intercalate arguments

/-- Why there are no options: help was asked for, or the arguments are wrong. -/
inductive NoOptions
  | help
  | wrong (e : UsageError)
  deriving DecidableEq, Repr

namespace CommandLine

/-- The name of the program in its messages. -/
def programName : String := "chip8core.py"

/-- The report of wrong arguments, which cites some of them as they are and so
may go over several lines. -/
def errorText (e : UsageError) : String := programName ++ ": error: " ++ e.message ++ "\n"

/-- The line with which the report of wrong arguments ends. -/
def errorLine (e : UsageError) : String := lastLine (errorText e)

/-- A summary of the arguments. -/
def usage : String :=
  "usage: " ++ programName
    ++ " [-h] [-c CLOCK_SPEED] [-r \x7bpygame,null\x7d] [-s SCALE] [-k KEYMAP]"
    ++ " [--stack_depth STACK_DEPTH] [-d] filename"

/-- The renderers that can be asked for. -/
def rendererChoices : List String := ["pygame", "null"]

/-! ## Values -/

/-- The value of a switch that takes an integer. -/
def integerValue (s : Switch) (v : String) : Except NoOptions (Given Int) :=
  if v = "--" then .ok .empty
  else
    match readInt? v.toList with
    | some n => .ok (.value n)
    | none => .error (.wrong (.notInteger s v))

/-- The value of a switch that takes one of several texts. -/
def choiceValue (s : Switch) (choices : List String) (v : String) :
    Except NoOptions (Given String) :=
  if v = "--" then .ok .empty
  else if choices.contains v then .ok (.value v)
  else .error (.wrong (.notChoice s v choices))

/-- The value of a switch that takes any text. -/
def textValue (v : String) : Given String := if v = "--" then .empty else .value v

/-- Sets what a switch with a value stands for. -/
def setValue (o : Options) (s : Switch) (v : String) : Except NoOptions Options :=
  match s with
  | .clockSpeed => do return { o with clockSpeed := ← integerValue s v }
  | .scale => do return { o with scale := ← integerValue s v }
  | .stackDepth => do return { o with stackDepth := ← integerValue s v }
  | .keymap => .ok { o with keymap := textValue v }
  | .renderer => do return { o with renderer := ← choiceValue s rendererChoices v }
  | .help | .debug => .ok o

/-- Sets what a switch without a value stands for. -/
def setFlag (o : Options) (s : Switch) : Except NoOptions Options :=
  match s with
  | .help => .error .help
  | .debug => .ok { o with debug := true }
  | _ => .ok o

/-- Sets what a row of switches without values stands for. -/
def setFlags (o : Options) (flags : List Switch) : Except NoOptions Options :=
  flags.foldlM setFlag o

/-! ## Joined switches -/

/-- How an argument that names a switch ends, after the flags at its front. -/
inductive Tail
  /-- A switch without a value comes last. -/
  | flag
  /-- A switch with its value behind it comes last. -/
  | valued (s : Switch) (value : String)
  /-- A switch comes last whose value is the next argument. -/
  | wanting (s : Switch)
  deriving DecidableEq, Repr

/-- Takes apart what stands behind the name of a switch: short flags may be
joined, and the last switch may have its value right behind it. -/
def unjoin (s : Switch) (short : Bool) : List Char → Except UsageError (List Switch × Tail)
  | [] =>
    if s.takesValue then .ok ([], .valued s "") else .error (.valueIgnored s "")
  | c :: rest =>
    let text := String.ofList (c :: rest)
    if s.takesValue then .ok ([], .valued s text)
    else if !short then .error (.valueIgnored s text)
    else
      match Switch.ofName? ['-', c] with
      | none => .error (.valueIgnored s text)
      | some next =>
        match rest with
        | [] => .ok (if next.takesValue then ([s], .wanting next) else ([s, next], .flag))
        | d :: more => (unjoin next true (d :: more)).map fun (flags, t) => (s :: flags, t)

/-- Takes apart an argument that names a switch. -/
def takeApart (n : Named) : Except UsageError (List Switch × Tail) :=
  match n.attached with
  | some text => unjoin n.switch n.short text
  | none => .ok (if n.switch.takesValue then ([], .wanting n.switch) else ([n.switch], .flag))

/-! ## Arguments -/

/-- An argument and what it is taken for; `--` itself parts the switches from
the rest. -/
inductive Argument
  | separator
  | given (text : String) (role : Role)
  deriving DecidableEq, Repr

/-- What each argument is taken for. -/
def classify : List String → Except UsageError (List Argument)
  | [] => .ok []
  | "--" :: rest => .ok (.separator :: rest.map fun s => .given s .plain)
  | s :: rest =>
    match Role.ofArgument s.toList with
    | .error names => .error (.ambiguous s names)
    | .ok role => (classify rest).map (.given s role :: ·)

/-- The options gathered so far, and the arguments that nothing was made of. -/
structure Gathered where
  options : Options := {}
  extras : List String := []

/-- Keeps an argument that nothing is made of. -/
def Gathered.extra (g : Gathered) (s : String) : Gathered := { g with extras := g.extras ++ [s] }

/-- Takes a plain argument: the first is the file name. -/
def Gathered.plain (g : Gathered) (s : String) : Gathered :=
  if g.options.filename.isSome then g.extra s
  else { g with options := { g.options with filename := some s } }

/-- Goes through the arguments.  A separator next to the argument that becomes
the file name belongs to it; any other is left over. -/
def gather (g : Gathered) : List Argument → Except NoOptions Gathered
  | [] => .ok g
  | .separator :: .given s .plain :: rest =>
    if g.options.filename.isSome then gather ((g.extra "--").extra s) rest
    else gather (g.plain s) rest
  | .separator :: rest => gather (g.extra "--") rest
  | .given s .plain :: .separator :: rest =>
    if g.options.filename.isSome then gather ((g.extra s).extra "--") rest
    else gather (g.plain s) rest
  | .given s .plain :: rest => gather (g.plain s) rest
  | .given s .unknown :: rest => gather (g.extra s) rest
  | .given _ (.named n) :: rest =>
    match takeApart n with
    | .error e => .error (.wrong e)
    | .ok (flags, .flag) => do
      let options ← setFlags g.options flags
      gather { g with options } rest
    | .ok (flags, .valued s v) => do
      let options ← setFlags g.options flags
      let options ← setValue options s v
      gather { g with options } rest
    | .ok (flags, .wanting s) =>
      match rest with
      | .given v .plain :: more => do
        let options ← setFlags g.options flags
        let options ← setValue options s v
        gather { g with options } more
      | _ => .error (.wrong (.valueMissing s))

/-- Reads the arguments. -/
def parse (arguments : List String) : Except NoOptions Options := do
  let classified ← (classify arguments).mapError .wrong
  let g ← gather {} classified
  if g.options.filename.isNone then .error (.wrong .filenameMissing)
  else if !g.extras.isEmpty then .error (.wrong (.unrecognized g.extras))
  else .ok g.options

end CommandLine

end Chip8
