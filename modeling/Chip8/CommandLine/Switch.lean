import Chip8.Text.DecimalDigit

/-!
# Chip8.CommandLine.Switch

The switches of the command line and how they are recognised.  A long name may
be shortened as long as it stays clear which switch is meant; a short name may
have its value, or more short names, right behind it; a value may also follow
after an equals sign.
-/

namespace Chip8

/-- The switches. -/
inductive Switch
  | help
  | clockSpeed
  | renderer
  | scale
  | keymap
  | stackDepth
  | debug
  deriving DecidableEq, Repr

namespace Switch

/-- Every switch, in the order in which candidates are listed. -/
def all : List Switch := [help, clockSpeed, renderer, scale, keymap, stackDepth, debug]

/-- The names of a switch, a short one first. -/
def names : Switch → List String
  | help => ["-h", "--help"]
  | clockSpeed => ["-c", "--clock_speed"]
  | renderer => ["-r", "--renderer"]
  | scale => ["-s", "--scale"]
  | keymap => ["-k", "--keymap"]
  | stackDepth => ["--stack_depth"]
  | debug => ["-d", "--debug"]

/-- The names under which messages speak of a switch. -/
def label (s : Switch) : String := "/".intercalate s.names

/-- Whether a switch has a value. -/
def takesValue : Switch → Bool
  | help | debug => false
  | _ => true

/-- Every name with its switch. -/
def table : List (List Char × Switch) := all.flatMap fun s => s.names.map fun n => (n.toList, s)

/-- The switch with exactly this name. -/
def ofName? (name : List Char) : Option Switch := table.lookup name

end Switch

/-- A switch as one argument names it: whether the name is a short one, and what
stands behind it. -/
structure Named where
  switch : Switch
  short : Bool
  attached : Option (List Char)
  deriving DecidableEq, Repr

/-- What an argument is taken for. -/
inductive Role
  | plain
  | named (n : Named)
  /-- It looks like a switch, but there is none of that name. -/
  | unknown
  deriving DecidableEq, Repr

namespace Role

/-- An argument cut at its first equals sign. -/
def cutAtEquals (s : List Char) : List Char × Option (List Char) :=
  match s.dropWhile (· != '=') with
  | [] => (s, none)
  | _ :: rest => (s.takeWhile (· != '='), some rest)

/-- Whether a name is a short one: a single dash and a letter. -/
def isShort (name : List Char) : Bool := name[1]? != some '-'

/-- The ways to read an argument that is no exact name: with two dashes, as the
front of a long name; with one, as a short name with something behind it. -/
def candidates (s : List Char) : List (List Char × Named) :=
  if s.take 2 == ['-', '-'] then
    let (front, value) := cutAtEquals s
    Switch.table.filterMap fun (name, switch) =>
      if front.isPrefixOf name then
        some (name, ⟨switch, isShort name, value⟩)
      else none
  else
    Switch.table.filterMap fun (name, switch) =>
      if name == s.take 2 then some (name, ⟨switch, isShort name, some (s.drop 2)⟩)
      else if s.isPrefixOf name then some (name, ⟨switch, isShort name, none⟩)
      else none

/-- Whether all characters of a text are digits, and there is at least one. -/
def isDigits (s : List Char) : Bool :=
  !s.isEmpty && s.all fun c => (digitValue? c).isSome

/-- Whether an argument looks like a negative number, which no switch does.  A
line break at its end does not matter. -/
def isNegativeNumber (s : List Char) : Bool :=
  match s with
  | '-' :: body =>
    let body := if body.getLast? == some '\n' then body.dropLast else body
    let whole := body.takeWhile (· != '.')
    match body.dropWhile (· != '.') with
    | [] => isDigits body
    | _ :: fraction => (whole.isEmpty || isDigits whole) && isDigits fraction
  | _ => false

/-- What an argument is taken for.  If it could be short for several switches,
their names are the answer instead. -/
def ofArgument (s : List Char) : Except (List String) Role :=
  if s.head? != some '-' then .ok .plain
  else
    match Switch.ofName? s with
    | some switch => .ok (.named ⟨switch, isShort s, none⟩)
    | none =>
      if s.length == 1 then .ok .plain
      else
        match cutAtEquals s with
        | (front, some v) =>
          match Switch.ofName? front with
          | some switch => .ok (.named ⟨switch, isShort front, some v⟩)
          | none => byCandidates s
        | _ => byCandidates s
where
  byCandidates (s : List Char) : Except (List String) Role :=
    match candidates s with
    | [(_, n)] => .ok (.named n)
    | [] =>
      if isNegativeNumber s || s.contains ' ' then .ok .plain else .ok .unknown
    | several => .error (several.map fun (name, _) => String.ofList name)

end Role

end Chip8
