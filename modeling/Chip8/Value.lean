import Chip8.Opcode
import Chip8.Text.Numeral
import Chip8.Text.Quoted

/-!
# Chip8.Value

The values that a caller may hand over where something else is expected: single
ones, rows of values, and tables of values with a name each.  They matter for
what they do as a number or as a truth, and for what messages say of them: how
they are displayed, and the word for their kind.

A value in which there is a number with too many digits is not displayed at all.
-/

namespace Chip8

/-- A value without parts. -/
inductive Atom
  | nothing
  | truth (b : Bool)
  | number (n : Int)
  | text (s : String)
  | opcode (op : Opcode)
  deriving DecidableEq, Repr

/-- The display of a value without parts. -/
def Atom.describe? : Atom → Option String
  | nothing => some "None"
  | truth true => some "True"
  | truth false => some "False"
  | number n => numeral? n
  | text s => some (quoted s)
  | opcode op => some ("<Op." ++ op.name ++ ": " ++ toString op.number ++ ">")

/-- The word for the kind of a value without parts. -/
def Atom.kind : Atom → String
  | nothing => "NoneType"
  | truth _ => "bool"
  | number _ => "int"
  | text _ => "str"
  | opcode _ => "Op"

/-- A value, which may be made of others. -/
inductive Value
  | single (a : Atom)
  | row (items : List Value)
  | table (entries : List (String × Value))
  deriving Repr

namespace Value

instance : Inhabited Value := ⟨single .nothing⟩

/-- The word for the kind of a value. -/
def kind : Value → String
  | single a => a.kind
  | row _ => "list"
  | table _ => "dict"

/-- The value as a number; a truth counts as one and its opposite as zero. -/
def number? : Value → Option Int
  | single (.number n) => some n
  | single (.truth b) => some b.toNat
  | _ => none

/-- Whether a value is one of those that count as no: no value, no truth, zero,
an empty text, an empty row or table. -/
def isBlank : Value → Bool
  | single .nothing => true
  | single (.truth b) => !b
  | single (.number n) => n = 0
  | single (.text s) => s.isEmpty
  | single (.opcode _) => false
  | row items => items.isEmpty
  | table entries => entries.isEmpty

/-! ## Display -/

mutual

/-- The display of a value: a row stands in brackets, a table in braces. -/
def describe? : Value → Option String
  | single a => a.describe?
  | row items => do return "[" ++ ", ".intercalate (← describeItems? items) ++ "]"
  | table entries =>
    do return "\x7b" ++ ", ".intercalate (← describeEntries? entries) ++ "\x7d"

/-- The displays of the values of a row. -/
def describeItems? : List Value → Option (List String)
  | [] => some []
  | v :: rest => do return (← v.describe?) :: (← describeItems? rest)

/-- The displays of the entries of a table, each after its name. -/
def describeEntries? : List (String × Value) → Option (List String)
  | [] => some []
  | (name, v) :: rest =>
    do return (quoted name ++ ": " ++ (← v.describe?)) :: (← describeEntries? rest)

end

/-- Rows and tables may hold one another. -/
example :
    (row [row [single (.number 1), row [single (.text "a")]], table [("b'", table [])]]).describe?
      = some "[[1, ['a']], \x7b\"b'\": \x7b\x7d\x7d]" := by decide +kernel

/-! ## Equality -/

mutual

/-- Decides whether two values are equal. -/
def decEq : (v w : Value) → Decidable (v = w)
  | single a, single b => decidable_of_iff (a = b) (by simp)
  | row a, row b =>
    match decEqItems a b with
    | isTrue h => isTrue (by rw [h])
    | isFalse h => isFalse (by simpa using h)
  | table a, table b =>
    match decEqEntries a b with
    | isTrue h => isTrue (by rw [h])
    | isFalse h => isFalse (by simpa using h)
  | single _, row _ | single _, table _ | row _, single _ | row _, table _ | table _, single _
  | table _, row _ => isFalse (by simp)

/-- Decides whether two rows are equal. -/
def decEqItems : (v w : List Value) → Decidable (v = w)
  | [], [] => isTrue rfl
  | v :: vs, w :: ws =>
    match decEq v w, decEqItems vs ws with
    | isTrue h, isTrue t => isTrue (by rw [h, t])
    | isFalse h, _ => isFalse (by simp [h])
    | _, isFalse t => isFalse (by simp [t])
  | [], _ :: _ | _ :: _, [] => isFalse (by simp)

/-- Decides whether two tables are equal. -/
def decEqEntries : (v w : List (String × Value)) → Decidable (v = w)
  | [], [] => isTrue rfl
  | (a, v) :: vs, (b, w) :: ws =>
    if n : a = b then
      match decEq v w, decEqEntries vs ws with
      | isTrue h, isTrue t => isTrue (by rw [n, h, t])
      | isFalse h, _ => isFalse (by simp [h])
      | _, isFalse t => isFalse (by simp [t])
    else isFalse (by simp [n])
  | [], _ :: _ | _ :: _, [] => isFalse (by simp)

end

instance : DecidableEq Value := decEq

end Value

end Chip8
