import Chip8.Operation
import Chip8.Value

/-!
# Chip8.Item

What a caller may hand over where an operation is expected.  Only an operation
with an opcode of the table and with operands that fit in their fields will do.
What is no operation of the table is refused with a message that shows it, and
`Item.describe?` is that display.
-/

namespace Chip8

/-! ## Entries -/

/-- A value for each operand field, zero where none is given. -/
structure Entries where
  x : Value := .single (.number 0)
  y : Value := .single (.number 0)
  n : Value := .single (.number 0)
  kk : Value := .single (.number 0)
  nnn : Value := .single (.number 0)
  deriving DecidableEq, Repr

/-- The numbers of an operation. -/
def Operation.entries (o : Operation) : Entries :=
  { x := .single (.number o.x)
    y := .single (.number o.y)
    n := .single (.number o.n)
    kk := .single (.number o.kk)
    nnn := .single (.number o.nnn) }

namespace Entries

/-- The value in a field. -/
def get (e : Entries) : Field → Value
  | .x => e.x
  | .y => e.y
  | .n => e.n
  | .kk => e.kk
  | .nnn => e.nnn

theorem get_entries (o : Operation) (f : Field) :
    o.entries.get f = .single (.number (o.get f)) := by
  cases f <;> rfl

/-- The operation of an opcode with these operands, if all of them are
numbers. -/
def toOperation? (e : Entries) (op : Opcode) : Option Operation := do
  return { opcode := op, x := ← e.x.number?, y := ← e.y.number?, n := ← e.n.number?,
           kk := ← e.kk.number?, nnn := ← e.nnn.number? }

/-- The display of an operation with these operands, whose opcode is shown as
`op`. -/
def describe? (e : Entries) (op : String) : Option String := do
  return "Operation(op=" ++ op ++ ", x=" ++ (← e.x.describe?) ++ ", y=" ++ (← e.y.describe?)
    ++ ", n=" ++ (← e.n.describe?) ++ ", kk=" ++ (← e.kk.describe?)
    ++ ", nnn=" ++ (← e.nnn.describe?) ++ ")"

end Entries

/-- A value may stand in a field of an opcode: a number for which there is room,
or one that counts as no where the opcode does not use the field. -/
def Opcode.Fits (op : Opcode) (f : Field) (v : Value) : Prop :=
  if f ∈ op.format.fields then ∃ n ∈ v.number?, 0 ≤ n ∧ n ≤ f.max else v.isBlank = true

instance (op : Opcode) (f : Field) (v : Value) : Decidable (op.Fits f v) :=
  inferInstanceAs (Decidable
    (if f ∈ op.format.fields then ∃ n ∈ v.number?, 0 ≤ n ∧ n ≤ f.max else v.isBlank = true))

/-! ## Items -/

/-- An operation with values of any kind for its operands, of which one does not
fit in its field. -/
structure Misfit where
  opcode : Opcode
  entries : Entries
  not_fits : ∃ f ∈ Field.all, ¬opcode.Fits f (entries.get f)
  deriving DecidableEq, Repr

/-- Something that is handed over as an operation: an operation with numbers for
its operands, one with an operand that does not fit, an operation under a name
that no opcode has, a single value, or a row of values. -/
inductive Item
  | operation (o : Operation)
  | misfit (o : Misfit)
  | misnamed (name : String) (e : Entries)
  | single (a : Atom)
  | tuple (items : List Value)
  deriving DecidableEq, Repr

namespace Item

/-- The display of what was handed over. -/
def describe? : Item → Option String
  | operation o => do o.entries.describe? (← (Atom.opcode o.opcode).describe?)
  | misfit o => do o.entries.describe? (← (Atom.opcode o.opcode).describe?)
  | misnamed name e => e.describe? (quoted name)
  | single a => a.describe?
  | tuple [a] => do return "(" ++ (← a.describe?) ++ ",)"
  | tuple items => do return "(" ++ ", ".intercalate (← Value.describeItems? items) ++ ")"

/-- The word for the kind of a value that is no operation. -/
def kind : Item → String
  | operation _ | misfit _ | misnamed .. => "Operation"
  | single a => a.kind
  | tuple _ => "tuple"

/-- An operation with a given name and operands.  There is none where operands
that are no numbers do not matter, as they stand in fields that the opcode does
not use and count as no. -/
def named? (name : String) (e : Entries) : Option Item :=
  match Opcode.ofName? name with
  | none => some (misnamed name e)
  | some op =>
    match e.toOperation? op with
    | some o => some (operation o)
    | none =>
      if h : ∃ f ∈ Field.all, ¬op.Fits f (e.get f) then some (misfit ⟨op, e, h⟩) else none

/-- A row whose first value is an opcode, if an opcode has that name, and a
text otherwise. -/
def namedTuple (name : String) (rest : List Value) : Item :=
  tuple (.single (match Opcode.ofName? name with
    | some op => .opcode op
    | none => .text name) :: rest)

end Item

end Chip8
