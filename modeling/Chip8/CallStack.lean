import Chip8.Fault

/-!
# Chip8.CallStack

The return addresses of the calls that are under way, at most `limit` of them.
They are kept apart from memory: a program reaches them through calls and
returns only.
-/

namespace Chip8

/-- The return addresses, the most recent first, and how many there may be. -/
structure CallStack where
  limit : Int
  frames : List Int
  deriving DecidableEq, Repr

namespace CallStack

/-- A stack without calls. -/
def ofLimit (limit : Int) : CallStack := ⟨limit, []⟩

/-- The number of calls under way. -/
def depth (s : CallStack) : Nat := s.frames.length

/-- Whether there is no room for another call. -/
def isFull (s : CallStack) : Bool := s.limit ≤ s.depth

/-- Adds a return address. -/
def push (s : CallStack) (a : Int) : Except Fault CallStack :=
  if s.isFull then .error .stackOverflow else .ok { s with frames := a :: s.frames }

/-- Takes off the most recent return address. -/
def pop (s : CallStack) : Except Fault (Int × CallStack) :=
  match s.frames with
  | [] => .error .stackUnderflow
  | a :: rest => .ok (a, { s with frames := rest })

/-- The return addresses, the oldest first. -/
def toList (s : CallStack) : List Int := s.frames.reverse

/-- Forgets every call. -/
def clear (s : CallStack) : CallStack := { s with frames := [] }

/-- Where there is room, an address is added. -/
theorem push_of_room {s : CallStack} (h : s.isFull = false) (a : Int) :
    s.push a = .ok { s with frames := a :: s.frames } := by
  rw [push, h]
  rfl

end CallStack

end Chip8
