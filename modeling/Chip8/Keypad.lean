import Chip8.Fault

/-!
# Chip8.Keypad

The sixteen keys, each up or down.  Key events change them; programs only look.
-/

namespace Chip8

/-- The number of a key. -/
abbrev Key := Fin 16

/-- Which keys are down. -/
structure Keypad where
  down : Vector Bool 16
  deriving DecidableEq, Repr

namespace Keypad

/-- A keypad with every key up. -/
def released : Keypad := ⟨Vector.replicate 16 false⟩

/-- The key with a given number. -/
def key (index : Int) : Except Fault Key :=
  if h : 0 ≤ index ∧ index < 16 then .ok ⟨index.toNat, by omega⟩ else .error (.noSuchKey index)

/-- Turns a key's position around. -/
def toggle (p : Keypad) (index : Int) : Except Fault Keypad := do
  let k ← key index
  return ⟨p.down.set k (!p.down[k])⟩

/-- Whether a key is down. -/
def isDown (p : Keypad) (index : Int) : Except Fault Bool := do
  let k ← key index
  return p.down[k]

/-- Turns a key around if it is up; the answer is whether it was. -/
def press (p : Keypad) (index : Int) : Except Fault (Bool × Keypad) := do
  if ← p.isDown index then return (false, p)
  return (true, ← p.toggle index)

/-- Turns a key around if it is down; the answer is whether it was. -/
def release (p : Keypad) (index : Int) : Except Fault (Bool × Keypad) := do
  if !(← p.isDown index) then return (false, p)
  return (true, ← p.toggle index)

/-- The keys that are down, in order. -/
def downKeys (p : Keypad) : List Key := (List.finRange 16).filter fun k => p.down[k]

/-- The first key that is down. -/
def firstDown (p : Keypad) : Option Key := p.downKeys.head?

/-! ## Positions -/

/-- The numbers of the keys are the ones that are found. -/
theorem key_eq_ok_iff {index : Int} {k : Key} : key index = .ok k ↔ (k.val : Int) = index := by
  unfold key
  split
  · rw [Except.ok.injEq, Fin.ext_iff]
    change index.toNat = k.val ↔ _
    omega
  · simp only [reduceCtorEq, false_iff]
    omega

@[simp] theorem key_val (k : Key) : key k.val = .ok k := key_eq_ok_iff.2 rfl

/-- The keypad with a key in a given position, and whether the key was in the
other one. -/
def move (p : Keypad) (k : Key) (position : Bool) : Bool × Keypad :=
  (p.down[k] != position, ⟨p.down.set k position⟩)

/-- A key that is where it is to be is not moved. -/
theorem move_of_eq {p : Keypad} {k : Key} {position : Bool} (h : p.down[k] = position) :
    p.move k position = (false, p) := by
  subst h
  simp [move]

/-- A key that is not there is turned around. -/
theorem move_of_ne {p : Keypad} {k : Key} {position : Bool} (h : p.down[k] = !position) :
    p.move k position = (true, ⟨p.down.set k (!p.down[k])⟩) := by
  simp [move, h]

theorem isDown_of_key (p : Keypad) {index : Int} {k : Key} (h : key index = .ok k) :
    p.isDown index = .ok p.down[k] := by
  rw [isDown, h]
  rfl

theorem toggle_of_key (p : Keypad) {index : Int} {k : Key} (h : key index = .ok k) :
    p.toggle index = .ok ⟨p.down.set k (!p.down[k])⟩ := by
  rw [toggle, h]
  rfl

/-- Pressing a key moves it down. -/
theorem press_eq (p : Keypad) (index : Int) :
    p.press index = do return p.move (← key index) true := by
  cases hkey : key index with
  | error cause =>
    rw [press, isDown, hkey]
    rfl
  | ok k =>
    rw [press, p.isDown_of_key hkey, p.toggle_of_key hkey]
    change (if p.down[k] = true then Except.ok (false, p) else .ok (true, _)) =
      .ok (p.move k true)
    by_cases hdown : p.down[k] = true
    · rw [if_pos hdown, move_of_eq hdown]
    · rw [if_neg hdown, move_of_ne (eq_false_of_ne_true hdown)]

/-- Releasing a key moves it up. -/
theorem release_eq (p : Keypad) (index : Int) :
    p.release index = do return p.move (← key index) false := by
  cases hkey : key index with
  | error cause =>
    rw [release, isDown, hkey]
    rfl
  | ok k =>
    rw [release, p.isDown_of_key hkey, p.toggle_of_key hkey]
    change (if (!p.down[k]) = true then Except.ok (false, p) else .ok (true, _)) =
      .ok (p.move k false)
    by_cases hdown : p.down[k] = true
    · rw [if_neg (by simp [hdown]), move_of_ne hdown]
    · rw [if_pos (by simpa using hdown), move_of_eq (eq_false_of_ne_true hdown)]

/-- Moving a key changes that key alone. -/
theorem getElem_move (p : Keypad) (k j : Key) (position : Bool) :
    (p.move k position).2.down[j] = if k = j then position else p.down[j] := by
  simp [move, Vector.getElem_set, Fin.ext_iff]

end Keypad

end Chip8
