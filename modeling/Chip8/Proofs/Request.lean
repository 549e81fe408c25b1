import Chip8.Proofs.Step

/-!
# Chip8.Proofs.Request

The calls that whoever drives an emulator can make, as data.  `Emulator.serve`
makes one of them and gives the answer together with the state after it, also
where the call is refused; `serveAll` and `answers` go through a sequence of them.
Every statement about all the states that an emulator can get into is a statement
about `serveAll`.

`serveAll_invariant` reduces an invariant of all sequences to one of single
calls, and `runOn_invariant` one of runs to one of single steps.  What a single call
may do to the machine is said once, by `Machine.Operated`.
-/

namespace Chip8

/-- A call that whoever drives an emulator can make. -/
inductive Request
  | loadProgram (data : List UInt8)
  | loadWords (words : List Int)
  | loadOperations (items : List Item)
  | step
  | run (limit : Option Int)
  | execute (item : Item)
  | tick
  | keyDown (index : Int)
  | keyUp (index : Int)
  | installFont (location : Option Int)
  | reset

/-- The number of the key that a call moves. -/
def Request.key? : Request → Option Int
  | .keyDown index | .keyUp index => some index
  | _ => none

/-- What a call gives back: nothing, whether the machine goes on, how many
instructions were carried out, or what is left on the timers. -/
inductive Answer
  | nothing
  | truth (b : Bool)
  | count (n : Nat)
  | timers (delay sound : Int)
  deriving DecidableEq, Repr

namespace Emulator

/-- The answer to a call that gives nothing back, and the state after it.  A call
that is refused leaves the state alone. -/
def settle (e : Emulator) (r : Except Fault Emulator) : Except Fault Answer × Emulator :=
  match r with
  | .ok after => (.ok .nothing, after)
  | .error cause => (.error cause, e)

/-- Makes a call. -/
def serve (e : Emulator) : Request → Except Fault Answer × Emulator
  | .loadProgram data => e.settle (e.loadProgram data)
  | .loadWords words => e.settle (e.loadWords words)
  | .loadOperations items => e.settle (e.loadOperations items)
  | .step => (e.step.1.map .truth, e.step.2)
  | .run limit => ((e.run limit).1.map .count, (e.run limit).2)
  | .execute item => ((e.execute item).1.map .truth, (e.execute item).2)
  | .tick => (.ok (.timers e.tick.processor.dt e.tick.processor.st), e.tick)
  | .keyDown index => e.settle (e.keyDown index)
  | .keyUp index => e.settle (e.keyUp index)
  | .installFont location => ((e.installFont location).1.map fun _ => .nothing,
      (e.installFont location).2)
  | .reset => (e.reset.1.map fun _ => .nothing, e.reset.2)

/-- The emulator after a sequence of calls. -/
def serveAll (e : Emulator) (requests : List Request) : Emulator :=
  requests.foldl (fun e request => (e.serve request).2) e

/-- The answers to a sequence of calls. -/
def answers (e : Emulator) : List Request → List (Except Fault Answer)
  | [] => []
  | request :: rest => (e.serve request).1 :: (e.serve request).2.answers rest

@[simp] theorem serveAll_nil (e : Emulator) : e.serveAll [] = e := rfl

@[simp] theorem serveAll_cons (e : Emulator) (request : Request) (rest : List Request) :
    e.serveAll (request :: rest) = (e.serve request).2.serveAll rest := rfl

/-- What every call of a kind keeps, every sequence of calls of that kind keeps. -/
theorem serveAll_invariant {P : Emulator → Prop} {allowed : Request → Prop}
    (hserve : ∀ e request, allowed request → P e → P (e.serve request).2) {e : Emulator}
    (he : P e) {requests : List Request} (h : ∀ request ∈ requests, allowed request) :
    P (e.serveAll requests) := by
  induction requests generalizing e with
  | nil => exact he
  | cons request rest ih =>
      have hfirst := hserve e request (h request List.mem_cons_self) he
      exact ih hfirst fun r hr => h r (List.mem_cons_of_mem request hr)

/-- Where every call of a kind keeps `P` and is answered while `P` holds, every
call of a sequence of that kind is answered. -/
theorem answers_ok {P : Emulator → Prop} {allowed : Request → Prop}
    (hserve : ∀ e request, allowed request → P e →
      (∃ a, (e.serve request).1 = .ok a) ∧ P (e.serve request).2) {e : Emulator}
    (he : P e) {requests : List Request} (h : ∀ request ∈ requests, allowed request) :
    ∀ answer ∈ e.answers requests, ∃ a, answer = .ok a := by
  induction requests generalizing e with
  | nil => exact fun answer hanswer => absurd hanswer List.not_mem_nil
  | cons request rest ih =>
      obtain ⟨hok, hfirst⟩ := hserve e request (h request List.mem_cons_self) he
      intro answer hanswer
      rcases List.mem_cons.1 hanswer with rfl | hrest
      · exact hok
      · exact ih hfirst (fun r hr => h r (List.mem_cons_of_mem request hr)) answer hrest

/-! ## runs -/

theorem runOn_succ (e : Emulator) (done limit : Nat) :
    e.runOn done (limit + 1) =
      match e.step with
      | (.ok true, after) => after.runOn (done + 1) limit
      | (.ok false, after) => (.ok done, after)
      | (.error cause, after) => (.error cause, after) := rfl

/-- How many steps a run may take. -/
def runLimit (limit : Option Int) : Nat := limit.elim patience Int.toNat

theorem run_eq (e : Emulator) (limit : Option Int) : e.run limit = e.runOn 0 (runLimit limit) := by
  cases limit <;> rfl

/-- A run that ends before its limit ends in the same way under any higher one. -/
theorem runOn_of_lt {e after : Emulator} {done limit n : Nat}
    (h : e.runOn done limit = (.ok n, after)) (hlt : n < done + limit) (more : Nat) :
    e.runOn done (limit + more) = (.ok n, after) := by
  induction limit generalizing e done with
  | zero =>
      obtain ⟨hn, -⟩ := Prod.mk.inj h
      have hdone := Except.ok.inj hn
      omega
  | succ limit ih =>
      rw [Nat.add_right_comm, runOn_succ]
      rw [runOn_succ] at h
      generalize e.step = r at h ⊢
      obtain ⟨answer, between⟩ := r
      match answer with
      | .ok true => exact ih h (by omega)
      | .ok false | .error cause => exact h

/-- There is one way for a run to end before its limit. -/
theorem runOn_unique {e after after' : Emulator} {n k : Nat}
    (hn : e.runOn 0 (n + 1) = (.ok n, after)) (hk : e.runOn 0 (k + 1) = (.ok k, after')) :
    n = k ∧ after = after' := by
  have hlong := runOn_of_lt hn (by omega) (k + 1)
  have hlong' := runOn_of_lt hk (by omega) (n + 1)
  rw [Nat.add_comm (k + 1)] at hlong'
  obtain ⟨hcount, hafter⟩ := Prod.mk.inj (hlong.symm.trans hlong')
  exact ⟨Except.ok.inj hcount, hafter⟩

/-- What every step of the machine keeps, every run keeps. -/
theorem runOn_invariant {P : Machine → Prop} (hstep : ∀ m : Machine, P m → P m.step.2)
    {e : Emulator} (he : P e.toMachine) (done limit : Nat) :
    P (e.runOn done limit).2.toMachine := by
  induction limit generalizing e done with
  | zero => exact he
  | succ limit ih =>
      have hafter : P e.step.2.toMachine := e.step_toMachine ▸ hstep _ he
      rw [runOn_succ]
      generalize e.step = r at hafter ⊢
      obtain ⟨answer, after⟩ := r
      match answer with
      | .ok true => exact ih hafter (done + 1)
      | .ok false => exact hafter
      | .error cause => exact hafter

end Emulator

/-! ## what calls do to the machine -/

/-- A block is written, or refused. -/
theorem Memory.storeBytes_cases {size : Nat} (m : Memory size) (a : Int) (block : List UInt8) :
    (∃ bytes, m.storeBytes a block = .ok { m with bytes }) ∨
      ∃ cause, m.storeBytes a block = .error cause := by
  unfold storeBytes
  split
  · exact .inl ⟨m.bytes, rfl⟩
  · cases locateBlock size a block.length with
    | ok k => exact .inl ⟨_, rfl⟩
    | error cause => exact .inr ⟨cause, rfl⟩

namespace Machine

/-- The machine with other bytes in memory and its program counter at the program. -/
def withProgram (m : Machine) (bytes : Vector UInt8 0x1000) : Machine :=
  { m with
    memory := { m.memory with bytes }
    processor := { m.processor with pc := m.programStart } }

/-- What the calls that neither install the font nor reset the machine may do to it. -/
inductive Operated (m : Machine) : Machine → Prop
  | same : Operated m m
  | loaded (bytes : Vector UInt8 0x1000) : Operated m (m.withProgram bytes)
  | stepped {between : Machine} (h : Operated m between) : Operated m between.step.2
  | performed {i : Instruction} {after : Machine} (h : m.perform i = .ok after) : Operated m after
  | halted (reason : HaltReason) : Operated m (m.halt reason none)
  | ticked : Operated m (m.onProcessor Processor.tick)
  | keyMoved (keypad : Keypad) : Operated m { m with keypad }

end Machine

namespace Emulator

theorem toMachine_tick (e : Emulator) :
    e.tick.toMachine = e.toMachine.onProcessor Processor.tick := rfl

/-- Moving a key changes the keypad alone. -/
theorem toMachine_moveKey (e : Emulator) (k : Key) (position : Bool) :
    (e.moveKey k position).toMachine =
      { e.toMachine with keypad := (e.keypad.move k position).2 } := by
  unfold moveKey keyMoved
  dsimp only
  split <;> rfl

/-- The hooks of keys move the key with a number. -/
theorem serve_keyDown (e : Emulator) (index : Int) :
    e.serve (.keyDown index) = e.settle (do return e.moveKey (← Keypad.key index) true) := by
  rw [serve, keyDown_eq]

theorem serve_keyUp (e : Emulator) (index : Int) :
    e.serve (.keyUp index) = e.settle (do return e.moveKey (← Keypad.key index) false) := by
  rw [serve, keyUp_eq]

/-- Moving a key by its number is answered if there is such a key, and refused
otherwise; it changes nothing but the keypad. -/
theorem settle_moveKey (e : Emulator) (index : Int) (position : Bool) :
    let r := e.settle (do return e.moveKey (← Keypad.key index) position)
    (0 ≤ index ∧ index < 16 → r.1 = .ok .nothing) ∧
      ∃ keypad, r.2.toMachine = { e.toMachine with keypad } := by
  by_cases h : 0 ≤ index ∧ index < 16
  · have hkey : Keypad.key index = .ok ⟨index.toNat, by omega⟩ := dif_pos h
    rw [hkey]
    exact ⟨fun _ => rfl, _, e.toMachine_moveKey _ position⟩
  · have hkey : Keypad.key index = .error (.noSuchKey index) := dif_neg h
    rw [hkey]
    exact ⟨fun hin => absurd hin h, e.keypad, rfl⟩

/-- An event of a key is answered if there is such a key, and changes nothing but the
keypad. -/
theorem serve_key {e : Emulator} {request : Request} {index : Int}
    (h : request.key? = some index) :
    (0 ≤ index ∧ index < 16 → (e.serve request).1 = .ok .nothing) ∧
      ∃ keypad, (e.serve request).2.toMachine = { e.toMachine with keypad } := by
  cases request with
  | keyDown index' =>
      obtain rfl : index' = index := Option.some.inj h
      rw [serve_keyDown]
      exact e.settle_moveKey index' true
  | keyUp index' =>
      obtain rfl : index' = index := Option.some.inj h
      rw [serve_keyUp]
      exact e.settle_moveKey index' false
  | _ => cases h

/-- Loading a program writes memory and points the program counter at it, or is
refused. -/
theorem loadProgram_cases (e : Emulator) (data : List UInt8) :
    (∃ cause, e.loadProgram data = .error cause) ∨
      ∃ after bytes, e.loadProgram data = .ok after ∧ after.toMachine =
        e.toMachine.withProgram bytes := by
  unfold loadProgram
  split
  · exact .inl ⟨_, rfl⟩
  · rcases e.memory.storeBytes_cases e.programStart data with ⟨bytes, h⟩ | ⟨cause, h⟩
    · rw [h]
      exact .inr ⟨_, bytes, rfl, rfl⟩
    · rw [h]
      exact .inl ⟨cause, rfl⟩

/-- The three ways of loading make out the bytes and load these; what is refused
changes nothing. -/
theorem settle_load (e : Emulator) (program : Except Fault (List UInt8)) :
    let after := (e.settle (program >>= e.loadProgram)).2.toMachine
    after = e.toMachine ∨ ∃ bytes, after = e.toMachine.withProgram bytes := by
  cases program with
  | error cause => exact .inl rfl
  | ok data =>
      have hbind : (Except.ok data >>= e.loadProgram) = e.loadProgram data := rfl
      rw [hbind]
      rcases e.loadProgram_cases data with ⟨cause, h⟩ | ⟨after, bytes, h, hafter⟩
      · rw [h]
        exact .inl rfl
      · rw [h]
        exact .inr ⟨bytes, hafter⟩

theorem operated_settle_load (e : Emulator) (program : Except Fault (List UInt8)) :
    e.toMachine.Operated (e.settle (program >>= e.loadProgram)).2.toMachine := by
  rcases e.settle_load program with h | ⟨bytes, h⟩ <;> rw [h]
  · exact .same
  · exact .loaded bytes

theorem operated_carryOut (e : Emulator) (i : Instruction) :
    e.toMachine.Operated (e.carryOut i).2.toMachine := by
  cases h : e.toMachine.perform i with
  | ok after =>
      rw [carryOut_of_ok h]
      exact .performed h
  | error stop =>
      cases stop with
      | halt reason =>
          rw [(carryOut_of_halt h).2]
          exact .halted reason
      | fault cause =>
          rw [carryOut_of_fault h]
          exact .same

/-- Every call that neither installs the font nor resets the machine is one of these. -/
theorem operated_serve {e : Emulator} {request : Request}
    (hinstall : ∀ location, request ≠ .installFont location) (hreset : request ≠ .reset) :
    e.toMachine.Operated (e.serve request).2.toMachine := by
  have hkey := @serve_key e request
  cases request with
  | loadProgram data => exact e.operated_settle_load (.ok data)
  | loadWords words => exact e.operated_settle_load (Program.ofWords words)
  | loadOperations items => exact e.operated_settle_load (Program.encode items)
  | step =>
      change e.toMachine.Operated e.step.2.toMachine
      rw [e.step_toMachine]
      exact .stepped .same
  | run limit =>
      change e.toMachine.Operated (e.run limit).2.toMachine
      rw [run_eq]
      exact runOn_invariant (fun m hm => .stepped hm) .same 0 _
  | execute item =>
      change e.toMachine.Operated (e.execute item).2.toMachine
      unfold execute
      cases item.check with
      | ok i => exact e.operated_carryOut i
      | error cause => exact .same
  | tick => exact .ticked
  | keyDown index | keyUp index =>
      obtain ⟨-, keypad, hmoved⟩ := hkey rfl
      rw [hmoved]
      exact .keyMoved keypad
  | installFont location => exact absurd rfl (hinstall location)
  | reset => exact absurd rfl hreset

end Emulator

namespace Machine

/-- Installing the font writes memory and points the index register at zero, or is
refused; where the font goes is noted in any case. -/
theorem installFont_cases (m : Machine) (location : Option Int) :
    (∃ memory, m.installFont location =
        (.ok (), { m with
          fontLocation := location.getD m.fontLocation
          memory
          processor := { m.processor with i := 0 } })) ∨
      ∃ cause, m.installFont location =
        (.error cause, { m with fontLocation := location.getD m.fontLocation }) := by
  unfold installFont
  dsimp only
  cases m.memory.installFont (location.getD m.fontLocation) with
  | ok memory => exact .inl ⟨memory, rfl⟩
  | error cause => exact .inr ⟨cause, rfl⟩

/-- A machine that could be built is a blank one with its font. -/
theorem create_ok {stackLimit fontLocation programStart : Option Int} {rng : Rng} {m : Machine}
    (h : create stackLimit fontLocation programStart rng = .ok m) :
    ∃ memory, m =
      { blank (stackLimit.getD defaultStackLimit) (fontLocation.getD defaultFontLocation)
          (programStart.getD defaultProgramStart) rng with memory } := by
  unfold create at h
  dsimp only at h
  generalize hblank : blank _ _ _ rng = start at h ⊢
  rcases start.installFont_cases none with ⟨memory, hfont⟩ | ⟨cause, hfont⟩
  · rw [hfont] at h
    cases h
    subst hblank
    exact ⟨memory, rfl⟩
  · rw [hfont] at h
    cases h

/-- A reset puts the processor back to rest, also where the font does not fit. -/
theorem processor_reset (m : Machine) :
    m.reset.2.processor = m.processor.reset ∧ m.reset.2.programStart = m.programStart := by
  unfold reset
  rcases m.cleared.installFont_cases none with ⟨memory, h⟩ | ⟨cause, h⟩ <;>
    rw [h] <;> exact ⟨rfl, rfl⟩

end Machine

end Chip8
