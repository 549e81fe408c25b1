import Chip8.Input
import Chip8.Proofs.Request

/-!
# Chip8.Proofs.KeyEvents

Key events of the host are neither lost nor counted twice.  An event of a code in the keymap is
a call of a hook, and that call is never refused (`serve_hook`); all other events change nothing.
So a key is where the last event that moves it has put it (`down_deliver` for one event,
`down_foldl_deliver` for any number of them), whatever the batches are that the events come in,
and whichever of these asks to quit.
-/

namespace Chip8

/-! ## codes and keys -/

namespace Keymap

/-- The code that stands for a key. -/
def code (keymap : Keymap) (k : Key) : Int :=
  keymap.codes.get ⟨k.val, by rw [keymap.length_codes]; exact k.isLt⟩

/-- A code means the key that it stands for, and no other. -/
theorem key?_eq_some_iff {keymap : Keymap} {code : Int} {k : Key} :
    keymap.key? code = some k ↔ keymap.code k = code := by
  unfold Keymap.code key?
  rw [List.get_eq_getElem]
  constructor
  · intro h
    by_cases hplace : keymap.codes.idxOf code < 16
    · rw [dif_pos hplace, Option.some.injEq] at h
      subst h
      exact List.getElem_idxOf _
    · rw [dif_neg hplace] at h
      contradiction
  · intro h
    have hplace : keymap.codes.idxOf code = k.val := by
      rw [← h, keymap.nodup_codes.idxOf_getElem]
    simp [hplace]

end Keymap

namespace Emulator

theorem down_moveKey (e : Emulator) (k j : Key) (position : Bool) :
    (e.moveKey k position).keypad.down.get j = if k = j then position else e.keypad.down.get j := by
  rw [e.toMachine_moveKey k position]
  exact e.keypad.getElem_move k j position

/-- A hook that concerns a key that there is moves this key. -/
theorem serve_keyDown_val (e : Emulator) (k : Key) :
    e.serve (.keyDown k.val) = (.ok .nothing, e.moveKey k true) := by
  rw [serve, keyDown_val]
  rfl

theorem serve_keyUp_val (e : Emulator) (k : Key) :
    e.serve (.keyUp k.val) = (.ok .nothing, e.moveKey k false) := by
  rw [serve, keyUp_val]
  rfl

end Emulator

namespace Event

/-! ## one event -/

/-- Whether an event moves the key with a given code.  Escape asks to quit when it goes up, and
moves no key then. -/
def moves (code : Int) (event : Event) : Bool :=
  event = keyDown code ∨ code ≠ escape ∧ event = keyUp code

/-- The call of a hook that an event leads to, if it leads to one. -/
def hook? (keymap : Keymap) : Event → Option Request
  | keyDown code => (keymap.key? code).map fun k => .keyDown k.val
  | keyUp code =>
    if code = escape then none else (keymap.key? code).map fun k => .keyUp k.val
  | _ => none

/-- An event is handed on by calling its hook, and the call is not refused. -/
theorem serve_hook {keymap : Keymap} {event : Event} {request : Request}
    (h : event.hook? keymap = some request) (e : Emulator) :
    e.serve request = (.ok .nothing, event.deliver keymap e) := by
  cases event with
  | keyDown code =>
      obtain ⟨k, hk, rfl⟩ := Option.map_eq_some_iff.1 h
      rw [e.serve_keyDown_val, deliver_keyDown, hk, Option.elim_some]
  | keyUp code =>
      simp only [hook?] at h
      by_cases hescape : code = escape
      · rw [if_pos hescape] at h
        contradiction
      · rw [if_neg hescape] at h
        obtain ⟨k, hk, rfl⟩ := Option.map_eq_some_iff.1 h
        rw [e.serve_keyUp_val, deliver_keyUp keymap e hescape, hk, Option.elim_some]
  | quit | other => contradiction

/-- An event that calls no hook changes nothing. -/
theorem deliver_of_hook?_eq_none {keymap : Keymap} {event : Event}
    (h : event.hook? keymap = none) (e : Emulator) : event.deliver keymap e = e := by
  cases event with
  | keyDown code =>
      rw [hook?, Option.map_eq_none_iff] at h
      rw [deliver, h]
  | keyUp code =>
      rw [hook?] at h
      rw [deliver]
      by_cases hescape : code = escape
      · rw [if_pos hescape]
      · rw [if_neg hescape, Option.map_eq_none_iff] at h
        rw [if_neg hescape, h]
  | quit | other => rfl

/-- Moving the key that a code means changes the position of the key with that code. -/
theorem down_elim_moveKey (keymap : Keymap) (e : Emulator) (code : Int) (position : Bool)
    (k : Key) :
    ((keymap.key? code).elim e (e.moveKey · position)).keypad.down.get k =
      if keymap.code k = code then position else e.keypad.down.get k := by
  by_cases hcode : keymap.code k = code
  · rw [Keymap.key?_eq_some_iff.2 hcode, Option.elim_some, e.down_moveKey, if_pos rfl,
      if_pos hcode]
  · rw [if_neg hcode]
    cases hkey : keymap.key? code with
    | none => rfl
    | some j =>
        have hne : j ≠ k := fun hjk => hcode (Keymap.key?_eq_some_iff.1 (hjk ▸ hkey))
        rw [Option.elim_some, e.down_moveKey, if_neg hne]

/-- After an event that moves a key, the key is where the event has put it; after any other
event, it is where it was. -/
theorem down_deliver (keymap : Keymap) (e : Emulator) (event : Event) (k : Key) :
    (event.deliver keymap e).keypad.down.get k =
      if event.moves (keymap.code k) then decide (event = keyDown (keymap.code k))
      else e.keypad.down.get k := by
  cases event with
  | keyDown code =>
      rw [deliver_keyDown, down_elim_moveKey]
      by_cases hcode : keymap.code k = code
      · simp [moves, hcode]
      · simp [moves, hcode, Ne.symm hcode]
  | keyUp code =>
      by_cases hescape : code = escape
      · by_cases hcode : keymap.code k = code
        · simp [deliver, moves, hescape, hcode]
        · simp [deliver, moves, hescape, hescape ▸ Ne.symm hcode]
      · rw [deliver_keyUp keymap e hescape, down_elim_moveKey]
        by_cases hcode : keymap.code k = code
        · simp [moves, hescape, hcode]
        · simp [moves, hcode, Ne.symm hcode]
  | quit | other => simp [deliver, moves]

/-- The hook that an event calls is one of a key. -/
theorem key?_of_hook? {keymap : Keymap} {event : Event} {request : Request}
    (h : event.hook? keymap = some request) : ∃ index, request.key? = some index := by
  cases event with
  | keyDown code =>
      obtain ⟨k, -, rfl⟩ := Option.map_eq_some_iff.1 h
      exact ⟨k.val, rfl⟩
  | keyUp code =>
      obtain ⟨-, hkey⟩ := Option.ite_none_left_eq_some.1 h
      obtain ⟨k, -, rfl⟩ := Option.map_eq_some_iff.1 hkey
      exact ⟨k.val, rfl⟩
  | quit | other => contradiction

/-- An event changes nothing but keys. -/
theorem toMachine_deliver (keymap : Keymap) (e : Emulator) (event : Event) :
    (event.deliver keymap e).toMachine =
      { e.toMachine with keypad := (event.deliver keymap e).keypad } := by
  cases hhook : event.hook? keymap with
  | none => rw [deliver_of_hook?_eq_none hhook]
  | some request =>
      obtain ⟨index, hindex⟩ := key?_of_hook? hhook
      obtain ⟨-, keypad, hmachine⟩ := Emulator.serve_key (e := e) hindex
      rw [serve_hook hhook] at hmachine
      simp only at hmachine
      rw [hmachine]

/-! ## several events -/

/-- Events are handed on by calling their hooks, one after the other, and none of these calls is
refused. -/
theorem foldl_deliver (keymap : Keymap) (e : Emulator) (events : List Event) :
    let hooks := events.filterMap (hook? keymap)
    events.foldl (deliver keymap) e = e.serveAll hooks ∧
      ∀ answer ∈ e.answers hooks, answer = .ok .nothing := by
  induction events generalizing e with
  | nil => simp [Emulator.answers]
  | cons event rest ih =>
      obtain ⟨hafter, hanswers⟩ := ih (event.deliver keymap e)
      rw [List.foldl_cons]
      cases hhook : event.hook? keymap with
      | none =>
          rw [deliver_of_hook?_eq_none hhook] at hafter hanswers ⊢
          simp only [List.filterMap_cons_none hhook]
          exact ⟨hafter, hanswers⟩
      | some request =>
          have hserve := serve_hook hhook e
          simp only [List.filterMap_cons_some hhook, Emulator.serveAll_cons, Emulator.answers,
            hserve, List.forall_mem_cons]
          exact ⟨hafter, trivial, hanswers⟩

/-- A key is where the last event that moves it has put it. -/
theorem down_foldl_deliver (keymap : Keymap) (e : Emulator) (events : List Event) (k : Key) :
    (events.foldl (deliver keymap) e).keypad.down.get k =
      match (events.filter (moves (keymap.code k))).getLast? with
      | some event => decide (event = keyDown (keymap.code k))
      | none => e.keypad.down.get k := by
  induction events generalizing e with
  | nil => rfl
  | cons event rest ih =>
      rw [List.foldl_cons, ih, down_deliver]
      by_cases hmoves : event.moves (keymap.code k) = true
      · rw [List.filter_cons_of_pos hmoves, List.getLast?_cons, if_pos hmoves]
        cases (rest.filter (moves (keymap.code k))).getLast? <;> rfl
      · rw [List.filter_cons_of_neg hmoves, if_neg hmoves]

/-- Events change nothing but keys. -/
theorem toMachine_foldl_deliver (keymap : Keymap) (e : Emulator) (events : List Event) :
    (events.foldl (deliver keymap) e).toMachine =
      { e.toMachine with keypad := (events.foldl (deliver keymap) e).keypad } := by
  induction events generalizing e with
  | nil => rfl
  | cons event rest ih => rw [List.foldl_cons, ih, toMachine_deliver]

theorem any_asksToQuit (batch : List Event) :
    batch.any asksToQuit = decide (quit ∈ batch ∨ keyUp escape ∈ batch) := by
  induction batch with
  | nil => rfl
  | cons event rest ih =>
      rw [List.any_cons, ih]
      cases event <;> simp [asksToQuit, eq_comm, or_left_comm]

end Event

namespace Inputs

/-! ## batches -/

/-- Takes so many batches, one after the other; the answers are whether to quit. -/
def processAll (inputs : Inputs) (e : Emulator) : Nat → List Bool × Inputs × Emulator
  | 0 => ([], inputs, e)
  | count + 1 =>
    let (quit, inputs, e) := inputs.process e
    let (quits, inputs, e) := inputs.processAll e count
    (quit :: quits, inputs, e)

/-- Batches are handed on one after the other, and the answer to each depends on it alone. -/
theorem processAll_eq (keymap : Keymap) (e : Emulator) (batches : List (List Event)) :
    processAll { keymap, headless := false, batches } e batches.length =
      (batches.map (·.any Event.asksToQuit), { keymap, headless := false, batches := [] },
        batches.flatten.foldl (Event.deliver keymap) e) := by
  induction batches generalizing e with
  | nil => rfl
  | cons batch rest ih =>
      simp [processAll, process, Event.deliverAll, ih]

/-- **No key event is lost or counted twice**: whatever batches of events are taken, with any
keymap and from any state, the answer to a batch is to quit exactly if the window was closed or
Escape went up in it.  Afterwards a key is down exactly if the last event that moves it was that
it goes down, or if there was none and it was down before.  Nothing but the keys has changed: all
that the events come to is calls of the hooks of keys, none of which is refused. -/
theorem keys_follow_events (keymap : Keymap) (e : Emulator) (batches : List (List Event)) :
    let inputs : Inputs := { keymap, headless := false, batches }
    let events := batches.flatten
    let hooks := events.filterMap (Event.hook? keymap)
    ∃ after,
      inputs.processAll e batches.length =
        (batches.map fun batch => decide (.quit ∈ batch ∨ .keyUp 27 ∈ batch),
          { inputs with batches := [] }, after) ∧
      (∀ k : Key, after.keypad.down.get k = true ↔
        match (events.filter (Event.moves (keymap.code k))).getLast? with
        | some event => event = .keyDown (keymap.code k)
        | none => e.keypad.down.get k = true) ∧
      after.toMachine = { e.toMachine with keypad := after.keypad } ∧
      after = e.serveAll hooks ∧ ∀ answer ∈ e.answers hooks, answer = .ok .nothing := by
  intro inputs events hooks
  have hprocess := processAll_eq keymap e batches
  simp only [Event.any_asksToQuit] at hprocess
  refine ⟨_, hprocess, ?_, Event.toMachine_foldl_deliver keymap e events,
    Event.foldl_deliver keymap e events⟩
  intro k
  rw [Event.down_foldl_deliver]
  cases (events.filter (Event.moves (keymap.code k))).getLast? with
  | none => rfl
  | some event => exact decide_eq_true_iff

end Inputs

end Chip8
