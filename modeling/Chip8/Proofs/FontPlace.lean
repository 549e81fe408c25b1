import Chip8.Proofs.Bounds
import Chip8.Proofs.Loading

/-!
# Chip8.Proofs.FontPlace

Where the font is meant to go and where it is.  A machine notes a location for its font before
the font is written, and its memory notes one only after that.  So an installation that is
refused for want of room is not without effect: the machine keeps the new location, its memory
the old one, and every reset is refused until the font is sent to a place where there is room.

`installFont_eq`, `create_eq` and `reset_eq` say what the calls that write the font do in every
case.  `font_serve` follows both notes through one call, `font_serveAll` through any sequence of
them, and `font_noted_before_written` draws the conclusions for a new emulator.
-/

namespace Chip8

/-- There is room for the font from a location on. -/
def FontFits (a : Int) : Prop := 0 ≤ a ∧ a + systemFont.length ≤ 0x1000

instance (a : Int) : Decidable (FontFits a) := inferInstanceAs (Decidable (_ ∧ _))

/-! ## writing the font -/

namespace Memory

variable {size : Nat}

/-- Of the first and the last address of a block that does not fit, the one that is refused. -/
def overrun (size : Nat) (a : Int) (count : Nat) : Int :=
  if 0 ≤ a ∧ a < size then a + count - 1 else a

theorem locate_of_outside {a : Int} (h : ¬(0 ≤ a ∧ a < size)) :
    locate size a = .error (.outsideMemory a) := dif_neg h

/-- A block that does not lie within memory has no place there. -/
theorem locateBlock_of_not_fits {a : Int} {count : Nat} (h : ¬(0 ≤ a ∧ a + count ≤ size)) :
    locateBlock size a count = .error (.outsideMemory (overrun size a count)) := by
  rw [locateBlock]
  by_cases hfirst : 0 ≤ a ∧ a < size
  · have hplace : locate size a = .ok ⟨a.toNat, by omega⟩ :=
      locate_eq_ok_iff.2 (Int.toNat_of_nonneg hfirst.1).symm
    have hlast : ¬(0 ≤ a + count - 1 ∧ a + count - 1 < size) := by omega
    rw [hplace, overrun, if_pos hfirst]
    change (locate size (a + count - 1) >>= _) = _
    rw [locate_of_outside hlast]
    rfl
  · rw [locate_of_outside hfirst, overrun, if_neg hfirst]
    rfl

/-- A block that does not lie within memory is refused. -/
theorem storeBytes_of_not_fits (m : Memory size) {a : Int} {block : List UInt8}
    (hblock : block ≠ []) (h : ¬(0 ≤ a ∧ a + block.length ≤ size)) :
    m.storeBytes a block = .error (.outsideMemory (overrun size a block.length)) := by
  have hnonempty : block.isEmpty = false := List.isEmpty_eq_false_iff.2 hblock
  rw [storeBytes, hnonempty, locateBlock_of_not_fits h]
  rfl

/-- The memory with the font written to a location. -/
def withFont (m : Memory size) (a : Int) : Memory size :=
  { bytes := overwrite m.bytes a.toNat systemFont, fontLocation := a }

/-- The font is written and its location noted if there is room, and refused otherwise. -/
theorem installFont_eq (m : Memory 0x1000) (a : Int) :
    m.installFont a =
      if FontFits a then .ok (m.withFont a)
      else .error (.outsideMemory (overrun 0x1000 a systemFont.length)) := by
  unfold installFont
  by_cases hfits : FontFits a
  · rw [if_pos hfits, m.storeBytes_of_fits hfits.1 hfits.2]
    rfl
  · have hfont : systemFont ≠ [] := List.cons_ne_nil _ _
    rw [if_neg hfits, m.storeBytes_of_not_fits hfont hfits]
    rfl

end Memory

namespace Machine

/-- The machine with its font written to a location and its index register at zero. -/
def withFont (m : Machine) (a : Int) : Machine :=
  { m with
    fontLocation := a
    memory := m.memory.withFont a
    processor := { m.processor with i := 0 } }

@[simp] theorem fontLocation_quieted (m : Machine) :
    m.quieted.fontLocation = m.fontLocation := rfl

@[simp] theorem memory_quieted (m : Machine) : m.quieted.memory = m.memory := rfl

@[simp] theorem fontLocation_withFont (m : Machine) (a : Int) :
    (m.withFont a).fontLocation = a := rfl

@[simp] theorem written_withFont (m : Machine) (a : Int) :
    (m.withFont a).memory.fontLocation = a := rfl

/-- What an installation of the font does: all of it where there is room; where there is none,
the location is noted all the same. -/
theorem installFont_eq (m : Machine) (location : Option Int) :
    m.installFont location =
      let a := location.getD m.fontLocation
      if FontFits a then (.ok (), m.withFont a)
      else (.error (.outsideMemory (Memory.overrun 0x1000 a systemFont.length)),
        { m with fontLocation := a }) := by
  unfold installFont
  dsimp only
  rw [Memory.installFont_eq]
  by_cases hfits : FontFits (location.getD m.fontLocation)
  · rw [if_pos hfits, if_pos hfits]
    rfl
  · rw [if_neg hfits, if_neg hfits]

/-- A machine is built if there is room for its font. -/
theorem create_eq (stackLimit fontLocation programStart : Option Int) (rng : Rng) :
    create stackLimit fontLocation programStart rng =
      let a := fontLocation.getD defaultFontLocation
      if FontFits a then
        .ok ((blank (stackLimit.getD defaultStackLimit) a
          (programStart.getD defaultProgramStart) rng).withFont a)
      else .error (.outsideMemory (Memory.overrun 0x1000 a systemFont.length)) := by
  have hinstall := (blank (stackLimit.getD defaultStackLimit)
    (fontLocation.getD defaultFontLocation) (programStart.getD defaultProgramStart)
    rng).installFont_eq none
  by_cases hfits : FontFits (fontLocation.getD defaultFontLocation)
  · have hdone := hinstall.trans (if_pos hfits)
    simp only [create, hdone, if_pos hfits]
    rfl
  · have hrefused := hinstall.trans (if_neg hfits)
    simp only [create, hrefused, if_neg hfits]
    rfl

/-- What a reset does: all of it where there is room for the font; where there is none, it stops
half way, with memory and processor cleared and everything else as it was. -/
theorem reset_eq (m : Machine) :
    m.reset =
      if FontFits m.fontLocation then (.ok (), (m.cleared.withFont m.fontLocation).quieted)
      else (.error (.outsideMemory (Memory.overrun 0x1000 m.fontLocation systemFont.length)),
        m.cleared) := by
  have hinstall := m.cleared.installFont_eq none
  by_cases hfits : FontFits m.fontLocation
  · have hdone : m.cleared.installFont none = (.ok (), m.cleared.withFont m.fontLocation) :=
      hinstall.trans (if_pos hfits)
    rw [reset, hdone, if_pos hfits]
  · have hrefused : m.cleared.installFont none =
        (.error (.outsideMemory (Memory.overrun 0x1000 m.fontLocation systemFont.length)),
          m.cleared) := hinstall.trans (if_neg hfits)
    rw [reset, hrefused, if_neg hfits]

/-! ## what leaves the font alone -/

/-- Neither the machine nor its memory has another location for the font. -/
structure SameFont (m after : Machine) : Prop where
  meant : after.fontLocation = m.fontLocation
  written : after.memory.fontLocation = m.memory.fontLocation

theorem SameFont.trans {m between after : Machine} (h : SameFont m between)
    (h' : SameFont between after) : SameFont m after :=
  ⟨h'.meant.trans h.meant, h'.written.trans h.written⟩

theorem sameFont_perform {m after : Machine} {i : Instruction} (h : m.perform i = .ok after) :
    SameFont m after :=
  ⟨(kept_of_perform h).fontLocation, (kept_of_perform h).fontPlace⟩

theorem sameFont_step (m : Machine) : SameFont m m.step.2 := by
  have hstep := m.stepped_step
  generalize m.step = r at hstep ⊢
  cases hstep with
  | @carriedOut _ i after hword hi h =>
      have hfont := sameFont_perform (m := m.found i) h
      exact ⟨hfont.meant, hfont.written⟩
  | endOfMemory | invalid | halted | faulted => exact ⟨rfl, rfl⟩

/-- Loading, steps, runs, executions, ticks and keys do not move the font. -/
theorem sameFont_of_operated {m after : Machine} (h : m.Operated after) : SameFont m after := by
  induction h with
  | same | loaded | halted | ticked | keyMoved => exact ⟨rfl, rfl⟩
  | stepped _ ih => exact ih.trans (sameFont_step _)
  | performed hperform => exact sameFont_perform hperform

end Machine

/-! ## the two notes -/

/-- The location that a call asks the font to go to. -/
def Request.fontPlace? : Request → Option Int
  | .installFont location => location
  | _ => none

namespace Machine

/-- The font has been written where it is noted in memory, and it is there that it is meant to
be if there is room. -/
structure FontKnown (m : Machine) : Prop where
  fits : FontFits m.memory.fontLocation
  agree : FontFits m.fontLocation → m.memory.fontLocation = m.fontLocation

theorem fontKnown_withFont (m : Machine) {a : Int} (h : FontFits a) : (m.withFont a).FontKnown :=
  ⟨h, fun _ => rfl⟩

/-- The two notes are the same exactly if there is room where the font is meant to be. -/
theorem FontKnown.same_iff {m : Machine} (h : m.FontKnown) :
    m.fontLocation = m.memory.fontLocation ↔ FontFits m.fontLocation := by
  constructor
  · intro hsame
    rw [hsame]
    exact h.fits
  · exact fun hfits => (h.agree hfits).symm

end Machine

namespace Emulator

open Machine

/-- An installation of the font, with both notes in view. -/
theorem font_installFont {e : Emulator} (he : e.toMachine.FontKnown) (location : Option Int) :
    (e.installFont location).2.fontLocation = location.getD e.fontLocation ∧
      (e.installFont location).2.memory.fontLocation =
        (location.filter FontFits).getD e.memory.fontLocation := by
  change (e.toMachine.installFont location).2.fontLocation = _ ∧
    (e.toMachine.installFont location).2.memory.fontLocation = _
  rw [e.toMachine.installFont_eq location]
  cases location with
  | none =>
      rw [Option.getD_none]
      by_cases hfits : FontFits e.fontLocation
      · simp [hfits, he.agree hfits]
      · simp [hfits]
  | some a =>
      rw [Option.getD_some]
      by_cases hfits : FontFits a
      · simp [hfits, Option.filter_some]
      · simp [hfits, Option.filter_some]

/-- A reset writes the font again where it is meant to be, and so moves neither note. -/
theorem sameFont_reset {e : Emulator} (he : e.toMachine.FontKnown) :
    SameFont e.toMachine e.reset.2.toMachine := by
  change SameFont e.toMachine e.toMachine.reset.2
  rw [reset_eq]
  by_cases hfits : FontFits e.fontLocation
  · rw [if_pos hfits]
    constructor
    · simp only [fontLocation_quieted, fontLocation_withFont]
    · simp only [memory_quieted, written_withFont, he.agree hfits]
  · rw [if_neg hfits]
    exact ⟨rfl, rfl⟩

/-- What a call does to the two notes: the machine notes the location that is asked for, its
memory does so if there is room. -/
theorem font_serve {e : Emulator} (he : e.toMachine.FontKnown) (request : Request) :
    (e.serve request).2.fontLocation = request.fontPlace?.getD e.fontLocation ∧
      (e.serve request).2.memory.fontLocation =
        (request.fontPlace?.filter FontFits).getD e.memory.fontLocation := by
  by_cases hinstall : ∃ location, request = .installFont location
  · obtain ⟨location, rfl⟩ := hinstall
    exact font_installFont he location
  · have hplace : request.fontPlace? = none := by
      cases request with
      | installFont location => exact absurd ⟨location, rfl⟩ hinstall
      | _ => rfl
    have hsame : SameFont e.toMachine (e.serve request).2.toMachine := by
      by_cases hreset : request = .reset
      · subst hreset
        exact sameFont_reset he
      · exact sameFont_of_operated (operated_serve (not_exists.1 hinstall) hreset)
    rw [hplace]
    exact ⟨hsame.meant, hsame.written⟩

theorem fontKnown_serve {e : Emulator} (he : e.toMachine.FontKnown) (request : Request) :
    (e.serve request).2.toMachine.FontKnown := by
  obtain ⟨hmeant, hwritten⟩ := font_serve he request
  cases hplace : request.fontPlace? with
  | none =>
      rw [hplace] at hmeant hwritten
      constructor
      · rw [hwritten]
        exact he.fits
      · rw [hmeant, hwritten]
        exact he.agree
  | some a =>
      rw [hplace] at hmeant hwritten
      by_cases hfits : FontFits a
      · rw [Option.filter_some, if_pos (decide_eq_true hfits)] at hwritten
        constructor
        · rw [hwritten]
          exact hfits
        · rw [hmeant, hwritten]
          exact fun _ => rfl
      · rw [Option.filter_some, if_neg (mt of_decide_eq_true hfits)] at hwritten
        constructor
        · rw [hwritten]
          exact he.fits
        · rw [hmeant]
          exact fun h => absurd h hfits

/-- Where there is room the font is installed. -/
theorem installFont_of_fits {e : Emulator} {location : Int} (h : FontFits location) :
    (e.installFont (some location)).1 = .ok () := by
  change (e.toMachine.installFont (some location)).1 = _
  rw [Machine.installFont_eq, Option.getD_some]
  exact congrArg Prod.fst (if_pos h)

theorem toMachine_installFont_of_fits {e : Emulator} {location : Int} (h : FontFits location) :
    (e.installFont (some location)).2.toMachine = e.toMachine.withFont location := by
  change (e.toMachine.installFont (some location)).2 = _
  simp only [Machine.installFont_eq, Option.getD_some, if_pos h]

/-- Where there is no room, the location is noted and nothing else is done. -/
theorem installFont_of_not_fits {e : Emulator} {location : Int} (h : ¬FontFits location) :
    e.installFont (some location) =
      (.error (.outsideMemory (Memory.overrun 0x1000 location systemFont.length)),
        { e with fontLocation := location }) := by
  have hrefused := (e.toMachine.installFont_eq (some location)).trans (if_neg h)
  rw [installFont, hrefused]
  rfl

/-- A reset is answered exactly if there is room where the font is meant to be. -/
theorem reset_ok_iff (e : Emulator) : e.reset.1 = .ok () ↔ FontFits e.fontLocation := by
  change e.toMachine.reset.1 = .ok () ↔ FontFits e.fontLocation
  rw [reset_eq]
  by_cases hfits : FontFits e.fontLocation
  · simp [hfits]
  · simp [hfits]

/-- A reset that is refused has cleared memory and processor, and nothing else. -/
theorem reset_of_not_fits {e : Emulator} (h : ¬FontFits e.fontLocation) :
    e.reset.2.toMachine = e.toMachine.cleared := by
  change e.toMachine.reset.2 = e.toMachine.cleared
  rw [reset_eq, if_neg h]

/-! ## sequences of calls -/

/-- The locations that the font was asked to go to, in order. -/
def askedPlaces (requests : List Request) : List Int := requests.filterMap Request.fontPlace?

theorem askedPlaces_cons (request : Request) (rest : List Request) :
    askedPlaces (request :: rest) = request.fontPlace?.toList ++ askedPlaces rest := by
  unfold askedPlaces
  cases h : request.fontPlace? with
  | none => rw [List.filterMap_cons_none h, Option.toList_none, List.nil_append]
  | some a => rw [List.filterMap_cons_some h, Option.toList_some, List.singleton_append]

/-- After any calls the machine notes the last location that was asked for, and its memory the
last one at which there was room. -/
theorem font_serveAll {e : Emulator} (he : e.toMachine.FontKnown) (requests : List Request) :
    (e.serveAll requests).toMachine.FontKnown ∧
      (e.serveAll requests).fontLocation = (askedPlaces requests).getLastD e.fontLocation ∧
      (e.serveAll requests).memory.fontLocation =
        ((askedPlaces requests).filter FontFits).getLastD e.memory.fontLocation := by
  induction requests generalizing e with
  | nil => exact ⟨he, rfl, rfl⟩
  | cons request rest ih =>
      obtain ⟨hmeant, hwritten⟩ := font_serve he request
      obtain ⟨hknown, hmeant_rest, hwritten_rest⟩ := ih (fontKnown_serve he request)
      rw [hmeant] at hmeant_rest
      rw [hwritten] at hwritten_rest
      refine ⟨hknown, ?_⟩
      rw [serveAll_cons, hmeant_rest, hwritten_rest, askedPlaces_cons]
      cases request.fontPlace? with
      | none => exact ⟨rfl, rfl⟩
      | some a =>
          rw [Option.toList_some, List.singleton_append, List.getLastD_cons]
          refine ⟨rfl, ?_⟩
          by_cases hfits : FontFits a
          · simp only [Option.filter_some, List.filter_cons, hfits, decide_true, if_true,
              List.getLastD_cons, Option.getD_some]
          · simp only [Option.filter_some, List.filter_cons, hfits, decide_false,
              Bool.false_eq_true, if_false, Option.getD_none]

/-- An emulator is built only where there is room for its font, which is then there. -/
theorem toMachine_of_create {stackLimit fontLocation programStart : Option Int} {rng : Rng}
    {log : Log} {e : Emulator}
    (h : Emulator.create stackLimit fontLocation programStart rng log = .ok e) :
    let a := fontLocation.getD defaultFontLocation
    FontFits a ∧
      e.toMachine =
        (blank (stackLimit.getD defaultStackLimit) a (programStart.getD defaultProgramStart)
          rng).withFont a := by
  unfold Emulator.create at h
  rw [create_eq] at h
  dsimp only at h
  by_cases hfits : FontFits (fontLocation.getD defaultFontLocation)
  · rw [if_pos hfits] at h
    rw [← Except.ok.inj h]
    exact ⟨hfits, rfl⟩
  · rw [if_neg hfits] at h
    cases h

theorem fontKnown_create {stackLimit fontLocation programStart : Option Int} {rng : Rng}
    {log : Log} {e : Emulator}
    (h : Emulator.create stackLimit fontLocation programStart rng log = .ok e) :
    e.toMachine.FontKnown ∧ e.fontLocation = fontLocation.getD Machine.defaultFontLocation ∧
      e.memory.fontLocation = fontLocation.getD Machine.defaultFontLocation := by
  obtain ⟨hfits, hmachine⟩ := toMachine_of_create h
  rw [hmachine]
  exact ⟨fontKnown_withFont _ hfits, fontLocation_withFont _ _, written_withFont _ _⟩

/-- **Noted before it is written**: after any calls on a new emulator, whether or not they are
refused, it notes the last location that the font was asked to go to, and its memory notes the
last one at which there was room.  So the two notes are the same exactly if there is room at the
last location, and these are the states in which a reset is answered; in the others it stops
with memory and processor cleared and everything else as it was.  An installation is answered
exactly if there is room; one that is refused changes nothing but what the machine notes. -/
theorem font_noted_before_written {stackLimit fontLocation programStart : Option Int} {rng : Rng}
    {log : Log} {e : Emulator}
    (hcreate : Emulator.create stackLimit fontLocation programStart rng log = .ok e)
    (requests : List Request) :
    let initial := fontLocation.getD Machine.defaultFontLocation
    let asked := askedPlaces requests
    let after := e.serveAll requests
    (after.fontLocation = asked.getLastD initial ∧
      after.memory.fontLocation = (asked.filter FontFits).getLastD initial) ∧
    (after.fontLocation = after.memory.fontLocation ↔ FontFits (asked.getLastD initial)) ∧
    (after.reset.1 = .ok () ↔ FontFits (asked.getLastD initial)) ∧
    (¬FontFits (asked.getLastD initial) → after.reset.2.toMachine = after.toMachine.cleared) ∧
    ∀ location : Int,
      (FontFits location → (after.installFont (some location)).1 = .ok ()) ∧
      (¬FontFits location → after.installFont (some location) =
        (.error (.outsideMemory (Memory.overrun 0x1000 location systemFont.length)),
          { after with fontLocation := location })) := by
  intro initial asked after
  obtain ⟨hnew, hmeant_new, hwritten_new⟩ := fontKnown_create hcreate
  obtain ⟨hknown, hmeant, hwritten⟩ := font_serveAll hnew requests
  rw [hmeant_new] at hmeant
  rw [hwritten_new] at hwritten
  refine ⟨⟨hmeant, hwritten⟩, ?_, ?_, ?_, ?_⟩
  · rw [← hmeant]
    exact hknown.same_iff
  · rw [← hmeant]
    exact after.reset_ok_iff
  · rw [← hmeant]
    exact reset_of_not_fits
  · intro location
    exact ⟨installFont_of_fits, installFont_of_not_fits⟩

/-- A font that is sent to a place where there is room and then to one where there is none: the
machine notes the second, its memory the first, and a reset is refused. -/
theorem font_noted_before_written_refused :
    let requests : List Request := [.installFont (some 0x100), .installFont (some 5000)]
    ∃ e, Emulator.create none none none (Rng.cycle []) .off = .ok e ∧
      (e.serveAll requests).fontLocation = 5000 ∧
      (e.serveAll requests).memory.fontLocation = 0x100 ∧
      (e.serveAll requests).reset.1 ≠ .ok () := by
  intro requests
  refine ⟨_, rfl, ?_⟩
  obtain ⟨⟨hmeant, hwritten⟩, -, hreset, -, -⟩ :=
    @font_noted_before_written none none none (Rng.cycle []) .off _ rfl requests
  refine ⟨hmeant, hwritten, ?_⟩
  intro hok
  have hfits := hreset.1 hok
  exact absurd hfits (by decide)

/-- An installation that is refused is not taken back: not every call of `installFont` is
answered or leaves the state alone, and not every state notes the same location twice and can
be reset. -/
theorem refused_font_not_taken_back :
    ¬∀ e, Emulator.create none none none (Rng.cycle []) .off = .ok e →
      ∀ (requests : List Request) (location : Int),
        let after := e.serveAll requests
        ((after.installFont (some location)).1 = .ok () ∨
          ∃ a, after.installFont (some location) = (.error (.outsideMemory a), after)) ∧
        after.fontLocation = after.memory.fontLocation ∧ after.reset.1 = .ok () := by
  intro h
  obtain ⟨e, hcreate⟩ :
      ∃ e, Emulator.create none none none (Rng.cycle []) .off = .ok e := ⟨_, rfl⟩
  have hnote : e.fontLocation = 0 := (fontKnown_create hcreate).2.1
  have hfits : ¬FontFits 5000 := by decide
  obtain ⟨hok | ⟨a, hsame⟩, -⟩ := h e hcreate [] 5000
  · rw [serveAll_nil, installFont_of_not_fits hfits] at hok
    cases hok
  · rw [serveAll_nil, installFont_of_not_fits hfits] at hsame
    have hafter : 5000 = e.fontLocation := congrArg (fun r => r.2.fontLocation) hsame
    rw [hnote] at hafter
    exact absurd hafter (by decide)

end Emulator

end Chip8
