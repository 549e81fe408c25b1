import Chip8.Proofs.ByteMap
import Chip8.Proofs.Footprint
import Chip8.Proofs.Running

/-!
# Chip8.Proofs.Glyphs

The shapes of digits are found where the font was last installed.  `FontAt` says what this comes to:
memory notes the location, and has the bytes of the font from there on.  Whatever installs the font
leaves it there (`fontAt_create`, `fontAt_serve`), and a program that does not write over it keeps
it there (`keptBy_fontAt`).

Since a font is only installed where there is room for all of it, the address of the shape of a digit
is never cut to twelve bits, not even at the very end of memory (`FontAt.loadMany_glyph`).  Drawing
five rows from there on draws the shape (`rowsAtIndex_of_loadMany`).
-/

namespace Chip8

/-- The calls that install the font. -/
def Request.installs : Request → Prop
  | .installFont _ | .reset => True
  | _ => False

namespace Machine

/-- The addresses to which the next instruction writes. -/
def storesTo (m : Machine) : List Int :=
  m.upcoming.toList.flatMap fun i =>
    (List.range i.bytesStored).map fun (k : Nat) => wrap (m.processor.i + k)

/-- The next step does not write over the font at a location. -/
def SparesFont (a : Int) (m : Machine) : Prop :=
  ∀ b ∈ m.storesTo, ¬(a ≤ b ∧ b ≤ a + 79)

instance (a : Int) (m : Machine) : Decidable (m.SparesFont a) :=
  inferInstanceAs (Decidable (∀ b ∈ m.storesTo, _))

/-- The font is at a location, and noted in memory to be there. -/
structure FontAt (a : Int) (m : Machine) : Prop where
  fits : FontFits a
  noted : m.memory.fontLocation = a
  bytes (k : Nat) (hk : k < systemFont.length) : m.memory.load (a + k) = .ok systemFont[k]

/-! ## how it gets there -/

/-- The font that was written to a location is read there. -/
theorem fontAt_withFont (m : Machine) {a : Int} (h : FontFits a) : (m.withFont a).FontAt a where
  fits := h
  noted := rfl
  bytes := by
    have hread := m.memory.loadMany_overwrite (j := 0) (n := systemFont.length) h.1 h.2
      (Nat.le_of_eq (Nat.zero_add _))
    rw [List.drop_zero, List.take_length] at hread
    intro k hk
    have hbyte := (Memory.load_of_loadMany hread).2 k hk
    rwa [Int.natCast_zero, Int.add_zero] at hbyte

/-- Writing the font leaves the other bytes of memory alone. -/
theorem load_withFont (m : Machine) {a b : Int} (ha : 0 ≤ a) (hb : ¬(a ≤ b ∧ b ≤ a + 79)) :
    (m.withFont a).memory.load b = m.memory.load b := by
  refine Memory.load_congr fun k hk => ?_
  have hout : ¬(a.toNat ≤ k.val ∧ k.val - a.toNat < systemFont.length) := by
    rw [length_systemFont, glyphSize]
    omega
  change (Memory.overwrite m.memory.bytes a.toNat systemFont)[k.val] = _
  rw [Memory.getElem_overwrite, dif_neg hout]
  rfl

/-! ## how it stays -/

/-- The font stays where it is if neither its bytes nor the note are changed. -/
theorem FontAt.of_same {m after : Machine} {a : Int} (h : m.FontAt a)
    (hnoted : after.memory.fontLocation = m.memory.fontLocation)
    (hbytes : ∀ k : Nat, k < systemFont.length →
      after.memory.load (a + k) = m.memory.load (a + k)) : after.FontAt a where
  fits := h.fits
  noted := hnoted.trans h.noted
  bytes k hk := (hbytes k hk).trans (h.bytes k hk)

/-- Where the next instruction does not write, memory is after a step what it was. -/
theorem load_step {m : Machine} {b : Int} (hb : b ∉ m.storesTo) :
    m.step.2.memory.load b = m.memory.load b := by
  have hstep := m.stepped_step
  generalize m.step = r at hstep ⊢
  cases hstep with
  | @carriedOut word i after hword hi h =>
      refine load_perform (m := m.found i) h fun k hk hplace => hb ?_
      rw [storesTo, upcoming_of_fetch hword hi]
      simp only [Option.toList_some, List.flatMap_singleton, List.mem_map, List.mem_range]
      exact ⟨k, hk, hplace⟩
  | endOfMemory | invalid | halted | faulted => rfl

/-- A font that is not written over stays where it is while the machine is left to run. -/
theorem keptBy_fontAt (a : Int) : KeptBy (SparesFont a) (FontAt a) where
  step {m} hm h := by
    refine hm.of_same (sameFont_step m).written fun k hk => load_step fun hmem => ?_
    rw [length_systemFont] at hk
    have hin : a ≤ a + k ∧ a + k ≤ a + 79 := by
      have hsize : k < 80 := hk
      omega
    exact h _ hmem hin
  tick hm := hm.of_same rfl fun _ _ => rfl
  keys hm _ := hm.of_same rfl fun _ _ => rfl

/-! ## how it is used -/

/-- The five bytes of a digit are its shape, and all of them are in memory. -/
theorem FontAt.loadMany_glyph {m : Machine} {a : Int} (h : m.FontAt a) {d : Nat} (hd : d < 16) :
    (0 ≤ a ∧ a + 5 * d + 4 ≤ 0xFFF) ∧ m.memory.loadMany (a + 5 * d) 5 = some (glyph d) := by
  obtain ⟨hfirst, hlast⟩ := h.fits
  have hfont : systemFont.length = 80 := rfl
  have hlength : (glyph d).length = 5 := by
    rw [glyph, List.length_take, List.length_drop, hfont, glyphSize]
    omega
  have hread : m.memory.loadMany (a + 5 * d) (glyph d).length = some (glyph d) := by
    refine Memory.loadMany_of_load (by omega) fun k hk => ?_
    rw [hlength] at hk
    have hbyte := h.bytes (5 * d + k) (by omega)
    have hplace : a + (5 * d + k : Nat) = a + 5 * d + k := by omega
    rw [hplace] at hbyte
    simpa only [glyph, glyphSize, List.getElem_take, List.getElem_drop] using hbyte
  rw [hlength] at hread
  exact ⟨by omega, hread⟩

/-- A digit is looked up where the font is. -/
theorem exists_lookup {m : Machine} {a : Int} (h : m.FontAt a) (x : Register) :
    ∃ after, m.perform ⟨.fontAddr, x⟩ = .ok after ∧ after.memory = m.memory ∧
      after.processor.i = a + 5 * ((m.reg x).toNat % 16 : Nat) := by
  refine ⟨_, rfl, rfl, ?_⟩
  have hdigit : (m.reg x).toNat % 16 < 16 := Nat.mod_lt _ (by decide)
  obtain ⟨hrange, -⟩ := h.loadMany_glyph hdigit
  have hplace : m.memory.glyphAddress ((m.reg x).toNat % 16 : Nat) =
      a + 5 * ((m.reg x).toNat % 16 : Nat) := by
    rw [Memory.glyphAddress, h.noted]
    rfl
  change wrap (m.memory.glyphAddress _) = _
  rw [hplace, wrap_of_range (by omega)]

/-- What is drawn are the bytes that can be read from the index register on. -/
theorem rowsAtIndex_of_loadMany {m : Machine} {n : Nibble} {rows : List UInt8}
    (h : m.memory.loadMany m.processor.i n.val = some rows) : m.rowsAtIndex n = rows := by
  obtain ⟨hlength, hbytes⟩ := Memory.load_of_loadMany h
  have hrows : rows.length = n.val := Int.ofNat.inj hlength
  refine List.ext_getElem (by rw [rowsAtIndex, List.length_map, List.length_range, hrows]) ?_
  intro r _ hr
  simp only [rowsAtIndex, List.getElem_map, List.getElem_range]
  exact (load_eq_ok_iff.1 (hbytes r hr)).2

/-- Rows that can be read from the index register on are drawn as they are. -/
theorem exists_drawn {m : Machine} {n : Nibble} {rows : List UInt8}
    (h : m.memory.loadMany m.processor.i n.val = some rows) (x y : Register) :
    ∃ hit after, m.perform ⟨.draw, (x, y, n)⟩ = .ok after ∧
      m.screen.drawSprite (m.reg x).toNat (m.reg y).toNat rows = .ok (hit, after.screen) ∧
      after.reg Processor.flagRegister = if hit then 1 else 0 := by
  obtain ⟨hit, screen, hdrawn⟩ := m.screen.drawSprite_total (by decide) (m.reg x).toNat
    (m.reg y).toNat rows
  have hperform := hdrawn
  rw [← rowsAtIndex_of_loadMany h] at hperform
  exact ⟨hit, _, perform_draw hperform, hdrawn, Vector.getElem_set_self _⟩

end Machine

namespace Emulator

open Machine

/-- A new emulator has its font. -/
theorem fontAt_create {stackLimit fontLocation programStart : Option Int} {rng : Rng} {log : Log}
    {e : Emulator} (h : Emulator.create stackLimit fontLocation programStart rng log = .ok e) :
    e.toMachine.FontAt e.fontLocation := by
  obtain ⟨hfits, hmachine⟩ := toMachine_of_create h
  rw [hmachine, fontLocation_withFont]
  exact fontAt_withFont _ hfits

/-- An installation or a reset that is answered has written the font where it is noted to go. -/
theorem fontAt_serve {e : Emulator} {request : Request} (hinstalls : request.installs)
    (hok : (e.serve request).1 = .ok .nothing) :
    (e.serve request).2.toMachine.FontAt (e.serve request).2.fontLocation := by
  cases request with
  | installFont location =>
      have hinstall := e.toMachine.installFont_eq location
      change (e.toMachine.installFont location).1.map (fun _ => Answer.nothing) = _ at hok
      change (e.toMachine.installFont location).2.FontAt
        (e.toMachine.installFont location).2.fontLocation
      by_cases hfits : FontFits (location.getD e.fontLocation)
      · rw [hinstall.trans (if_pos hfits)]
        exact fontAt_withFont _ hfits
      · rw [hinstall.trans (if_neg hfits)] at hok
        cases hok
  | reset =>
      change e.toMachine.reset.1.map (fun _ => Answer.nothing) = _ at hok
      change e.toMachine.reset.2.FontAt e.toMachine.reset.2.fontLocation
      rw [reset_eq] at hok ⊢
      by_cases hfits : FontFits e.fontLocation
      · have hfont := fontAt_withFont e.toMachine.cleared hfits
        have hquieted : (e.toMachine.cleared.withFont e.fontLocation).quieted.FontAt e.fontLocation :=
          hfont.of_same rfl fun _ _ => rfl
        simp only [if_pos hfits, fontLocation_quieted, fontLocation_withFont]
        exact hquieted
      · rw [if_neg hfits] at hok
        cases hok
  | _ => exact hinstalls.elim

/-- The last of some calls, if there was any, has installed the font. -/
def EndsInstalled (e : Emulator) (history : List Request) : Prop :=
  ∀ before request, history = before ++ [request] →
    request.installs ∧ ((e.serveAll before).serve request).1 = .ok .nothing

/-- After any calls of which the last has installed the font, it is where it was last asked to
go. -/
theorem fontAt_serveAll {stackLimit fontLocation programStart : Option Int} {rng : Rng} {log : Log}
    {e : Emulator} (hcreate : Emulator.create stackLimit fontLocation programStart rng log = .ok e)
    {history : List Request} (hinstalled : e.EndsInstalled history) :
    (e.serveAll history).toMachine.FontAt
      ((askedPlaces history).getLastD (fontLocation.getD Machine.defaultFontLocation)) := by
  obtain ⟨hknown, hmeant, -⟩ := fontKnown_create hcreate
  rw [← hmeant, ← (font_serveAll hknown history).2.1]
  rcases List.eq_nil_or_concat history with rfl | ⟨before, request, hlast⟩
  · exact fontAt_create hcreate
  · rw [List.concat_eq_append] at hlast
    obtain ⟨hinstalls, hok⟩ := hinstalled before request hlast
    rw [hlast, serveAll, List.foldl_append]
    exact fontAt_serve hinstalls hok

/-- The emulator with other values in its registers. -/
def withRegisters (e : Emulator) (v : Vector UInt8 16) : Emulator :=
  e.withMachine (e.toMachine.onProcessor ({ · with v }))

/-- **The font is looked up where it was last installed**: after the construction of an emulator and
any calls of which the last has installed the font, and then any steps, runs, ticks and key events
that do not write over it, the instruction that looks up a digit points the index register at its
shape, whatever the registers hold.  The address is not cut to twelve bits, the five bytes from
there on are the shape, and to draw five rows draws it. -/
theorem glyphs_follow_font {stackLimit fontLocation programStart : Option Int} {rng : Rng}
    {log : Log} {e : Emulator}
    (hcreate : Emulator.create stackLimit fontLocation programStart rng log = .ok e)
    {history : List Request} (hinstalled : e.EndsInstalled history) {a : Int}
    (ha : a = (askedPlaces history).getLastD (fontLocation.getD Machine.defaultFontLocation))
    {requests : List Request} (hrunning : ∀ request ∈ requests, request.isRunning)
    (hspares : ∀ f ∈ (e.serveAll history).allSteps requests, f.toMachine.SparesFont a)
    (v : Vector UInt8 16) (x : Register) :
    let digit := v[x].toNat % 16
    ∃ pointing,
      (((e.serveAll history).serveAll requests).withRegisters v).execute
        (.ofInstruction ⟨.fontAddr, x⟩) = (.ok true, pointing) ∧
      pointing.processor.i = a + 5 * digit ∧ 0 ≤ a ∧ a + 5 * digit + 4 ≤ 0xFFF ∧
      pointing.memory.loadMany pointing.processor.i 5 = some (glyph digit) ∧
      ∀ x' y : Register, ∃ hit drawn,
        pointing.execute (.ofInstruction ⟨.draw, (x', y, 5)⟩) = (.ok true, drawn) ∧
        pointing.screen.drawSprite (pointing.reg x').toNat (pointing.reg y).toNat (glyph digit) =
          .ok (hit, drawn.screen) ∧
        drawn.reg Processor.flagRegister = if hit then 1 else 0 := by
  intro digit
  have hinitial := fontAt_serveAll hcreate hinstalled
  rw [← ha] at hinitial
  have hfont : (((e.serveAll history).serveAll requests).withRegisters v).toMachine.FontAt a :=
    (keptBy_serveAll (keptBy_fontAt a) hinitial hrunning hspares).1.of_same rfl fun _ _ => rfl
  obtain ⟨⟨hfirst, hlast⟩, hread⟩ := hfont.loadMany_glyph (d := digit) (Nat.mod_lt _ (by decide))
  obtain ⟨m, hlookup, hmemory, hplace⟩ := exists_lookup hfont x
  have hshape : m.memory.loadMany m.processor.i 5 = some (glyph digit) := by
    rw [hmemory, hplace]
    exact hread
  refine ⟨_, execute_of_perform hlookup, hplace, hfirst, hlast, hshape, fun x' y => ?_⟩
  obtain ⟨hit, drawn, hdraw, hscreen, hflag⟩ := exists_drawn (n := 5) hshape x' y
  exact ⟨hit, _, execute_of_perform hdraw, hscreen, hflag⟩

/-- An emulator that was just built. -/
def justBuilt : Emulator :=
  { toMachine := (Machine.blank 16 0 0x200 (Rng.cycle [])).withFont 0, log := .off }

/-- A font that is moved to the last location at which there is room, and a program that writes over
the first location: the last digit is found in the last five bytes of memory. -/
theorem glyphs_follow_font_lastPlace :
    let history : List Request := [.loadProgram [0xF3, 0x55], .installFont (some 0xFB0)]
    let requests : List Request := [.step, .tick, .keyDown 3]
    Emulator.create none none none (Rng.cycle []) .off = .ok justBuilt ∧
      justBuilt.EndsInstalled history ∧ (∀ request ∈ requests, request.isRunning) ∧
      ((justBuilt.serveAll history).allSteps requests).flatMap (·.storesTo) = [0, 1, 2, 3] ∧
      (∀ f ∈ (justBuilt.serveAll history).allSteps requests, f.toMachine.SparesFont 0xFB0) ∧
      ∃ pointing,
        (((justBuilt.serveAll history).serveAll requests).withRegisters
          (.replicate 16 0xFF)).execute (.ofInstruction ⟨.fontAddr, (3 : Register)⟩) =
            (.ok true, pointing) ∧
        pointing.processor.i = 0xFFB ∧
        pointing.memory.loadMany pointing.processor.i 5 = some [0xF0, 0x80, 0xF0, 0x80, 0x80] := by
  intro history requests
  have hcreate : Emulator.create none none none (Rng.cycle []) .off = .ok justBuilt := by
    rw [Emulator.create, create_eq]
    rfl
  have hfits : FontFits 0xFB0 := by decide
  have hinstalled : justBuilt.EndsInstalled history := by
    intro before request hlast
    have hsplit : history.take 1 ++ [.installFont (some 0xFB0)] = before ++ [request] := hlast
    obtain ⟨rfl, hrequest⟩ := List.append_inj' hsplit rfl
    cases hrequest
    have hinstall := installFont_of_fits (e := justBuilt.serveAll (history.take 1)) hfits
    exact ⟨trivial, congrArg (Except.map fun _ => Answer.nothing) hinstall⟩
  have hrunning : ∀ request ∈ requests, request.isRunning := by
    simp [requests, Request.isRunning, Request.isHook]
  obtain ⟨loaded, hload, hloaded, hread⟩ :=
    @loaded_loadProgram justBuilt (by decide) [0xF3, 0x55] (by decide)
  have hmachine : (justBuilt.serveAll history).toMachine = loaded.toMachine.withFont 0xFB0 := by
    have hfirst : (justBuilt.serve (.loadProgram [0xF3, 0x55])).2 = loaded := by
      rw [serve, hload]
      rfl
    rw [serveAll_cons, hfirst, ← toMachine_installFont_of_fits hfits]
    rfl
  have hupcoming : (loaded.toMachine.withFont 0xFB0).upcoming =
      some ⟨.storeRegs, (3 : Register)⟩ := by
    obtain ⟨-, hbytes⟩ := Memory.load_of_loadMany (hread 0 2 (by decide))
    have hpc : (loaded.toMachine.withFont 0xFB0).processor.pc = 0x200 := hloaded.pc
    refine upcoming_eq_some_iff.2 (fetch_of_bytes (by decide) ?_ ?_)
    · rw [hpc, load_withFont _ (by decide) (by decide)]
      exact hbytes 0 (by decide)
    · rw [hpc, load_withFont _ (by decide) (by decide)]
      exact hbytes 1 (by decide)
  have hstores : (justBuilt.serveAll history).toMachine.storesTo = [0, 1, 2, 3] := by
    rw [hmachine, storesTo, hupcoming]
    rfl
  have hspares : (justBuilt.serveAll history).toMachine.SparesFont 0xFB0 := by
    unfold SparesFont
    rw [hstores]
    decide
  have hall : ∀ f ∈ (justBuilt.serveAll history).allSteps requests,
      f.toMachine.SparesFont 0xFB0 := List.forall_mem_singleton.2 hspares
  obtain ⟨pointing, hlookup, hplace, -, -, hshape, -⟩ :=
    glyphs_follow_font hcreate hinstalled (a := 0xFB0) rfl hrunning hall (.replicate 16 0xFF) 3
  have hdigit : (Vector.replicate 16 (0xFF : UInt8))[(3 : Register)].toNat % 16 = 15 := by
    rw [Fin.getElem_fin, Vector.getElem_replicate]
    rfl
  rw [hdigit] at hplace hshape
  refine ⟨hcreate, hinstalled, hrunning, ?_, hall, pointing, hlookup, hplace, hshape⟩
  exact (List.append_nil _).trans hstores

end Emulator

end Chip8
