import Chip8.Proofs.Drawing

/-!
# Chip8.Proofs.Collision

What the answer of drawing says.  Every pixel of a sprite turns one pixel of the screen around, and
collides if that one is lit; `xorEach` keeps the answer of each.  A collision leaves one lit pixel
less, and any other turn one more, so the lit pixels of a screen are a balance of turns and
collisions (`litCount_xorEach`), also where the sprite wraps onto pixels that it has lit itself.

A sprite that is drawn twice leaves the screen as it was (`pixels_turnedAll_twice`), and the balance
then says that the collisions of both times together are as many as the pixels of the sprite.
-/

namespace Chip8

namespace Screen

variable {w h : Int}

/-! ## the answers of single turns -/

/-- The number of lit pixels. -/
def litCount (s : Screen w h) : Nat := s.pixels.count true

/-- Turns pixels around one after the other, and keeps the answer of each: whether it was lit when
its turn came. -/
def xorEach (s : Screen w h) : List (Int × Int) → Except Fault (List Bool × Screen w h)
  | [] => .ok ([], s)
  | (x, y) :: rest => do
    let (lit, s) ← s.xorPixel x y
    let (answers, s) ← s.xorEach rest
    return (lit :: answers, s)

/-- The answer for all of them is whether any was lit. -/
theorem xorPixels_eq_map (s : Screen w h) (points : List (Int × Int)) :
    s.xorPixels points = (s.xorEach points).map fun r => (r.1.any id, r.2) := by
  induction points generalizing s with
  | nil => rfl
  | cons p rest ih =>
      obtain ⟨x, y⟩ := p
      rw [xorPixels, xorEach]
      cases s.xorPixel x y with
      | error cause => rfl
      | ok r =>
          obtain ⟨lit, t⟩ := r
          change (t.xorPixels rest >>= fun r => pure (lit || r.1, r.2)) =
            (t.xorEach rest >>= fun r => pure (lit :: r.1, r.2)).map _
          rw [ih t]
          cases t.xorEach rest <;> rfl

section Positive

variable (hw : 0 < w) (hh : 0 < h)

theorem xorEach_cons_eq (s : Screen w h) (p : Int × Int) (rest : List (Int × Int)) :
    s.xorEach (p :: rest) =
      ((s.turned hw hh p).xorEach rest).map fun r => (s.lit hw hh p :: r.1, r.2) := by
  obtain ⟨x, y⟩ := p
  rw [xorEach, xorPixel_eq hw hh]
  rfl

theorem xorEach_eq (s : Screen w h) (points : List (Int × Int)) :
    ∃ answers, s.xorEach points = .ok (answers, s.turnedAll hw hh points) := by
  induction points generalizing s with
  | nil => exact ⟨[], rfl⟩
  | cons p rest ih =>
      obtain ⟨answers, hrest⟩ := ih (s.turned hw hh p)
      rw [xorEach_cons_eq hw hh, hrest]
      exact ⟨s.lit hw hh p :: answers, rfl⟩

/-! ## the balance of lit pixels -/

/-- A pixel that is turned around is lit before or after, and not both. -/
theorem litCount_turned (s : Screen w h) (p : Int × Int) :
    (s.turned hw hh p).litCount + 2 * (s.lit hw hh p).toNat = s.litCount + 1 := by
  have hplace := (place hw hh p).isLt
  have hcount : (s.turned hw hh p).litCount =
      (s.litCount - if s.lit hw hh p == true then 1 else 0) +
        if (!s.lit hw hh p) == true then 1 else 0 := Vector.count_set hplace
  cases hlit : s.lit hw hh p with
  | false => simpa [hlit] using hcount
  | true =>
      have hpos : 0 < s.litCount :=
        Vector.count_pos_iff.2 (Vector.mem_of_getElem (i := (place hw hh p).val) hlit)
      have hless : (s.turned hw hh p).litCount = s.litCount - 1 := by simpa [hlit] using hcount
      rw [hless, Bool.toNat_true]
      omega

end Positive

/-- The lit pixels after turning pixels around, with two for each collision, are those before and
one for each turn. -/
theorem litCount_xorEach (hw : 0 < w) (hh : 0 < h) {s t : Screen w h} {points : List (Int × Int)}
    {answers : List Bool} (heach : s.xorEach points = .ok (answers, t)) :
    t.litCount + 2 * answers.count true = s.litCount + points.length := by
  induction points generalizing s answers with
  | nil =>
      obtain ⟨rfl, rfl⟩ := Prod.mk.inj (Except.ok.inj heach)
      rfl
  | cons p rest ih =>
      obtain ⟨later, hrest⟩ := (s.turned hw hh p).xorEach_eq hw hh rest
      rw [xorEach_cons_eq hw hh, hrest] at heach
      obtain ⟨rfl, rfl⟩ := Prod.mk.inj (Except.ok.inj heach)
      have hturned := s.litCount_turned hw hh p
      have hbalance := ih hrest
      have hcollisions : (s.lit hw hh p :: later).count true =
          (s.lit hw hh p).toNat + later.count true := by
        rw [List.count_cons]
        cases s.lit hw hh p <;> simp [Nat.add_comm]
      rw [hcollisions, List.length_cons]
      omega

/-! ## the pixels of a sprite -/

/-- The number of bits that are set in some bytes. -/
def bitCount (rows : List Int) : Nat :=
  (rows.map fun n => (List.range 8).countP n.toNat.testBit).sum

/-- A row has a pixel for every bit that is set, the columns being numbered the other way round. -/
theorem length_litColumns (row : UInt8) :
    (litColumns row).length = (List.range 8).countP row.toNat.testBit := by
  have hreverse : (List.range 8).map (7 - ·) = (List.range 8).reverse := by decide
  calc (litColumns row).length
      = (List.range 8).countP (row.toNat.testBit ∘ (7 - ·)) := List.countP_eq_length_filter.symm
    _ = ((List.range 8).map (7 - ·)).countP row.toNat.testBit := List.countP_map.symm
    _ = (List.range 8).countP row.toNat.testBit := by rw [hreverse, List.countP_reverse]

theorem length_litPoints (rows : List UInt8) :
    (litPoints rows).length = (rows.map fun row => (litColumns row).length).sum := by
  have hrows : rows.zipIdx.map Prod.fst = rows := List.zipIdx_map_fst 0 rows
  rw [litPoints, List.length_flatMap]
  conv_rhs => rw [← hrows, List.map_map]
  simp only [List.length_map, Function.comp_def]

/-- A sprite turns as many pixels around as it has bits. -/
theorem length_spritePoints {rows : List Int} (hbytes : ∀ n ∈ rows, IsByte n) (x y : Int) :
    (spritePoints x y (rows.map lowByte)).length = bitCount rows := by
  rw [spritePoints, List.length_map, length_litPoints, List.map_map, bitCount]
  congr 1
  apply List.map_congr_left
  intro n hn
  rw [Function.comp_apply, length_litColumns, toNat_lowByte (hbytes n hn)]

/-! ## drawing -/

/-- What drawing answers is whether any pixel of the sprite collided. -/
theorem draw_of_xorEach {s t : Screen w h} {x y : Int} {rows : List Int} {answers : List Bool}
    (hbytes : ∀ n ∈ rows, IsByte n)
    (heach : s.xorEach (spritePoints x y (rows.map lowByte)) = .ok (answers, t)) :
    s.draw x y rows = (.ok (answers.any id), t) := by
  have hxor := s.xorPixels_eq_map (spritePoints x y (rows.map lowByte))
  rw [heach] at hxor
  exact draw_of_xorPixels (readRows_of_bytes hbytes) hxor

/-- Some answer says that there was a collision if there is one to count. -/
theorem any_eq_true_iff_count {answers : List Bool} :
    answers.any id = true ↔ 0 < answers.count true := by
  rw [List.count_pos_iff, List.any_eq_true]
  simp

/-- **The answer counts collisions**: on a screen with positive sides, a sprite whose rows are bytes
is drawn by turning pixels around one after the other.  The lit pixels afterwards are those before
and one for each bit of the sprite, less two for each turn that found its pixel lit.  The answer is
whether there was such a turn; so there was none exactly if every bit has lit a pixel more. -/
theorem draw_counts_collisions (hw : 0 < w) (hh : 0 < h) (s : Screen w h) (x y : Int)
    {rows : List Int} (hbytes : ∀ n ∈ rows, IsByte n) :
    ∃ hit answers after, s.draw x y rows = (.ok hit, after) ∧
      s.xorEach (spritePoints x y (rows.map lowByte)) = .ok (answers, after) ∧
      (after.litCount : Int) = s.litCount + bitCount rows - 2 * answers.count true ∧
      (hit = true ↔ 0 < answers.count true) ∧
      (hit = false ↔ after.litCount = s.litCount + bitCount rows) := by
  obtain ⟨answers, heach⟩ := s.xorEach_eq hw hh (spritePoints x y (rows.map lowByte))
  have hbalance := litCount_xorEach hw hh heach
  rw [length_spritePoints hbytes] at hbalance
  have hhit := @any_eq_true_iff_count answers
  refine ⟨answers.any id, answers, _, draw_of_xorEach hbytes heach, heach, by omega, hhit, ?_⟩
  rw [← Bool.not_eq_true, hhit]
  omega

/-- The sprite wraps onto itself on a dark screen of three by two pixels: three of its pixels collide
with others that it has lit. -/
theorem draw_counts_collisions_wrapping :
    let s := blank 3 2
    (0 : Int) < 3 ∧ (0 : Int) < 2 ∧ (∀ n ∈ [(0xFF : Int), 0x81], IsByte n) ∧ s.litCount = 0 ∧
      bitCount [0xFF, 0x81] = 10 ∧
      ∃ (hit : Bool) (answers : List Bool) (after : Screen 3 2),
        s.draw (-1) (-1) [0xFF, 0x81] = (.ok hit, after) ∧ answers.count true = 3 ∧ after.litCount = 4 ∧ hit = true := by
  intro s
  have hw : (0 : Int) < 3 := by decide
  have hh : (0 : Int) < 2 := by decide
  have hbytes : ∀ n ∈ [(0xFF : Int), 0x81], IsByte n := by simp [IsByte]
  have hdark : s.litCount = 0 := by decide
  have hbits : bitCount [0xFF, 0x81] = 10 := by decide
  obtain ⟨hit, answers, after, hdraw, -, hbalance, hhit, -⟩ :=
    draw_counts_collisions hw hh s (-1) (-1) hbytes
  have hlit : (s.draw (-1) (-1) [0xFF, 0x81]).2.litCount = 4 := by decide +kernel
  rw [hdraw] at hlit
  rw [hdark, hbits] at hbalance
  have hcollisions : answers.count true = 3 := by
    simp only at hlit
    omega
  exact ⟨hw, hh, hbytes, hdark, hbits, hit, answers, after, hdraw, hcollisions, hlit,
    hhit.2 (by omega)⟩

/-! ## drawing twice -/

/-- A sprite turns the same pixels around at congruent positions. -/
theorem countP_spritePoints_congr {x y x' y' : Int} (hx : x' % w = x % w) (hy : y' % h = y % h)
    (rows : List UInt8) (q : Int × Int) :
    (spritePoints x' y' rows).countP (fun p => Congruent w h p q) =
      (spritePoints x y rows).countP fun p => Congruent w h p q := by
  rw [spritePoints, spritePoints, List.countP_map, List.countP_map]
  apply List.countP_congr
  rintro ⟨c, r⟩ -
  have hcongruent : Congruent w h (x' + c, y' + r) q ↔ Congruent w h (x + c, y + r) q := by
    unfold Congruent
    rw [Int.add_emod x', Int.add_emod y', hx, hy, ← Int.add_emod, ← Int.add_emod]
  simpa only [Function.comp_apply, decide_eq_true_eq] using hcongruent

/-- Turning the same pixels around once more makes every pixel what it was. -/
theorem pixels_turnedAll_twice (hw : 0 < w) (hh : 0 < h) (s : Screen w h) {x y x' y' : Int}
    (hx : x' % w = x % w) (hy : y' % h = y % h) (rows : List UInt8) :
    ((s.turnedAll hw hh (spritePoints x y rows)).turnedAll hw hh (spritePoints x' y' rows)).pixels =
      s.pixels := by
  apply pixels_ext hw hh
  intro q
  rw [lit_turnedAll, lit_turnedAll, countP_spritePoints_congr hx hy, Bool.xor_assoc, Bool.xor_self,
    Bool.xor_false]

/-- **Drawing twice erases and says so**: on a screen with positive sides, a sprite of bytes that is
drawn a second time, at the same position up to the sides of the screen, makes every pixel what it
was.  At least one of the two times collides if the sprite has a pixel, and neither if it has none;
and if the first time does not, then the second one does exactly if the sprite has a pixel. -/
theorem drawing_twice_erases (hw : 0 < w) (hh : 0 < h) (s : Screen w h) {x y x' y' : Int}
    (hx : x' % w = x % w) (hy : y' % h = y % h) {rows : List Int}
    (hbytes : ∀ n ∈ rows, IsByte n) :
    ∃ hit hit' once twice, s.draw x y rows = (.ok hit, once) ∧
      once.draw x' y' rows = (.ok hit', twice) ∧ twice.pixels = s.pixels ∧
      ((hit = true ∨ hit' = true) ↔ ∃ c < 8, ∃ r < rows.length, HasPixel rows c r) ∧
      (hit = false → (hit' = true ↔ ∃ c < 8, ∃ r < rows.length, HasPixel rows c r)) := by
  obtain ⟨answers, heach⟩ := s.xorEach_eq hw hh (spritePoints x y (rows.map lowByte))
  obtain ⟨answers', heach'⟩ := (s.turnedAll hw hh (spritePoints x y (rows.map lowByte))).xorEach_eq
    hw hh (spritePoints x' y' (rows.map lowByte))
  have hpixels := s.pixels_turnedAll_twice hw hh hx hy (rows.map lowByte)
  have hbalance := litCount_xorEach hw hh heach
  have hbalance' := litCount_xorEach hw hh heach'
  have hsame := congrArg (Vector.count true) hpixels
  have hlength : (spritePoints x' y' (rows.map lowByte)).length =
      (spritePoints x y (rows.map lowByte)).length := by
    rw [length_spritePoints hbytes, length_spritePoints hbytes]
  -- as many pixels are lit in the end as at first, so half of all the turns were collisions
  have hcollisions : answers.count true + answers'.count true =
      (spritePoints x y (rows.map lowByte)).length := by
    unfold litCount at hbalance hbalance'
    omega
  rw [← spritePoints_ne_nil_iff hbytes x y, ← List.length_pos_iff, ← hcollisions]
  refine ⟨answers.any id, answers'.any id, _, _, draw_of_xorEach hbytes heach,
    draw_of_xorEach hbytes heach', hpixels, ?_, ?_⟩
  · rw [any_eq_true_iff_count, any_eq_true_iff_count]
    omega
  · rw [← Bool.not_eq_true, any_eq_true_iff_count, any_eq_true_iff_count]
    omega

/-- The sprite meets no lit pixel the first time, and takes back what it has lit the second time,
six to the right and eight down from there. -/
theorem drawing_twice_erases_apart :
    let s : Screen 3 2 := ⟨#v[true, false, false, true, false, false], false⟩
    (0 : Int) < 3 ∧ (0 : Int) < 2 ∧ (5 : Int) % 3 = -1 % 3 ∧ (7 : Int) % 2 = -1 % 2 ∧
      (∀ n ∈ [(0xA0 : Int)], IsByte n) ∧
      ∃ once twice, s.draw (-1) (-1) [0xA0] = (.ok false, once) ∧
        once.draw 5 7 [0xA0] = (.ok true, twice) ∧ once.pixels ≠ s.pixels ∧
        twice.pixels = s.pixels := by
  intro s
  have hw : (0 : Int) < 3 := by decide
  have hh : (0 : Int) < 2 := by decide
  have hbytes : ∀ n ∈ [(0xA0 : Int)], IsByte n := by simp [IsByte]
  have hx : (5 : Int) % 3 = -1 % 3 := by decide
  have hy : (7 : Int) % 2 = -1 % 2 := by decide
  have hfirst : (s.draw (-1) (-1) [0xA0]).1 = .ok false := by decide +kernel
  have hchanged : (s.draw (-1) (-1) [0xA0]).2.pixels ≠ s.pixels := by decide +kernel
  obtain ⟨hit, hit', once, twice, honce, htwice, hpixels, -, hsecond⟩ :=
    drawing_twice_erases hw hh s hx hy hbytes
  rw [honce] at hfirst hchanged
  obtain rfl : hit = false := Except.ok.inj hfirst
  obtain rfl : hit' = true := (hsecond rfl).2 ⟨0, by decide, 0, by decide, by decide⟩
  exact ⟨hw, hh, hx, hy, hbytes, once, twice, honce, htwice, hchanged, hpixels⟩

end Screen

end Chip8
