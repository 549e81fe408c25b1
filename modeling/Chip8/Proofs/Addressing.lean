import Chip8.Proofs.Drawing

/-!
# Chip8.Proofs.Addressing

The rows of a picture and the coordinates of a screen name the same pixels.  Pixels are kept row by
row, and coordinates, also those beyond an edge, are found in the row and the column that are left
of them when they are divided by the sides (`exists_row`).

A screen is changed by calls that turn pixels around and by one that makes all of them dark.  After
any of them a screen is the dark one with the points turned around that were gone through since it
was dark last (`afterAll_eq`), so a pixel is lit if there is an odd number of them at it.
-/

namespace Chip8

namespace Screen

variable {w h : Int}

/-! ## rows -/

theorem length_of_mem_rows {s : Screen w h} {row : List Bool} (hrow : row ∈ s.rows) :
    row.length = w.toNat := by
  obtain ⟨y, rfl⟩ := List.mem_ofFn.1 hrow
  exact List.length_ofFn

section Positive

variable (hw : 0 < w) (hh : 0 < h)

/-- Coordinates in a row of the picture give the place of the pixel. -/
theorem place_val (p : Int × Int) :
    (place hw hh p).val = (p.2 % h).toNat * w.toNat + (p.1 % w).toNat := by
  have hx := Int.emod_nonneg p.1 (Int.ne_of_gt hw)
  have hy := Int.emod_nonneg p.2 (Int.ne_of_gt hh)
  have hrow := Int.mul_nonneg hy (Int.le_of_lt hw)
  simp only [place]
  rw [Int.toNat_add hrow hx, Int.toNat_mul hy (Int.le_of_lt hw)]

/-- The pixel at a point is in the picture, in the row and the column that the sides leave of its
coordinates. -/
theorem exists_row (s : Screen w h) (x y : Int) :
    ∃ row, s.rows[(y % h).toNat]? = some row ∧ row[(x % w).toNat]? = some (s.lit hw hh (x, y)) := by
  have hx : (x % w).toNat < w.toNat := by
    have := Int.emod_lt_of_pos x hw
    omega
  have hy : (y % h).toNat < h.toNat := by
    have := Int.emod_lt_of_pos y hh
    omega
  have hplace : place hw hh (x, y) = ⟨_, place_lt hx hy⟩ := Fin.ext (place_val hw hh (x, y))
  refine ⟨List.ofFn fun c : Fin w.toNat => s.pixels.get ⟨_, place_lt c.isLt hy⟩, ?_, ?_⟩
  · rw [rows, List.getElem?_ofFn, dif_pos hy]
  · rw [List.getElem?_ofFn, dif_pos hx, lit, hplace]

end Positive

end Screen

/-! ## calls of a screen -/

/-- A call that changes what is on a screen. -/
inductive ScreenCall
  | xorPixel (x y : Int)
  | draw (x y : Int) (rows : List Int)
  | clear

/-- The points that have been turned around since the screen was dark last, after another call.  A
sprite goes as far as its rows can be read. -/
def ScreenCall.turn (points : List (Int × Int)) : ScreenCall → List (Int × Int)
  | xorPixel x y => points ++ [(x, y)]
  | draw x y rows => points ++ Screen.spritePoints x y (Screen.readRows rows).1
  | clear => []

/-- The points that have been turned around since a screen that was dark at first was dark last. -/
def ScreenCall.turnedPoints (calls : List ScreenCall) : List (Int × Int) := calls.foldl turn []

namespace Screen

variable {w h : Int}

/-- The screen after a call, whether or not the call is refused. -/
def after (s : Screen w h) : ScreenCall → Screen w h
  | .xorPixel x y =>
    match s.xorPixel x y with
    | .ok (_, turned) => turned
    | .error _ => s
  | .draw x y rows => (s.draw x y rows).2
  | .clear => s.clear

/-- The screen after a sequence of calls. -/
def afterAll (s : Screen w h) (calls : List ScreenCall) : Screen w h := calls.foldl after s

section Positive

variable (hw : 0 < w) (hh : 0 < h)

theorem turnedAll_append (s : Screen w h) (points points' : List (Int × Int)) :
    s.turnedAll hw hh (points ++ points') = (s.turnedAll hw hh points).turnedAll hw hh points' :=
  List.foldl_append

/-- One call on a screen that was dark: it turns more points around, or makes it dark again. -/
theorem after_eq (points : List (Int × Int)) (call : ScreenCall) :
    ((blank w h).turnedAll hw hh points).after call =
      (blank w h).turnedAll hw hh (call.turn points) := by
  cases call with
  | xorPixel x y =>
      rw [ScreenCall.turn, turnedAll_append]
      simp only [after, xorPixel_eq hw hh]
      rfl
  | draw x y rows =>
      have hread : readRows rows = ((readRows rows).1, (readRows rows).2) := rfl
      obtain ⟨hit, hdraw⟩ :=
        ((blank w h).turnedAll hw hh points).draw_of_readRows hw hh x y hread
      rw [ScreenCall.turn, turnedAll_append]
      exact congrArg Prod.snd hdraw
  | clear => rfl

/-- Any calls on a screen that was dark. -/
theorem afterAll_eq (calls : List ScreenCall) :
    (blank w h).afterAll calls = (blank w h).turnedAll hw hh (ScreenCall.turnedPoints calls) := by
  have hfrom (points : List (Int × Int)) :
      ((blank w h).turnedAll hw hh points).afterAll calls =
        (blank w h).turnedAll hw hh (calls.foldl ScreenCall.turn points) := by
    induction calls generalizing points with
    | nil => rfl
    | cons call rest ih =>
        rw [List.foldl_cons, ← ih, ← after_eq]
        rfl
  exact hfrom []

/-- A pixel of a dark screen is dark. -/
theorem lit_blank (p : Int × Int) : (blank w h).lit hw hh p = false :=
  Vector.getElem_replicate (place hw hh p).isLt

end Positive

/-- A new screen is dark. -/
theorem eq_blank_of_ofSize {new : Screen w h} (hnew : ofSize w h = .ok new) : new = blank w h := by
  unfold ofSize at hnew
  cases hsize : checkSize (w * h) with
  | ok _ =>
      rw [hsize] at hnew
      exact (Except.ok.inj hnew).symm
  | error cause =>
      rw [hsize] at hnew
      cases hnew

/-- **Pixels are where their coordinates say**: a new screen is dark, and on a dark screen with
positive sides, after any sequence of calls that turn pixels around, draw sprites or make everything
dark, refused ones included, the picture has as many rows as the screen is high, each as long as the
screen is wide.  Coordinates of any size and sign are answered with the pixel in the row and the
column that the sides leave of them.  Turning a pixel around is answered with what it was, and turns
it around wherever the coordinates are congruent, and nowhere else.  And a pixel is lit exactly if
it has been turned around an odd number of times since everything was dark last. -/
theorem coordinates_address_pixels (hw : 0 < w) (hh : 0 < h) (calls : List ScreenCall) :
    let s := (blank w h).afterAll calls
    (∀ new : Screen w h, ofSize w h = .ok new → new = blank w h) ∧
    ((s.rows.length : Int) = h ∧ ∀ row ∈ s.rows, (row.length : Int) = w) ∧
    (∀ x y, ∃ row lit, s.rows[(y % h).toNat]? = some row ∧ row[(x % w).toNat]? = some lit ∧
      s.get x y = .ok lit) ∧
    (∀ x y, ∃ old turned, s.get x y = .ok old ∧ s.xorPixel x y = .ok (old, turned) ∧
      ∀ x' y', ∃ lit, s.get x' y' = .ok lit ∧
        turned.get x' y' = .ok (if x' % w = x % w ∧ y' % h = y % h then !lit else lit)) ∧
    ∀ x y, s.get x y = .ok (decide
      (Odd ((ScreenCall.turnedPoints calls).countP fun p => Congruent w h p (x, y)))) := by
  intro s
  refine ⟨fun _ => eq_blank_of_ofSize, ⟨?_, ?_⟩, ?_, ?_, ?_⟩
  · rw [s.length_rows, Int.toNat_of_nonneg (Int.le_of_lt hh)]
  · intro row hrow
    rw [length_of_mem_rows hrow, Int.toNat_of_nonneg (Int.le_of_lt hw)]
  · intro x y
    obtain ⟨row, hrow, hlit⟩ := s.exists_row hw hh x y
    exact ⟨row, _, hrow, hlit, s.get_eq hw hh x y⟩
  · intro x y
    refine ⟨_, _, s.get_eq hw hh x y, s.xorPixel_eq hw hh x y, fun x' y' => ?_⟩
    refine ⟨_, s.get_eq hw hh x' y', ?_⟩
    have hsame : Congruent w h (x, y) (x', y') ↔ x' % w = x % w ∧ y' % h = y % h :=
      and_congr eq_comm eq_comm
    rw [get_eq hw hh, lit_turned]
    by_cases hcongruent : x' % w = x % w ∧ y' % h = y % h
    · rw [if_pos hcongruent, decide_eq_true (hsame.2 hcongruent), Bool.xor_true]
    · rw [if_neg hcongruent, decide_eq_false (mt hsame.1 hcongruent), Bool.xor_false]
  · intro x y
    have hs : s = _ := afterAll_eq hw hh calls
    rw [hs, get_eq hw hh, lit_turnedAll, lit_blank, Bool.false_xor]

/-- A sprite is forgotten when everything is made dark, and another is refused after its first row.
The corner beyond the origin is turned around once more by way of the opposite corner. -/
theorem coordinates_address_pixels_wrapping :
    let calls : List ScreenCall :=
      [.draw (-1) (-1) [0xFF, 0x81], .clear, .xorPixel (-1) (-1), .draw 4 3 [0x80, 0x100]]
    let s := (blank 3 2).afterAll calls
    (0 : Int) < 3 ∧ (0 : Int) < 2 ∧
      s.rows = [[false, false, false], [false, true, true]] ∧
      s.get (-1) (-1) = .ok true ∧
      ∃ turned, s.xorPixel 5 3 = .ok (true, turned) ∧ turned.get (-1) (-1) = .ok false ∧
        turned.get (-2) (-1) = .ok true := by
  intro calls s
  have hw : (0 : Int) < 3 := by decide
  have hh : (0 : Int) < 2 := by decide
  have hrows : s.rows = [[false, false, false], [false, true, true]] := by decide +kernel
  obtain ⟨-, -, hpicture, hxor, -⟩ := coordinates_address_pixels hw hh calls
  have hfound (x y : Int) (row : List Bool) (lit : Bool)
      (hrow : [[false, false, false], [false, true, true]][(y % 2).toNat]? = some row)
      (hlit : row[(x % 3).toNat]? = some lit) : s.get x y = .ok lit := by
    obtain ⟨row', lit', hrow', hlit', hget⟩ := hpicture x y
    rw [hrows] at hrow'
    obtain rfl := Option.some.inj (hrow.symm.trans hrow')
    obtain rfl := Option.some.inj (hlit.symm.trans hlit')
    exact hget
  have hcorner : s.get (-1) (-1) = .ok true := hfound (-1) (-1) _ true rfl rfl
  have hbeside : s.get (-2) (-1) = .ok true := hfound (-2) (-1) _ true rfl rfl
  obtain ⟨old, turned, hold, hturned, hothers⟩ := hxor 5 3
  obtain rfl := Except.ok.inj ((hfound 5 3 _ true rfl rfl).symm.trans hold)
  obtain ⟨lit, hlit, hcorner'⟩ := hothers (-1) (-1)
  obtain rfl := Except.ok.inj (hcorner.symm.trans hlit)
  obtain ⟨lit', hlit', hbeside'⟩ := hothers (-2) (-1)
  obtain rfl := Except.ok.inj (hbeside.symm.trans hlit')
  exact ⟨hw, hh, hrows, hcorner, turned, hturned, hcorner', hbeside'⟩

end Screen

end Chip8
