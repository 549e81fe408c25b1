import Chip8.Renderer

/-!
# Chip8.Proofs.FrameBuffer

The buffer of a window holds the picture that was drawn last, and nothing of those before it.  A
picture is written over the front of the buffer, so what was there before could outlive it; but the
buffer is as large as the pictures that the renderer is prepared for (`Prepared`), and before a
picture of another size is drawn it is made anew.

`prepared_after` states that calls keep this, `drawFrame_eq` what drawing a picture leaves,
`slice_flatMap_colour` which bytes are those of a pixel, and `buffer_holds_picture` what is in the
buffer, and what is asked of the window system, after any sequence of calls.
-/

namespace Chip8

/-! ## rectangular pictures -/

/-- A picture with `h` rows of `w` pixels each; one without rows has no columns either. -/
structure Rectangle (p : Picture) (w h : Nat) : Prop where
  rows : p.length = h
  columns : ∀ row ∈ p, row.length = w
  empty : h = 0 → w = 0

theorem Rectangle.pictureSize {p : Picture} {w h : Nat} (hp : Rectangle p w h) :
    Renderer.pictureSize p = ((w : Int), (h : Int)) := by
  obtain ⟨rfl, hcolumns, hempty⟩ := hp
  cases p with
  | nil =>
      obtain rfl := hempty rfl
      rfl
  | cons top rest =>
      obtain rfl := hcolumns top List.mem_cons_self
      rfl

theorem Rectangle.length_flatten {p : Picture} {w h : Nat} (hp : Rectangle p w h) :
    p.flatten.length = w * h := by
  obtain ⟨rfl, hcolumns, -⟩ := hp
  rw [List.length_flatten, List.map_congr_left hcolumns, List.map_const', List.sum_replicate_nat,
    Nat.mul_comm]

/-- Row by row, the pixels come one after the other. -/
theorem getElem?_flatten_rows {p : Picture} {w x : Nat} (hcolumns : ∀ row ∈ p, row.length = w)
    (hx : x < w) (y : Nat) : p.flatten[y * w + x]? = p[y]?.bind (·[x]?) := by
  induction p generalizing y with
  | nil => rfl
  | cons row rest ih =>
      obtain ⟨hrow, hrest⟩ := List.forall_mem_cons.1 hcolumns
      rw [List.flatten_cons]
      cases y with
      | zero =>
          rw [Nat.zero_mul, Nat.zero_add, List.getElem?_append_left (hrow ▸ hx)]
          rfl
      | succ y =>
          have hplace : (y + 1) * w + x = row.length + (y * w + x) := by
            rw [hrow, Nat.add_mul, Nat.one_mul, Nat.add_right_comm, Nat.add_comm]
          rw [hplace, List.getElem?_append_right (by omega), Nat.add_sub_cancel_left, ih hrest]
          rfl

namespace Window

/-! ## the bytes of a picture -/

theorem length_flatMap_colour (pixels : List Bool) :
    (pixels.flatMap colour).length = 3 * pixels.length := by
  induction pixels with
  | nil => rfl
  | cons lit rest ih =>
      rw [List.flatMap_cons, List.length_append, length_colour, ih, List.length_cons]
      omega

/-- Every pixel has three bytes, where its place says. -/
theorem slice_flatMap_colour {pixels : List Bool} {k : Nat} {lit : Bool}
    (h : pixels[k]? = some lit) :
    ((pixels.flatMap colour).drop (3 * k)).take 3 = colour lit := by
  induction pixels generalizing k with
  | nil => cases h
  | cons first rest ih =>
      rw [List.flatMap_cons]
      cases k with
      | zero =>
          cases h
          rw [Nat.mul_zero, List.drop_zero, List.take_left' (length_colour lit)]
      | succ k =>
          have hplace : 3 * (k + 1) = (colour first).length + 3 * k := by
            rw [length_colour]
            omega
          rw [hplace, List.drop_length_add_append]
          exact ih h

/-- Pixels that are as many as the buffer has room for are all that is in it afterwards. -/
theorem paint_of_length {w : Window} {pixels : List Bool}
    (h : w.buffer.length = 3 * pixels.length) :
    w.paint pixels = { w with buffer := pixels.flatMap colour } := by
  rw [paint, List.drop_eq_nil_of_le (Nat.le_of_eq h), List.append_nil]

/-- A window that shows a picture of a size, for which it is asked if the picture has pixels. -/
def showing (w : Window) (p : Picture) (columns rows : Nat) : Window :=
  let pixels := p.flatten.flatMap colour
  { w with
    buffer := pixels
    calls := w.calls ++
      if 0 < columns ∧ 0 < rows then
        #[.surface pixels columns rows, .stretch w.width w.height, .blit, .flip]
      else #[] }

/-- A window that has been painted is shown unless the picture is empty. -/
theorem present_painted (w : Window) (p : Picture) (columns rows : Nat) :
    let painted : Window := { w with buffer := p.flatten.flatMap colour }
    (if (columns : Int) = 0 ∨ (rows : Int) = 0 then painted else painted.present columns rows) =
      w.showing p columns rows := by
  unfold showing present call
  by_cases hpixels : 0 < columns ∧ 0 < rows
  · have hfull : ¬((columns : Int) = 0 ∨ (rows : Int) = 0) := by omega
    simp only [if_pos hpixels, if_neg hfull]
  · have hempty : (columns : Int) = 0 ∨ (rows : Int) = 0 := by omega
    simp only [if_neg hpixels, if_pos hempty, Array.append_empty]

end Window

/-! ## calls of a renderer -/

/-- A call of a renderer that concerns pictures: it is told their size, or given one. -/
inductive RendererCall
  | resolution (width height : Int)
  | picture (p : Picture)

/-- Sizes are not negative, and pictures have rows of one length. -/
def RendererCall.Regular : RendererCall → Prop
  | resolution width height => 0 ≤ width ∧ 0 ≤ height
  | picture p => ∃ columns rows, Rectangle p columns rows

namespace Renderer

/-- The renderer after a call, whether or not the call is refused. -/
def after (r : Renderer) : RendererCall → Renderer
  | .resolution width height =>
    match r.setResolution width height with
    | .ok resized => resized
    | .error _ => r
  | .picture p => r.drawFrame p

/-- The renderer after a sequence of calls. -/
def afterAll (r : Renderer) (calls : List RendererCall) : Renderer := calls.foldl after r

/-- The renderer has a window `w` for pictures of its size, as wide as `size` and half as high. -/
structure Prepared (r : Renderer) (size : Int) (w : Window) : Prop where
  window : r.window = some w
  windowWidth : w.width = size
  windowHeight : w.height = size / 2
  width_nonneg : 0 ≤ r.width
  height_nonneg : 0 ≤ r.height
  buffer : w.buffer.length = 3 * (r.width * r.height).toNat

section Prepared

variable {r : Renderer} {size : Int} {w : Window}

/-- A new renderer is prepared for pictures without pixels. -/
theorem prepared_windowed {scale : Option Int} (h : windowed scale = .ok r) :
    r.Prepared (scale.getD 512) (Window.opened (scale.getD 512)) := by
  unfold windowed at h
  dsimp only at h
  split at h
  · cases h
  · cases h
    exact ⟨rfl, rfl, rfl, Int.le_refl 0, Int.le_refl 0, rfl⟩

theorem prepared_resize (h : r.Prepared size w) {width height : Int} (hwidth : 0 ≤ width)
    (hheight : 0 ≤ height) : (r.resize width height).Prepared size (w.prepare width height) :=
  ⟨by rw [resize, h.window, Option.map_some], h.windowWidth, h.windowHeight, hwidth, hheight,
    Window.length_prepare w width height⟩

theorem setResolution_cases (r : Renderer) (width height : Int) :
    r.setResolution width height = .ok (r.resize width height) ∨
      ∃ cause, r.setResolution width height = .error cause := by
  unfold setResolution
  split
  · cases checkBuffer (width * height) with
    | ok _ => exact .inl rfl
    | error cause => exact .inr ⟨cause, rfl⟩
  · exact .inl rfl

/-- Being told the size of pictures prepares the window or changes nothing, and asks nothing of the
window system. -/
theorem prepared_resolution (h : r.Prepared size w) {width height : Int} (hwidth : 0 ≤ width)
    (hheight : 0 ≤ height) :
    ∃ w', (r.after (.resolution width height)).Prepared size w' ∧ w'.calls = w.calls := by
  rcases r.setResolution_cases width height with hok | ⟨cause, herror⟩
  · simp only [after, hok]
    exact ⟨w.prepare width height, prepared_resize h hwidth hheight, rfl⟩
  · simp only [after, herror]
    exact ⟨w, h, rfl⟩

/-- Drawing a picture leaves it in the buffer, whatever was there before. -/
theorem drawFrame_eq (h : r.Prepared size w) {p : Picture} {columns rows : Nat}
    (hp : Rectangle p columns rows) :
    r.drawFrame p =
      { r with
        width := columns
        height := rows
        framesDrawn := r.framesDrawn + 1
        lastFrame := some p
        window := some (w.showing p columns rows) } := by
  have hpixels : ((columns : Int) * rows).toNat = p.flatten.length := by
    rw [hp.length_flatten, ← Int.natCast_mul, Int.toNat_natCast]
  simp only [drawFrame, present, h.window, hp.pictureSize, Prod.mk.injEq]
  -- The buffer has room for the picture, be it because the size is the same or made for it.
  by_cases hsame : (columns : Int) = r.width ∧ (rows : Int) = r.height
  · have hbuffer : w.buffer.length = 3 * p.flatten.length := by
      rw [h.buffer, ← hsame.1, ← hsame.2, hpixels]
    have hshown := w.present_painted p columns rows
    simp only [if_pos hsame, h.window, Option.map_some, Window.paint_of_length hbuffer, hshown]
    rw [hsame.1, hsame.2]
  · have hbuffer : (w.prepare columns rows).buffer.length = 3 * p.flatten.length := by
      rw [Window.length_prepare, hpixels]
    have hshown := (w.prepare columns rows).present_painted p columns rows
    simp only [if_neg hsame, resize, h.window, Option.map_some, Window.paint_of_length hbuffer,
      hshown]
    rfl

theorem prepared_drawFrame (h : r.Prepared size w) {p : Picture} {columns rows : Nat}
    (hp : Rectangle p columns rows) :
    (r.drawFrame p).Prepared size (w.showing p columns rows) := by
  have hlength : (p.flatten.flatMap Window.colour).length =
      3 * ((columns : Int) * rows).toNat := by
    rw [Window.length_flatMap_colour, hp.length_flatten, ← Int.natCast_mul, Int.toNat_natCast]
  rw [drawFrame_eq h hp]
  exact ⟨rfl, h.windowWidth, h.windowHeight, Int.natCast_nonneg columns, Int.natCast_nonneg rows,
    hlength⟩

/-- Calls keep a renderer prepared. -/
theorem prepared_after (h : r.Prepared size w) {call : RendererCall} (hcall : call.Regular) :
    ∃ w', (r.after call).Prepared size w' := by
  cases call with
  | resolution width height =>
      obtain ⟨w', hw', -⟩ := prepared_resolution h hcall.1 hcall.2
      exact ⟨w', hw'⟩
  | picture p =>
      obtain ⟨columns, rows, hp⟩ := hcall
      exact ⟨w.showing p columns rows, prepared_drawFrame h hp⟩

theorem prepared_afterAll (h : r.Prepared size w) {calls : List RendererCall}
    (hcalls : ∀ call ∈ calls, call.Regular) : ∃ w', (r.afterAll calls).Prepared size w' := by
  induction calls generalizing r w with
  | nil => exact ⟨w, h⟩
  | cons call rest ih =>
      obtain ⟨hcall, hrest⟩ := List.forall_mem_cons.1 hcalls
      obtain ⟨w', hw'⟩ := prepared_after h hcall
      exact ih hw' hrest

end Prepared

/-- **The buffer holds the picture**: after any sequence of calls on a new renderer with a window,
with sizes that are not negative and rectangular pictures, empty ones among them, drawing a picture
leaves three bytes for each of its pixels in the buffer and no others, and those of a pixel say
whether it is lit.  The renderer is prepared for the size of the picture and remembers it.  If the
picture has pixels, the window system is asked once to make a surface of just these bytes, to
stretch it over the window, to put it there and to show it; otherwise it is asked nothing, as it is
when a size is announced. -/
theorem buffer_holds_picture {scale : Option Int} {new : Renderer}
    (hnew : windowed scale = .ok new) {earlier : List RendererCall}
    (hearlier : ∀ call ∈ earlier, call.Regular) {p : Picture} {w h : Nat} (hp : Rectangle p w h) :
    let before := new.afterAll earlier
    let after := before.drawFrame p
    let size := scale.getD 512
    (∃ window, after.window = some window ∧
      window.buffer.length = 3 * w * h ∧
      (∀ x y row lit, p[y]? = some row → row[x]? = some lit →
        (window.buffer.drop (3 * (y * w + x))).take 3 =
          if lit then [0xDD, 0xDD, 0xDD] else [0x22, 0x22, 0x22]) ∧
      after.calls = before.calls ++
        if 0 < w ∧ 0 < h then
          #[.surface window.buffer w h, .stretch size (size / 2), .blit, .flip]
        else #[]) ∧
    (after.width, after.height) = ((w : Int), (h : Int)) ∧ after.lastFrame = some p ∧
    ∀ width height : Int, 0 ≤ width → 0 ≤ height →
      (before.after (.resolution width height)).calls = before.calls := by
  intro before after size
  obtain ⟨old, hold⟩ := prepared_afterAll (prepared_windowed hnew) hearlier
  have hafter : after = _ := drawFrame_eq hold hp
  have hbefore : before.calls = old.calls := by rw [calls, hold.window]
  refine ⟨⟨old.showing p w h, by rw [hafter], ?_, ?_, ?_⟩, by rw [hafter], by rw [hafter], ?_⟩
  · change (p.flatten.flatMap Window.colour).length = _
    rw [Window.length_flatMap_colour, hp.length_flatten, Nat.mul_assoc]
  · intro x y row lit hrow hlit
    have hx : x < w := by
      rw [← hp.columns row (List.mem_of_getElem? hrow)]
      exact (List.getElem?_eq_some_iff.1 hlit).1
    have hpixel : p.flatten[y * w + x]? = some lit := by
      rw [getElem?_flatten_rows hp.columns hx, hrow, Option.bind_some, hlit]
    exact Window.slice_flatMap_colour hpixel
  · rw [hbefore, hafter]
    simp only [Renderer.calls, Window.showing, hold.windowWidth, hold.windowHeight]
    rfl
  · intro width height hwidth hheight
    obtain ⟨resized, hresized, hcalls⟩ := prepared_resolution hold hwidth hheight
    rw [hbefore, ← hcalls, calls, hresized.window]

/-- A new window, a size that is refused because there is no room, and pictures of other shapes,
before a picture of two pixels over two. -/
theorem buffer_holds_picture_changing :
    let earlier : List RendererCall :=
      [.resolution 64 32, .picture [[true, true, true]], .resolution 0x100000000 0x100000000,
        .picture [[], []], .picture [], .picture [[true], [true], [true], [true]]]
    let p : Picture := [[true, false], [false, true]]
    ∃ new, windowed none = .ok new ∧ (∀ call ∈ earlier, call.Regular) ∧ Rectangle p 2 2 ∧
      ∃ window, ((new.afterAll earlier).drawFrame p).window = some window ∧
        window.buffer.length = 12 ∧ (window.buffer.drop 6).take 3 = [0x22, 0x22, 0x22] := by
  intro earlier p
  have hnew : windowed none = .ok
      { scale := 512, width := 0, height := 0, framesDrawn := 0, lastFrame := none,
        window := some (Window.opened 512) } := rfl
  have hearlier : ∀ call ∈ earlier, call.Regular := by
    have hrectangles : Rectangle [[true, true, true]] 3 1 ∧ Rectangle [[], []] 0 2 ∧
        Rectangle [] 0 0 ∧ Rectangle [[true], [true], [true], [true]] 1 4 := by
      refine ⟨⟨rfl, ?_, ?_⟩, ⟨rfl, ?_, ?_⟩, ⟨rfl, ?_, ?_⟩, ⟨rfl, ?_, ?_⟩⟩ <;> decide
    obtain ⟨hwide, hnarrow, hempty, htall⟩ := hrectangles
    simp only [earlier, List.forall_mem_cons]
    exact ⟨⟨by decide, by decide⟩, ⟨3, 1, hwide⟩, ⟨by decide, by decide⟩, ⟨0, 2, hnarrow⟩,
      ⟨0, 0, hempty⟩, ⟨1, 4, htall⟩, fun _ h => absurd h List.not_mem_nil⟩
  have hp : Rectangle p 2 2 := ⟨rfl, by decide, by decide⟩
  obtain ⟨⟨window, hwindow, hlength, hpixels, -⟩, -⟩ := buffer_holds_picture hnew hearlier hp
  exact ⟨_, hnew, hearlier, hp, window, hwindow, hlength, hpixels 0 1 _ _ rfl rfl⟩

end Renderer

end Chip8
