import Mathlib
import Chip8.Proofs.Pacing
import Chip8.Proofs.Rounding
import Chip8.Proofs.Runs

/-!
# Chip8.Proofs.FrameRate

When frames are processed.  A frame is due a sixtieth of a second after the one before, but the
host looks at what is due only when it is about to carry out an instruction, and after each
instruction it waits until the time for the next one has come.  So frames come when instructions
come: at a slow speed with every one of them, and at any speed late by up to one.

`Paced` says where the host is between two readings after a frame, `framed_advance` what one
reading makes of that, and `frameTimes_chain` what follows for the frames of a run in the
arithmetic of doubles.  `FramesApart` and `frame_rate` draw the conclusions in exact numbers.
-/

namespace Chip8

/-! ## clocks that do not run fast -/

/-- From one reading to the next, the clock goes on by at most `δ`, and not back. -/
def Clock.Advances (c : Clock) (δ : Time) : Prop :=
  ∀ k, c.reading k ≤ c.reading (k + 1) ∧ c.reading (k + 1) ≤ c.reading k + δ

/-- The reading that was taken last. -/
def Clock.lastReading (c : Clock) : Time := c.reading (c.reads - 1)

/-- The clock goes on like this, and `s` is the reading that was taken last. -/
structure Clock.Follows (c : Clock) (δ s : Time) : Prop where
  advances : c.Advances δ
  last : c.lastReading = s
  notBefore : s ≤ c.reading c.reads
  notLong : c.reading c.reads ≤ s + δ

theorem Clock.Advances.nonneg {c : Clock} {δ : Time} (h : c.Advances δ) : 0 ≤ δ := by
  obtain ⟨hle, hlong⟩ := h 0
  linarith

theorem Clock.follows_of_read? {c rest : Clock} {δ t : Time} (hclock : c.Advances δ)
    (hread : c.read? = some (t, rest)) : c.reading c.reads = t ∧ rest.Follows δ t := by
  unfold read? at hread
  split at hread
  · cases hread
    exact ⟨rfl, hclock, rfl, (hclock c.reads).1, (hclock c.reads).2⟩
  · cases hread

namespace Host

/-! ## the frames of a run -/

/-- The reading, if the number of frames says that there was one. -/
def framed (h after : Host) (t : Time) : List Time := if h.frames < after.frames then [t] else []

/-- The readings at which frames are processed as long as there are readings. -/
def frameTimesOn (h : Host) (pace : Pace) (clock : Clock) : List Time :=
  match _hread : clock.read? with
  | none => []
  | some (t, rest) =>
    match h.advance pace t with
    | (.going pace, after) => h.framed after t ++ frameTimesOn after pace rest
    | (.ended _, after) => h.framed after t
termination_by clock.remaining
decreasing_by exact Clock.remaining_lt_of_read? _hread

/-- The readings at which a run processes its frames, in order. -/
def frameTimes (h : Host) (clock : Clock) : List Time := h.start.frameTimesOn .ready clock

theorem framed_of_eq {h after : Host} (hframes : after.frames = h.frames) (t : Time) :
    h.framed after t = [] := if_neg (by omega)

theorem framed_of_succ {h after : Host} (hframes : after.frames = h.frames + 1) (t : Time) :
    h.framed after t = [t] := if_pos (by omega)

theorem frameTimesOn_of_going {h after : Host} {pace pace' : Pace} {clock rest : Clock} {t : Time}
    (hread : clock.read? = some (t, rest)) (hgoing : h.advance pace t = (.going pace', after)) :
    h.frameTimesOn pace clock = h.framed after t ++ after.frameTimesOn pace' rest := by
  rw [frameTimesOn, hread]
  simp only [hgoing]

theorem frameTimesOn_of_ended {h after : Host} {pace : Pace} {clock rest : Clock} {t : Time}
    {r : Except Fault Ending} (hread : clock.read? = some (t, rest))
    (hended : h.advance pace t = (.ended r, after)) :
    h.frameTimesOn pace clock = h.framed after t := by
  rw [frameTimesOn, hread]
  simp only [hended]

/-! ## what a reading leads to -/

/-- What the host does with the reading after an instruction at the reading `t`. -/
def paceAfter (h : Host) (t : Time) : Pace :=
  match h.interval with
  | none => .ready
  | some d => .waiting (Binary64.add t d)

/-- Neither frames nor the time between instructions have changed. -/
structure SamePacing (h after : Host) : Prop where
  frames : after.frames = h.frames
  nextFrame : after.nextFrame = h.nextFrame
  interval : after.interval = h.interval

theorem samePacing_refresh (h : Host) : SamePacing h h.refresh := by
  unfold refresh
  split <;> exact ⟨rfl, rfl, rfl⟩

/-- An instruction decides when the next one is due, and does not process frames. -/
theorem samePacing_stepAt (h : Host) (t : Time) :
    SamePacing h (h.stepAt t).2 ∧
      ∀ pace, (h.stepAt t).1 = .going pace → pace = h.paceAfter t := by
  unfold stepAt
  generalize h.step = r
  obtain ⟨answer, emulator⟩ := r
  match answer with
  | .ok true =>
      refine ⟨⟨rfl, rfl, rfl⟩, ?_⟩
      rintro pace ⟨⟩
      rfl
  | .ok false | .error _ => exact ⟨⟨rfl, rfl, rfl⟩, nofun⟩

/-- What a reading leads to where the host does not wait: a frame that is due and the next
instruction, only the next instruction, or the end because the user quit. -/
inductive Turned (h : Host) (t : Time) : Progress × Host → Prop
  | frame {p : Progress} {after : Host} (hdue : h.nextFrame ≤ t)
      (hframes : after.frames = h.frames + 1)
      (hnext : after.nextFrame = Binary64.add t frameInterval)
      (hinterval : after.interval = h.interval)
      (hpace : ∀ pace, p = .going pace → pace = h.paceAfter t) : Turned h t (p, after)
  | between {p : Progress} {after : Host} (hearly : t < h.nextFrame)
      (hsame : SamePacing h after) (hpace : ∀ pace, p = .going pace → pace = h.paceAfter t) :
      Turned h t (p, after)
  | quit {after : Host} (hquit : h.frame.1 = true) (hframes : after.frames = h.frames) :
      Turned h t (.ended (.ok none), after)

/-- A frame is counted unless the user quits. -/
theorem frame_cases (h : Host) :
    (h.frame.1 = true ∧ h.frame.2.frames = h.frames) ∨
      h.frame.1 = false ∧ h.frame.2.frames = h.frames + 1 ∧ h.frame.2.interval = h.interval := by
  unfold frame
  generalize h.inputs.process h.emulator = r
  obtain ⟨quit, inputs, emulator⟩ := r
  cases quit with
  | true => exact .inl ⟨rfl, rfl⟩
  | false =>
      have hshown := samePacing_refresh { h with inputs, emulator := emulator.tick }
      exact .inr ⟨rfl, congrArg (· + 1) hshown.frames, hshown.interval⟩

theorem turned_turn (h : Host) (t : Time) : Turned h t (h.turn t) := by
  unfold turn
  split
  · rename_i hdue
    have hframe := h.frame_cases
    generalize hresult : h.frame = r at hframe ⊢
    obtain ⟨quit, after⟩ := r
    rcases hframe with ⟨hquit, hframes⟩ | ⟨hquit, hframes, hinterval⟩
    · obtain rfl : quit = true := hquit
      exact .quit (congrArg Prod.fst hresult) hframes
    · obtain rfl : quit = false := hquit
      obtain ⟨hsame, hpace⟩ :=
        samePacing_stepAt { after with nextFrame := Binary64.add t frameInterval } t
      refine .frame hdue (hsame.frames.trans hframes) hsame.nextFrame
        (hsame.interval.trans hinterval) ?_
      intro pace hgoing
      rw [hpace pace hgoing]
      unfold paceAfter
      dsimp only at hinterval
      rw [hinterval]
  · rename_i hearly
    obtain ⟨hsame, hpace⟩ := h.samePacing_stepAt t
    exact .between (not_le.1 hearly) hsame hpace

/-! ## from one frame to the next -/

/-- After a frame at `t`, an instruction is carried out at `u`: at once, or when its time has come
and no frame is due. -/
def InstructionAt (t d u : Time) : Prop :=
  u = t ∨ Binary64.add t d ≤ u ∧ u < Binary64.add t frameInterval

/-- Where the host is at the reading `s` after a frame at `t`, if `d` is the time between
instructions: it waits for the time of the next one, or has just seen that it has come. -/
inductive Paced (t d δ s : Time) : Pace → Prop
  | waiting {u : Time} (hu : InstructionAt t d u) (hle : u ≤ s)
      (hs : s = u ∨ s < Binary64.add u d) : Paced t d δ s (.waiting (Binary64.add u d))
  | ready {u : Time} (hu : InstructionAt t d u) (hle : u ≤ s) (hdue : Binary64.add u d ≤ s)
      (hs : s < Binary64.add u d + δ ∨ s ≤ u + δ) : Paced t d δ s .ready

/-- At the reading `s`, the time for the instruction after the one at `u` has not come yet, or
has come two readings ago at most. -/
def Recent (d δ u s : Time) : Prop := s < Binary64.add u d + 2 * δ ∨ s ≤ u + 2 * δ

/-- What is known of the first frame `t'` after one at `t`: it was due, and it came together with
the instruction after the one at some `u`, when the time for that had just come. -/
structure NextFrame (d δ t t' : Time) : Prop where
  due : Binary64.add t frameInterval ≤ t'
  instruction : ∃ u, InstructionAt t d u ∧ u ≤ t' ∧ Binary64.add u d ≤ t' ∧ Recent d δ u t'

section Paced

variable {t d δ s : Time}

/-- While the host waits, a reading leaves it waiting or ends that. -/
theorem paced_waiting {due s' : Time} (h : Paced t d δ s (.waiting due)) (hle : s ≤ s')
    (hlong : s' ≤ s + δ) : Paced t d δ s' (if s' < due then .waiting due else .ready) := by
  cases h with
  | @waiting u hu hus hs =>
      split
      · rename_i hearly
        exact .waiting hu (hus.trans hle) (.inr hearly)
      · rename_i hdue
        refine .ready hu (hus.trans hle) (not_lt.1 hdue) ?_
        rcases hs with rfl | hs
        · exact .inr hlong
        · exact .inl (by linarith)

/-- An instruction that is carried out before the next frame is due. -/
theorem Paced.instruction {s' : Time} (h : Paced t d δ s .ready) (hle : s ≤ s')
    (hearly : s' < Binary64.add t frameInterval) : InstructionAt t d s' := by
  cases h with
  | @ready u hu hus hdue hs =>
      refine .inr ⟨?_, hearly⟩
      rcases hu with rfl | ⟨hu, -⟩
      · exact hdue.trans hle
      · exact hu.trans (hus.trans hle)

/-- A frame that is processed when the host does not wait. -/
theorem Paced.nextFrame {s' : Time} (h : Paced t d δ s .ready) (hle : s ≤ s')
    (hlong : s' ≤ s + δ) (hdue : Binary64.add t frameInterval ≤ s') : NextFrame d δ t s' := by
  cases h with
  | @ready u hu hus hcome hs =>
      refine ⟨hdue, u, hu, hus.trans hle, hcome.trans hle, ?_⟩
      rcases hs with hs | hs
      · exact .inl (by linarith)
      · exact .inr (by linarith)

/-- As long as there is no frame, an instruction has been carried out not long ago. -/
theorem Paced.recent {pace : Pace} {s' : Time} (h : Paced t d δ s pace) (hδ : 0 ≤ δ)
    (hlong : s' ≤ s + δ) : ∃ u, InstructionAt t d u ∧ Recent d δ u s' := by
  cases h with
  | @waiting u hu hus hs =>
      refine ⟨u, hu, ?_⟩
      rcases hs with rfl | hs
      · exact .inr (by linarith)
      · exact .inl (by linarith)
  | @ready u hu hus hcome hs =>
      refine ⟨u, hu, ?_⟩
      rcases hs with hs | hs
      · exact .inl (by linarith)
      · exact .inr (by linarith)

/-- So it is at the frame itself. -/
theorem recent_frame (hδ : 0 ≤ δ) : ∃ u, InstructionAt t d u ∧ Recent d δ u t :=
  ⟨t, .inl rfl, .inr (by linarith)⟩

theorem Paced.start (t d δ : Time) : Paced t d δ t (.waiting (Binary64.add t d)) :=
  .waiting (.inl rfl) le_rfl (.inl rfl)

end Paced

theorem paceAfter_of_interval {h : Host} {d : Time} (hinterval : h.interval = some d) (t : Time) :
    h.paceAfter t = .waiting (Binary64.add t d) := by
  rw [paceAfter, hinterval]

/-- What one reading adds to the frames of a run, if there was a frame at `t` before it: the next
frame, from which the host goes on as it did from this one, or none. -/
theorem framed_advance {h : Host} {pace : Pace} {d δ t s s' : Time} {p : Progress} {after : Host}
    (hinterval : h.interval = some d) (hnext : h.nextFrame = Binary64.add t frameInterval)
    (hpaced : Paced t d δ s pace) (hle : s ≤ s') (hlong : s' ≤ s + δ)
    (hadvance : h.advance pace s' = (p, after)) :
    (h.framed after s' = [s'] ∧ NextFrame d δ t s' ∧ after.interval = some d ∧
      after.nextFrame = Binary64.add s' frameInterval ∧
      ∀ pace', p = .going pace' → Paced s' d δ s' pace') ∨
    h.framed after s' = [] ∧ ∀ pace', p = .going pace' →
      after.interval = some d ∧ after.nextFrame = Binary64.add t frameInterval ∧
        Paced t d δ s' pace' := by
  cases pace with
  | waiting due =>
      have hwaited := paced_waiting hpaced hle hlong
      simp only [advance] at hadvance
      split at hadvance <;> rename_i hcome <;> cases hadvance
      · rw [if_pos hcome] at hwaited
        refine .inr ⟨framed_of_eq rfl s', ?_⟩
        rintro pace' ⟨⟩
        exact ⟨hinterval, hnext, hwaited⟩
      · rw [if_neg hcome] at hwaited
        refine .inr ⟨framed_of_eq rfl s', ?_⟩
        rintro pace' ⟨⟩
        exact ⟨hinterval, hnext, hwaited⟩
  | ready =>
      have hturned := h.turned_turn s'
      have hturn : h.turn s' = (p, after) := hadvance
      rw [hturn] at hturned
      have hwaits := paceAfter_of_interval hinterval s'
      cases hturned with
      | frame hdue hframes hnext' hinterval' hpace =>
          refine .inl ⟨framed_of_succ hframes s', hpaced.nextFrame hle hlong (hnext ▸ hdue),
            hinterval'.trans hinterval, hnext', ?_⟩
          intro pace' hgoing
          rw [hpace pace' hgoing, hwaits]
          exact .start s' d δ
      | between hearly hsame hpace =>
          refine .inr ⟨framed_of_eq hsame.frames s', ?_⟩
          intro pace' hgoing
          refine ⟨hsame.interval.trans hinterval, hsame.nextFrame.trans hnext, ?_⟩
          rw [hpace pace' hgoing, hwaits]
          exact .waiting (hpaced.instruction hle (hnext ▸ hearly)) le_rfl (.inl rfl)
      | quit hquit hframes => exact .inr ⟨framed_of_eq hframes s', nofun⟩

theorem lastReading_of_going {h after : Host} {pace pace' : Pace} {clock rest : Clock} {t : Time}
    (hread : clock.read? = some (t, rest)) (hgoing : h.advance pace t = (.going pace', after)) :
    (h.runOn pace clock).2.2.lastReading = (after.runOn pace' rest).2.2.lastReading := by
  rw [runOn, hread]
  simp only [hgoing]

theorem lastReading_of_ended {h after : Host} {pace : Pace} {clock rest : Clock} {t : Time}
    {r : Except Fault Ending} (hread : clock.read? = some (t, rest))
    (hended : h.advance pace t = (.ended r, after)) :
    (h.runOn pace clock).2.2.lastReading = rest.lastReading := by
  rw [runOn, hread]
  simp only [hended]

/-- The frame before what is left of a run, and the frames of the rest, come one after the other
like this, and when the last reading is taken an instruction after the last of them is recent. -/
theorem frameTimesOn_chain {h : Host} {pace : Pace} {clock : Clock} {d δ t s : Time}
    (hinterval : h.interval = some d) (hnext : h.nextFrame = Binary64.add t frameInterval)
    (hpaced : Paced t d δ s pace) (hclock : clock.Follows δ s) :
    (t :: h.frameTimesOn pace clock).IsChain (NextFrame d δ) ∧
      ∃ u, InstructionAt ((h.frameTimesOn pace clock).getLastD t) d u ∧
        Recent d δ u (h.runOn pace clock).2.2.lastReading := by
  have hδ := hclock.advances.nonneg
  -- along the readings: `t` is the last frame so far and `s` the last reading
  induction h, pace, clock using Host.runOn.induct generalizing t s with
  | case1 h pace clock hread =>
      rw [frameTimesOn, runOn, hread]
      refine ⟨.singleton t, hpaced.recent hδ ?_⟩
      exact hclock.last.le.trans (by linarith)
  | case2 h pace clock s' rest hread pace' between hgoing ih =>
      obtain ⟨rfl, hrest⟩ := Clock.follows_of_read? hclock.advances hread
      rw [frameTimesOn_of_going hread hgoing, lastReading_of_going hread hgoing]
      rcases framed_advance hinterval hnext hpaced hclock.notBefore hclock.notLong hgoing with
        ⟨hframed, hpair, hinterval', hnext', hpaced'⟩ | ⟨hframed, hpaced'⟩
      · obtain ⟨hchain, hrecent⟩ := ih hinterval' hnext' (hpaced' pace' rfl) hrest
        rw [hframed, List.singleton_append, List.getLastD_cons]
        exact ⟨.cons_cons hpair hchain, hrecent⟩
      · obtain ⟨hinterval', hnext', hpaced'⟩ := hpaced' pace' rfl
        rw [hframed, List.nil_append]
        exact ih hinterval' hnext' hpaced' hrest
  | case3 h pace clock s' rest hread r between hended =>
      obtain ⟨rfl, hrest⟩ := Clock.follows_of_read? hclock.advances hread
      rw [frameTimesOn_of_ended hread hended, lastReading_of_ended hread hended, hrest.last]
      rcases framed_advance hinterval hnext hpaced hclock.notBefore hclock.notLong hended with
        ⟨hframed, hpair, -⟩ | ⟨hframed, -⟩
      · rw [hframed]
        exact ⟨.cons_cons hpair (.singleton _), recent_frame hδ⟩
      · rw [hframed]
        exact ⟨.singleton t, hpaced.recent hδ hclock.notLong⟩

/-- What one reading adds to the frames of a run in which there was none before. -/
theorem framed_first {h after : Host} {pace pace' : Pace} {d t : Time} (δ : Time)
    (hinterval : h.interval = some d) (hgoing : h.advance pace t = (.going pace', after)) :
    after.interval = some d ∧ (h.framed after t = [] ∨
      h.framed after t = [t] ∧ after.nextFrame = Binary64.add t frameInterval ∧
        Paced t d δ t pace') := by
  cases pace with
  | waiting due =>
      simp only [advance] at hgoing
      split at hgoing <;> cases hgoing <;> exact ⟨hinterval, .inl (framed_of_eq rfl t)⟩
  | ready =>
      have hturned := h.turned_turn t
      have hturn : h.turn t = (.going pace', after) := hgoing
      rw [hturn] at hturned
      cases hturned with
      | frame hdue hframes hnext hinterval' hpace =>
          refine ⟨hinterval'.trans hinterval, .inr ⟨framed_of_succ hframes t, hnext, ?_⟩⟩
          rw [hpace pace' rfl, paceAfter_of_interval hinterval t]
          exact .start t d δ
      | between hearly hsame hpace =>
          exact ⟨hsame.interval.trans hinterval, .inl (framed_of_eq hsame.frames t)⟩

/-- The frames of a run are like this from the first one on; before it there may be any number of
instructions. -/
theorem frameTimes_chain {h : Host} (pace : Pace) {clock : Clock} {d δ : Time}
    (hinterval : h.interval = some d) (hclock : clock.Advances δ) :
    (h.frameTimesOn pace clock).IsChain (NextFrame d δ) ∧
      ∀ t ∈ (h.frameTimesOn pace clock).getLast?, ∃ u, InstructionAt t d u ∧
        Recent d δ u (h.runOn pace clock).2.2.lastReading := by
  have hδ := hclock.nonneg
  induction h, pace, clock using Host.runOn.induct with
  | case1 h pace clock hread =>
      rw [frameTimesOn, hread]
      exact ⟨.nil, fun t ht => absurd ht (Option.not_mem_none t)⟩
  | case2 h pace clock t rest hread pace' between hgoing ih =>
      obtain ⟨rfl, hrest⟩ := Clock.follows_of_read? hclock hread
      rw [frameTimesOn_of_going hread hgoing, lastReading_of_going hread hgoing]
      obtain ⟨hinterval', hframed | ⟨hframed, hnext, hpaced⟩⟩ := framed_first δ hinterval hgoing
      · rw [hframed, List.nil_append]
        exact ih hinterval' hrest.advances
      · obtain ⟨hchain, hrecent⟩ := frameTimesOn_chain hinterval' hnext hpaced hrest
        rw [hframed, List.singleton_append, List.getLast?_cons, ← List.getLastD_eq_getLast?]
        refine ⟨hchain, ?_⟩
        rintro t ⟨⟩
        exact hrecent
  | case3 h pace clock t rest hread r between hended =>
      obtain ⟨rfl, hrest⟩ := Clock.follows_of_read? hclock hread
      rw [frameTimesOn_of_ended hread hended, lastReading_of_ended hread hended, hrest.last]
      unfold framed
      split
      · refine ⟨.singleton _, ?_⟩
        rintro t ⟨⟩
        exact recent_frame hδ
      · exact ⟨.nil, fun t ht => absurd ht (Option.not_mem_none t)⟩

/-- Without key events, a run begins with a frame if one is due. -/
theorem head?_frameTimes {h : Host} {clock rest : Clock} {t : Time}
    (hheadless : h.inputs.headless = true) (hread : clock.read? = some (t, rest))
    (hdue : h.nextFrame ≤ t) : (h.frameTimes clock).head? = some t := by
  have hframe := frame_of_headless (h := h.start) hheadless
  have hturned := h.start.turned_turn t
  unfold frameTimes
  cases hadvance : h.start.advance .ready t with
  | mk p after =>
      have hturn : h.start.turn t = (p, after) := hadvance
      rw [hturn] at hturned
      have hframed : h.start.framed after t = [t] := by
        cases hturned with
        | frame _ hframes => exact framed_of_succ hframes t
        | between hearly => exact absurd hdue (not_le.2 hearly)
        | quit hquit =>
            rw [hframe] at hquit
            cases hquit
      cases p with
      | going pace =>
          rw [frameTimesOn_of_going hread hadvance, hframed]
          rfl
      | ended r =>
          rw [frameTimesOn_of_ended hread hadvance, hframed]
          rfl

/-! ## in exact numbers -/

/-- What rounding may make of a reading and a time that is added to it. -/
def slack (t : Time) : Time := (|t| + 1) / 2 ^ 48

theorem interval_eq {speed : Int} (hspeed : 0 < speed) {interval : Option Time}
    (h : coreInterval speed = .ok interval) :
    interval = some (Binary64.inv (Binary64.round speed)) := by
  rw [coreInterval, if_neg (by omega)] at h
  dsimp only at h
  split at h
  · cases h
  · exact (Except.ok.inj h).symm

/-- The time from one instruction to the next is close to the reciprocal of the speed. -/
theorem abs_inv_round_sub_le {x : Time} (hx : 1 ≤ x) :
    |Binary64.inv (Binary64.round x) - 1 / x| ≤ 1 / 2 ^ 50 := by
  have hspeed := Binary64.abs_round_sub_le x
  generalize Binary64.round x = s at hspeed ⊢
  rw [abs_of_pos (by linarith : 0 < x)] at hspeed
  obtain ⟨hlow, hhigh⟩ := abs_le.1 hspeed
  have hhalf : x / 2 ≤ s := by linarith
  have hs : 0 < s := by linarith
  have hbound : 1 / s ≤ 2 := by
    rw [div_le_iff₀ hs]
    linarith
  have hrounded : |Binary64.inv s - 1 / s| ≤ 3 / 2 ^ 53 := by
    refine (Binary64.abs_round_sub_le (1 / s)).trans ?_
    rw [abs_of_pos (by positivity)]
    linarith
  have hreciprocal : |1 / s - 1 / x| ≤ 4 / 2 ^ 53 := by
    have hsplit : 1 / s - 1 / x = (x - s) / x * (1 / s) := by
      field_simp
    have hpart : |(x - s) / x| ≤ 2 / 2 ^ 53 := by
      rw [abs_div, abs_of_pos (by linarith : 0 < x), div_le_iff₀ (by linarith), abs_sub_comm]
      linarith
    rw [hsplit, abs_mul, abs_of_pos (by positivity : 0 < 1 / s)]
    calc |(x - s) / x| * (1 / s) ≤ 2 / 2 ^ 53 * 2 := by gcongr
      _ = 4 / 2 ^ 53 := by norm_num
  calc |Binary64.inv s - 1 / x| ≤ |Binary64.inv s - 1 / s| + |1 / s - 1 / x| := abs_sub_le _ _ _
    _ ≤ 3 / 2 ^ 53 + 4 / 2 ^ 53 := add_le_add hrounded hreciprocal
    _ ≤ 1 / 2 ^ 50 := by norm_num

theorem abs_frameInterval_sub_le : |frameInterval - 1 / 60| ≤ 1 / 2 ^ 52 := by
  refine (Binary64.abs_round_sub_le (1 / 60)).trans ?_
  norm_num [abs_of_pos]

/-- Adding a time `a`, which stands for `x`, to a reading. -/
theorem abs_add_sub_le {t a x : Time} (hx : 0 ≤ x) (hx' : x ≤ 1) (ha : |a - x| ≤ 1 / 2 ^ 50) :
    |Binary64.add t a - (t + x)| ≤ (|t| + 11) / 2 ^ 53 := by
  have hrounded := Binary64.abs_round_sub_le (t + a)
  change |Binary64.add t a - (t + a)| ≤ (|t + a| + 1) / 2 ^ 53 at hrounded
  have hsum := abs_add_le t a
  obtain ⟨halow, hahigh⟩ := abs_le.1 ha
  obtain ⟨hlow, hhigh⟩ := abs_le.1 hrounded
  have habs : |a| ≤ 2 := abs_le.2 ⟨by linarith, by linarith⟩
  rw [abs_le]
  constructor <;> linarith

theorem abs_add_frameInterval_sub_le (t : Time) :
    |Binary64.add t frameInterval - (t + 1 / 60)| ≤ (|t| + 11) / 2 ^ 53 :=
  abs_add_sub_le (by norm_num) (by norm_num)
    (abs_frameInterval_sub_le.trans (by norm_num))

section Bounds

variable {t t' d x δ : Time} (hx : 0 < x) (hx' : x ≤ 1) (hd : |d - x| ≤ 1 / 2 ^ 50)
include hx hx' hd

/-- The next frame comes neither before it is due nor before the next instruction. -/
theorem NextFrame.late (h : NextFrame d δ t t') :
    1 / 60 - slack t ≤ t' - t ∧ x - slack t ≤ t' - t := by
  obtain ⟨hdue, u, hu, hle, hcome, -⟩ := h
  have hframe := (abs_le.1 (abs_add_frameInterval_sub_le t)).1
  have hnext := (abs_le.1 (abs_add_sub_le (t := t) hx.le hx' hd)).1
  have hnext_le : Binary64.add t d ≤ t' := by
    rcases hu with rfl | ⟨hu, -⟩
    · exact hcome
    · exact hu.trans hle
  unfold slack
  constructor <;> linarith [abs_nonneg t]

/-- As long as an instruction after a frame is recent, the frame is, too. -/
theorem InstructionAt.soon {u s : Time} (hu : InstructionAt t d u) (h : Recent d δ u s) :
    s - t < 1 / 60 + x + 2 * δ + slack t := by
  have hframe := (abs_le.1 (abs_add_frameInterval_sub_le t)).2
  have hnext := (abs_le.1 (abs_add_sub_le (t := t) hx.le hx' hd)).1
  have hafter := (abs_le.1 (abs_add_sub_le (t := u) hx.le hx' hd)).2
  have htlow := neg_abs_le t
  have hthigh := le_abs_self t
  have hbound : u ≤ t + 1 / 60 + (|t| + 11) / 2 ^ 53 ∧ |u| ≤ 2 * |t| + 1 := by
    rcases hu with rfl | ⟨hulow, huhigh⟩
    · constructor <;> linarith [abs_nonneg u]
    · exact ⟨by linarith, abs_le.2 ⟨by linarith, by linarith⟩⟩
  obtain ⟨hu_le, habs⟩ := hbound
  unfold slack
  rcases h with h | h <;> linarith

/-- Where instructions are no more frequent than frames, there is only one between two frames. -/
theorem InstructionAt.eq {u : Time} (h : InstructionAt t d u) (ht : |t| ≤ 2 ^ 32)
    (hslow : d = frameInterval ∨ 1 / 59 ≤ x) : u = t := by
  rcases h with h | ⟨hlow, hhigh⟩
  · exact h
  · exfalso
    rcases hslow with rfl | hslow
    · exact absurd hhigh (not_lt.2 hlow)
    · have hframe := (abs_le.1 (abs_add_frameInterval_sub_le t)).2
      have hnext := (abs_le.1 (abs_add_sub_le (t := t) hx.le hx' hd)).1
      linarith

/-- So the next frame comes with the next instruction. -/
theorem NextFrame.soon_of_slow (h : NextFrame d δ t t') (ht : |t| ≤ 2 ^ 32)
    (hslow : d = frameInterval ∨ 1 / 59 ≤ x) : t' - t < x + 2 * δ + slack t := by
  obtain ⟨-, u, hu, hle, -, hlast⟩ := h
  obtain rfl : u = t := hu.eq hx hx' hd ht hslow
  have hnext := (abs_le.1 (abs_add_sub_le (t := u) hx.le hx' hd)).2
  unfold slack
  rcases hlast with hlast | hlast <;> linarith [abs_nonneg u]

end Bounds

/-- At a speed of 60, instructions are as far apart as frames are. -/
theorem inv_round_sixty : Binary64.inv (Binary64.round (60 : Int)) = frameInterval := by
  decide +kernel

theorem reciprocal_bounds {speed : Int} (hspeed : 0 < speed) :
    (0 : Rat) < 1 / speed ∧ (1 : Rat) / speed ≤ 1 ∧
      |Binary64.inv (Binary64.round speed) - 1 / speed| ≤ 1 / 2 ^ 50 := by
  have hone : (1 : Rat) ≤ speed := by exact_mod_cast hspeed
  refine ⟨by positivity, ?_, abs_inv_round_sub_le hone⟩
  rw [div_le_one (by linarith)]
  exact hone

/-- How far apart frames at `t` and `t'` are at a speed, if no frame comes between them and if the
clock goes on by at most a millisecond from one reading to the next: at least a sixtieth of a
second, and at least as far as two instructions are; less than both together and two readings.
Within some hundred years of a clock, that is more than two sixtieths at speeds below 30, and less
at speeds from 32 to 60 and from 69 on. -/
structure FramesApart (speed : Int) (t t' : Time) : Prop where
  due : 1 / 60 - slack t ≤ t' - t
  instruction : 1 / speed - slack t ≤ t' - t
  soon : t' - t < 1 / 60 + 1 / speed + 2 / 1000 + slack t
  slow : |t| ≤ 2 ^ 32 → speed < 30 → 2 / 60 < t' - t
  prompt : |t| ≤ 2 ^ 32 → 32 ≤ speed ∧ speed ≤ 60 ∨ 69 ≤ speed → t' - t < 2 / 60

theorem NextFrame.apart {speed : Int} (hspeed : 0 < speed) {t t' : Time}
    (h : NextFrame (Binary64.inv (Binary64.round speed)) (1 / 1000) t t') :
    FramesApart speed t t' := by
  obtain ⟨hx, hx', hd⟩ := reciprocal_bounds hspeed
  obtain ⟨hdue, hinstruction⟩ := h.late hx hx' hd
  obtain ⟨u, hu, -, -, hrecent⟩ := h.instruction
  have hsoon := hu.soon hx hx' hd hrecent
  have hslack (ht : |t| ≤ 2 ^ 32) : slack t ≤ 1 / 60000 := by
    unfold slack
    linarith
  refine ⟨hdue, hinstruction, by linarith, ?_, ?_⟩
  · intro ht hslow
    have hlong : (1 : Rat) / 29 ≤ 1 / speed :=
      one_div_le_one_div_of_le (by exact_mod_cast hspeed)
        (by exact_mod_cast Int.le_of_lt_add_one hslow)
    linarith [hslack ht]
  · rintro ht (⟨hfrom, hto⟩ | hfast)
    · have hslow : Binary64.inv (Binary64.round speed) = frameInterval ∨
          (1 : Rat) / 59 ≤ 1 / speed := by
        rcases hto.eq_or_lt with rfl | hbelow
        · exact .inl inv_round_sixty
        · exact .inr (one_div_le_one_div_of_le (by exact_mod_cast hspeed)
            (by exact_mod_cast Int.le_of_lt_add_one hbelow))
      have hshort : (1 : Rat) / speed ≤ 1 / 32 :=
        one_div_le_one_div_of_le (by norm_num) (by exact_mod_cast hfrom)
      have halone := h.soon_of_slow hx hx' hd ht hslow
      linarith [hslack ht]
    · have hshort : (1 : Rat) / speed ≤ 1 / 69 :=
        one_div_le_one_div_of_le (by norm_num) (by exact_mod_cast hfast)
      linarith [hslack ht]

/-- **Frames come with instructions**: with a clock that goes on by at most a millisecond from one
reading to the next, and whatever the program and the events are, any two frames of a run, one
after the other, are as far apart as `FramesApart` says: not less than the speed allows, and not
more than it takes to finish an instruction.  Frames go on until the run ends, so at the last
reading the last one is not longer ago than the next may be; and without key events the first one
comes with the first reading, if it is due by then. -/
theorem frame_rate {h : Host} {clock : Clock} {speed : Int} (hspeed : 0 < speed)
    (hinterval : coreInterval speed = .ok h.interval) (hclock : clock.Advances (1 / 1000)) :
    let times := h.frameTimes clock
    times.IsChain (FramesApart speed) ∧
    (∀ t ∈ times.getLast?,
      (h.run clock).2.2.lastReading - t < 1 / 60 + 1 / speed + 2 / 1000 + slack t) ∧
    (h.inputs.headless = true → ∀ t rest, clock.read? = some (t, rest) → h.nextFrame ≤ t →
      times.head? = some t) := by
  have hsome := interval_eq hspeed hinterval
  obtain ⟨hchain, hlast⟩ := frameTimes_chain (h := h.start) .ready hsome hclock
  refine ⟨hchain.imp fun t t' hnext => hnext.apart hspeed, ?_, ?_⟩
  · intro t ht
    obtain ⟨u, hu, hrecent⟩ := hlast t ht
    obtain ⟨hx, hx', hd⟩ := reciprocal_bounds hspeed
    have hsoon := hu.soon hx hx' hd hrecent
    change (h.start.runOn .ready clock).2.2.lastReading - t < _
    linarith
  · intro hheadless t rest hread hdue
    exact head?_frameTimes hheadless hread hdue

/-- A new host without key events, with a program that jumps to itself, at ten instructions a
second. -/
def spinning : Host :=
  let m := Machine.blank 16 0 0x200 (Rng.cycle [])
  let font := Memory.overwrite m.memory.bytes 0 systemFont
  { finishing with
    emulator :=
      { toMachine :=
          { m with
            memory := ⟨Memory.overwrite font 0x200 [0x12, 0x00], 0⟩
            processor := { m.processor with pc := 0x200 } }
        log := .off }
    interval := some (Binary64.inv (Binary64.round 10)) }

/-- A clock that is read 1024 times a second. -/
def steadily : Clock := { reading := fun k => (k : Rat) / 1024, limit := 120 }

theorem steadily_advances : steadily.Advances (1 / 1000) := by
  intro k
  have hnext : steadily.reading (k + 1) = steadily.reading k + 1 / 1024 := by
    change ((k + 1 : Nat) : Rat) / 1024 = (k : Rat) / 1024 + 1 / 1024
    rw [Nat.cast_succ, add_div]
  rw [hnext]
  constructor <;> linarith

theorem frameTimes_spinning : spinning.frameTimes steadily = [0, 104 / 1024] := by
  decide +kernel

theorem interval_spinning : coreInterval 10 = .ok spinning.interval := by
  have hpossible : ¬Binary64.overflow ≤ Binary64.round (10 : Int) := by decide +kernel
  rw [coreInterval, if_neg (by decide)]
  exact if_neg hpossible

/-- At ten instructions a second, the second frame comes more than two sixtieths after the first. -/
theorem frame_rate_spinning :
    (0 : Int) < 10 ∧ coreInterval 10 = .ok spinning.interval ∧ steadily.Advances (1 / 1000) ∧
      spinning.frameTimes steadily = [0, 104 / 1024] ∧ FramesApart 10 0 (104 / 1024) ∧
      (2 / 60 : Time) < 104 / 1024 - 0 := by
  obtain ⟨hchain, -, -⟩ :=
    @frame_rate spinning steadily 10 (by decide) interval_spinning steadily_advances
  rw [frameTimes_spinning, List.isChain_pair] at hchain
  have hfar := hchain.slow (by norm_num) (by decide)
  exact ⟨by decide, interval_spinning, steadily_advances, frameTimes_spinning, hchain, hfar⟩

/-- A machine that is where the program starts carries out the jump and is there again. -/
theorem step_spinning {m : Machine} (hmemory : m.memory = spinning.emulator.memory)
    (hpc : m.processor.pc = 0x200) :
    m.step.1 = .ok true ∧ m.step.2.memory = spinning.emulator.memory ∧
      m.step.2.processor.pc = 0x200 := by
  have hfetch : m.fetch = some 0x1200 := by
    unfold Machine.fetch
    rw [hmemory, hpc]
    decide +kernel
  have hi : Instruction.ofWord? 0x1200 = some ⟨.jump, (0x200 : Address)⟩ := by decide +kernel
  unfold Machine.step
  rw [hfetch]
  simp only [hi]
  exact ⟨rfl, hmemory, rfl⟩

theorem goesOn_spinning {e : Emulator} (hmemory : e.memory = spinning.emulator.memory)
    (hpc : e.processor.pc = 0x200) (n : Nat) : (e.afterSteps n).step.1 = .ok true := by
  induction n generalizing e with
  | zero =>
      change e.step.1 = .ok true
      rw [e.step_fst]
      exact (step_spinning hmemory hpc).1
  | succ n ih =>
      obtain ⟨-, hmemory', hpc'⟩ := step_spinning hmemory hpc
      rw [← e.step_toMachine] at hmemory' hpc'
      exact ih hmemory' hpc'

theorem create_spinning : Host.create spinning.emulator spinning.renderer spinning.inputs
    (some 10) = .ok spinning := by
  rw [Host.create, Option.getD_some, interval_spinning]
  rfl

/-- Frames do not come at the same rate whatever the speed is: even where the program goes on for
ever and there are no key events, they need not be less than two sixtieths apart. -/
theorem slow_frames_apart :
    ¬∀ (new e : Emulator) (words : List Int) (renderer : Renderer) (inputs : Inputs) (speed : Int)
        (h : Host) (clock : Clock),
      Emulator.create none none none (Rng.cycle []) .off = .ok new → new.loadWords words = .ok e →
      inputs.headless = true → 0 < speed →
      Host.create e renderer inputs (some speed) = .ok h →
      (∀ n, (e.afterSteps n).step.1 = .ok true) → clock.Advances (1 / 1000) →
      (h.frameTimes clock).IsChain fun t t' => t' - t < 2 / 60 := by
  intro hall
  have hchain := hall _ spinning.emulator [0x1200] spinning.renderer spinning.inputs 10 spinning
    steadily rfl rfl rfl (by decide) create_spinning (goesOn_spinning rfl rfl) steadily_advances
  rw [frameTimes_spinning, List.isChain_pair] at hchain
  norm_num at hchain

end Host

end Chip8
