import Mathlib.Data.List.Forall2
import Chip8.Proofs.FrameRate

/-!
# Chip8.Proofs.SpeedLimit

The host never runs too fast.  At each reading of the clock it does at most two things, a frame
and the step of its emulator (`Deed`); `rounds` lists them for a run, reading by reading, with the
answers that they gave.  `Account` keeps book of what any number of deeds make of a host, and
books are continued (`Account.append`): over one reading, a run, and any number of runs.

That frames are far enough apart is part of the account, since the host keeps in mind when the
next one is due, also from one run to the next.  When the next instruction is due it does not keep
in mind: it waits, and goes on with a reading after the one that ended the wait.  So instructions
are far enough apart where the clock does not go back (`NotBefore`, `spaced_roundsOn`).
-/

namespace Chip8

/-- Something that the host does: a frame, with whether the user asks to quit, or the step of its
emulator, with its answer. -/
inductive Deed
  | frame (quit : Bool)
  | step (answer : Except Fault Bool)

namespace Deed

def isFrame : Deed → Bool
  | frame _ => true
  | step _ => false

def isStep : Deed → Bool
  | frame _ => false
  | step _ => true

/-- Whether the timers are counted down. -/
def ticks : Deed → Bool
  | frame quit => !quit
  | step _ => false

/-- Whether an instruction is carried out. -/
def executes : Deed → Bool
  | step (.ok goesOn) => goesOn
  | _ => false

end Deed

/-- A reading of the clock, and what the host does then, in order. -/
structure Round where
  reading : Time
  deeds : List Deed

/-- The deeds of a round, each with its time. -/
def Round.timed (round : Round) : List (Time × Deed) := round.deeds.map (round.reading, ·)

/-- The times of the deeds of one kind. -/
def timesOf (p : Deed → Bool) (deeds : List (Time × Deed)) : List Time :=
  (deeds.filter (p ·.2)).map Prod.fst

theorem timesOf_append (p : Deed → Bool) (deeds deeds' : List (Time × Deed)) :
    timesOf p (deeds ++ deeds') = timesOf p deeds ++ timesOf p deeds' := by
  rw [timesOf, List.filter_append, List.map_append, timesOf, timesOf]

/-! ## times that are far enough apart -/

/-- From a time before which nothing is due, times that are at least `d` apart as the sum is
rounded, and the time before which nothing is due after them. -/
inductive Spaced (d : Time) : Time → List Time → Time → Prop
  | nil (due : Time) : Spaced d due [] due
  | cons {due t last : Time} {rest : List Time} (hdue : due ≤ t)
      (hrest : Spaced d (Binary64.add t d) rest last) : Spaced d due (t :: rest) last

namespace Spaced

variable {d due between last : Time} {times times' : List Time}

theorem single {t : Time} (hdue : due ≤ t) : Spaced d due [t] (Binary64.add t d) :=
  .cons hdue (.nil _)

theorem append (h : Spaced d due times between) (h' : Spaced d between times' last) :
    Spaced d due (times ++ times') last := by
  induction h with
  | nil due => exact h'
  | cons hdue hrest ih => exact .cons hdue (ih h')

theorem isChain (h : Spaced d due times last) :
    times.IsChain fun t t' => Binary64.add t d ≤ t' := by
  induction h with
  | nil due => exact .nil
  | @cons due t last rest hdue hrest ih =>
      cases hrest with
      | nil => exact .singleton t
      | cons hnext hrest' => exact .cons_cons hnext ih

end Spaced

theorem Clock.eq_of_read? {c rest : Clock} {t : Time} (hread : c.read? = some (t, rest)) :
    t = c.reading c.reads ∧ rest = { c with reads := c.reads + 1 } := by
  unfold read? at hread
  split at hread
  · cases hread
    exact ⟨rfl, rfl⟩
  · cases hread

namespace Host

/-! ## what the host does -/

/-- What the host does at a reading if it does not wait. -/
def deedsAt (h : Host) (t : Time) : List Deed :=
  if h.nextFrame ≤ t then
    match h.frame with
    | (true, _) => [.frame true]
    | (false, after) => [.frame false, .step after.step.1]
  else [.step h.step.1]

/-- What the host does at a reading. -/
def deeds (h : Host) (pace : Pace) (t : Time) : List Deed :=
  match pace with
  | .ready => h.deedsAt t
  | .waiting _ => []

/-- What the host does as long as there are readings. -/
def roundsOn (h : Host) (pace : Pace) (clock : Clock) : List Round :=
  match _hread : clock.read? with
  | none => []
  | some (t, rest) =>
    match h.advance pace t with
    | (.going pace', after) => ⟨t, h.deeds pace t⟩ :: roundsOn after pace' rest
    | (.ended _, _) => [⟨t, h.deeds pace t⟩]
termination_by clock.remaining
decreasing_by exact Clock.remaining_lt_of_read? _hread

/-- What the host does in a run. -/
def rounds (h : Host) (clock : Clock) : List Round := h.start.roundsOn .ready clock

/-- What the host does in runs one after the other, each with a clock of its own. -/
def runs (h : Host) : List Clock → List (List Round)
  | [] => []
  | clock :: rest => h.rounds clock :: (h.run clock).2.1.runs rest

/-- The host after runs one after the other. -/
def afterRuns (h : Host) (clocks : List Clock) : Host :=
  clocks.foldl (fun h clock => (h.run clock).2.1) h

/-- The machines are the same, and so is everything that the host works with; what is counted,
due and logged may differ. -/
structure Alike (g h : Host) : Prop where
  machine : h.emulator.toMachine = g.emulator.toMachine
  renderer : h.renderer = g.renderer
  inputs : h.inputs = g.inputs
  limitKind : h.limitKind = g.limitKind

/-- One host becomes another by these deeds, and they answer like this: frames and steps one after
the other, and between them nothing but showing the screen. -/
inductive Did : Host → List Deed → Host → Prop
  | nil (h : Host) : Did h [] h
  | apart {g between after : Host} {deeds : List Deed} (hsame : Alike g between)
      (hrest : Did between deeds after) : Did g deeds after
  | shown {g after : Host} {deeds : List Deed} (hrest : Did g.refresh deeds after) :
      Did g deeds after
  | frame {g after : Host} {deeds : List Deed} (hrest : Did g.frame.2 deeds after) :
      Did g (.frame g.frame.1 :: deeds) after
  | step {g after : Host} {deeds : List Deed}
      (hrest : Did { g with emulator := g.step.2 } deeds after) :
      Did g (.step g.step.1 :: deeds) after

theorem Alike.did {g after : Host} (hsame : Alike g after) : Did g [] after :=
  .apart hsame (.nil after)

theorem Did.append {h between after : Host} {deeds deeds' : List Deed} (hdid : Did h deeds between)
    (hdid' : Did between deeds' after) : Did h (deeds ++ deeds') after := by
  induction hdid with
  | nil h => exact hdid'
  | apart hsame hrest ih => exact .apart hsame (ih hdid')
  | shown hrest ih => exact .shown (ih hdid')
  | frame hrest ih => exact .frame (ih hdid')
  | step hrest ih => exact .step (ih hdid')

/-! ## keeping book -/

/-- What deeds make of a host: what it counts is what was done, and no frame came before it was
due. -/
structure Account (h : Host) (deeds : List (Time × Deed)) (after : Host) : Prop where
  did : Did h (deeds.map Prod.snd) after
  interval : after.interval = h.interval
  frames : after.frames = h.frames + (timesOf Deed.ticks deeds).length
  steps : after.steps = h.steps + (timesOf Deed.executes deeds).length
  spaced : Spaced frameInterval h.nextFrame (timesOf Deed.ticks deeds) after.nextFrame

namespace Account

variable {h between after : Host} {deeds deeds' : List (Time × Deed)}

protected theorem nil (h : Host) : Account h [] h :=
  ⟨.nil h, rfl, rfl, rfl, .nil _⟩

theorem append (haccount : Account h deeds between) (haccount' : Account between deeds' after) :
    Account h (deeds ++ deeds') after where
  did := by
    rw [List.map_append]
    exact haccount.did.append haccount'.did
  interval := haccount'.interval.trans haccount.interval
  frames := by
    rw [haccount'.frames, haccount.frames, timesOf_append, List.length_append, Nat.add_assoc]
  steps := by
    rw [haccount'.steps, haccount.steps, timesOf_append, List.length_append, Nat.add_assoc]
  spaced := by
    rw [timesOf_append]
    exact haccount.spaced.append haccount'.spaced

/-- Lines of the log are not accounted for. -/
theorem note (h : Host) (text : Unit → String) : Account h [] (h.note text) :=
  ⟨Alike.did ⟨rfl, rfl, rfl, rfl⟩, rfl, rfl, rfl, .nil _⟩

/-- Neither is showing the screen. -/
theorem refresh (h : Host) : Account h [] h.refresh := by
  have hsame := h.samePacing_refresh
  exact ⟨.shown (.nil _), hsame.interval, hsame.frames, h.steps_refresh, hsame.nextFrame ▸ .nil _⟩

end Account

/-- A step is an instruction if the answer says so. -/
theorem account_stepAt (h : Host) (t : Time) :
    Account h [(t, .step h.step.1)] (h.stepAt t).2 := by
  have hdid : Did h [.step h.step.1] { h with emulator := h.step.2 } := .step (.nil _)
  unfold stepAt
  generalize h.step = r at hdid ⊢
  obtain ⟨answer, emulator⟩ := r
  match answer with
  | .ok true | .ok false | .error _ =>
      exact ⟨hdid.append (Alike.did ⟨rfl, rfl, rfl, rfl⟩), rfl, rfl, rfl, .nil _⟩

/-- A frame does not carry out instructions, and does not decide when the next one is due. -/
theorem frame_keeps (h : Host) :
    h.frame.2.interval = h.interval ∧ h.frame.2.steps = h.steps ∧
      h.frame.2.nextFrame = h.nextFrame := by
  unfold frame
  generalize h.inputs.process h.emulator = r
  obtain ⟨quit, inputs, emulator⟩ := r
  cases quit with
  | true => exact ⟨rfl, rfl, rfl⟩
  | false =>
      have hshown := samePacing_refresh { h with inputs, emulator := emulator.tick }
      exact ⟨hshown.interval, steps_refresh { h with inputs, emulator := emulator.tick },
        hshown.nextFrame⟩

/-- A frame that is due counts if the user does not ask to quit, and the next one is due then. -/
theorem account_frame {h after : Host} {t : Time} {quit : Bool} (hdue : h.nextFrame ≤ t)
    (hframe : h.frame = (quit, after)) :
    Account h [(t, .frame quit)]
      (if quit then after else { after with nextFrame := Binary64.add t frameInterval }) := by
  have hdid : Did h [.frame h.frame.1] h.frame.2 := .frame (.nil _)
  obtain ⟨hinterval, hsteps, hnext⟩ := h.frame_keeps
  have hframes := h.frame_cases
  rw [hframe] at hdid hinterval hsteps hnext hframes
  rcases hframes with ⟨hquit, hframes⟩ | ⟨hquit, hframes, -⟩
  · obtain rfl : quit = true := hquit
    exact ⟨hdid, hinterval, hframes, hsteps, hnext ▸ .nil _⟩
  · obtain rfl : quit = false := hquit
    exact ⟨hdid.append (Alike.did ⟨rfl, rfl, rfl, rfl⟩), hinterval, hframes, hsteps,
      .single hdue⟩

theorem account_turn (h : Host) (t : Time) :
    Account h ((h.deedsAt t).map (t, ·)) (h.turn t).2 := by
  unfold deedsAt turn
  split
  · rename_i hdue
    cases hframe : h.frame with
    | mk quit after =>
        have hfirst := account_frame hdue hframe
        cases quit with
        | true => exact hfirst.append (.note after _)
        | false =>
            exact hfirst.append
              (account_stepAt { after with nextFrame := Binary64.add t frameInterval } t)
  · exact h.account_stepAt t

theorem account_advance (h : Host) (pace : Pace) (t : Time) :
    Account h ((h.deeds pace t).map (t, ·)) (h.advance pace t).2 := by
  cases pace with
  | ready => exact h.account_turn t
  | waiting due =>
      simp only [advance]
      split <;> exact .nil h

/-! ## runs -/

section Runs

variable {h after : Host} {pace pace' : Pace} {clock rest : Clock} {t : Time}

theorem roundsOn_of_none (hread : clock.read? = none) : h.roundsOn pace clock = [] := by
  rw [roundsOn, hread]

theorem roundsOn_of_going (hread : clock.read? = some (t, rest))
    (hgoing : h.advance pace t = (.going pace', after)) :
    h.roundsOn pace clock = ⟨t, h.deeds pace t⟩ :: after.roundsOn pace' rest := by
  rw [roundsOn, hread]
  simp only [hgoing]

theorem roundsOn_of_ended {r : Except Fault Ending} (hread : clock.read? = some (t, rest))
    (hended : h.advance pace t = (.ended r, after)) :
    h.roundsOn pace clock = [⟨t, h.deeds pace t⟩] := by
  rw [roundsOn, hread]
  simp only [hended]

end Runs

theorem account_runOn (h : Host) (pace : Pace) (clock : Clock) :
    Account h ((h.roundsOn pace clock).flatMap Round.timed) (h.runOn pace clock).2.1 := by
  induction h, pace, clock using Host.runOn.induct with
  | case1 h pace clock hread =>
      rw [roundsOn_of_none hread, runOn, hread]
      exact .nil h
  | case2 h pace clock t rest hread pace' between hgoing ih =>
      have hfirst := h.account_advance pace t
      rw [hgoing] at hfirst
      rw [roundsOn_of_going hread hgoing, (runOn_of_going hread hgoing).1, List.flatMap_cons]
      exact hfirst.append ih
  | case3 h pace clock t rest hread r between hended =>
      have hfirst := h.account_advance pace t
      rw [hended] at hfirst
      rw [roundsOn_of_ended hread hended, (runOn_of_ended hread hended).1, List.flatMap_singleton]
      exact hfirst

theorem account_run (h : Host) (clock : Clock) :
    Account h ((h.rounds clock).flatMap Round.timed) (h.run clock).2.1 := by
  have hstarted : Account h [] h.start := .note h _
  have hended := (hstarted.append (h.start.account_runOn .ready clock)).append (.refresh _)
  rw [List.append_nil] at hended
  exact hended

theorem account_runs (h : Host) (clocks : List Clock) :
    Account h ((h.runs clocks).flatten.flatMap Round.timed) (h.afterRuns clocks) := by
  induction clocks generalizing h with
  | nil => exact .nil h
  | cons clock rest ih =>
      rw [runs, List.flatten_cons, List.flatMap_append]
      exact (h.account_run clock).append (ih _)

/-! ## one run -/

/-- At a reading there is at most one frame, and at most one step. -/
theorem deeds_once (h : Host) (pace : Pace) (t : Time) :
    (h.deeds pace t).countP Deed.isFrame ≤ 1 ∧ (h.deeds pace t).countP Deed.isStep ≤ 1 := by
  cases pace with
  | waiting due => exact ⟨Nat.zero_le 1, Nat.zero_le 1⟩
  | ready =>
      change (h.deedsAt t).countP Deed.isFrame ≤ 1 ∧ (h.deedsAt t).countP Deed.isStep ≤ 1
      unfold deedsAt
      split
      · obtain ⟨quit, after⟩ := h.frame
        cases quit with
        | true => exact ⟨Nat.le_refl 1, Nat.zero_le 1⟩
        | false => exact ⟨Nat.le_refl 1, Nat.le_refl 1⟩
      · exact ⟨Nat.zero_le 1, Nat.le_refl 1⟩

end Host

/-- The instruction carried out at a reading that leads to this, if the host did not wait. -/
def Progress.instructionAt (t : Time) : Progress → List Time
  | going _ => [t]
  | ended _ => []

namespace Host

theorem executes_stepAt (h : Host) (t : Time) :
    timesOf Deed.executes [(t, .step h.step.1)] = (h.stepAt t).1.instructionAt t := by
  unfold stepAt
  generalize h.step = r
  obtain ⟨answer, emulator⟩ := r
  match answer with
  | .ok true | .ok false | .error _ => rfl

/-- If the host does not wait, the run goes on with an instruction or not at all. -/
theorem executes_turn (h : Host) (t : Time) :
    timesOf Deed.executes ((h.deedsAt t).map (t, ·)) = (h.turn t).1.instructionAt t := by
  unfold deedsAt turn
  split
  · obtain ⟨quit, after⟩ := h.frame
    cases quit with
    | true => rfl
    | false => exact executes_stepAt { after with nextFrame := Binary64.add t frameInterval } t
  · exact h.executes_stepAt t

/-- Before this time there is no instruction. -/
def NotBefore (clock : Clock) (due : Time) : Pace → Prop
  | .ready => due ≤ clock.reading clock.reads
  | .waiting u => due ≤ u

/-- What one reading of a clock that does not go back makes of the next instruction: if it came,
it was due, and now the one after it is; if the host still waits, nothing has changed; and if the
wait is over, the instruction comes at a later reading. -/
theorem spaced_advance {h after : Host} {pace pace' : Pace} {clock rest : Clock} {d due t : Time}
    (hinterval : h.interval = some d) (hclock : Monotone clock.reading)
    (hread : clock.read? = some (t, rest)) (hdue : NotBefore clock due pace)
    (hgoing : h.advance pace t = (.going pace', after)) :
    ∃ due', Spaced d due (timesOf Deed.executes ((h.deeds pace t).map (t, ·))) due' ∧
      NotBefore rest due' pace' := by
  obtain ⟨rfl, rfl⟩ := Clock.eq_of_read? hread
  cases pace with
  | ready =>
      have hturn : h.turn (clock.reading clock.reads) = (.going pace', after) := hgoing
      have hexecutes := h.executes_turn (clock.reading clock.reads)
      have hturned := h.turned_turn (clock.reading clock.reads)
      rw [hturn] at hexecutes hturned
      have hpace : pace' = h.paceAfter (clock.reading clock.reads) := by
        cases hturned with
        | frame _ _ _ _ hpace | between _ _ hpace => exact hpace pace' rfl
      rw [hpace, paceAfter_of_interval hinterval]
      exact ⟨_, hexecutes ▸ .single hdue, le_rfl⟩
  | waiting u =>
      refine ⟨due, .nil due, ?_⟩
      simp only [advance] at hgoing
      split at hgoing
      · cases hgoing
        exact hdue
      · rename_i hcome
        cases hgoing
        -- the reading that ends the wait is not the one at which the instruction comes
        have hlater := hclock (Nat.le_succ clock.reads)
        exact (le_trans hdue (not_lt.1 hcome)).trans hlater

theorem spaced_roundsOn {h : Host} {pace : Pace} {clock : Clock} {d due : Time}
    (hinterval : h.interval = some d) (hclock : Monotone clock.reading)
    (hdue : NotBefore clock due pace) :
    ∃ last, Spaced d due
      (timesOf Deed.executes ((h.roundsOn pace clock).flatMap Round.timed)) last := by
  induction h, pace, clock using Host.runOn.induct generalizing due with
  | case1 h pace clock hread =>
      rw [roundsOn_of_none hread]
      exact ⟨due, .nil due⟩
  | case2 h pace clock t rest hread pace' between hgoing ih =>
      obtain ⟨due', hfirst, hdue'⟩ := spaced_advance hinterval hclock hread hdue hgoing
      have hinterval' := (h.account_advance pace t).interval
      rw [hgoing] at hinterval'
      obtain ⟨-, rfl⟩ := Clock.eq_of_read? hread
      obtain ⟨last, hrest⟩ := ih (hinterval'.trans hinterval) hclock hdue'
      rw [roundsOn_of_going hread hgoing, List.flatMap_cons, timesOf_append]
      exact ⟨last, hfirst.append hrest⟩
  | case3 h pace clock t rest hread r between hended =>
      refine ⟨due, ?_⟩
      rw [roundsOn_of_ended hread hended, List.flatMap_singleton]
      have hnone : timesOf Deed.executes (Round.timed ⟨t, h.deeds pace t⟩) = [] := by
        cases pace with
        | waiting u => rfl
        | ready =>
            have hturn : h.turn t = (.ended r, between) := hended
            have hexecutes := h.executes_turn t
            rw [hturn] at hexecutes
            exact hexecutes
      rw [hnone]
      exact .nil due

/-- A run is not too fast: its rounds are at the readings of the clock one after the other, in
each there is at most one frame and one step, and instructions are far enough apart. -/
structure WellPaced (interval : Option Time) (clock : Clock) (run : List Round) : Prop where
  readings : run.map Round.reading = (List.range' clock.reads run.length).map clock.reading
  once : ∀ round ∈ run,
    round.deeds.countP Deed.isFrame ≤ 1 ∧ round.deeds.countP Deed.isStep ≤ 1
  apart : ∀ d ∈ interval,
    (timesOf Deed.executes (run.flatMap Round.timed)).IsChain fun t t' => Binary64.add t d ≤ t'

theorem readings_roundsOn (h : Host) (pace : Pace) (clock : Clock) :
    let run := h.roundsOn pace clock
    run.map Round.reading = (List.range' clock.reads run.length).map clock.reading := by
  induction h, pace, clock using Host.runOn.induct with
  | case1 h pace clock hread =>
      rw [roundsOn_of_none hread]
      rfl
  | case2 h pace clock t rest hread pace' between hgoing ih =>
      obtain ⟨rfl, rfl⟩ := Clock.eq_of_read? hread
      rw [roundsOn_of_going hread hgoing]
      exact congrArg (clock.reading clock.reads :: ·) ih
  | case3 h pace clock t rest hread r between hended =>
      obtain ⟨rfl, -⟩ := Clock.eq_of_read? hread
      rw [roundsOn_of_ended hread hended]
      rfl

theorem once_roundsOn (h : Host) (pace : Pace) (clock : Clock) :
    ∀ round ∈ h.roundsOn pace clock,
      round.deeds.countP Deed.isFrame ≤ 1 ∧ round.deeds.countP Deed.isStep ≤ 1 := by
  induction h, pace, clock using Host.runOn.induct with
  | case1 h pace clock hread =>
      rw [roundsOn_of_none hread]
      exact List.forall_mem_nil _
  | case2 h pace clock t rest hread pace' between hgoing ih =>
      rw [roundsOn_of_going hread hgoing]
      exact List.forall_mem_cons.2 ⟨h.deeds_once pace t, ih⟩
  | case3 h pace clock t rest hread r between hended =>
      rw [roundsOn_of_ended hread hended]
      exact List.forall_mem_singleton.2 (h.deeds_once pace t)

theorem wellPaced_rounds (h : Host) {clock : Clock} (hclock : Monotone clock.reading) :
    WellPaced h.interval clock (h.rounds clock) where
  readings := h.start.readings_roundsOn .ready clock
  once := h.start.once_roundsOn .ready clock
  apart := by
    intro d hd
    have hfirst : NotBefore clock (clock.reading clock.reads) .ready := le_rfl
    obtain ⟨last, hspaced⟩ := spaced_roundsOn (h := h.start) hd hclock hfirst
    exact hspaced.isChain

theorem wellPaced_runs (h : Host) {clocks : List Clock}
    (hclocks : ∀ clock ∈ clocks, Monotone clock.reading) :
    List.Forall₂ (WellPaced h.interval) clocks (h.runs clocks) := by
  induction clocks generalizing h with
  | nil => exact .nil
  | cons clock rest ih =>
      obtain ⟨hclock, hrest⟩ := List.forall_mem_cons.1 hclocks
      have hnext := ih (h.run clock).2.1 hrest
      rw [(h.account_run clock).interval] at hnext
      exact .cons (h.wellPaced_rounds hclock) hnext

/-- **The host never runs too fast**: whatever its emulator, its events and its speed are, in any
number of runs one after the other, each with a clock that does not go back, frames that count
down the timers are at least `frameInterval` apart, as the code computes the sum; within a run
instructions are at least as far apart as the speed asks for, and at each reading there is at most
one of either.  The host counts the frames and instructions that there were, and apart from showing
the screen nothing else has been done to its machine, renderer and events.  A clock may run out of
readings at any point, so all of this holds of every beginning of a run that goes on for ever. -/
theorem never_too_fast (h : Host) {clocks : List Clock}
    (hclocks : ∀ clock ∈ clocks, Monotone clock.reading) :
    let runs := h.runs clocks
    let deeds := runs.flatten.flatMap Round.timed
    let after := h.afterRuns clocks
    (timesOf Deed.ticks deeds).IsChain (fun t t' => Binary64.add t frameInterval ≤ t') ∧
    List.Forall₂ (WellPaced h.interval) clocks runs ∧
    after.frames = h.frames + (timesOf Deed.ticks deeds).length ∧
    after.steps = h.steps + (timesOf Deed.executes deeds).length ∧
    Did h (deeds.map Prod.snd) after := by
  have haccount := h.account_runs clocks
  exact ⟨haccount.spaced.isChain, h.wellPaced_runs hclocks, haccount.frames, haccount.steps,
    haccount.did⟩

/-- Two runs of a host at ten instructions a second, the second one with the next readings of the
same clock: it begins with an instruction, and still waits for the frame. -/
theorem never_too_fast_spinning :
    let clock : Clock := { reading := fun k => (k : Rat) / 64, limit := 17 }
    let clocks := [clock, { clock with limit := 26, reads := 17 }]
    let deeds := (spinning.runs clocks).flatten.flatMap Round.timed
    let after := spinning.afterRuns clocks
    (∀ clock ∈ clocks, Monotone clock.reading) ∧
      timesOf Deed.executes deeds = [0, 8 / 64, 16 / 64, 17 / 64, 25 / 64] ∧
      timesOf Deed.ticks deeds = [0, 8 / 64, 16 / 64, 25 / 64] ∧
      (timesOf Deed.ticks deeds).IsChain (fun t t' => Binary64.add t frameInterval ≤ t') ∧
      after.frames = 4 ∧ after.steps = 5 := by
  intro clock clocks deeds after
  have hmonotone : Monotone clock.reading := by
    intro j k hjk
    change (j : Rat) / 64 ≤ (k : Rat) / 64
    gcongr
  have hclocks : ∀ clock ∈ clocks, Monotone clock.reading := by
    intro other hother
    rcases List.mem_pair.1 hother with rfl | rfl <;> exact hmonotone
  obtain ⟨hexecutes, hticks⟩ :
      timesOf Deed.executes deeds = [0, 8 / 64, 16 / 64, 17 / 64, 25 / 64] ∧
        timesOf Deed.ticks deeds = [0, 8 / 64, 16 / 64, 25 / 64] := by
    decide +kernel
  obtain ⟨hchain, -, hframes, hsteps, -⟩ := never_too_fast spinning hclocks
  refine ⟨hclocks, hexecutes, hticks, hchain, ?_, ?_⟩
  · exact hframes.trans (congrArg (0 + List.length ·) hticks)
  · exact hsteps.trans (congrArg (0 + List.length ·) hexecutes)

end Host

end Chip8
