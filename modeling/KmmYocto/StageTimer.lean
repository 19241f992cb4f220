import KmmYocto.Runs
import KmmYocto.Trace

/-!
# The stage timer of the boot measurement

`lcdval/timing.py` is fed a timestamp and the number of tags of each stage
for every captured frame.  It records when a stage was first seen, when half
of its tags were seen, and since when nearly all of them were seen in
consecutive frames.  Timestamps are in nanoseconds.
-/

namespace KmmYocto.LcdVal

/-- `STAGES`. -/
inductive Stage where
  | calibration
  | bootloader
  | weston
  | gui
deriving DecidableEq, Repr

namespace Stage

def stages : List Stage :=
  [.calibration, .bootloader, .weston, .gui]

theorem mem_stages (stage : Stage) : stage ∈ stages := by
  cases stage <;> decide

end Stage

/-- `TimingConfig`. -/
structure TimingConfig where
  /-- `int(NUM_TAGS * stable_ratio)`. -/
  needStable : Nat := 54
  stableFrames : Nat := 3
  halfCount : Nat := 30

/-- What one frame shows. -/
structure Frame where
  tsNs : Int
  counts : Stage → Nat

/-- `StageTimer`; a stage that a dictionary does not have is `none`. -/
structure StageTimer where
  t0 : Option Int
  first : Stage → Option Int
  half : Stage → Option Int
  stable : Stage → Option Int
  streak : Stage → List Int

namespace StageTimer

/-- A new timer. -/
def new (t0 : Option Int) : StageTimer :=
  ⟨t0, fun _ => none, fun _ => none, fun _ => none, fun _ => []⟩

variable (config : TimingConfig) (frame : Frame) (timer : StageTimer)
    (stage : Stage)

def noteFirst : StageTimer :=
  if 1 ≤ frame.counts stage ∧ timer.first stage = none then
    { timer with
      first := Function.update timer.first stage (some frame.tsNs) }
  else timer

def noteHalf : StageTimer :=
  if config.halfCount ≤ frame.counts stage ∧ timer.half stage = none then
    { timer with
      half := Function.update timer.half stage (some frame.tsNs) }
  else timer

def noteStable : StageTimer :=
  if config.needStable ≤ frame.counts stage then
    let streak := timer.streak stage ++ [frame.tsNs]
    { timer with
      streak := Function.update timer.streak stage streak
      stable :=
        if timer.stable stage = none ∧
            config.stableFrames ≤ streak.length then
          -- the time of the first frame of the streak
          Function.update timer.stable stage streak.head?
        else timer.stable }
  else { timer with streak := Function.update timer.streak stage [] }

/-- The body of the loop of `feed`. -/
def feedStage : StageTimer :=
  noteStable config frame
    (noteHalf config frame (noteFirst frame timer stage) stage) stage

/-- `feed`. -/
def feed : StageTimer :=
  Stage.stages.foldl (feedStage config frame)
    { timer with t0 := some (timer.t0.getD frame.tsNs) }

end StageTimer

/-! ## One stage on its own -/

/-- What the timer keeps for one stage. -/
structure StageClock where
  first : Option Int
  half : Option Int
  stable : Option Int
  streak : List Int

namespace StageClock

def new : StageClock :=
  ⟨none, none, none, []⟩

/-- The clock of a stage when its tags have been counted. -/
def feed (config : TimingConfig) (tsNs : Int) (n : Nat)
    (clock : StageClock) : StageClock where
  first := clock.first.or (if 1 ≤ n then some tsNs else none)
  half := clock.half.or (if config.halfCount ≤ n then some tsNs else none)
  stable :=
    clock.stable.or
      (if config.needStable ≤ n ∧
          config.stableFrames ≤ clock.streak.length + 1 then
        (clock.streak ++ [tsNs]).head?
      else none)
  streak := if config.needStable ≤ n then clock.streak ++ [tsNs] else []

end StageClock

namespace StageTimer

variable {config : TimingConfig}

def clock (timer : StageTimer) (stage : Stage) : StageClock :=
  ⟨timer.first stage, timer.half stage, timer.stable stage,
    timer.streak stage⟩

theorem clock_noteFirst (frame : Frame) (timer : StageTimer)
    (fed stage : Stage) :
    (noteFirst frame timer fed).clock stage =
      if fed = stage then
        { timer.clock stage with
          first :=
            (timer.clock stage).first.or
              (if 1 ≤ frame.counts stage then some frame.tsNs else none) }
      else timer.clock stage := by
  by_cases same : fed = stage
  · subst same
    rw [if_pos rfl]
    simp only [noteFirst, clock]
    cases known : timer.first fed with
    | none => split_ifs <;> simp_all
    | some ts => simp [known]
  · rw [if_neg same]
    simp only [noteFirst, clock]
    split_ifs <;> simp [Ne.symm same]

theorem clock_noteHalf (frame : Frame) (timer : StageTimer)
    (fed stage : Stage) :
    (noteHalf config frame timer fed).clock stage =
      if fed = stage then
        { timer.clock stage with
          half :=
            (timer.clock stage).half.or
              (if config.halfCount ≤ frame.counts stage then some frame.tsNs
              else none) }
      else timer.clock stage := by
  by_cases same : fed = stage
  · subst same
    rw [if_pos rfl]
    simp only [noteHalf, clock]
    cases known : timer.half fed with
    | none => split_ifs <;> simp_all
    | some ts => simp [known]
  · rw [if_neg same]
    simp only [noteHalf, clock]
    split_ifs <;> simp [Ne.symm same]

theorem clock_noteStable (frame : Frame) (timer : StageTimer)
    (fed stage : Stage) :
    (noteStable config frame timer fed).clock stage =
      if fed = stage then
        { timer.clock stage with
          stable :=
            (timer.clock stage).stable.or
              (if config.needStable ≤ frame.counts stage ∧
                  config.stableFrames ≤
                    (timer.clock stage).streak.length + 1 then
                ((timer.clock stage).streak ++ [frame.tsNs]).head?
              else none)
          streak :=
            if config.needStable ≤ frame.counts stage then
              (timer.clock stage).streak ++ [frame.tsNs]
            else [] }
      else timer.clock stage := by
  by_cases same : fed = stage
  · subst same
    rw [if_pos rfl]
    simp only [noteStable, clock]
    by_cases enough : config.needStable ≤ frame.counts fed
    · cases known : timer.stable fed with
      | none => split_ifs <;> simp_all
      | some ts => simp [enough, known]
    · simp [enough]
  · rw [if_neg same]
    simp only [noteStable, clock]
    split_ifs <;> simp [Ne.symm same]

/-- The body of the loop is about one stage. -/
theorem clock_feedStage (frame : Frame) (timer : StageTimer)
    (fed stage : Stage) :
    (feedStage config frame timer fed).clock stage =
      if fed = stage then
        (timer.clock stage).feed config frame.tsNs (frame.counts stage)
      else timer.clock stage := by
  rw [feedStage, clock_noteStable, clock_noteHalf, clock_noteFirst]
  by_cases same : fed = stage
  · simp only [if_pos same]
    rfl
  · simp only [if_neg same]

theorem clock_foldl (frame : Frame) (timer : StageTimer) (stage : Stage)
    {fed : List Stage} (distinct : fed.Nodup) :
    (fed.foldl (feedStage config frame) timer).clock stage =
      if stage ∈ fed then
        (timer.clock stage).feed config frame.tsNs (frame.counts stage)
      else timer.clock stage := by
  induction fed generalizing timer with
  | nil => rfl
  | cons next rest induction =>
      obtain ⟨notLater, distinct⟩ := List.nodup_cons.mp distinct
      rw [List.foldl_cons, induction _ distinct, clock_feedStage]
      by_cases same : next = stage
      · subst same
        rw [if_neg notLater, if_pos rfl, if_pos (by simp)]
      · have member : stage ∈ next :: rest ↔ stage ∈ rest := by
          simp [Ne.symm same]
        rw [if_neg same]
        simp only [member]

theorem clock_feed (frame : Frame) (timer : StageTimer) (stage : Stage) :
    (feed config frame timer).clock stage =
      (timer.clock stage).feed config frame.tsNs (frame.counts stage) := by
  rw [feed, clock_foldl _ _ _ (by decide), if_pos (Stage.mem_stages stage)]
  rfl

/-- The timer after a sequence of frames. -/
def after (config : TimingConfig) (t0 : Option Int) (frames : List Frame) :
    StageTimer :=
  Trace.run (fun timer frame => feed config frame timer) (new t0) frames

end StageTimer

/-! ## The whole history -/

section History

variable {config : TimingConfig} {t0 : Option Int} {stage : Stage}
    {frames : List Frame}

open Runs (MaximalRun StartsRun Trailing)

/-- The frame shows enough tags of the stage to be called stable. -/
def Shows (config : TimingConfig) (stage : Stage) (frame : Frame) : Prop :=
  config.needStable ≤ frame.counts stage

instance (frame : Frame) : Decidable (Shows config stage frame) :=
  inferInstanceAs (Decidable (_ ≤ _))

/-- A run of enough frames that show the stage starts at frame `i`. -/
def StableFrom (config : TimingConfig) (stage : Stage) (frames : List Frame)
    (i : Nat) : Prop :=
  StartsRun (Shows config stage) config.stableFrames frames i

/-- The first time that a frame has `n` tags of a stage or more. -/
def firstWith (n : Nat) (stage : Stage) (frames : List Frame) : Option Int :=
  (frames.find? (n ≤ ·.counts stage)).map (·.tsNs)

/-- What the timer says after a sequence of frames. -/
structure Measures (config : TimingConfig) (stage : Stage)
    (frames : List Frame) (timer : StageTimer) : Prop where
  first : timer.first stage = firstWith 1 stage frames
  half : timer.half stage = firstWith config.halfCount stage frames
  stable :
    ∀ i, IsLeast {each | StableFrom config stage frames each} i →
      ∃ frame ∈ frames[i]?, timer.stable stage = some frame.tsNs
  unstable :
    (∀ i, ¬ StableFrom config stage frames i) → timer.stable stage = none
  ordered :
    ∀ stable ∈ timer.stable stage,
      ∃ first ∈ timer.first stage, ∃ half ∈ timer.half stage,
        first ≤ half ∧ half ≤ stable

/-- What a clock holds after a sequence of frames. -/
structure Clocks (config : TimingConfig) (stage : Stage)
    (frames : List Frame) (clock : StageClock) : Prop where
  first : clock.first = firstWith 1 stage frames
  half : clock.half = firstWith config.halfCount stage frames
  streak :
    ∃ start, Trailing (Shows config stage) frames start ∧
      clock.streak = (frames.drop start).map (·.tsNs)
  stable :
    ∀ i, IsLeast {each | StableFrom config stage frames each} i →
      ∃ frame ∈ frames[i]?, clock.stable = some frame.tsNs
  unstable :
    (∀ i, ¬ StableFrom config stage frames i) → clock.stable = none

theorem firstWith_concat (n : Nat) (frame : Frame) :
    firstWith n stage (frames ++ [frame]) =
      (firstWith n stage frames).or
        (if n ≤ frame.counts stage then some frame.tsNs else none) := by
  rw [firstWith, firstWith, List.find?_append]
  cases frames.find? (n ≤ ·.counts stage) with
  | none => by_cases enough : n ≤ frame.counts stage <;> simp [enough]
  | some found => rfl

theorem clocks_new : Clocks config stage [] StageClock.new where
  first := rfl
  half := rfl
  streak := ⟨0, Trailing.nil, rfl⟩
  stable := by
    rintro i ⟨⟨j, run, -⟩, -⟩
    exact absurd (run.nonempty.trans_le run.inside) (Nat.not_lt_zero i)
  unstable _ := rfl

/-- A streak starts with the frame that its run starts with. -/
theorem head?_streak {start : Nat} (inside : start ≤ frames.length)
    (frame : Frame) :
    ((frames.drop start).map (·.tsNs) ++ [frame.tsNs]).head? =
      ((frames ++ [frame])[start]?).map (·.tsNs) := by
  rw [← List.head?_drop, List.drop_append_of_le_length inside,
    ← List.head?_map, List.map_append, List.map_singleton]

/-- When the streak that goes on is long enough. -/
theorem Clocks.stable_feed {clock : StageClock} {start : Nat}
    (unstable : clock.stable = none)
    (inside : start ≤ frames.length)
    (streak : clock.streak = (frames.drop start).map (·.tsNs))
    (frame : Frame) :
    (clock.feed config frame.tsNs (frame.counts stage)).stable =
      if Shows config stage frame ∧
          start + config.stableFrames ≤ frames.length + 1 then
        ((frames ++ [frame])[start]?).map (·.tsNs)
      else none := by
  have length : clock.streak.length = frames.length - start := by
    rw [streak, List.length_map, List.length_drop]
  have long :
      config.stableFrames ≤ clock.streak.length + 1 ↔
        start + config.stableFrames ≤ frames.length + 1 := by
    omega
  simp only [StageClock.feed, unstable, Option.none_or, long]
  rw [streak, head?_streak inside]
  rfl

theorem Clocks.concat (positive : 0 < config.stableFrames)
    {clock : StageClock} (clocks : Clocks config stage frames clock)
    (frame : Frame) :
    Clocks config stage (frames ++ [frame])
      (clock.feed config frame.tsNs (frame.counts stage)) := by
  obtain ⟨start, trailing, streak⟩ := clocks.streak
  refine
    { first := ?_
      half := ?_
      streak := ?_
      stable := ?_
      unstable := ?_ }
  · rw [StageClock.feed, firstWith_concat, clocks.first]
  · rw [StageClock.feed, firstWith_concat, clocks.half]
  · by_cases shows : Shows config stage frame
    · refine ⟨start, trailing.concat shows, ?_⟩
      rw [StageClock.feed, List.drop_append_of_le_length trailing.inside,
        List.map_append, ← streak]
      exact if_pos shows
    · refine ⟨_, Trailing.concat_not shows, ?_⟩
      rw [StageClock.feed, List.drop_eq_nil_of_le (by simp)]
      exact if_neg shows
  · intro i least
    by_cases earlier : ∃ each, StableFrom config stage frames each
    · -- it was found before and is kept
      have found := isLeast_csInf earlier
      obtain rfl := least.unique (Runs.isLeast_concat positive found)
      obtain ⟨first, member, known⟩ := clocks.stable _ found
      refine ⟨first, ?_, ?_⟩
      · have inside := (List.getElem?_eq_some_iff.mp member).1
        rwa [List.getElem?_append_left inside]
      · rw [StageClock.feed, known, Option.some_or]
    · have none := not_exists.mp earlier
      obtain ⟨rfl, shows, long⟩ :=
        (Runs.startsRun_concat_of_none positive trailing none).mp least.1
      have inside : i < (frames ++ [frame]).length := by
        rw [List.length_append, List.length_singleton]
        omega
      refine ⟨_, List.getElem?_eq_getElem inside, ?_⟩
      rw [Clocks.stable_feed (clocks.unstable none) trailing.inside streak,
        if_pos ⟨shows, long⟩, List.getElem?_eq_getElem inside]
      rfl
  · intro none
    have before : ∀ i, ¬ StableFrom config stage frames i :=
      fun i starts =>
        none i ((trailing.startsRun_concat positive).mpr (.inl starts))
    rw [Clocks.stable_feed (clocks.unstable before) trailing.inside streak,
      if_neg]
    rintro ⟨shows, long⟩
    exact none start
      ((Runs.startsRun_concat_of_none positive trailing before).mpr
        ⟨rfl, shows, long⟩)

theorem clocks_after (positive : 0 < config.stableFrames) (t0 : Option Int)
    (stage : Stage) (frames : List Frame) :
    Clocks config stage frames
      ((StageTimer.after config t0 frames).clock stage) := by
  induction frames using List.reverseRecOn with
  | nil => exact clocks_new
  | append_singleton frames frame induction =>
      rw [StageTimer.after, Trace.run_append, Trace.run_cons, Trace.run_nil,
        StageTimer.clock_feed]
      exact induction.concat positive frame

/-- An earlier frame reaches the smaller number. -/
theorem exists_firstWith_le
    (ordered : frames.Pairwise (fun early late => early.tsNs ≤ late.tsNs))
    {frame : Frame} (member : frame ∈ frames) {n : Nat}
    (enough : n ≤ frame.counts stage) :
    ∃ found ∈ frames, n ≤ found.counts stage ∧
      firstWith n stage frames = some found.tsNs ∧
        found.tsNs ≤ frame.tsNs := by
  induction frames with
  | nil => simp at member
  | cons head rest induction =>
      obtain ⟨earliest, ordered⟩ := List.pairwise_cons.mp ordered
      by_cases first : n ≤ head.counts stage
      · refine ⟨head, by simp, first, by simp [firstWith, first], ?_⟩
        rcases List.mem_cons.mp member with rfl | later
        · exact le_rfl
        · exact earliest frame later
      · have later : frame ∈ rest := by
          refine (List.mem_cons.mp member).resolve_left ?_
          rintro rfl
          exact first enough
        obtain ⟨found, inside, reaches, value, before⟩ :=
          induction ordered later
        refine
          ⟨found, List.mem_cons_of_mem _ inside, reaches, ?_, before⟩
        rw [← value, firstWith, firstWith, List.find?_cons_of_neg]
        simpa using first

/-- What is set stays. -/
structure Keeps (stage : Stage) (earlier later : StageTimer) : Prop where
  first : ∀ ts ∈ earlier.first stage, later.first stage = some ts
  half : ∀ ts ∈ earlier.half stage, later.half stage = some ts
  stable : ∀ ts ∈ earlier.stable stage, later.stable stage = some ts

theorem keeps_feed (config : TimingConfig) (stage : Stage) (frame : Frame)
    (timer : StageTimer) :
    Keeps stage timer (StageTimer.feed config frame timer) := by
  have clock :
      (StageTimer.feed config frame timer).clock stage = _ :=
    StageTimer.clock_feed frame timer stage
  have first := congrArg StageClock.first clock
  have half := congrArg StageClock.half clock
  have stable := congrArg StageClock.stable clock
  refine ⟨?_, ?_, ?_⟩
  · intro ts known
    refine first.trans ?_
    exact congrArg (Option.or · _) known
  · intro ts known
    refine half.trans ?_
    exact congrArg (Option.or · _) known
  · intro ts known
    refine stable.trans ?_
    exact congrArg (Option.or · _) known

theorem keeps_run (config : TimingConfig) (stage : Stage)
    (timer : StageTimer) (later : List Frame) :
    Keeps stage timer
      (Trace.run (fun timer frame => StageTimer.feed config frame timer)
        timer later) := by
  induction later generalizing timer with
  | nil => exact ⟨fun _ => id, fun _ => id, fun _ => id⟩
  | cons frame later induction =>
      have step := keeps_feed config stage frame timer
      have rest := induction (StageTimer.feed config frame timer)
      exact
        ⟨fun ts known => rest.first ts (step.first ts known),
          fun ts known => rest.half ts (step.half ts known),
          fun ts known => rest.stable ts (step.stable ts known)⟩

/--
After any sequence of frames the timer holds what it is named for, and what it
held before the last of them.
-/
theorem measures_after (config : TimingConfig) (t0 : Option Int)
    (stage : Stage) (frames : List Frame)
    (ordered : frames.Pairwise (fun early late => early.tsNs ≤ late.tsNs))
    (half : 1 ≤ config.halfCount)
    (stable : config.halfCount ≤ config.needStable)
    (positive : 1 ≤ config.stableFrames) :
    Measures config stage frames (StageTimer.after config t0 frames) ∧
      ∀ before later, frames = before ++ later →
        Keeps stage (StageTimer.after config t0 before)
          (StageTimer.after config t0 frames) := by
  have clocks := clocks_after positive t0 stage frames
  refine
    ⟨{ first := clocks.first
       half := clocks.half
       stable := clocks.stable
       unstable := clocks.unstable
       ordered := ?_ }, ?_⟩
  · intro ts known
    have starts : ∃ i, StableFrom config stage frames i := by
      by_contra never
      have unset := clocks.unstable (not_exists.mp never)
      cases known.symm.trans unset
    obtain ⟨frame, member, value⟩ := clocks.stable _ (isLeast_csInf starts)
    obtain rfl : frame.tsNs = ts := Option.some.inj (value.symm.trans known)
    have shows : config.needStable ≤ frame.counts stage := by
      obtain ⟨j, run, -⟩ := (isLeast_csInf starts).1
      exact run.holds _ le_rfl run.nonempty frame member
    obtain ⟨middle, inside, reaches, halfValue, halfBefore⟩ :=
      exists_firstWith_le ordered (List.mem_of_getElem? member)
        (stable.trans shows)
    obtain ⟨earliest, -, -, firstValue, firstBefore⟩ :=
      exists_firstWith_le ordered inside (half.trans reaches)
    exact
      ⟨_, clocks.first.trans firstValue, _, clocks.half.trans halfValue,
        firstBefore, halfBefore⟩
  · rintro before later rfl
    rw [StageTimer.after, StageTimer.after, Trace.run_append]
    exact keeps_run _ _ _ later

/-- A frame that shows only the GUI. -/
def guiFrame (tsNs : Int) (tags : Nat) : Frame where
  tsNs
  counts stage := if stage = .gui then tags else 0

/-- A streak of two frames is too short, the next one is long enough. -/
def interrupted : List Frame :=
  [guiFrame 0 0, guiFrame 10 54, guiFrame 20 60, guiFrame 30 53,
    guiFrame 40 54, guiFrame 50 55, guiFrame 60 54, guiFrame 70 1]

theorem measures_interrupted :
    Measures {} .gui interrupted
        (StageTimer.after {} (some 0) interrupted) ∧
      ∀ before later, interrupted = before ++ later →
        Keeps .gui (StageTimer.after {} (some 0) before)
          (StageTimer.after {} (some 0) interrupted) :=
  measures_after {} (some 0) .gui interrupted (by decide) (by decide)
    (by decide) (by decide)

end History

end KmmYocto.LcdVal
