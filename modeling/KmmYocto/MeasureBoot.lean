import KmmYocto.StageTimer

/-!
# The boot measurement

`measure_boot.py` looks at the tags of every captured frame, feeds the stage
timer, and in the end analyses the last frame that showed the GUI after it
had become stable.  The report and the verdict are about this frame.

Floats are Lean's.  What `numpy` computes from them, how Python compares
numbers and how it writes them are arguments.
-/

namespace KmmYocto.LcdVal

/-! ## The layout of the tags -/

def gridCols : Nat := 10

def gridRows : Nat := 6

def cell : Nat := 80

def numTags : Nat := gridCols * gridRows

/-- `STAGE_BASE`. -/
def Stage.base : Stage → Nat
  | .calibration => 0
  | .bootloader => 100
  | .weston => 200
  | .gui => 300

/-- `decode_tag`: the stage, the row and the column. -/
def decodeTag (tid : Nat) : Option (Stage × Nat × Nat) :=
  (Stage.stages.find? fun stage =>
    stage.base ≤ tid ∧ tid < stage.base + numTags).map fun stage =>
      let idx := tid - stage.base
      (stage, idx / gridCols, idx % gridCols)

/-- `expected_center`. -/
def expectedCenter (row col : Nat) : Nat × Nat :=
  (col * cell + cell / 2, row * cell + cell / 2)

/-- `stage_ids`. -/
def stageIds (stage : Stage) : List Nat :=
  List.range' stage.base numTags

/-! ## The analysis of one frame -/

/-- A number of Python. -/
inductive Number where
  | int (value : Int)
  | float (value : Float)

/-- What is left to Python and to `numpy`. -/
structure Numerics where
  hypot : Float → Float → Float
  mean : List Float → Float
  sum : List Float → Float
  max : List Float → Float
  /-- `<=` -/
  le : Number → Number → Bool
  /-- A float with so many decimals, with its sign if it is asked for. -/
  fixed : (signed : Bool) → (decimals : Nat) → Float → String

def Number.le : Number → Number → Bool
  | .int first, .int second => first ≤ second
  | .int first, .float second => Float.ofInt first ≤ second
  | .float first, .int second => first ≤ Float.ofInt second
  | .float first, .float second => first ≤ second

/-- Straightforward versions, for runs of the model. -/
def Numerics.plain : Numerics where
  hypot x y := (x * x + y * y).sqrt
  mean values := values.foldl (· + ·) 0 / values.length.toFloat
  sum values := values.foldl (· + ·) 0
  max values :=
    values.foldl (fun most value => if most < value then value else most) 0
  le := Number.le
  fixed _ _ value := toString value

/-- `Thresholds`. -/
structure Thresholds where
  minDetectedTags : Number := .int 54
  maxMeanXError : Number := .float 3.0
  maxMeanYError : Number := .float 3.0
  maxRmsError : Number := .float 4.0
  maxSingleTagError : Number := .float 8.0
  maxMissingTags : Number := .int 6
  maxScaleError : Number := .float 0.01
  cropRunMin : Number := .int 3
  localDistortionError : Number := .float 5.0

/-- One assignment of `thresholds_from_dict`; other names are passed over. -/
def Thresholds.set (th : Thresholds) (name : String) (value : Number) :
    Thresholds :=
  if name = "min_detected_tags" then { th with minDetectedTags := value }
  else if name = "max_mean_x_error" then { th with maxMeanXError := value }
  else if name = "max_mean_y_error" then { th with maxMeanYError := value }
  else if name = "max_rms_error" then { th with maxRmsError := value }
  else if name = "max_single_tag_error" then
    { th with maxSingleTagError := value }
  else if name = "max_missing_tags" then { th with maxMissingTags := value }
  else if name = "max_scale_error" then { th with maxScaleError := value }
  else if name = "crop_run_min" then { th with cropRunMin := value }
  else if name = "local_distortion_error" then
    { th with localDistortionError := value }
  else th

/-- `thresholds_from_dict`. -/
def thresholdsFromDict (entries : List (String × Number)) : Thresholds :=
  entries.foldl (fun th entry => th.set entry.1 entry.2) {}

/-- A tag and its centre on the display. -/
structure Det where
  tid : Nat
  x : Float
  y : Float

/-- How far a tag is from where it belongs. -/
structure TagError where
  tid : Nat
  dx : Float
  dy : Float
  error : Float

structure Checks where
  position : Bool
  scale : Bool
  crop : Bool
  detection : Bool
  distortion : Bool

/-- `all(checks.values())` -/
def Checks.all (checks : Checks) : Bool :=
  checks.position && checks.scale && checks.crop && checks.detection &&
    checks.distortion

/-- The dictionary that `analyze` returns; with too few tags the last three
keys are missing. -/
structure Analysis where
  stage : Stage
  detectedCount : Nat
  missingIds : List Nat
  flags : List String
  meanDx : Option Float
  meanDy : Option Float
  rmsError : Option Float
  maxError : Option Float
  scaleX : Option Float
  scaleY : Option Float
  passed : Bool
  perTag : Option (List TagError)
  localDistortion : Option (List TagError)
  checks : Option Checks

section Analyze

variable (np : Numerics)

/-- `_fit_scale`. -/
def fitScale (expected actual : List Float) : Float :=
  let e := expected.map (· - np.mean expected)
  let a := actual.map (· - np.mean actual)
  let denom := np.sum (e.map fun value => value * value)
  if denom == 0 then 1.0
  else np.sum (List.zipWith (· * ·) e a) / denom

/-- `_crop_flags`. -/
def cropFlags (missingIds : List Nat) (runMin : Number) : List String :=
  let rc := missingIds.filterMap fun tid => (decodeTag tid).map (·.2)
  let rows := rc.map (·.1)
  let cols := rc.map (·.2)
  let flag (count : Nat) (name : String) : List String :=
    if np.le runMin (.int count) = true then [name] else []
  flag (rows.count 0) "TOP_CROP" ++
    flag (rows.count (gridRows - 1)) "BOTTOM_CROP" ++
    flag (cols.count 0) "LEFT_CROP" ++
    flag (cols.count (gridCols - 1)) "RIGHT_CROP"

/-- The loop of `analyze` over the tags. -/
def tagError (det : Det) : Option TagError :=
  (decodeTag det.tid).map fun (_, row, col) =>
    let dx := det.x - (expectedCenter row col).1.toFloat
    let dy := det.y - (expectedCenter row col).2.toFloat
    ⟨det.tid, dx, dy, np.hypot dx dy⟩

/-- `analyze`. -/
def analyze (stage : Stage) (detsDisplay : List Det) (th : Thresholds) :
    Analysis :=
  let detected := detsDisplay.filter (·.tid ∈ stageIds stage)
  let missing :=
    (stageIds stage).filter fun tid => tid ∉ detected.map (·.tid)
  if detected.length < 4 then
    { stage
      detectedCount := detected.length
      missingIds := missing
      flags := ["TOO_FEW_TAGS"]
      meanDx := none
      meanDy := none
      rmsError := none
      maxError := none
      scaleX := none
      scaleY := none
      passed := false
      perTag := none
      localDistortion := none
      checks := none }
  else
    let perTag := detected.filterMap (tagError np)
    let errs := perTag.map (·.error)
    let meanDx := np.mean (perTag.map (·.dx))
    let meanDy := np.mean (perTag.map (·.dy))
    let rms := (np.mean (errs.map fun err => err * err)).sqrt
    let mx := np.max errs
    let centers :=
      detected.filterMap fun det =>
        (decodeTag det.tid).map fun (_, row, col) => expectedCenter row col
    let scaleX :=
      fitScale np (centers.map (·.1.toFloat)) (detected.map (·.x))
    let scaleY :=
      fitScale np (centers.map (·.2.toFloat)) (detected.map (·.y))
    let crop := cropFlags np missing th.cropRunMin
    let localErrors :=
      perTag.filter fun err =>
        np.le th.localDistortionError
          (.float (np.hypot (err.dx - meanDx) (err.dy - meanDy)))
    let checks : Checks :=
      { position :=
          np.le (.float meanDx.abs) th.maxMeanXError &&
            np.le (.float meanDy.abs) th.maxMeanYError &&
            np.le (.float rms) th.maxRmsError &&
            np.le (.float mx) th.maxSingleTagError
        scale :=
          np.le (.float (scaleX - 1).abs) th.maxScaleError &&
            np.le (.float (scaleY - 1).abs) th.maxScaleError
        crop := crop.isEmpty
        detection :=
          np.le th.minDetectedTags (.int detected.length) &&
            np.le (.int missing.length) th.maxMissingTags
        distortion := localErrors.isEmpty }
    { stage
      detectedCount := detected.length
      missingIds := missing
      flags :=
        crop ++ if localErrors.isEmpty then [] else ["LOCAL_DISTORTION"]
      meanDx := some meanDx
      meanDy := some meanDy
      rmsError := some rms
      maxError := some mx
      scaleX := some scaleX
      scaleY := some scaleY
      passed := checks.all
      perTag := some perTag
      localDistortion := some localErrors
      checks := some checks }

end Analyze

/-! ## The measurement -/

/-- A captured frame with the tags that were detected, each at most once. -/
structure Capture where
  tsNs : Int
  dets : List Det
  distinct : (dets.map (·.tid)).Nodup

namespace Capture

/-- `pos`: the tags that belong to a stage. -/
def pos (capture : Capture) : List Det :=
  capture.dets.filter fun det => (decodeTag det.tid).isSome

/-- `counts`. -/
def counts (capture : Capture) (stage : Stage) : Nat :=
  capture.dets.countP fun det =>
    (decodeTag det.tid).map (·.1) = some stage

def frame (capture : Capture) : Frame :=
  ⟨capture.tsNs, capture.counts⟩

end Capture

/-- `dominant_stage`; of equal counts the first one wins. -/
def dominantStage (counts : Stage → Nat) : Option Stage :=
  let best :=
    Stage.stages.foldl
      (fun best stage => if counts best < counts stage then stage else best)
      .calibration
  if counts best = 0 then none else some best

/-- A row of the CSV file. -/
structure Row where
  tsNs : Int
  frameNumber : Nat
  counts : Stage → Nat
  detectedTagIds : List Nat
  stage : Option Stage
  /-- Without a stage the metrics are empty. -/
  res : Option Analysis

/-- The variables of the loop. -/
structure Measurement where
  timer : StageTimer
  captured : Nat
  rows : List Row
  guiStableDets : Option (List Det)

/-- What Python raises. -/
inductive PyError where
  | typeError (message : String)
  | keyError (key : String)
deriving DecidableEq, Repr

section Main

variable (np : Numerics)

/-- The body of the loop over the captured frames. -/
def measureFrame (th : Thresholds) (m : Measurement) (capture : Capture) :
    Measurement :=
  let timer := StageTimer.feed {} capture.frame m.timer
  let stage := dominantStage capture.counts
  { timer
    captured := m.captured + 1
    rows :=
      m.rows ++
        [{ tsNs := capture.tsNs
           frameNumber := m.captured + 1
           counts := capture.counts
           detectedTagIds := (capture.dets.map (·.tid)).mergeSort
           stage
           res := stage.map fun stage => analyze np stage capture.pos th }]
    guiStableDets :=
      if stage = some .gui ∧ timer.stable .gui ≠ none then some capture.pos
      else m.guiStableDets }

/-- The loop. -/
def measure (th : Thresholds) (captures : List Capture) : Measurement :=
  Trace.run (measureFrame np th) ⟨StageTimer.new none, 0, [], none⟩ captures

/-- `f"{value:+.2f}"` and the like. -/
def format (signed : Bool) (decimals : Nat) :
    Option Float → Except PyError String
  | some value => .ok (np.fixed signed decimals value)
  | none =>
      .error
        (.typeError "unsupported format string passed to NoneType.__format__")

/-- A time of the report; one that is missing is a dash. -/
def reportTime (t0 : Option Int) (title : String) (tsNs : Option Int) :
    String :=
  match t0, tsNs with
  | some t0, some tsNs =>
      title ++ np.fixed false 3 (Float.ofInt (tsNs - t0) / 1e9) ++ " s"
  | _, _ => title ++ "-"

/-- `report_lines`. -/
def reportLines (timer : StageTimer) : List String :=
  let line := reportTime np timer.t0
  [ line "Bootloader first : " (timer.first .bootloader),
    line "Bootloader stable: " (timer.stable .bootloader),
    line "Weston     first : " (timer.first .weston),
    line "Weston     stable: " (timer.stable .weston),
    line "Gui        first : " (timer.first .gui),
    line "GUI        50%   : " (timer.half .gui),
    line "Gui        stable: " (timer.stable .gui)]

def passFail (check : Bool) : String :=
  if check = true then "PASS" else "FAIL"

/-- The part of the report about the frame that was analysed. -/
def finalLines (final : Analysis) (cameraMoved : Bool) :
    Except PyError (List String) := do
  let meanDx ← format np true 2 final.meanDx
  let meanDy ← format np true 2 final.meanDy
  let scaleX ← format np false 4 final.scaleX
  let scaleY ← format np false 4 final.scaleY
  let rmsError ← format np false 2 final.rmsError
  let maxError ← format np false 2 final.maxError
  match final.checks with
  | none => .error (.keyError "checks")
  | some checks =>
      .ok
        ([ s!"Tags             : {final.detectedCount} / {numTags}",
          "Mean X error     : " ++ meanDx ++ " px",
          "Mean Y error     : " ++ meanDy ++ " px",
          "Scale X          : " ++ scaleX,
          "Scale Y          : " ++ scaleY,
          "RMS error        : " ++ rmsError ++ " px",
          "Max error        : " ++ maxError ++ " px",
          "Camera moved     : " ++
            (if cameraMoved = true then "SUSPECTED"
            else "NO (rms below threshold)"),
          "Position         : " ++ passFail checks.position,
          "Scale            : " ++ passFail checks.scale,
          "Crop             : " ++ passFail checks.crop,
          "Distortion       : " ++ passFail checks.distortion] ++
          if final.flags.isEmpty then []
          else ["Flags            : " ++ " ".intercalate final.flags])

/-- The frame that is analysed in the end; no tags at all count as none. -/
def Measurement.final (th : Thresholds) (m : Measurement) :
    Option Analysis :=
  (m.guiStableDets.filter fun dets => !dets.isEmpty).map fun dets =>
    analyze np .gui dets th

/-- The RMS error is above `--camera-moved-rms`. -/
def Analysis.movesCamera (final : Analysis) (cameraMovedRms : Float) : Bool :=
  final.rmsError.any fun rms => cameraMovedRms < rms

/-- The report about the final analysis, or that there is none. -/
def finalReport (final : Option Analysis) (cameraMoved : Bool) :
    Except PyError (List String) :=
  match final with
  | some final => finalLines np final cameraMoved
  | none => .ok ["GUI stable に未到達"]

/-- The end of `main`: one more line, and the exit code. -/
def result (report : List String) (invalid ok : Bool) :
    List String × Nat :=
  if invalid = true then
    (report ++ ["RESULT           : INVALID (CAMERA_MOVED)"], 2)
  else
    (report ++ ["RESULT           : " ++ passFail ok],
      if ok = true then 0 else 1)

/-- `main` from the loop on: the report and the exit code.  The lines about
the tool's own speed are left out. -/
def measureBoot (thresholds : List (String × Number))
    (cameraMovedRms : Float) (captures : List Capture) :
    Except PyError (List String × Nat) :=
  let th := thresholdsFromDict thresholds
  let m := measure np th captures
  let final := m.final np th
  let invalid := final.any (·.movesCamera cameraMovedRms)
  let ok := final.any (·.passed) && (m.timer.stable .gui).isSome
  (finalReport np final invalid).map fun lines =>
    result (reportLines np m.timer ++ lines) invalid ok

end Main

/-! ## Which tags count -/

theorem mem_stageIds {stage : Stage} {tid : Nat} :
    tid ∈ stageIds stage ↔
      stage.base ≤ tid ∧ tid < stage.base + numTags := by
  rw [stageIds, List.mem_range'_1]

/-- The ranges of the stages do not overlap. -/
theorem Stage.eq_of_inside {first second : Stage} {tid : Nat}
    (inFirst : first.base ≤ tid ∧ tid < first.base + numTags)
    (inSecond : second.base ≤ tid ∧ tid < second.base + numTags) :
    first = second := by
  cases first <;> cases second <;>
    simp [Stage.base, numTags, gridCols, gridRows] at * <;> omega

/-- A tag is decoded to the stage whose range it is in. -/
theorem decodeTag_stage {stage : Stage} {tid : Nat} :
    (decodeTag tid).map (·.1) = some stage ↔ tid ∈ stageIds stage := by
  have stageOnly :
      (decodeTag tid).map (·.1) =
        Stage.stages.find? fun stage =>
          stage.base ≤ tid ∧ tid < stage.base + numTags := by
    rw [decodeTag, Option.map_map]
    exact Option.map_id'
  rw [mem_stageIds, stageOnly]
  constructor
  · intro found
    simpa using List.find?_some found
  · intro inside
    have found :
        (Stage.stages.find? fun each =>
          each.base ≤ tid ∧ tid < each.base + numTags).isSome :=
      List.find?_isSome.mpr
        ⟨stage, Stage.mem_stages stage, decide_eq_true inside⟩
    obtain ⟨other, first⟩ := Option.isSome_iff_exists.mp found
    have same : other = stage :=
      Stage.eq_of_inside (by simpa using List.find?_some first) inside
    rw [first, same]

theorem length_detected (capture : Capture) (stage : Stage) :
    (capture.pos.filter (·.tid ∈ stageIds stage)).length =
      capture.counts stage := by
  rw [Capture.pos, Capture.counts, List.filter_filter,
    List.countP_eq_length_filter]
  congr 1
  apply List.filter_congr
  intro det _
  rw [Bool.eq_iff_iff]
  simp only [Bool.and_eq_true, decide_eq_true_eq, ← decodeTag_stage]
  cases decodeTag det.tid with
  | none => simp
  | some decoded => simp

/-- The GUI has more tags in the frame than any other stage. -/
def GuiDominates (counts : Stage → Nat) : Prop :=
  ∀ stage ≠ .gui, counts stage < counts .gui

theorem dominantStage_eq_gui {counts : Stage → Nat} :
    dominantStage counts = some .gui ↔ GuiDominates counts := by
  have all :
      GuiDominates counts ↔
        counts .calibration < counts .gui ∧
          counts .bootloader < counts .gui ∧
            counts .weston < counts .gui := by
    constructor
    · intro dominates
      exact
        ⟨dominates _ (by decide), dominates _ (by decide),
          dominates _ (by decide)⟩
    · rintro ⟨calibration, bootloader, weston⟩ stage other
      cases stage with
      | calibration => exact calibration
      | bootloader => exact bootloader
      | weston => exact weston
      | gui => exact absurd rfl other
  rw [all]
  simp only [dominantStage, Stage.stages, List.foldl_cons, List.foldl_nil]
  split_ifs <;> simp <;> omega

/-! ## The frame that is analysed -/

/-- Frame `k` is one of those that `main` remembers: the GUI dominates, and it
has been stable in some frames up to here. -/
def GuiSettled (captures : List Capture) (k : Nat) : Prop :=
  ∃ capture ∈ captures[k]?, GuiDominates capture.counts ∧
    ∃ i, StableFrom {} .gui ((captures.take (k + 1)).map Capture.frame) i

section Measure

variable {np : Numerics} {th : Thresholds} {captures : List Capture}

theorem measure_concat (captures : List Capture) (capture : Capture) :
    measure np th (captures ++ [capture]) =
      measureFrame np th (measure np th captures) capture := by
  rw [measure, measure, Trace.run_append, Trace.run_cons, Trace.run_nil]

theorem timer_measure (np : Numerics) (th : Thresholds)
    (captures : List Capture) :
    (measure np th captures).timer =
      StageTimer.after {} none (captures.map Capture.frame) := by
  induction captures using List.reverseRecOn with
  | nil => rfl
  | append_singleton captures capture induction =>
      rw [measure_concat, measureFrame, induction, StageTimer.after,
        StageTimer.after, List.map_append, Trace.run_append]
      rfl

/-- The timer has seen a stage stable as soon as its frames were. -/
theorem stable_after_ne_none {config : TimingConfig}
    (positive : 0 < config.stableFrames) {t0 : Option Int} {stage : Stage}
    {frames : List Frame} :
    (StageTimer.after config t0 frames).stable stage ≠ none ↔
      ∃ i, StableFrom config stage frames i := by
  have clocks := clocks_after positive t0 stage frames
  constructor
  · intro set
    by_contra never
    exact set (clocks.unstable (not_exists.mp never))
  · intro starts
    obtain ⟨frame, -, known⟩ := clocks.stable _ (isLeast_csInf starts)
    intro unset
    cases known.symm.trans unset

theorem guiSettled_concat_last (capture : Capture) :
    GuiSettled (captures ++ [capture]) captures.length ↔
      GuiDominates capture.counts ∧
        ∃ i, StableFrom {} .gui
          ((captures ++ [capture]).map Capture.frame) i := by
  rw [GuiSettled, List.take_of_length_le (by simp)]
  simp

theorem guiSettled_concat_of_lt (capture : Capture) {k : Nat}
    (earlier : k < captures.length) :
    GuiSettled (captures ++ [capture]) k ↔ GuiSettled captures k := by
  rw [GuiSettled, GuiSettled, List.getElem?_append_left earlier,
    List.take_append_of_le_length earlier]

theorem lt_of_guiSettled {k : Nat} (settled : GuiSettled captures k) :
    k < captures.length := by
  obtain ⟨capture, member, -⟩ := settled
  exact (List.getElem?_eq_some_iff.mp member).1

/-- The loop remembers the last frame in which the GUI was settled. -/
theorem guiStableDets_measure (np : Numerics) (th : Thresholds)
    (captures : List Capture) :
    (∀ k, IsGreatest {each | GuiSettled captures each} k →
        ∃ capture ∈ captures[k]?,
          (measure np th captures).guiStableDets = some capture.pos) ∧
      ((∀ k, ¬ GuiSettled captures k) →
        (measure np th captures).guiStableDets = none) := by
  induction captures using List.reverseRecOn with
  | nil =>
      refine ⟨?_, fun _ => rfl⟩
      intro k greatest
      exact absurd (lt_of_guiSettled greatest.1) (Nat.not_lt_zero k)
  | append_singleton captures capture induction =>
      have remembered :
          (measure np th (captures ++ [capture])).guiStableDets =
            if dominantStage capture.counts = some .gui ∧
                (measure np th (captures ++ [capture])).timer.stable .gui ≠
                  none then
              some capture.pos
            else (measure np th captures).guiStableDets := by
        rw [measure_concat]
        rfl
      have settles :
          GuiSettled (captures ++ [capture]) captures.length ↔
            dominantStage capture.counts = some .gui ∧
              (measure np th (captures ++ [capture])).timer.stable .gui ≠
                none := by
        rw [guiSettled_concat_last, dominantStage_eq_gui, timer_measure,
          stable_after_ne_none (by decide)]
      by_cases settled :
          GuiSettled (captures ++ [capture]) captures.length
      · -- the new frame is the last one
        rw [remembered, if_pos (settles.mp settled)]
        refine ⟨?_, fun never => absurd settled (never _)⟩
        intro k greatest
        have last : k = captures.length := by
          have bound := lt_of_guiSettled greatest.1
          rw [List.length_append, List.length_singleton] at bound
          exact le_antisymm (Nat.lt_succ_iff.mp bound) (greatest.2 settled)
        refine ⟨capture, ?_, rfl⟩
        rw [last]
        simp
      · rw [remembered, if_neg (mt settles.mpr settled)]
        have same : ∀ k,
            GuiSettled (captures ++ [capture]) k ↔ GuiSettled captures k := by
          intro k
          rcases lt_trichotomy k captures.length with earlier | rfl | later
          · exact guiSettled_concat_of_lt capture earlier
          · refine iff_of_false settled fun other => ?_
            exact absurd (lt_of_guiSettled other) (lt_irrefl _)
          · constructor
            · intro other
              have bound := lt_of_guiSettled other
              rw [List.length_append, List.length_singleton] at bound
              omega
            · intro other
              exact absurd (lt_of_guiSettled other) later.not_gt
        simp only [same]
        refine ⟨?_, induction.2⟩
        intro k greatest
        obtain ⟨found, member, value⟩ := induction.1 k greatest
        refine ⟨found, ?_, value⟩
        rwa [List.getElem?_append_left (lt_of_guiSettled greatest.1)]

end Measure

/-! ## The report -/

section Report

variable (np : Numerics)

/-- With too few tags there is nothing to write, else there is. -/
theorem finalLines_analyze (stage : Stage) (dets : List Det)
    (th : Thresholds) (cameraMoved : Bool) :
    (∃ lines,
        finalLines np (analyze np stage dets th) cameraMoved = .ok lines) ↔
      4 ≤ (dets.filter (·.tid ∈ stageIds stage)).length := by
  by_cases few : (dets.filter (·.tid ∈ stageIds stage)).length < 4
  · refine iff_of_false ?_ (Nat.not_le.mpr few)
    rintro ⟨lines, written⟩
    simp only [analyze, if_pos few] at written
    cases written
  · refine iff_of_true ?_ (Nat.not_lt.mp few)
    simp only [analyze, if_neg few]
    exact ⟨_, rfl⟩

/-- What passed has passed each of its checks. -/
theorem exists_checks_of_passed {stage : Stage} {dets : List Det}
    {th : Thresholds} (passed : (analyze np stage dets th).passed = true) :
    ∃ checks ∈ (analyze np stage dets th).checks, checks.all = true := by
  by_cases few : (dets.filter (·.tid ∈ stageIds stage)).length < 4
  · simp only [analyze, if_pos few] at passed
    cases passed
  · simp only [analyze, if_neg few] at passed ⊢
    exact ⟨_, rfl, passed⟩

/-- What becomes of a measurement. -/
inductive Verdict where
  | pass
  | fail
  | invalid
deriving DecidableEq, Repr

namespace Verdict

def exitCode : Verdict → Nat
  | .pass => 0
  | .fail => 1
  | .invalid => 2

/-- The last line of the report. -/
def line : Verdict → String
  | .pass => "RESULT           : PASS"
  | .fail => "RESULT           : FAIL"
  | .invalid => "RESULT           : INVALID (CAMERA_MOVED)"

end Verdict

/-- The verdict was earned: the GUI became stable, and all checks passed for
the last frame in which it was settled. -/
structure Earned (th : Thresholds) (captures : List Capture) : Prop where
  stable : ∃ i, StableFrom {} .gui (captures.map Capture.frame) i
  checked :
    ∃ k, IsGreatest {each | GuiSettled captures each} k ∧
      ∃ capture ∈ captures[k]?,
        ∃ checks ∈ (analyze np .gui capture.pos th).checks,
          checks.all = true

/-- The measurement ends with a result, and only with a pass that was
earned. -/
def ReachesVerdict (thresholds : List (String × Number))
    (cameraMovedRms : Float) (captures : List Capture) : Prop :=
  ∃ report verdict,
    measureBoot np thresholds cameraMovedRms captures =
        .ok (report ++ [Verdict.line verdict], verdict.exitCode) ∧
      (verdict = .pass → Earned np (thresholdsFromDict thresholds) captures)

/-- The last frame in which the GUI was settled, if there is one, shows at
least four of its tags. -/
def LastSettledShows (captures : List Capture) : Prop :=
  ∀ k, IsGreatest {each | GuiSettled captures each} k →
    ∀ capture ∈ captures[k]?, 4 ≤ capture.counts .gui

variable {np}

/-- The end of `main` is one of the three verdicts. -/
theorem verdict_of_result {report : List String} {invalid ok : Bool}
    {out : List String × Nat} (ended : result report invalid ok = out) :
    ∃ verdict : Verdict,
      out = (report ++ [verdict.line], verdict.exitCode) ∧
        (verdict = .pass → ok = true) := by
  subst ended
  cases invalid with
  | true => exact ⟨.invalid, rfl, by simp⟩
  | false =>
      cases ok with
      | true => exact ⟨.pass, rfl, fun _ => rfl⟩
      | false => exact ⟨.fail, rfl, by simp⟩

/-- If the GUI was ever settled, there is a last frame of this. -/
theorem exists_isGreatest_settled {captures : List Capture}
    (settled : ∃ k, GuiSettled captures k) :
    ∃ k, IsGreatest {each | GuiSettled captures each} k := by
  have bounded : BddAbove {each | GuiSettled captures each} :=
    ⟨captures.length, fun _ member => (lt_of_guiSettled member).le⟩
  exact ⟨_, Nat.sSup_mem settled bounded, fun _ => le_csSup bounded⟩

/-- A frame that the GUI dominates shows some of its tags. -/
theorem isEmpty_pos_of_dominates {capture : Capture}
    (dominates : GuiDominates capture.counts) :
    capture.pos.isEmpty = false := by
  have shown : capture.counts .gui ≠ 0 :=
    Nat.ne_zero_of_lt (dominates .weston (by decide))
  rw [← length_detected] at shown
  rw [List.isEmpty_eq_false_iff]
  intro empty
  rw [empty] at shown
  exact shown rfl

/-- The final analysis is about the last frame in which the GUI was settled. -/
theorem final_measure (th : Thresholds) (captures : List Capture) :
    (∀ k, IsGreatest {each | GuiSettled captures each} k →
        ∃ capture ∈ captures[k]?,
          (measure np th captures).final np th =
            some (analyze np .gui capture.pos th)) ∧
      ((∀ k, ¬ GuiSettled captures k) →
        (measure np th captures).final np th = none) := by
  have remembers := guiStableDets_measure np th captures
  constructor
  · intro k greatest
    obtain ⟨capture, member, value⟩ := remembers.1 k greatest
    obtain ⟨other, found, dominates, -⟩ := greatest.1
    obtain rfl := Option.mem_unique member found
    refine ⟨capture, member, ?_⟩
    rw [Measurement.final, value, Option.filter_some,
      isEmpty_pos_of_dominates dominates]
    rfl
  · intro never
    rw [Measurement.final, remembers.2 never]
    rfl

/-- The report can be written exactly if the frame shows enough tags. -/
theorem finalReport_measure (np : Numerics) (th : Thresholds)
    (captures : List Capture) (cameraMoved : Bool) :
    (∃ lines,
        finalReport np ((measure np th captures).final np th) cameraMoved =
          .ok lines) ↔
      LastSettledShows captures := by
  by_cases settled : ∃ k, GuiSettled captures k
  · obtain ⟨k, greatest⟩ := exists_isGreatest_settled settled
    obtain ⟨capture, member, value⟩ := (final_measure th captures).1 k greatest
    rw [value, finalReport, finalLines_analyze, length_detected]
    constructor
    · intro shown other otherGreatest found foundMember
      obtain rfl := greatest.unique otherGreatest
      rwa [Option.mem_unique foundMember member]
    · intro shows
      exact shows k greatest capture member
  · have never := not_exists.mp settled
    rw [(final_measure th captures).2 never]
    refine iff_of_true ⟨_, rfl⟩ ?_
    intro k greatest
    exact absurd greatest.1 (never k)

/-- A pass is earned. -/
theorem earned_of_ok {th : Thresholds} {captures : List Capture}
    (ok :
      (((measure np th captures).final np th).any (·.passed) &&
        ((measure np th captures).timer.stable .gui).isSome) = true) :
    Earned np th captures := by
  rw [Bool.and_eq_true] at ok
  obtain ⟨passes, stable⟩ := ok
  refine ⟨?_, ?_⟩
  · rw [timer_measure, Option.isSome_iff_ne_none] at stable
    exact (stable_after_ne_none (by decide)).mp stable
  · have settled : ∃ k, GuiSettled captures k := by
      by_contra never
      rw [(final_measure th captures).2 (not_exists.mp never)] at passes
      cases passes
    obtain ⟨k, greatest⟩ := exists_isGreatest_settled settled
    obtain ⟨capture, member, value⟩ := (final_measure th captures).1 k greatest
    rw [value] at passes
    exact ⟨k, greatest, capture, member, exists_checks_of_passed np passes⟩

/-- The report comes before the result. -/
theorem exists_measureBoot_eq (np : Numerics)
    (thresholds : List (String × Number)) (cameraMovedRms : Float)
    (captures : List Capture) :
    let th := thresholdsFromDict thresholds
    let m := measure np th captures
    ∃ invalid,
      measureBoot np thresholds cameraMovedRms captures =
        (finalReport np (m.final np th) invalid).map fun lines =>
          result (reportLines np m.timer ++ lines) invalid
            ((m.final np th).any (·.passed) &&
              (m.timer.stable .gui).isSome) :=
  ⟨_, rfl⟩

/-- The measurement ends if the report can be written. -/
theorem exists_measureBoot_eq_ok (np : Numerics)
    (thresholds : List (String × Number)) (cameraMovedRms : Float)
    (captures : List Capture) :
    (∃ out, measureBoot np thresholds cameraMovedRms captures = .ok out) ↔
      LastSettledShows captures := by
  obtain ⟨invalid, ends⟩ :=
    exists_measureBoot_eq np thresholds cameraMovedRms captures
  rw [ends, ← finalReport_measure np (thresholdsFromDict thresholds) captures
    invalid]
  cases finalReport np _ invalid with
  | error raised =>
      refine iff_of_false ?_ ?_ <;> rintro ⟨out, written⟩ <;> cases written
  | ok lines => exact iff_of_true ⟨_, rfl⟩ ⟨_, rfl⟩

/-- What it ends with. -/
theorem exists_verdict {thresholds : List (String × Number)}
    {cameraMovedRms : Float} {captures : List Capture}
    {out : List String × Nat}
    (reached : measureBoot np thresholds cameraMovedRms captures = .ok out) :
    ReachesVerdict np thresholds cameraMovedRms captures := by
  obtain ⟨invalid, ends⟩ :=
    exists_measureBoot_eq np thresholds cameraMovedRms captures
  have ended := ends.symm.trans reached
  cases written : finalReport np
      ((measure np (thresholdsFromDict thresholds) captures).final np
        (thresholdsFromDict thresholds)) invalid with
  | error raised =>
      rw [written] at ended
      cases ended
  | ok lines =>
      rw [written] at ended
      obtain ⟨verdict, rfl, passes⟩ :=
        verdict_of_result (Except.ok.inj ended)
      exact ⟨_, verdict, reached, fun pass => earned_of_ok (passes pass)⟩

/-- A frame with the first tags of the GUI, all in one place. -/
def guiCapture (tsNs : Int) (tags : Nat) : Capture where
  tsNs
  dets := (List.range' 300 tags).map fun tid => ⟨tid, 0, 0⟩
  distinct := by
    rw [List.map_map]
    exact (List.map_id _).symm ▸ List.nodup_range'

/-- The GUI is stable, and then most of its tags are not detected. -/
def fadedGui : List Capture :=
  [guiCapture 0 54, guiCapture 33 54, guiCapture 66 54, guiCapture 100 1]

theorem isGreatest_fadedGui :
    IsGreatest {each | GuiSettled fadedGui each} 3 := by
  constructor
  · refine ⟨guiCapture 100 1, rfl, ?_, 0, ?_⟩
    · intro stage other
      cases stage with
      | gui => exact absurd rfl other
      | _ => decide +kernel
    · refine (Runs.startsRun_iff (by decide)).mpr ⟨by decide, ?_, by simp⟩
      intro k _ upTo frame member
      have early : k < 3 := upTo
      interval_cases k <;> obtain rfl := Option.some.inj member <;>
        decide +kernel
  · intro k settled
    exact Nat.lt_succ_iff.mp (lt_of_guiSettled settled)

end Report

end KmmYocto.LcdVal
