import Chiptune.Program.Session
import Chiptune.Proofs.File.Names
import Chiptune.Proofs.Gzip.Limit
import Chiptune.Proofs.Playback.Failure
import Chiptune.Proofs.Vgm.Fields

/-!
# Program — Stages

A run of the program is a line of stages, each of which needs what the one before it made: the
contents of the input, the image in them, the song, the samples, the file.  What a stage makes, if
nothing before it failed, is told without the program (`contents?` to `written?`), and so is whether
it passes (`passes`).

* `Options.Makes`: the file that comes of an input, in the terms of the command line alone.
* `Taken`: stages that were taken in order, all of them or up to the first that fails.
* `taken_store`, `taken_render`, `taken_play`, `taken_show`: each part of a session takes its stages
  in order, and a stage that fails leaves the files as they are.
* `runProgram_stages`: so the first stage that fails decides the status, and only a run in which none
  fails writes, once, what the exporter makes of the samples, at the path that the command line gives
  or at that of the input with the extension of the format.

A failure knows its own status, which is not that of a stage by construction.  So each part shows
that whatever can go wrong in a stage has the status of the stage.
-/

namespace Chiptune

/-- The stages of a run of the program. -/
inductive Stage where
  | read
  | decompress
  | header
  | clock
  | render
  | settings
  | write
  deriving DecidableEq

/-- The status of a run that ends with the failure of a stage. -/
def Stage.status : Stage → Nat
  | read => 3
  | decompress => 3
  | header => 3
  | clock => 4
  | render => 5
  | settings => 1
  | write => 6

theorem Stage.status_ne_zero (stage : Stage) : stage.status ≠ 0 := by
  cases stage <;> decide

/-! ### What the stages make -/

namespace Options

variable (o : Options) (tree : FileTree)

/-- The contents of the input. -/
def contents? : Option ByteArray :=
  (tree.read o.input).toOption

/-- The image in the contents. -/
def image? : Option ByteArray :=
  (o.contents? tree).bind fun contents => (Gzip.unwrap contents).toOption

/-- The song in the image, whether or not it declares a clock. -/
def song? : Option Song :=
  (o.image? tree).bind fun image => ((Header.read image).map (Song.mk · image)).toOption

/-- The samples of the song. -/
def rendering? : Option Rendering :=
  (o.song? tree).bind fun song => (song.renderOn o.chip).toOption

/-- What the exporter makes of the samples. -/
def file? : Option ByteArray :=
  (o.rendering? tree).bind fun r => (o.format.encode o.settings r.samples).toOption

/-- The files after the export. -/
def written? : Option FileTree :=
  (o.file? tree).bind fun contents => (tree.write o.outputPath contents).toOption

/-- The stages that the options ask for, in order. -/
def stages : List Stage :=
  if o.info then [.read, .decompress, .header]
  else [.read, .decompress, .header, .clock, .render, .settings, .write]

/-- What the input becomes by the options: the song in it, the samples of the song on a new chip with
the named voices muted, and what the exporter makes of them. -/
structure Makes (song : Song) (r : Rendering) (file : ByteArray) : Prop where
  image : ∃ contents, tree.read o.input = .ok contents ∧ Gzip.unwrap contents = .ok song.image
  header : Header.read song.image = .ok song.header
  clock : song.header.clock ≠ 0
  rendering : song.renderOn (o.mutes.foldl (fun chip voice => chip.setMute voice true)
    Chip.powerOn) = .ok r
  file : o.format.encode ⟨44100, if o.stereo then 2 else 1, o.normalize, o.fadeOut⟩ r.samples =
    .ok file

/-- Whether a stage passes. -/
def passes : Stage → Bool
  | .read => (o.contents? tree).isSome
  | .decompress => (o.image? tree).isSome
  | .header => (o.song? tree).isSome
  | .clock => (o.song? tree).any fun song => song.header.clock ≠ 0
  | .render => (o.rendering? tree).isSome
  | .settings => o.settings.validate.isOk
  | .write => (o.written? tree).isSome

end Options

/-! ### The status of what goes wrong -/

theorem Gzip.exitStatus_of_unwrap {data : ByteArray} {e : Error} (h : unwrap data = .error e) :
    e.exitStatus = 3 := by
  obtain ⟨fault, rfl⟩ := unwrap_error h
  rfl

theorem Header.exitStatus_of_read {data : ByteArray} {e : Error} (h : read data = .error e) :
    e.exitStatus = 3 := by
  obtain ⟨fault, rfl, -⟩ := read_eq_error_cases h
  rfl

theorem AudioSettings.validate_error {c : AudioSettings} {e : Error} (h : c.validate = .error e) :
    ∃ fault, e = .settings fault := by
  unfold validate at h
  split at h
  · exact ⟨_, (Except.error.inj h).symm⟩
  · split at h
    · exact ⟨_, (Except.error.inj h).symm⟩
    · split at h
      · exact ⟨_, (Except.error.inj h).symm⟩
      · cases h

theorem Song.exitStatus_of_renderOn {σ : Type} [SoundDevice σ] {song : Song} {device : σ}
    {e : Error} (h : song.renderOn device = .error e) : e.exitStatus = 5 :=
  (Player.stuck_of_run h).exitStatus

theorem AudioFormat.exitStatus_writeFailure (format : AudioFormat) (path : String)
    (cause : OsError) : (format.writeFailure path cause).exitStatus = 6 := by
  cases format <;> rfl

/-! ### Steps that may fail -/

section

variable {ε α β : Type} {before : Option α} {f : α → Except ε β} {a : α} {b : β}

theorem toOption_eq_some_iff {x : Except ε β} : x.toOption = some b ↔ x = .ok b := by
  cases x <;> simp [Except.toOption]

theorem bind_toOption_eq_some_iff :
    (before.bind fun a => (f a).toOption) = some b ↔ ∃ a, before = some a ∧ f a = .ok b := by
  simp only [Option.bind_eq_some_iff, toOption_eq_some_iff]

theorem bind_toOption_of_ok (hbefore : before = some a) (h : f a = .ok b) :
    (before.bind fun a => (f a).toOption) = some b :=
  bind_toOption_eq_some_iff.mpr ⟨a, hbefore, h⟩

theorem bind_toOption_of_error {e : ε} (hbefore : before = some a) (h : f a = .error e) :
    (before.bind fun a => (f a).toOption) = none := by
  rw [hbefore, Option.bind_some, h]
  rfl

end

/-! ### Stages in order -/

/-- Stages taken in order: all of them pass and the run is done, or the first that does not pass
has failed. -/
inductive Taken (passes : Stage → Bool) (failed : Stage → Prop) (done : Prop) :
    List Stage → Prop where
  | done (h : done) : Taken passes failed done []
  | fail {stage : Stage} {rest : List Stage} (hpass : passes stage = false) (h : failed stage) :
      Taken passes failed done (stage :: rest)
  | pass {stage : Stage} {rest : List Stage} (hpass : passes stage = true)
      (t : Taken passes failed done rest) : Taken passes failed done (stage :: rest)

/-- The first stage that does not pass decides. -/
theorem Taken.first {passes : Stage → Bool} {failed : Stage → Prop} {done : Prop}
    {stages : List Stage} (t : Taken passes failed done stages) :
    (∀ stage, stages.find? (!passes ·) = some stage → failed stage) ∧
      (stages.find? (!passes ·) = none → done) := by
  induction t with
  | done h => exact ⟨nofun, fun _ => h⟩
  | fail hpass h =>
      rw [List.find?_cons_of_pos (by rw [hpass]; rfl)]
      exact ⟨fun stage hstage => Option.some.inj hstage ▸ h, nofun⟩
  | pass hpass _ ih =>
      rw [List.find?_cons_of_neg (by rw [hpass]; nofun)]
      exact ih

/-- The elements in front of the one that is found do not have the property. -/
theorem not_of_mem_takeWhile {p : Stage → Bool} {stages : List Stage} {stage : Stage}
    (h : stages.find? p = some stage) : ∀ s ∈ stages.takeWhile (· ≠ stage), p s = false := by
  induction stages with
  | nil => cases h
  | cons first rest ih =>
      intro s hs
      by_cases hfirst : p first = true
      · rw [List.find?_cons_of_pos hfirst] at h
        cases h
        rw [List.takeWhile_cons_of_neg (by simp)] at hs
        cases hs
      · rw [List.find?_cons_of_neg hfirst] at h
        have hne : first ≠ stage := fun heq => hfirst (heq ▸ List.find?_some h)
        rw [List.takeWhile_cons_of_pos (by simpa using hne)] at hs
        rcases List.mem_cons.mp hs with rfl | hs
        · exact Bool.eq_false_iff.mpr hfirst
        · exact ih h s hs

theorem status_find?_eq_zero_iff {passes : Stage → Bool} {stages : List Stage} :
    (stages.find? (!passes ·)).elim 0 Stage.status = 0 ↔
      ∀ stage ∈ stages, passes stage = true := by
  cases hfind : stages.find? (!passes ·) with
  | none =>
      have hall := List.find?_eq_none.mp hfind
      exact ⟨fun _ stage hmem => by simpa using hall stage hmem, fun _ => rfl⟩
  | some stage =>
      refine ⟨fun hzero => absurd hzero stage.status_ne_zero, fun hall => ?_⟩
      have hpass := hall stage (List.mem_of_find?_eq_some hfind)
      have hnot := List.find?_some hfind
      rw [hpass] at hnot
      cases hnot

namespace Options

variable (o : Options) (tree : FileTree)

theorem song?_eq_some_iff {song : Song} :
    o.song? tree = some song ↔
      (∃ contents, tree.read o.input = .ok contents ∧ Gzip.unwrap contents = .ok song.image) ∧
        Header.read song.image = .ok song.header := by
  rw [song?, bind_toOption_eq_some_iff]
  constructor
  · rintro ⟨image, himage, hsong⟩
    obtain ⟨contents, hcontents, hunwrap⟩ := bind_toOption_eq_some_iff.mp himage
    cases hheader : Header.read image with
    | error e =>
        rw [hheader] at hsong
        cases hsong
    | ok header =>
        rw [hheader] at hsong
        cases hsong
        exact ⟨⟨contents, toOption_eq_some_iff.mp hcontents, hunwrap⟩, hheader⟩
  · rintro ⟨⟨contents, hread, hunwrap⟩, hheader⟩
    have hcontents : o.contents? tree = some contents := toOption_eq_some_iff.mpr hread
    exact ⟨song.image, bind_toOption_of_ok hcontents hunwrap, by rw [hheader]; rfl⟩

/-- The settings are those of the options, at the rate songs are timed in. -/
theorem settings_eq :
    o.settings = ⟨44100, if o.stereo then 2 else 1, o.normalize, o.fadeOut⟩ := by
  unfold settings
  cases o.stereo <;> rfl

section

variable {o tree}

/-- A file that is made is the one that the stages make. -/
theorem Makes.file?_eq {song : Song} {r : Rendering} {file : ByteArray}
    (h : o.Makes tree song r file) : o.file? tree = some file := by
  have hsong : o.song? tree = some song :=
    (o.song?_eq_some_iff tree).mpr ⟨h.image, h.header⟩
  have hrendering : o.rendering? tree = some r := bind_toOption_of_ok hsong h.rendering
  refine bind_toOption_of_ok hrendering ?_
  rw [settings_eq]
  exact h.file

theorem exists_makes {file : ByteArray} (hclock : o.passes tree .clock = true)
    (hfile : o.file? tree = some file) : ∃ song r, o.Makes tree song r file := by
  obtain ⟨r, hrendering, hencode⟩ := bind_toOption_eq_some_iff.mp hfile
  obtain ⟨song, hsong, hrun⟩ := bind_toOption_eq_some_iff.mp hrendering
  obtain ⟨himage, hheader⟩ := (o.song?_eq_some_iff tree).mp hsong
  rw [passes, hsong] at hclock
  rw [settings_eq] at hencode
  exact ⟨song, r, himage, hheader, of_decide_eq_true hclock, hrun, hencode⟩

end

/-- A run that is to write passes all its stages if there is a file to write and it can be written. -/
theorem passes_iff_of_not_info (hinfo : o.info = false) :
    (∀ stage ∈ o.stages, o.passes tree stage = true) ↔
      ∃ song r file written, o.Makes tree song r file ∧
        tree.write o.outputPath file = .ok written := by
  have hstages : o.stages = [.read, .decompress, .header, .clock, .render, .settings, .write] := by
    rw [stages, hinfo]
    rfl
  rw [hstages]
  constructor
  · intro hall
    obtain ⟨written, hwritten⟩ := Option.isSome_iff_exists.mp (hall .write (by decide))
    obtain ⟨file, hfile, hwrite⟩ := bind_toOption_eq_some_iff.mp hwritten
    obtain ⟨song, r, hmakes⟩ := exists_makes (hall .clock (by decide)) hfile
    exact ⟨song, r, file, written, hmakes, hwrite⟩
  · rintro ⟨song, r, file, written, hmakes, hwrite⟩ stage -
    have hsong : o.song? tree = some song :=
      (o.song?_eq_some_iff tree).mpr ⟨hmakes.image, hmakes.header⟩
    obtain ⟨contents, hread, hunwrap⟩ := hmakes.image
    have hcontents : o.contents? tree = some contents := toOption_eq_some_iff.mpr hread
    cases stage with
    | read => exact congrArg Option.isSome hcontents
    | decompress => exact congrArg Option.isSome (bind_toOption_of_ok hcontents hunwrap)
    | header => exact congrArg Option.isSome hsong
    | clock =>
        rw [passes, hsong]
        exact decide_eq_true hmakes.clock
    | render => exact congrArg Option.isSome (bind_toOption_of_ok hsong hmakes.rendering)
    | settings =>
        have hencode := hmakes.file
        rw [← settings_eq, AudioFormat.encode] at hencode
        rw [passes]
        cases hvalid : o.settings.validate with
        | error e =>
            rw [hvalid] at hencode
            cases hencode
        | ok _ => rfl
    | write => exact congrArg Option.isSome (bind_toOption_of_ok hmakes.file?_eq hwrite)

section

variable (hinfo : o.info = true)

include hinfo

theorem stages_of_info : o.stages = [.read, .decompress, .header] := by
  rw [Options.stages, if_pos hinfo]

/-- What is only shown passes all its stages if there is a header to show. -/
theorem passes_iff_of_info :
    (∀ stage ∈ o.stages, o.passes tree stage = true) ↔
      ∃ contents image header, tree.read o.input = .ok contents ∧
        Gzip.unwrap contents = .ok image ∧ Header.read image = .ok header := by
  rw [o.stages_of_info hinfo]
  constructor
  · intro hall
    obtain ⟨song, hsong⟩ := Option.isSome_iff_exists.mp (hall .header (by decide))
    obtain ⟨⟨contents, hread, hunwrap⟩, hheader⟩ := (o.song?_eq_some_iff tree).mp hsong
    exact ⟨contents, song.image, song.header, hread, hunwrap, hheader⟩
  · rintro ⟨contents, image, header, hread, hunwrap, hheader⟩
    have hcontents : o.contents? tree = some contents := toOption_eq_some_iff.mpr hread
    have himage : o.image? tree = some image := bind_toOption_of_ok hcontents hunwrap
    have hsong : o.song? tree = some ⟨header, image⟩ :=
      (o.song?_eq_some_iff tree).mpr ⟨⟨contents, hread, hunwrap⟩, hheader⟩
    simp [passes, hcontents, himage, hsong]

theorem status_of_info {stage : Stage} (h : stage ∈ o.stages) : stage.status = 3 := by
  rw [o.stages_of_info hinfo] at h
  revert h
  cases stage <;> decide

end

/-- The settings are looked at only when there are samples. -/
theorem of_settings_first (h : o.stages.find? (!o.passes tree ·) = some .settings) :
    (∀ stage ∈ [Stage.read, .decompress, .header, .clock, .render],
      o.passes tree stage = true) ∧
      ∃ fault, o.settings.validate = .error (.settings fault) := by
  have hinfo : ¬ o.info = true := fun hinfo =>
    absurd (o.status_of_info hinfo (List.mem_of_find?_eq_some h)) (by decide)
  have hfront : o.stages.takeWhile (· ≠ .settings) =
      [.read, .decompress, .header, .clock, .render] := by
    rw [stages, if_neg hinfo]
    decide
  refine ⟨fun stage hmem => ?_, ?_⟩
  · rw [← hfront] at hmem
    simpa using not_of_mem_takeWhile h stage hmem
  · cases hvalid : o.settings.validate with
    | error e =>
        obtain ⟨fault, rfl⟩ := AudioSettings.validate_error hvalid
        exact ⟨fault, rfl⟩
    | ok _ =>
        have hsettings := List.find?_some h
        rw [passes, hvalid] at hsettings
        cases hsettings

end Options

namespace Session

/-- A run that ended with the failure of a stage. -/
structure FailedAt (tree : FileTree) (result : Outcome × FileTree) (stage : Stage) : Prop where
  status : result.1.status = stage.status
  output : result.1.output = ""
  files : result.2 = tree

/-- A run that wrote the file the options ask for. -/
structure Stored (o : Options) (tree : FileTree) (result : Outcome × FileTree) : Prop where
  status : result.1.status = 0
  files : ∃ file, o.file? tree = some file ∧ tree.write o.outputPath file = .ok result.2

/-- A run that only showed something. -/
structure Shown (tree : FileTree) (result : Outcome × FileTree) : Prop where
  status : result.1.status = 0
  files : result.2 = tree

theorem failedAt_failure {e : Error} {stage : Stage} (h : e.exitStatus = stage.status)
    (o : Options) (tree : FileTree) (notices : List Notice) :
    FailedAt tree (runIn tree (.finish (failure o notices e))) stage :=
  ⟨h, rfl, rfl⟩

variable (o : Options) (tree : FileTree)

theorem taken_store {r : Rendering} (hr : o.rendering? tree = some r) (notices : List Notice) :
    let result := runIn tree (store o notices r)
    Taken (o.passes tree) (FailedAt tree result) (Stored o tree result) [.settings, .write] := by
  unfold store
  -- the exporter looks at the settings before it looks at a sample, and fails at nothing else
  cases hvalid : o.settings.validate with
  | error e =>
      obtain ⟨fault, rfl⟩ := AudioSettings.validate_error hvalid
      have hencode : o.format.encode o.settings r.samples = .error (.settings fault) := by
        rw [AudioFormat.encode, hvalid]
        rfl
      have hpass : o.passes tree .settings = false := by
        rw [Options.passes, hvalid]
        rfl
      rw [hencode]
      exact .fail hpass (failedAt_failure rfl o tree _)
  | ok u =>
      obtain ⟨contents, hencode⟩ : ∃ contents,
          o.format.encode o.settings r.samples = .ok contents := by
        rw [AudioFormat.encode, hvalid]
        exact ⟨_, rfl⟩
      have hfile : o.file? tree = some contents := bind_toOption_of_ok hr hencode
      have hpass : o.passes tree .settings = true := by
        rw [Options.passes, hvalid]
        rfl
      refine .pass hpass ?_
      rw [hencode]
      dsimp only [runIn]
      cases hwrite : tree.write o.outputPath contents with
      | error cause =>
          have hpass : o.passes tree .write = false :=
            congrArg Option.isSome (bind_toOption_of_error hfile hwrite)
          exact .fail hpass ⟨o.format.exitStatus_writeFailure o.outputPath cause, rfl, rfl⟩
      | ok written =>
          have hpass : o.passes tree .write = true :=
            congrArg Option.isSome (bind_toOption_of_ok hfile hwrite)
          exact .pass hpass (.done ⟨rfl, contents, hfile, hwrite⟩)

theorem taken_render {song : Song} (hsong : o.song? tree = some song) (notices : List Notice) :
    let result := runIn tree (render o notices song)
    Taken (o.passes tree) (FailedAt tree result) (Stored o tree result)
      [.render, .settings, .write] := by
  unfold render
  dsimp only
  cases hrun : song.renderOn o.chip with
  | error e =>
      have hpass : o.passes tree .render = false :=
        congrArg Option.isSome (bind_toOption_of_error hsong hrun)
      rw [show (song.player o.chip).run.1 = .error e from hrun]
      exact .fail hpass (failedAt_failure (Song.exitStatus_of_renderOn hrun) o tree _)
  | ok r =>
      have hrendering : o.rendering? tree = some r := bind_toOption_of_ok hsong hrun
      have hpass : o.passes tree .render = true := congrArg Option.isSome hrendering
      rw [show (song.player o.chip).run.1 = .ok r from hrun]
      exact .pass hpass (taken_store o tree hrendering _)

/-- The stages between the contents of the input and the song in it. -/
theorem taken_song {failed : Stage → Prop} {done : Prop} {rest : List Stage} {contents : ByteArray}
    (hread : o.contents? tree = some contents)
    (hunwrap : ∀ e, Gzip.unwrap contents = .error e → failed .decompress)
    (hheader : ∀ image e, Gzip.unwrap contents = .ok image → Header.read image = .error e →
      failed .header)
    (hsong : ∀ image header, Gzip.unwrap contents = .ok image → Header.read image = .ok header →
      o.song? tree = some ⟨header, image⟩ → Taken (o.passes tree) failed done rest) :
    Taken (o.passes tree) failed done (.decompress :: .header :: rest) := by
  cases hu : Gzip.unwrap contents with
  | error e =>
      have hpass : o.passes tree .decompress = false :=
        congrArg Option.isSome (bind_toOption_of_error hread hu)
      exact .fail hpass (hunwrap e hu)
  | ok image =>
      have himage : o.image? tree = some image := bind_toOption_of_ok hread hu
      refine .pass (congrArg Option.isSome himage) ?_
      cases hh : Header.read image with
      | error e =>
          have hpass : o.passes tree .header = false :=
            congrArg Option.isSome (bind_toOption_of_error himage (by rw [hh]; rfl))
          exact .fail hpass (hheader image e hu hh)
      | ok header =>
          have hs : o.song? tree = some ⟨header, image⟩ :=
            bind_toOption_of_ok himage (by rw [hh]; rfl)
          exact .pass (congrArg Option.isSome hs) (hsong image header hu hh hs)

theorem taken_play {contents : ByteArray} (hread : o.contents? tree = some contents) :
    let result := runIn tree (play o contents)
    Taken (o.passes tree) (FailedAt tree result) (Stored o tree result)
      [.decompress, .header, .clock, .render, .settings, .write] := by
  refine taken_song o tree hread (fun e hu => ?_) (fun image e hu hh => ?_)
    fun image header hu hh hsong => ?_
  · unfold play
    rw [hu]
    exact failedAt_failure (Gzip.exitStatus_of_unwrap hu) o tree _
  · unfold play
    rw [hu]
    dsimp only [Except.bind, Song.ofImage, Header.parse]
    rw [hh]
    exact failedAt_failure (Header.exitStatus_of_read hh) o tree _
  · have hclock : o.passes tree .clock = decide (header.clock ≠ 0) := by
      rw [Options.passes, hsong]
      rfl
    -- past the header only its clock can turn the song away
    unfold play
    rw [hu]
    dsimp only [Except.bind, Song.ofImage, Header.parse]
    rw [hh]
    dsimp only [Except.bind, Header.requireClock]
    by_cases hzero : header.clock = 0
    · rw [if_pos hzero]
      exact .fail (hclock.trans (decide_eq_false fun hne => hne hzero))
        (failedAt_failure rfl o tree _)
    · rw [if_neg hzero]
      exact .pass (hclock.trans (decide_eq_true hzero)) (taken_render o tree hsong _)

theorem taken_show {contents : ByteArray} (hread : o.contents? tree = some contents) :
    let result := runIn tree (.finish (info o contents))
    Taken (o.passes tree) (FailedAt tree result) (Shown tree result) [.decompress, .header] := by
  refine taken_song o tree hread (fun e hu => ?_) (fun image e hu hh => ?_)
    fun image header hu hh _ => ?_
  · unfold info
    rw [hu]
    exact failedAt_failure (Gzip.exitStatus_of_unwrap hu) o tree _
  · unfold info
    rw [hu]
    dsimp only [Except.bind]
    rw [hh]
    exact failedAt_failure (Header.exitStatus_of_read hh) o tree _
  · unfold info
    rw [hu]
    dsimp only [Except.bind]
    rw [hh]
    exact .done ⟨rfl, rfl⟩

/-- The whole run. -/
theorem taken_start :
    let result := runIn tree (start o (tree.read o.input))
    Taken (o.passes tree) (FailedAt tree result)
      (if o.info then Shown tree result else Stored o tree result) o.stages := by
  cases hread : tree.read o.input with
  | error cause =>
      have hpass : o.passes tree .read = false := by
        rw [Options.passes, Options.contents?, hread]
        rfl
      have hfailed : FailedAt tree (runIn tree (start o (.error cause))) .read :=
        failedAt_failure rfl o tree []
      unfold Options.stages
      cases o.info with
      | true => exact .fail hpass hfailed
      | false => exact .fail hpass hfailed
  | ok contents =>
      have hcontents : o.contents? tree = some contents := toOption_eq_some_iff.mpr hread
      have hpass : o.passes tree .read = true := congrArg Option.isSome hcontents
      unfold Options.stages start
      cases o.info with
      | true => exact .pass hpass (taken_show o tree hcontents)
      | false => exact .pass hpass (taken_play o tree hcontents)

/-- The status of a run is that of the first stage that does not pass. -/
theorem status_start :
    (runIn tree (start o (tree.read o.input))).1.status =
      (o.stages.find? (!o.passes tree ·)).elim 0 Stage.status := by
  obtain ⟨hfailed, hdone⟩ := (taken_start o tree).first
  cases hfind : o.stages.find? (!o.passes tree ·) with
  | some stage => exact (hfailed stage hfind).status
  | none =>
      have hend := hdone hfind
      split at hend
      · exact hend.status
      · exact hend.status

/-- **The first stage that fails.**  Run the program on any command line it understands, over any
files.  The status is that of the first stage that fails, and 0 if none does; so settings that
cannot be honoured are reported only of a song that was rendered.

Asked for the header alone, the status is 0 if the input can be read and decompressed and its header
is accepted, and 3 otherwise.  Then, and after a failure before the export, the files are as they
were.  Otherwise the status is 0 if a file is made and can be written at the output path: the path
that is given, or else that of the input with the extension of the format.  This path alone is
changed, and holds the file.  A run that fails prints nothing on the output. -/
theorem runProgram_stages {words : List String} {o : Options} (h : Options.parse words = .ok o)
    (tree : FileTree) :
    let run := runProgram tree words
    let passes := o.passes tree
    let settings : AudioSettings := ⟨44100, if o.stereo then 2 else 1, o.normalize, o.fadeOut⟩
    let path := o.output.getD (Path.withExtension o.input o.format.extension)
    run.1.status = (o.stages.find? (!passes ·)).elim 0 Stage.status ∧
    (run.1.status = 0 ↔ ∀ stage ∈ o.stages, passes stage = true) ∧
    (run.1.status = 1 →
      (∀ stage ∈ [Stage.read, .decompress, .header, .clock, .render], passes stage = true) ∧
      ∃ fault, settings.validate = .error (.settings fault)) ∧
    (o.info = true → (run.1.status = 0 ∨ run.1.status = 3) ∧
      (run.1.status = 0 ↔ ∃ contents image header, tree.read o.input = .ok contents ∧
        Gzip.unwrap contents = .ok image ∧ Header.read image = .ok header)) ∧
    (o.info = true ∨ run.1.status ∈ [1, 3, 4, 5] → run.2 = tree) ∧
    (o.info = false →
      (run.1.status = 0 ↔ ∃ song r file written, o.Makes tree song r file ∧
        tree.write path file = .ok written) ∧
      ∀ song r file, o.Makes tree song r file → run.1.status = 0 →
        (∀ place, run.2.node? place =
          if place = .ofPath path then some (.file file) else tree.node? place) ∧
        run.2.read path = .ok file) ∧
    (run.1.status ≠ 0 → run.1.output = "") := by
  intro run passes settings path
  have hrun : run = runIn tree (start o (tree.read o.input)) := by
    show runProgram tree words = _
    rw [runProgram, h]
  obtain ⟨hfailed, hdone⟩ := (taken_start o tree).first
  rw [← hrun] at hfailed hdone
  have hstatus : run.1.status = (o.stages.find? (!passes ·)).elim 0 Stage.status :=
    hrun ▸ status_start o tree
  have hzero : run.1.status = 0 ↔ ∀ stage ∈ o.stages, passes stage = true := by
    rw [hstatus]
    exact status_find?_eq_zero_iff
  have hshown := fun hinfo => hzero.trans (o.passes_iff_of_info tree hinfo)
  have hmade := fun hinfo => hzero.trans (o.passes_iff_of_not_info tree hinfo)
  refine ⟨hstatus, hzero, ?_⟩
  cases hfind : o.stages.find? (!passes ·) with
  | some stage =>
      obtain ⟨hstage, houtput, hfiles⟩ := hfailed stage hfind
      have hne : run.1.status ≠ 0 := hstage ▸ stage.status_ne_zero
      refine ⟨fun hone => ?_, fun hinfo => ⟨?_, hshown hinfo⟩, fun _ => hfiles,
        fun hinfo => ⟨hmade hinfo, fun _ _ _ _ h0 => absurd h0 hne⟩, fun _ => houtput⟩
      · -- the settings are the only stage whose failure has status 1
        have hsettings : stage = .settings := by
          rw [hstage] at hone
          cases stage <;> first | rfl | cases hone
        have hfirst := o.of_settings_first tree (hsettings ▸ hfind)
        rwa [o.settings_eq] at hfirst
      · exact .inr (hstage.trans (o.status_of_info hinfo (List.mem_of_find?_eq_some hfind)))
  | none =>
      have h0 : run.1.status = 0 := by
        rw [hstatus, hfind]
        rfl
      have hend := hdone hfind
      refine ⟨fun hone => ?_, fun hinfo => ⟨.inl h0, hshown hinfo⟩, fun hcase => ?_,
        fun hinfo => ⟨hmade hinfo, fun song r file hmakes _ => ?_⟩, fun hne => absurd h0 hne⟩
      · rw [h0] at hone
        cases hone
      · rcases hcase with hinfo | hmem
        · rw [if_pos hinfo] at hend
          exact hend.files
        · rw [h0] at hmem
          exact absurd hmem (by decide)
      · rw [if_neg (by rw [hinfo]; nofun)] at hend
        obtain ⟨stored, hstored, hwrite⟩ := hend.files
        rw [hmakes.file?_eq] at hstored
        cases hstored
        exact FileTree.write_eq_ok hwrite

/-- A song of two samples, which are the two of a square wave at its shortest and loudest. -/
def shortSong : ByteArray :=
  ⟨#[0x56, 0x67, 0x6D, 0x20, 0, 0, 0, 0, 0, 0, 0, 0, 0x40, 0xC4, 0x0A, 0,
    0, 0, 0, 0, 0, 0, 0, 0, 2, 0, 0, 0, 0, 0, 0, 0,
    0, 0, 0, 0, 0, 0, 0, 0, 0, 0, 0, 0, 0, 0, 0, 0,
    0, 0, 0, 0, 0, 0, 0, 0, 0, 0, 0, 0, 0, 0, 0, 0,
    0x50, 0x90, 0x71, 0x66]⟩

theorem renderOn_shortSong : ∃ r,
    Song.renderOn ⟨Header.fields shortSong, shortSong⟩ Chip.powerOn = .ok r ∧
      r.samples = #[8191, 0] := by
  have hrendered : (Song.renderOn ⟨Header.fields shortSong, shortSong⟩
      Chip.powerOn).toOption.map Rendering.samples = some #[8191, 0] := by decide +kernel
  obtain ⟨r, hr, hsamples⟩ := Option.map_eq_some_iff.mp hrendered
  exact ⟨r, toOption_eq_some_iff.mp hr, hsamples⟩

/-- The song is played four times.  With a fade that cannot be, and itself to be written over, it is
rendered and left as it is.  With another output it is written there, and with none beside itself,
under the extension of the format. -/
theorem runProgram_stages_short_song :
    let tree : FileTree := ⟨[(⟨.above 0, ["a.vgm"]⟩, .file shortSong)]⟩
    let refused := runProgram tree ["a.vgm", "--fade-out=-1", "-o", "a.vgm"]
    let named := runProgram tree ["a.vgm", "-f", "raw", "-o", "b"]
    let raw := runProgram tree ["a.vgm", "-f", "raw"]
    let wav := runProgram tree ["a.vgm", "--stereo"]
    (refused.1.status = 1 ∧ refused.2 = tree ∧ refused.1.output = "") ∧
    (named.1.status = 0 ∧ named.2.read "b" = .ok ⟨#[0xFF, 0x1F, 0, 0]⟩ ∧
      named.2.read "a.vgm" = .ok shortSong) ∧
    (raw.1.status = 0 ∧ raw.2.read "a.bin" = .ok ⟨#[0xFF, 0x1F, 0, 0]⟩ ∧
      raw.2.read "a.vgm" = .ok shortSong) ∧
    (wav.1.status = 0 ∧
      wav.2.read "a.wav" =
        .ok (wavHeader 44100 2 8 ++ [0xFF, 0x1F, 0xFF, 0x1F, 0, 0, 0, 0]).toByteArray ∧
      wav.2.read "a.vgm" = .ok shortSong) := by
  intro tree refused named raw wav
  have hname : IsName "a.vgm" := by decide
  have hread : tree.read "a.vgm" = .ok shortSong := FileTree.read_of_isName hname rfl
  have hclock : (Header.fields shortSong).clock ≠ 0 := by decide
  obtain ⟨r, hrun, hsamples⟩ := renderOn_shortSong
  -- a run that makes a file writes it at its output path, and leaves the song alone
  have hwrites : ∀ {words : List String} {o : Options} {name : String} {file : ByteArray},
      Options.parse words = .ok o → o.info = false → o.input = "a.vgm" → o.mutes = [] →
      o.output.getD (Path.withExtension o.input o.format.extension) = name → IsName name →
      name ≠ "a.vgm" →
      o.format.encode ⟨44100, if o.stereo then 2 else 1, o.normalize, o.fadeOut⟩ #[8191, 0] =
        .ok file →
      (runProgram tree words).1.status = 0 ∧ (runProgram tree words).2.read name = .ok file ∧
        (runProgram tree words).2.read "a.vgm" = .ok shortSong := by
    intro words o name file hparse hinfo hinput hmutes hpath hisName hother hencode
    have hmakes : o.Makes tree ⟨Header.fields shortSong, shortSong⟩ r file :=
      ⟨⟨shortSong, hinput ▸ hread, rfl⟩, rfl, hclock, by rw [hmutes]; exact hrun,
        hsamples ▸ hencode⟩
    have hfree : tree.node? ⟨.above 0, [name]⟩ ≠ some .directory := by
      simp [tree, FileTree.node?, Place.holds, hother, hother.symm]
    obtain ⟨-, -, -, -, -, hmade, -⟩ := runProgram_stages hparse tree
    obtain ⟨hstatus, heffect⟩ := hmade hinfo
    rw [hpath] at hstatus heffect
    have hzero := hstatus.mpr
      ⟨_, r, file, _, hmakes, FileTree.write_of_isName hisName hfree file⟩
    obtain ⟨hplaces, hfile⟩ := heffect _ r file hmakes hzero
    refine ⟨hzero, hfile, FileTree.read_of_isName hname ?_⟩
    rw [hplaces, Place.ofPath_of_isName hisName, if_neg (by simpa using hother.symm)]
    rfl
  have hbeside (extension : String) :
      Path.withExtension "a.vgm" extension = .ofList ('a' :: '.' :: extension.toList) :=
    @Path.withExtension_of_stem [] ['a'] (.inl rfl) (by decide) (by decide) (by decide)
      ['v', 'g', 'm'] (by decide) (by decide) extension
  refine ⟨?_, ?_, ?_, ?_⟩
  · obtain ⟨o, hparse, hinput, hmutes, hinfo, hinvalid⟩ :
        ∃ o, Options.parse ["a.vgm", "--fade-out=-1", "-o", "a.vgm"] = .ok o ∧
          o.input = "a.vgm" ∧ o.mutes = [] ∧ o.info = false ∧ o.settings.validate.isOk = false :=
      ⟨_, rfl, rfl, rfl, rfl, rfl⟩
    have hcontents : o.contents? tree = some shortSong :=
      toOption_eq_some_iff.mpr (hinput.symm ▸ hread)
    have himage : o.image? tree = some shortSong := bind_toOption_of_ok hcontents rfl
    have hsong : o.song? tree = some ⟨Header.fields shortSong, shortSong⟩ :=
      bind_toOption_of_ok himage rfl
    have hrendering : o.rendering? tree = some r :=
      bind_toOption_of_ok hsong (by rw [Options.chip, hmutes]; exact hrun)
    have hfirst : o.stages.find? (!o.passes tree ·) = some .settings := by
      simp [Options.stages, hinfo, Options.passes, hcontents, himage, hsong, hclock, hrendering,
        hinvalid]
    obtain ⟨hstatus, -, -, -, hfiles, -, houtput⟩ := runProgram_stages hparse tree
    have hone : refused.1.status = 1 := by
      refine hstatus.trans ?_
      rw [hfirst]
      rfl
    exact ⟨hone, hfiles (.inr (by rw [hone]; decide)), houtput (by rw [hone]; decide)⟩
  · have hparse : Options.parse ["a.vgm", "-f", "raw", "-o", "b"] =
        .ok ⟨"a.vgm", some "b", .raw, false, false, .zero false, [], false, 0⟩ := rfl
    exact hwrites hparse rfl rfl rfl rfl (by decide) (by decide) rfl
  · have hparse : Options.parse ["a.vgm", "-f", "raw"] =
        .ok ⟨"a.vgm", none, .raw, false, false, .zero false, [], false, 0⟩ := rfl
    have hdefault : Path.withExtension "a.vgm" "bin" = "a.bin" := hbeside "bin"
    exact hwrites hparse rfl rfl rfl hdefault (by decide) (by decide) rfl
  · have hparse : Options.parse ["a.vgm", "--stereo"] =
        .ok ⟨"a.vgm", none, .wav, true, false, .zero false, [], false, 0⟩ := rfl
    have hdefault : Path.withExtension "a.vgm" "wav" = "a.wav" := hbeside "wav"
    exact hwrites hparse rfl rfl rfl hdefault (by decide) (by decide) rfl

end Session

end Chiptune
