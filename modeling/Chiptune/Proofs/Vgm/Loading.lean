import Chiptune.Program.Session
import Chiptune.Proofs.Gzip.Limit
import Chiptune.Proofs.Vgm.Fields

/-!
# VGM — Loading

A file is loaded to be played (`Song.load`) or only for its header to be shown (`Header.load`), given
what reading it gave.  Both see through a container first; by `Session.start_eq` a session does
nothing else before it renders or prints.

* `load_cases`: whatever stops one of them stops the other, but for a header without a clock.
* `load_of_holds`: of a container with a whole member, the bytes of the member are what is looked
  at; they are not taken for a container again (`read_of_isGzip`).
* `load_agree`: so the two agree, and a container makes no difference to either.
-/

namespace Chiptune

/-- The contents of a file, given what reading it gave. -/
def contentsOf (path : String) (input : Except OsError ByteArray) : Except Error ByteArray :=
  input.mapError fun cause => .invalidImage (.unreadable path cause)

/-- Load a file to play it, given what reading it gave. -/
def Song.load (path : String) (input : Except OsError ByteArray) : Except Error Song :=
  (contentsOf path input).bind Song.ofBytes

/-- Load the header of a file, given what reading it gave. -/
def Header.load (path : String) (input : Except OsError ByteArray) : Except Error Header :=
  (contentsOf path input).bind Header.ofBytes

/-- **What a session does first.**  It loads the file to play it, or only its header, and ends if that
fails. -/
theorem Session.start_eq (o : Options) (input : Except OsError ByteArray) :
    ∃ notices, start o input =
      if o.info then
        .finish
          (match Header.load o.input input with
          | .error e => failure o notices e
          | .ok header => success o notices (header.toJson.pretty ++ "\n"))
      else
        match Song.load o.input input with
        | .error e => .finish (failure o notices e)
        | .ok song => render o notices song := by
  cases input with
  | error cause =>
      refine ⟨[], ?_⟩
      split <;> rfl
  | ok contents =>
      by_cases hinfo : o.info = true
      · refine ⟨imageNotices contents (Gzip.unwrap contents), ?_⟩
        rw [start, if_pos hinfo, if_pos hinfo]
        rfl
      · have hstart : start o (.ok contents) = play o contents := if_neg hinfo
        rw [hstart]
        simp only [if_neg hinfo]
        unfold play
        dsimp only
        cases hsong : Song.load o.input (.ok contents) with
        | error e =>
            have hbind : (Gzip.unwrap contents).bind Song.ofImage = .error e := hsong
            rw [hbind]
            exact ⟨_, rfl⟩
        | ok song =>
            have hbind : (Gzip.unwrap contents).bind Song.ofImage = .ok song := hsong
            rw [hbind]
            exact ⟨_, rfl⟩

/-! ### One file, loaded twice -/

/-- Both see through a container first. -/
theorem load_ok (path : String) (contents : ByteArray) :
    Song.load path (.ok contents) = (Gzip.unwrap contents).bind Song.ofImage ∧
      Header.load path (.ok contents) = (Gzip.unwrap contents).bind Header.read :=
  ⟨rfl, rfl⟩

theorem load_of_unwrap {contents image : ByteArray} (h : Gzip.unwrap contents = .ok image)
    (path : String) :
    Song.load path (.ok contents) = Song.ofImage image ∧
      Header.load path (.ok contents) = Header.read image := by
  obtain ⟨hsong, hheader⟩ := load_ok path contents
  rw [hsong, hheader, h]
  exact ⟨rfl, rfl⟩

theorem Song.ofImage_of_read {image : ByteArray} {header : Header}
    (h : Header.read image = .ok header) :
    ofImage image = if header.clock = 0 then .error .missingClock else .ok ⟨header, image⟩ := by
  rw [ofImage, Header.parse_of_read h]
  split <;> rfl

theorem Song.ofImage_of_error {image : ByteArray} {e : Error} (h : Header.read image = .error e) :
    ofImage image = .error e := by
  rw [ofImage, Header.parse_of_error h]
  rfl

/-- What the two make of a file: the same failure, or a header that says whether it can be played. -/
theorem load_cases (path : String) (input : Except OsError ByteArray) :
    (∃ e, e ≠ .missingClock ∧ Song.load path input = .error e ∧ Header.load path input = .error e) ∨
    ∃ header image, Header.load path input = .ok header ∧
      Song.load path input =
        if header.clock = 0 then .error .missingClock else .ok ⟨header, image⟩ := by
  cases input with
  | error cause => exact .inl ⟨.invalidImage (.unreadable path cause), nofun, rfl, rfl⟩
  | ok contents =>
      obtain ⟨hsong, hheader⟩ := load_ok path contents
      rw [hsong, hheader]
      cases hunwrap : Gzip.unwrap contents with
      | error e =>
          obtain ⟨fault, rfl⟩ := Gzip.unwrap_error hunwrap
          exact .inl ⟨.decompression fault, nofun, rfl, rfl⟩
      | ok image =>
          show (∃ e, _ ∧ Song.ofImage image = _ ∧ Header.read image = _) ∨
            ∃ header image', Header.read image = _ ∧ Song.ofImage image = _
          cases hread : Header.read image with
          | error e =>
              obtain ⟨fault, rfl, -⟩ := Header.read_eq_error_cases hread
              exact .inl ⟨.invalidImage fault, nofun, Song.ofImage_of_error hread, rfl⟩
          | ok header => exact .inr ⟨header, image, rfl, Song.ofImage_of_read hread⟩

/-- Bytes that begin like a container are no image. -/
theorem read_of_isGzip {image : ByteArray} (h : Gzip.isGzip image = true) :
    ∃ fault, Header.read image = .error (.invalidImage fault) := by
  cases hread : Header.read image with
  | error e =>
      obtain ⟨fault, rfl, -⟩ := Header.read_eq_error_cases hread
      exact ⟨fault, rfl⟩
  | ok header =>
      obtain ⟨⟨_, hfirst⟩, -⟩ := hasBytesAt_cons_iff.mp h
      obtain ⟨-, hmagic, -⟩ := Header.read_eq_ok_iff.mp hread
      obtain ⟨⟨_, hfirst'⟩, -⟩ := hasBytesAt_cons_iff.mp hmagic
      exact absurd (hfirst.symm.trans hfirst') (by decide)

/-- A file is refused for the same reasons, to be played or to be shown, but for the want of a
clock. -/
theorem load_eq_error_iff (path : String) (input : Except OsError ByteArray) {e : Error}
    (h : e ≠ .missingClock) : Song.load path input = .error e ↔ Header.load path input = .error e := by
  rcases load_cases path input with ⟨e', -, hsong, hheader⟩ | ⟨header, image, hheader, hsong⟩
  · rw [hsong, hheader]
    exact ⟨fun heq => congrArg _ (Except.error.inj heq), fun heq => congrArg _ (Except.error.inj heq)⟩
  · rw [hsong, hheader]
    refine ⟨fun heq => ?_, nofun⟩
    split at heq
    · exact absurd (Except.error.inj heq).symm h
    · cases heq

/-- What is played has the header that is shown, and can be played if that declares a clock. -/
theorem load_eq_ok_iff (path : String) (input : Except OsError ByteArray) (header : Header) :
    (∃ image, Song.load path input = .ok ⟨header, image⟩) ↔
      Header.load path input = .ok header ∧ header.clock ≠ 0 := by
  rcases load_cases path input with ⟨e, -, hsong, hheader⟩ | ⟨header', image', hheader, hsong⟩
  · rw [hsong, hheader]
    exact ⟨fun ⟨_, heq⟩ => (nomatch heq), fun ⟨heq, _⟩ => (nomatch heq)⟩
  · rw [hsong, hheader]
    constructor
    · rintro ⟨image, heq⟩
      split at heq
      case isTrue => cases heq
      case isFalse hclock =>
        cases heq
        exact ⟨rfl, hclock⟩
    · rintro ⟨heq, hclock⟩
      cases heq
      exact ⟨image', if_neg hclock⟩

theorem load_eq_missingClock_iff (path : String) (input : Except OsError ByteArray) :
    Song.load path input = .error .missingClock ↔
      ∃ header, Header.load path input = .ok header ∧ header.clock = 0 := by
  rcases load_cases path input with ⟨e, hne, hsong, hheader⟩ | ⟨header', image', hheader, hsong⟩
  · rw [hsong, hheader]
    exact ⟨fun heq => absurd (Except.error.inj heq) hne, fun ⟨_, heq, _⟩ => (nomatch heq)⟩
  · rw [hsong, hheader]
    constructor
    · intro heq
      split at heq
      case isTrue hclock => exact ⟨header', rfl, hclock⟩
      case isFalse => cases heq
    · rintro ⟨header, heq, hclock⟩
      cases heq
      exact if_pos hclock

theorem Header.load_ne_missingClock (path : String) (input : Except OsError ByteArray) :
    load path input ≠ .error .missingClock := by
  rcases load_cases path input with ⟨e, hne, -, hheader⟩ | ⟨header, image, hheader, -⟩
  · rw [hheader]
    exact fun heq => hne (Except.error.inj heq)
  · rw [hheader]
    nofun

/-- A container is loaded as what is in it. -/
theorem load_of_holds {contents image : ByteArray} (h : Gzip.Holds contents image)
    (hsize : image.size ≤ Gzip.maxSize) (path : String) :
    Song.load path (.ok contents) = Song.ofImage image ∧
      Header.load path (.ok contents) = Header.read image :=
  load_of_unwrap (Gzip.unwrap_of_holds h hsize) path

/-- **Loading and looking.**  A file can be played exactly if its header can be shown and declares a
clock, and then it is played by that header.  It is refused for the want of a clock exactly if its
header can be shown and declares none; that is never why a header is not shown.  For every other
reason, a file is refused to be played exactly if its header is refused to be shown.

A container whose member is whole and not too large makes no difference: it is loaded as what is in
it.  That is as good as the file without a container, unless what is in it begins like a container
again; then it is no image, and is not looked into any further. -/
theorem load_agree (path : String) (input : Except OsError ByteArray) :
    let loaded := Song.load path input
    let shown := Header.load path input
    ((∃ song, loaded = .ok song) ↔ ∃ header, shown = .ok header ∧ header.clock ≠ 0) ∧
    (∀ song, loaded = .ok song → shown = .ok song.header) ∧
    (loaded = .error .missingClock ↔ ∃ header, shown = .ok header ∧ header.clock = 0) ∧
    shown ≠ .error .missingClock ∧
    (∀ e, e ≠ .missingClock → (loaded = .error e ↔ shown = .error e)) ∧
    ∀ contents image, input = .ok contents → Gzip.Holds contents image →
      image.size ≤ 64 * 1024 * 1024 →
      loaded = (Header.parse image).map (fun header => ⟨header, image⟩) ∧
      shown = Header.read image ∧
      (Gzip.isGzip image = false → ∀ path',
        loaded = Song.load path' (.ok image) ∧ shown = Header.load path' (.ok image)) ∧
      (Gzip.isGzip image = true → ∃ fault,
        loaded = .error (.invalidImage fault) ∧ shown = .error (.invalidImage fault)) := by
  intro loaded shown
  refine ⟨⟨?_, ?_⟩, ?_, load_eq_missingClock_iff path input, Header.load_ne_missingClock path input,
    fun e he => load_eq_error_iff path input he, ?_⟩
  · rintro ⟨song, hsong⟩
    exact ⟨song.header, (load_eq_ok_iff path input song.header).mp ⟨song.image, hsong⟩⟩
  · rintro ⟨header, hheader⟩
    obtain ⟨image, hsong⟩ := (load_eq_ok_iff path input header).mpr hheader
    exact ⟨⟨header, image⟩, hsong⟩
  · intro song hsong
    exact ((load_eq_ok_iff path input song.header).mp ⟨song.image, hsong⟩).1
  · rintro contents image rfl hholds hsize
    obtain ⟨hsong, hheader⟩ := load_of_holds hholds hsize path
    refine ⟨hsong, hheader, fun hplain path' => ?_, fun hgzip => ?_⟩
    · have hunwrap : Gzip.unwrap image = .ok image := by
        rw [Gzip.unwrap, hplain]
        rfl
      obtain ⟨hsong', hheader'⟩ := load_of_unwrap hunwrap path'
      exact ⟨hsong.trans hsong'.symm, hheader.trans hheader'.symm⟩
    · obtain ⟨fault, hread⟩ := read_of_isGzip hgzip
      exact ⟨fault, hsong.trans (Song.ofImage_of_error hread), hheader.trans hread⟩

/-- A container in a container: the inner one is no image. -/
theorem load_agree_nested :
    let inner : ByteArray := ⟨#[0x1F, 0x8B]⟩
    let outer : ByteArray := ⟨#[
      0x1F, 0x8B, 0x08, 0x00, 0x00, 0x00, 0x00, 0x00, 0x00, 0x03, 0x01, 0x02, 0x00, 0xFD, 0xFF,
      0x1F, 0x8B, 0xC9, 0x46, 0xE9, 0xF6, 0x02, 0x00, 0x00, 0x00]⟩
    Gzip.Holds outer inner ∧
      ∃ fault, Song.load "nested.vgz" (.ok outer) = .error (.invalidImage fault) ∧
        Header.load "nested.vgz" (.ok outer) = .error (.invalidImage fault) := by
  intro inner outer
  have hholds : Gzip.Holds outer inner :=
    { isGzip := by decide +kernel
      whole := by decide +kernel
      bytes := by decide +kernel }
  obtain ⟨-, -, -, -, -, hcontainer⟩ := load_agree "nested.vgz" (.ok outer)
  obtain ⟨-, -, -, hnested⟩ := hcontainer outer inner rfl hholds (by decide)
  exact ⟨hholds, hnested (by decide)⟩

end Chiptune
