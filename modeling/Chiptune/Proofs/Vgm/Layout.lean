import Chiptune.Proofs.Bytes.Positions
import Chiptune.Vgm.Song

/-!
# VGM — Layout

What a file must hold to be a song.  An image is played exactly when it is long enough, begins with
the magic, has its commands inside and declares a clock (`parse_eq_ok_iff`); a file is a song when
the image in it is (`ofBytes_eq_ok_iff`).

`Header.Declares image clock total start` says by its bytes that an image without a container
declares a clock, a length and the position of its commands.  Such an image is a song as soon as
there is a command (`ofBytes_of_declares`).
-/

namespace Chiptune

namespace Header

/-- The header that is read when the image is long enough and has the magic and its commands. -/
theorem read_eq_ok_iff {image : ByteArray} {header : Header} :
    read image = .ok header ↔
      headerSize ≤ image.size ∧ hasBytesAt image 0 imageMagic = true ∧
        header.dataOffset < image.size ∧ fields image = header := by
  unfold read
  split
  case isTrue hsmall => simp [Nat.not_le.mpr hsmall]
  case isFalse hsmall =>
    have hsize := Nat.not_lt.mp hsmall
    split
    case isFalse hmagic => simp [hmagic]
    case isTrue hmagic =>
      dsimp only
      split
      case isTrue hstart =>
        constructor
        · rintro ⟨⟩
          exact ⟨hsize, hmagic, hstart, rfl⟩
        · rintro ⟨-, -, -, rfl⟩
          rfl
      case isFalse hstart =>
        constructor
        · rintro ⟨⟩
        · rintro ⟨-, -, h, rfl⟩
          exact absurd h hstart

/-- An image is good for playing when its header is read and declares a clock. -/
theorem parse_eq_ok_iff {image : ByteArray} {header : Header} :
    parse image = .ok header ↔ read image = .ok header ∧ header.clock ≠ 0 := by
  unfold parse
  cases read image with
  | error e => simp [Except.bind]
  | ok found =>
      show requireClock found = .ok header ↔ _
      unfold requireClock
      split
      case isTrue hclock =>
        constructor
        · rintro ⟨⟩
        · rintro ⟨⟨⟩, h⟩
          exact absurd hclock h
      case isFalse hclock =>
        constructor
        · rintro ⟨⟩
          exact ⟨rfl, hclock⟩
        · rintro ⟨⟨⟩, -⟩
          rfl

/-- What the bytes of an image without a container declare: a clock beside two flags, a length, and
where the commands start. -/
structure Declares (image : ByteArray) (clock total start : Nat) : Prop where
  size : headerSize ≤ image.size
  magic : hasBytesAt image 0 imageMagic = true
  clock : clock < 0x40000000 ∧ ∃ flags < 4,
    hasBytesAt image 0x0C (leBytes 4 (clock + 0x40000000 * flags)) = true
  total : total < 0x100000000 ∧ hasBytesAt image 0x18 (leBytes 4 total) = true
  start : ∃ distance < 0x100000000, hasBytesAt image 0x34 (leBytes 4 distance) = true ∧
    start = if distance = 0 then 0x40 else 0x34 + distance

namespace Declares

variable {image : ByteArray} {clock total start : Nat}

theorem clock_fields (h : Declares image clock total start) : (fields image).clock = clock := by
  obtain ⟨hclock, flags, hflags, hbytes⟩ := h.clock
  have hword : leWord image 0x0C 4 = clock + 0x40000000 * flags :=
    leWord_of_leBytes (by show _ < 0x100000000; omega) hbytes
  have hmask : Nat.pow 2 30 = 0x40000000 := by decide
  show maskClock (leWord image 0x0C 4) = clock
  rw [hword, maskClock, hmask, Nat.add_mul_mod_self_left, Nat.mod_eq_of_lt hclock]

theorem totalSamples_fields (h : Declares image clock total start) :
    (fields image).totalSamples = total :=
  leWord_of_leBytes h.total.1 h.total.2

theorem dataOffset_fields (h : Declares image clock total start) :
    (fields image).dataOffset = start := by
  obtain ⟨distance, hdistance, hbytes, rfl⟩ := h.start
  have hword : leWord image 0x34 4 = distance := leWord_of_leBytes hdistance hbytes
  simp only [fields, hword, resolve]
  split <;> rfl

/-- There is no container around an image. -/
theorem not_isGzip (h : Declares image clock total start) : Gzip.isGzip image = false := by
  obtain ⟨hfirst, -⟩ := Bool.and_eq_true_iff.mp h.magic
  have hbyte : image[0]? = some 0x56 := eq_of_beq hfirst
  rw [Gzip.isGzip, Gzip.magic, hasBytesAt, hbyte]
  rfl

end Declares

end Header

namespace Song

/-- An image is a song when its header is good for playing. -/
theorem ofImage_eq_ok_iff {image : ByteArray} {song : Song} :
    ofImage image = .ok song ↔ image = song.image ∧ Header.parse image = .ok song.header := by
  unfold ofImage
  obtain ⟨header, held⟩ := song
  cases Header.parse image with
  | error e => simp [Except.map]
  | ok found => simp [Except.map, and_comm]

/-- What is a song: the image in a file, if it is good for playing. -/
theorem ofBytes_eq_ok_iff {contents : ByteArray} {song : Song} :
    ofBytes contents = .ok song ↔
      Gzip.unwrap contents = .ok song.image ∧ Header.parse song.image = .ok song.header := by
  unfold ofBytes
  cases Gzip.unwrap contents with
  | error e => simp [Except.bind]
  | ok image =>
      show ofImage image = .ok song ↔ _
      rw [ofImage_eq_ok_iff, Except.ok.injEq]
      refine and_congr_right ?_
      rintro rfl
      exact Iff.rfl

/-- The header of a song is the one in its image. -/
theorem header_eq_fields {contents : ByteArray} {song : Song} (h : ofBytes contents = .ok song) :
    song.header = Header.fields song.image := by
  obtain ⟨-, hparse⟩ := ofBytes_eq_ok_iff.mp h
  obtain ⟨hread, -⟩ := Header.parse_eq_ok_iff.mp hparse
  obtain ⟨-, -, -, hfields⟩ := Header.read_eq_ok_iff.mp hread
  exact hfields.symm

/-- The commands of a song begin inside its image. -/
theorem dataOffset_lt {contents : ByteArray} {song : Song} (h : ofBytes contents = .ok song) :
    song.header.dataOffset < song.image.size := by
  obtain ⟨-, hparse⟩ := ofBytes_eq_ok_iff.mp h
  obtain ⟨hread, -⟩ := Header.parse_eq_ok_iff.mp hparse
  obtain ⟨-, -, hstart, -⟩ := Header.read_eq_ok_iff.mp hread
  exact hstart

/-- An image that declares a clock and has a command is a song. -/
theorem ofBytes_of_declares {image : ByteArray} {clock total start : Nat}
    (h : Header.Declares image clock total start) (hclock : clock ≠ 0)
    (hstart : start < image.size) :
    ofBytes image = .ok ⟨Header.fields image, image⟩ := by
  refine ofBytes_eq_ok_iff.mpr ⟨?_, Header.parse_eq_ok_iff.mpr ⟨?_, ?_⟩⟩
  · rw [Gzip.unwrap, h.not_isGzip]
    rfl
  · exact Header.read_eq_ok_iff.mpr ⟨h.size, h.magic, by rwa [h.dataOffset_fields], rfl⟩
  · rwa [h.clock_fields]

end Song

end Chiptune
