import Chiptune.Proofs.Bytes.Patches
import Chiptune.Proofs.Vgm.Layout

/-!
# VGM — Fields

The header holds twelve numbers (`StoredHeader`), each at a position of its own and lowest byte
first.  What they mean is another matter (`StoredHeader.header`): a zero offset is no offset, and two
bits of the clock are flags.

There are two ways to come by the numbers.  Each can be looked up at its position
(`StoredHeader.ofImage`), which is how `Header.read` has it; or the header is read from its start,
field after field, and what is of no interest is skipped (`storedHeader`, `Header.readInOrder`).  In the
second way the positions are nowhere to be seen, and every field can fail.

* `readInOrder_eq_read`: both ways give the same header or the same failure, and no field fails.
* `ofImage_writeTo`: numbers written into an image are found in it.
* `read_layout`: which images have a header, what it holds, and what it depends on.
-/

namespace Chiptune

/-- The numbers of a header as they are stored. -/
structure StoredHeader where
  /-- The end of the file, counted from the position of this field. -/
  fileEnd : Nat
  version : Nat
  /-- The clock, beside its two flags. -/
  clock : Nat
  gd3Offset : Nat
  totalSamples : Nat
  loopOffset : Nat
  loopSamples : Nat
  rate : Nat
  feedback : Nat
  shiftWidth : Nat
  flags : Nat
  dataOffset : Nat
  deriving DecidableEq

namespace StoredHeader

/-- The numbers at their positions. -/
def ofImage (image : ByteArray) : StoredHeader where
  fileEnd := leWord image 0x04 4
  version := leWord image 0x08 4
  clock := leWord image 0x0C 4
  gd3Offset := leWord image 0x14 4
  totalSamples := leWord image 0x18 4
  loopOffset := leWord image 0x1C 4
  loopSamples := leWord image 0x20 4
  rate := leWord image 0x24 4
  feedback := leWord image 0x28 2
  shiftWidth := leWord image 0x2A 1
  flags := leWord image 0x2B 1
  dataOffset := leWord image 0x34 4

/-- The header that the numbers mean. -/
def header (s : StoredHeader) : Header where
  version := s.version
  fileLength := s.fileEnd + 0x04
  clock := Header.maskClock s.clock
  dualChip := s.clock.testBit 30
  t6w28 := s.clock.testBit 31
  gd3Offset := Header.resolve 0x14 s.gd3Offset
  totalSamples := s.totalSamples
  loopOffset := Header.resolve 0x1C s.loopOffset
  loopSamples := s.loopSamples
  rate := s.rate
  feedback := s.feedback
  shiftWidth := s.shiftWidth
  flags := s.flags
  dataOffset := (Header.resolve 0x34 s.dataOffset).getD defaultDataOffset

theorem fields_eq_header (image : ByteArray) : Header.fields image = (ofImage image).header :=
  rfl

/-! ### Writing the numbers -/

/-- A field of the header: where it stands, in how many bytes, and its number. -/
structure Field where
  position : Nat
  width : Nat
  value : Nat

/-- The bytes of a field at its position. -/
def Field.patch (field : Field) : Patch :=
  ⟨field.position, leBytes field.width field.value⟩

theorem Field.stop_patch (field : Field) : field.patch.stop = field.position + field.width :=
  congrArg (field.position + ·) (length_leBytes field.width field.value)

/-- The fields that hold the numbers. -/
def table (s : StoredHeader) : List Field :=
  [⟨0x04, 4, s.fileEnd⟩, ⟨0x08, 4, s.version⟩, ⟨0x0C, 4, s.clock⟩, ⟨0x14, 4, s.gd3Offset⟩,
    ⟨0x18, 4, s.totalSamples⟩, ⟨0x1C, 4, s.loopOffset⟩, ⟨0x20, 4, s.loopSamples⟩,
    ⟨0x24, 4, s.rate⟩, ⟨0x28, 2, s.feedback⟩, ⟨0x2A, 1, s.shiftWidth⟩, ⟨0x2B, 1, s.flags⟩,
    ⟨0x34, 4, s.dataOffset⟩]

/-- Each number fits its field. -/
def Fits (s : StoredHeader) : Prop :=
  ∀ field ∈ s.table, field.value < Nat.pow 256 field.width

/-- The image with the numbers in their fields. -/
def writeTo (s : StoredHeader) (image : ByteArray) : ByteArray :=
  Patch.applyAll image (s.table.map Field.patch)

/-- Where the fields begin and end, whatever they hold. -/
theorem table_bounds (s : StoredHeader) :
    (s.table.map fun field => (field.position, field.position + field.width)) =
      [(0x04, 0x08), (0x08, 0x0C), (0x0C, 0x10), (0x14, 0x18), (0x18, 0x1C), (0x1C, 0x20),
        (0x20, 0x24), (0x24, 0x28), (0x28, 0x2A), (0x2A, 0x2B), (0x2B, 0x2C), (0x34, 0x38)] :=
  rfl

/-- The fields come behind the magic, in the first bytes of an image. -/
theorem bounds_of_mem_table {s : StoredHeader} {field : Field} (h : field ∈ s.table) :
    0x04 ≤ field.position ∧ field.position + field.width ≤ headerSize := by
  have hmem := List.mem_map_of_mem h
    (f := fun field : Field => (field.position, field.position + field.width))
  rw [table_bounds] at hmem
  revert hmem
  generalize field.position + field.width = stop
  generalize field.position = position
  intro hmem
  simp only [List.mem_cons, Prod.mk.injEq, List.not_mem_nil, or_false] at hmem
  unfold headerSize
  omega

/-- No two fields share a byte. -/
theorem pairwise_clear (s : StoredHeader) : (s.table.map Field.patch).Pairwise Patch.Clear := by
  have hbounds : (s.table.map fun field =>
      (field.position, field.position + field.width)).Pairwise fun p q => p.2 ≤ q.1 := by
    rw [table_bounds]
    decide
  rw [List.pairwise_map] at hbounds ⊢
  refine hbounds.imp fun hbefore => .inl ?_
  rw [Field.stop_patch]
  exact hbefore

variable {s : StoredHeader} {image : ByteArray}

@[simp] theorem size_writeTo (s : StoredHeader) (image : ByteArray) :
    (s.writeTo image).size = image.size :=
  Patch.size_applyAll _ _

/-- A field holds its number. -/
theorem leWord_writeTo (hfits : s.Fits) (hsize : headerSize ≤ image.size) {field : Field}
    (h : field ∈ s.table) : leWord (s.writeTo image) field.position field.width = field.value := by
  refine leWord_of_leBytes (hfits field h) ?_
  refine Patch.standsIn_applyAll s.pairwise_clear (fun p hp => ?_) (List.mem_map_of_mem h)
  obtain ⟨other, hother, rfl⟩ := List.mem_map.mp hp
  rw [Field.stop_patch]
  exact Nat.le_trans (bounds_of_mem_table hother).2 hsize

/-- **Numbers written into an image are found in it.** -/
theorem ofImage_writeTo (hfits : s.Fits) (hsize : headerSize ≤ image.size) :
    ofImage (s.writeTo image) = s := by
  have hread : ∀ field ∈ s.table,
      leWord (s.writeTo image) field.position field.width = field.value :=
    fun field h => leWord_writeTo hfits hsize h
  simp only [table, List.forall_mem_cons] at hread
  obtain ⟨h₁, h₂, h₃, h₄, h₅, h₆, h₇, h₈, h₉, h₁₀, h₁₁, h₁₂, -⟩ := hread
  simp only [ofImage, h₁, h₂, h₃, h₄, h₅, h₆, h₇, h₈, h₉, h₁₀, h₁₁, h₁₂]

/-- The magic is none of the fields. -/
theorem hasMagic_writeTo (s : StoredHeader) (h : hasBytesAt image 0 imageMagic = true) :
    hasBytesAt (s.writeTo image) 0 imageMagic = true := by
  have hstands : Patch.StandsIn ⟨0, imageMagic⟩ image := h
  refine hstands.applyAll fun p hp => .inl ?_
  obtain ⟨field, hfield, rfl⟩ := List.mem_map.mp hp
  exact (bounds_of_mem_table hfield).1

end StoredHeader

/-! ### Reading field after field -/

/-- Why there is no field at a position. -/
inductive FieldFault where
  /-- Other bytes stand there. -/
  | otherBytes (offset : Nat)
  /-- The data ends inside the field. -/
  | endOfData (offset : Nat)
  deriving DecidableEq

/-- A reader of fields: it starts at a position, and what it has read ends at another. -/
abbrev FieldReader (α : Type) := StateT Nat (Except FieldFault) α

namespace FieldReader

variable (data : ByteArray)

/-- The given bytes. -/
def expect (bytes : List UInt8) : FieldReader Unit := fun offset =>
  if hasBytesAt data offset bytes then .ok ((), offset + bytes.length)
  else .error (.otherBytes offset)

/-- The number in the next bytes. -/
def number (width : Nat) : FieldReader Nat := fun offset =>
  if offset + width ≤ data.size then .ok (leWord data offset width, offset + width)
  else .error (.endOfData offset)

/-- Bytes that do not matter. -/
def skip (width : Nat) : FieldReader Unit := fun offset =>
  if offset + width ≤ data.size then .ok ((), offset + width) else .error (.endOfData offset)

/-- The numbers of a header, between them those for other chips. -/
def storedHeader : FieldReader StoredHeader := do
  expect data imageMagic
  let fileEnd ← number data 4
  let version ← number data 4
  let clock ← number data 4
  let _ ← number data 4
  let gd3Offset ← number data 4
  let totalSamples ← number data 4
  let loopOffset ← number data 4
  let loopSamples ← number data 4
  let rate ← number data 4
  let feedback ← number data 2
  let shiftWidth ← number data 1
  let flags ← number data 1
  skip data 8
  let dataOffset ← number data 4
  return {
    fileEnd, version, clock, gd3Offset, totalSamples, loopOffset, loopSamples, rate, feedback,
    shiftWidth, flags, dataOffset }

variable {data} {α : Type} {offset width : Nat}

theorem expect_bind {bytes : List UInt8} (h : hasBytesAt data offset bytes = true)
    (f : Unit → FieldReader α) :
    (expect data bytes >>= f) offset = f () (offset + bytes.length) := by
  show (expect data bytes offset).bind _ = _
  rw [expect, if_pos h]
  rfl

theorem number_bind (h : offset + width ≤ data.size) (f : Nat → FieldReader α) :
    (number data width >>= f) offset = f (leWord data offset width) (offset + width) := by
  show (number data width offset).bind _ = _
  rw [number, if_pos h]
  rfl

theorem skip_bind (h : offset + width ≤ data.size) (f : Unit → FieldReader α) :
    (skip data width >>= f) offset = f () (offset + width) := by
  show (skip data width offset).bind _ = _
  rw [skip, if_pos h]
  rfl

/-- Behind the magic no field fails, and each is read where it stands. -/
theorem storedHeader_eq_ok (hsize : headerSize ≤ data.size)
    (hmagic : hasBytesAt data 0 imageMagic = true) :
    storedHeader data 0 = .ok (.ofImage data, 0x38) := by
  have hinside : ∀ stop, stop ≤ 0x38 → stop ≤ data.size := fun stop hstop =>
    Nat.le_trans hstop (Nat.le_trans (by decide) hsize)
  rw [storedHeader, expect_bind hmagic, number_bind (hinside _ (by decide)),
    number_bind (hinside _ (by decide)), number_bind (hinside _ (by decide)),
    number_bind (hinside _ (by decide)), number_bind (hinside _ (by decide)),
    number_bind (hinside _ (by decide)), number_bind (hinside _ (by decide)),
    number_bind (hinside _ (by decide)), number_bind (hinside _ (by decide)),
    number_bind (hinside _ (by decide)), number_bind (hinside _ (by decide)),
    number_bind (hinside _ (by decide)), skip_bind (hinside _ (by decide)),
    number_bind (hinside _ (by decide))]
  rfl

end FieldReader

/-- The fault in words, with the data from the position of the field on. -/
def FieldFault.message (data : ByteArray) (fault : FieldFault) : String :=
  let (offset, kind) := match fault with
    | otherBytes offset => (offset, "Tag")
    | endOfData offset => (offset, "Eof")
  let rest := (data.extract offset data.size).toList
  s!"malformed header: Error(Error \x7b input: {rest}, code: {kind} \x7d)"

namespace Header

/-- The header of an image, read field after field. -/
def readInOrder (data : ByteArray) : Except Error Header :=
  if data.size < headerSize then .error (.invalidImage (.tooSmall data.size))
  else if hasBytesAt data 0 imageMagic then
    match FieldReader.storedHeader data 0 with
    | .error fault => .error (.invalidImage (.stated (fault.message data)))
    | .ok (stored, _) =>
      let header := stored.header
      if header.dataOffset < data.size then .ok header
      else .error (.invalidImage (.dataOffsetPastEnd header.dataOffset data.size))
  else .error (.invalidImage .noMagic)

/-- **Reading in order is looking up.**  What is read field after field is what stands at the fixed
positions, and what is refused is refused for the same reason. -/
theorem readInOrder_eq_read (data : ByteArray) : readInOrder data = read data := by
  unfold readInOrder read
  split
  case isTrue => rfl
  case isFalse hsize =>
    split
    case isTrue hmagic =>
      rw [FieldReader.storedHeader_eq_ok (Nat.not_lt.mp hsize) hmagic]
      rfl
    case isFalse => rfl

/-! ### What is accepted, and what it depends on -/

/-- Where the commands begin, by the bytes of the image. -/
theorem dataOffset_fields_eq (image : ByteArray) :
    (fields image).dataOffset =
      if leWord image 0x34 4 = 0 then 0x40 else 0x34 + leWord image 0x34 4 := by
  show (resolve 0x34 (leWord image 0x34 4)).getD defaultDataOffset = _
  unfold resolve
  split <;> rfl

/-- An image that has no header is an invalid one, and no field of it is to blame. -/
theorem read_eq_error_cases {image : ByteArray} {e : Error} (h : read image = .error e) :
    ∃ fault, e = .invalidImage fault ∧ ∀ reason, fault ≠ .stated reason := by
  unfold read at h
  split at h
  · exact ⟨_, (Except.error.inj h).symm, nofun⟩
  · split at h
    · dsimp only at h
      split at h
      · cases h
      · exact ⟨_, (Except.error.inj h).symm, nofun⟩
    · exact ⟨_, (Except.error.inj h).symm, nofun⟩

theorem exists_read_eq_ok_iff {image : ByteArray} :
    (∃ header, read image = .ok header) ↔
      headerSize ≤ image.size ∧ hasBytesAt image 0 imageMagic = true ∧
        (fields image).dataOffset < image.size := by
  constructor
  · rintro ⟨header, hread⟩
    obtain ⟨hsize, hmagic, hstart, rfl⟩ := read_eq_ok_iff.mp hread
    exact ⟨hsize, hmagic, hstart⟩
  · rintro ⟨hsize, hmagic, hstart⟩
    exact ⟨fields image, read_eq_ok_iff.mpr ⟨hsize, hmagic, hstart, rfl⟩⟩

/-- The mask leaves all bits of the clock but the two flags. -/
theorem maskClock_eq_and (field : Nat) : maskClock field = field &&& 0x3FFFFFFF :=
  (Nat.and_two_pow_sub_one_eq_mod field 30).symm

theorem fields_congr {image image' : ByteArray}
    (h : ∀ k < headerSize, image'[k]? = image[k]?) : fields image' = fields image := by
  have hword : ∀ offset count, offset + count ≤ headerSize →
      leWord image' offset count = leWord image offset count :=
    fun offset count hstop => leWord_congr fun k hk => h (offset + k) (by omega)
  rw [StoredHeader.fields_eq_header, StoredHeader.fields_eq_header]
  refine congrArg StoredHeader.header ?_
  simp (disch := decide) only [StoredHeader.ofImage, hword]

/-- The first bytes of an image and its length decide. -/
theorem read_congr {image image' : ByteArray} (hsize : image'.size = image.size)
    (h : ∀ k < headerSize, image'[k]? = image[k]?) : read image' = read image := by
  have hmagic : hasBytesAt image' 0 imageMagic = hasBytesAt image 0 imageMagic := by
    refine hasBytesAt_congr fun k hk => ?_
    rw [Nat.zero_add]
    exact h k (Nat.lt_trans hk (by decide))
  unfold read
  rw [hsize, hmagic, fields_congr h]

/-- An image is good for playing unless its header declares no clock. -/
theorem parse_of_read {image : ByteArray} {header : Header} (h : read image = .ok header) :
    parse image = if header.clock = 0 then .error .missingClock else .ok header := by
  unfold parse
  rw [h]
  rfl

theorem parse_of_error {image : ByteArray} {e : Error} (h : read image = .error e) :
    parse image = .error e := by
  unfold parse
  rw [h]
  rfl

/-- A header written into an image with room for its commands is read back. -/
theorem read_writeTo {s : StoredHeader} {image : ByteArray} (hfits : s.Fits)
    (hsize : headerSize ≤ image.size) (hmagic : hasBytesAt image 0 imageMagic = true)
    (hstart : s.header.dataOffset < image.size) : read (s.writeTo image) = .ok s.header := by
  have hfields : fields (s.writeTo image) = s.header := by
    rw [StoredHeader.fields_eq_header, StoredHeader.ofImage_writeTo hfits hsize]
  refine read_eq_ok_iff.mpr ⟨?_, s.hasMagic_writeTo hmagic, ?_, hfields⟩
  · rwa [StoredHeader.size_writeTo]
  · rwa [StoredHeader.size_writeTo]

/-- **The header of an image.**  An image has a header exactly if it is long enough, begins with the
magic and is longer than the position of its commands; any other image is an invalid one.  Read field
after field the header is the same, and no field fails.

The header holds the numbers that stand at the fixed positions.  The clock is without its two flags,
an offset counts from the position of its field, and there is none where zero is stored.  So the
header depends on the first bytes of the image and on its length, and numbers written into an image
with room for its commands are read back.

An image can be played if it has a header with a clock.  Without a clock there is a failure of its
own, without a header the same failure; and what can be played has its commands inside. -/
theorem read_layout (image : ByteArray) :
    let start := if leWord image 0x34 4 = 0 then 0x40 else 0x34 + leWord image 0x34 4
    let offset (position : Nat) :=
      if leWord image position 4 = 0 then none else some (position + leWord image position 4)
    (readInOrder image = read image ∧
      ∀ reason, readInOrder image ≠ .error (.invalidImage (.stated reason))) ∧
    ((∃ header, read image = .ok header) ↔
      0x40 ≤ image.size ∧ hasBytesAt image 0 imageMagic = true ∧ start < image.size) ∧
    (∀ e, read image = .error e → ∃ fault, e = .invalidImage fault) ∧
    (∀ header, read image = .ok header → header = {
      version := leWord image 0x08 4
      fileLength := leWord image 0x04 4 + 4
      clock := leWord image 0x0C 4 &&& 0x3FFFFFFF
      dualChip := (leWord image 0x0C 4).testBit 30
      t6w28 := (leWord image 0x0C 4).testBit 31
      gd3Offset := offset 0x14
      totalSamples := leWord image 0x18 4
      loopOffset := offset 0x1C
      loopSamples := leWord image 0x20 4
      rate := leWord image 0x24 4
      feedback := leWord image 0x28 2
      shiftWidth := leWord image 0x2A 1
      flags := leWord image 0x2B 1
      dataOffset := start }) ∧
    (∀ image' : ByteArray, image'.size = image.size → (∀ k < 0x40, image'[k]? = image[k]?) →
      read image' = read image) ∧
    (∀ s : StoredHeader, s.Fits → 0x40 ≤ image.size → hasBytesAt image 0 imageMagic = true →
      s.header.dataOffset < image.size →
        .ofImage (s.writeTo image) = s ∧ read (s.writeTo image) = .ok s.header) ∧
    (∀ header, read image = .ok header →
      parse image = if header.clock = 0 then .error .missingClock else .ok header) ∧
    (∀ e, read image = .error e → parse image = .error e) ∧
    ∀ song, Song.ofImage image = .ok song →
      song.commands = image.extract start image.size ∧ start < image.size := by
  intro start offset
  have hstart : (fields image).dataOffset = start := dataOffset_fields_eq image
  refine ⟨⟨readInOrder_eq_read image, fun reason hreason => ?_⟩, ?_, fun e he => ?_,
    fun header hread => ?_, fun image' hsize hsame => read_congr hsize hsame,
    fun s hfits hsize hmagic hroom => ⟨StoredHeader.ofImage_writeTo hfits hsize,
      read_writeTo hfits hsize hmagic hroom⟩,
    fun header hread => parse_of_read hread, fun e he => parse_of_error he, fun song hsong => ?_⟩
  · rw [readInOrder_eq_read] at hreason
    obtain ⟨fault, hfault, hnot⟩ := read_eq_error_cases hreason
    exact hnot reason (Error.invalidImage.inj hfault).symm
  · rw [exists_read_eq_ok_iff, hstart]
    rfl
  · obtain ⟨fault, hfault, -⟩ := read_eq_error_cases he
    exact ⟨fault, hfault⟩
  · obtain ⟨-, -, -, rfl⟩ := read_eq_ok_iff.mp hread
    rw [← maskClock_eq_and, ← hstart]
    rfl
  · obtain ⟨rfl, hparse⟩ := Song.ofImage_eq_ok_iff.mp hsong
    obtain ⟨hread, -⟩ := parse_eq_ok_iff.mp hparse
    obtain ⟨-, -, hinside, hfields⟩ := read_eq_ok_iff.mp hread
    rw [← hfields, hstart] at hinside
    rw [Song.commands, ← hfields, hstart]
    exact ⟨rfl, hinside⟩

/-- A header whose clock is nothing but its two flags, and whose commands are the last byte of the
image: it is read back, and it cannot be played. -/
theorem read_layout_flags_only :
    let image := (imageMagic ++ List.replicate 62 0).toByteArray
    let s : StoredHeader := {
      fileEnd := 0x3E, version := 0x171, clock := 0xC0000000, gd3Offset := 5,
      totalSamples := 0xFFFFFFFF, loopOffset := 0, loopSamples := 7, rate := 60, feedback := 9,
      shiftWidth := 16, flags := 255, dataOffset := 0x0D }
    let header : Header := {
      version := 0x171, fileLength := 0x42, clock := 0, dualChip := true, t6w28 := true,
      gd3Offset := some 0x19, totalSamples := 0xFFFFFFFF, loopOffset := none, loopSamples := 7,
      rate := 60, feedback := 9, shiftWidth := 16, flags := 255, dataOffset := 0x41 }
    read (s.writeTo image) = .ok header ∧ parse (s.writeTo image) = .error .missingClock := by
  intro image s header
  have hfits : s.Fits := by
    unfold StoredHeader.Fits
    decide
  have hsize : image.size = 66 := List.size_toByteArray
  have hheader : s.header = header := by decide
  obtain ⟨-, -, -, -, -, hwrite, -⟩ := read_layout image
  obtain ⟨-, hread⟩ := hwrite s hfits (by rw [hsize]; decide) (by decide) (by rw [hsize]; decide)
  rw [hheader] at hread
  obtain ⟨-, -, -, -, -, -, hparse, -⟩ := read_layout (s.writeTo image)
  exact ⟨hread, hparse header hread⟩

end Header

end Chiptune
