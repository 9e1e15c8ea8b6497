import Chiptune.Proofs.Playback.Stream

/-!
# VGM — Encodings

A command can be written in several ways: a wait in three bytes, and some waits in one byte as well
(`Command.encodings`).  An instruction is a command together with one way to write it
(`mem_encodings_iff`), so what is said of instructions carries over to commands and their bytes.

* `decodeMany_of_reads`: reading instructions one after the other is decoding as many commands.
* `decode_encodings`: however some commands are written, and whatever stands in front and behind, they
  are decoded as those commands, and nothing is decoded as a command but a way to write it.  What
  cannot be decoded is past the end, or cut off, or begins with an opcode nobody knows.
-/

namespace Chiptune

open Instruction (Reads)

namespace Command

/-! ### Ways to write a command -/

/-- The ways to write a command, each as its bytes. -/
def encodings : Command → List (List UInt8)
  | write byte => [[0x50, byte]]
  | wait samples =>
    (if samples < 65536 then [0x61 :: leBytes 2 samples] else []) ++
      (if samples = 735 then [[0x62]] else []) ++
      (if samples = 882 then [[0x63]] else []) ++
      (if 1 ≤ samples ∧ samples ≤ 10 then [[UInt8.ofNat (0x70 + (samples - 1))]] else [])
  | stop => [[0x66]]

theorem mem_encodings_wait {samples : Nat} {bytes : List UInt8} :
    bytes ∈ (wait samples).encodings ↔
      samples < 65536 ∧ bytes = 0x61 :: leBytes 2 samples ∨ samples = 735 ∧ bytes = [0x62] ∨
        samples = 882 ∧ bytes = [0x63] ∨
        (1 ≤ samples ∧ samples ≤ 10) ∧ bytes = [UInt8.ofNat (0x70 + (samples - 1))] := by
  have hmem : ∀ (p : Prop) [Decidable p] (xs : List UInt8),
      bytes ∈ (if p then [xs] else []) ↔ p ∧ bytes = xs := by
    intro p _ xs
    split <;> simp [*]
  simp only [encodings, List.mem_append, hmem, or_assoc]

/-- A count of two bytes is the two bytes of the count. -/
theorem leBytes_two (low high : UInt8) : leBytes 2 (low.toNat + 256 * high.toNat) = [low, high] := by
  have hlow := low.toNat_lt
  have hhigh := high.toNat_lt
  have hfirst : UInt8.ofNat (low.toNat + 256 * high.toNat) = low :=
    UInt8.toNat_inj.mp (by rw [UInt8.toNat_ofNat']; omega)
  have hsecond : UInt8.ofNat ((low.toNat + 256 * high.toNat) / 256) = high :=
    UInt8.toNat_inj.mp (by rw [UInt8.toNat_ofNat']; omega)
  rw [leBytes, leBytes, leBytes, hfirst, hsecond]

/-- An instruction is a command with one of the ways to write it. -/
theorem mem_encodings_iff {command : Command} {bytes : List UInt8} :
    bytes ∈ command.encodings ↔ ∃ i : Instruction, i.command = command ∧ i.bytes = bytes := by
  constructor
  · intro h
    cases command with
    | write byte => exact ⟨.busWrite byte, rfl, (List.mem_singleton.mp h).symm⟩
    | stop => exact ⟨.stop, rfl, (List.mem_singleton.mp h).symm⟩
    | wait samples =>
        rcases mem_encodings_wait.mp h with ⟨hlt, rfl⟩ | ⟨rfl, rfl⟩ | ⟨rfl, rfl⟩ | ⟨hrange, rfl⟩
        · refine ⟨.wait (UInt8.ofNat samples) (UInt8.ofNat (samples / 256)), ?_, rfl⟩
          rw [Instruction.command, UInt8.toNat_ofNat', UInt8.toNat_ofNat']
          exact congrArg wait (by omega)
        · exact ⟨.waitNtscFrame, rfl, rfl⟩
        · exact ⟨.waitPalFrame, rfl, rfl⟩
        · refine ⟨.shortWait ⟨samples - 1, by omega⟩, ?_, rfl⟩
          exact congrArg wait (by dsimp only; omega)
  · rintro ⟨i, rfl, rfl⟩
    cases i with
    | busWrite byte => exact List.mem_singleton_self _
    | stop => exact List.mem_singleton_self _
    | wait low high =>
        have hlow := low.toNat_lt
        have hhigh := high.toNat_lt
        refine mem_encodings_wait.mpr (.inl ⟨by omega, ?_⟩)
        rw [leBytes_two]
        rfl
    | waitNtscFrame => exact mem_encodings_wait.mpr (.inr (.inl ⟨rfl, rfl⟩))
    | waitPalFrame => exact mem_encodings_wait.mpr (.inr (.inr (.inl ⟨rfl, rfl⟩)))
    | shortWait extra =>
        have hextra := extra.isLt
        exact mem_encodings_wait.mpr (.inr (.inr (.inr ⟨⟨by omega, by omega⟩, rfl⟩)))

/-! ### Decoding -/

/-- The command at a position, and how many bytes it has. -/
def decode (data : ByteArray) (offset : Nat) : Except Error (Command × Nat) :=
  (Instruction.decode data offset).map fun i => (i.command, i.length)

/-- A number of commands, each read where the one before ends, and where the last one ends. -/
def decodeMany (data : ByteArray) (start : Nat) : Nat → Except Error (List (Command × Nat) × Nat)
  | 0 => .ok ([], start)
  | count + 1 => do
    let first ← decode data start
    let (rest, last) ← decodeMany data (start + first.2) count
    return (first :: rest, last)

theorem decodeMany_of_reads {data : ByteArray} {start last : Nat} {is : List Instruction}
    (h : Reads data start is last) :
    decodeMany data start is.length = .ok (is.map fun i => (i.command, i.length), last) := by
  induction h with
  | nil => rfl
  | cons hdec _ ih =>
      rw [List.length_cons, decodeMany, decode, hdec]
      dsimp only [Except.map, bind, Except.bind]
      rw [ih]
      rfl

theorem decode_eq_ok_iff {data : ByteArray} {offset length : Nat} {command : Command} :
    decode data offset = .ok (command, length) ↔
      ∃ i : Instruction, Instruction.decode data offset = .ok i ∧ i.command = command ∧
        i.length = length := by
  unfold decode
  cases Instruction.decode data offset with
  | ok i => simp [Except.map]
  | error e => simp [Except.map]

theorem decode_eq_error_iff {data : ByteArray} {offset : Nat} {e : Error} :
    decode data offset = .error e ↔ Instruction.decode data offset = .error e := by
  unfold decode
  cases Instruction.decode data offset with
  | ok i => simp [Except.map]
  | error e => simp [Except.map]

/-- A command is decoded exactly where one of the ways to write it stands. -/
theorem decode_eq_ok_iff_mem_encodings {data : ByteArray} {offset length : Nat}
    {command : Command} :
    decode data offset = .ok (command, length) ↔
      offset + length ≤ data.size ∧ ∃ bytes ∈ command.encodings, bytes.length = length ∧
        hasBytesAt data offset bytes = true := by
  rw [decode_eq_ok_iff]
  constructor
  · rintro ⟨i, hdec, rfl, rfl⟩
    exact ⟨Instruction.end_le_of_decode hdec, i.bytes, mem_encodings_iff.mpr ⟨i, rfl, rfl⟩,
      i.length_bytes, Instruction.decode_eq_ok_iff.mp hdec⟩
  · rintro ⟨-, bytes, hmem, rfl, hbytes⟩
    obtain ⟨i, rfl, rfl⟩ := mem_encodings_iff.mp hmem
    exact ⟨i, Instruction.decode_eq_ok_iff.mpr hbytes, rfl, i.length_bytes.symm⟩

/-- What is decoded depends on the bytes it is decoded from. -/
theorem decode_congr {data data' : ByteArray} {offset offset' length : Nat} {command : Command}
    (h : decode data offset = .ok (command, length))
    (hsame : ∀ k < length, data'[offset' + k]? = data[offset + k]?) :
    decode data' offset' = .ok (command, length) := by
  obtain ⟨i, hdec, rfl, rfl⟩ := decode_eq_ok_iff.mp h
  refine decode_eq_ok_iff.mpr ⟨i, Instruction.decode_eq_ok_iff.mpr ?_, rfl, rfl⟩
  rw [← i.length_bytes] at hsame
  rw [hasBytesAt_congr hsame]
  exact Instruction.decode_eq_ok_iff.mp hdec

/-- The three ways in which there is no command at a position. -/
theorem decode_eq_error_cases {data : ByteArray} {offset : Nat} {e : Error} :
    decode data offset = .error e ↔
      data.size ≤ offset ∧ e = .invalidImage (.commandOffsetPastEnd offset) ∨
      ∃ h : offset < data.size,
        data[offset].toNat ∉ Instruction.opcodes ∧
            e = .unknownCommand data[offset].toNat offset ∨
          Instruction.OperandsCut data offset data[offset].toNat ∧
            e = .truncatedCommand data[offset].toNat offset := by
  rw [decode_eq_error_iff]
  by_cases hlt : offset < data.size
  · rw [Instruction.decode_eq_error_iff hlt]
    simp only [hlt, Nat.not_le.mpr hlt, false_and, false_or, exists_true_left]
  · simp only [Instruction.decode, hlt, Nat.not_lt.mp hlt, reduceDIte, Except.error.injEq, true_and,
      IsEmpty.exists_iff, or_false, eq_comm]

/-- Commands written down one after the other are the bytes of some instructions. -/
theorem exists_instructions {items : List (Command × List UInt8)}
    (h : ∀ item ∈ items, item.2 ∈ item.1.encodings) :
    ∃ is : List Instruction, (is.map fun i => (i.command, i.bytes)) = items := by
  induction items with
  | nil => exact ⟨[], rfl⟩
  | cons item rest ih =>
      obtain ⟨is, rfl⟩ := ih fun other hmem => h other (List.mem_cons_of_mem _ hmem)
      obtain ⟨i, hcommand, hbytes⟩ := mem_encodings_iff.mp (h item List.mem_cons_self)
      refine ⟨i :: is, ?_⟩
      rw [List.map_cons, hcommand, hbytes]

/-- However commands are written, and whatever stands in front and behind, they are decoded. -/
theorem decodeMany_flatMap {items : List (Command × List UInt8)}
    (h : ∀ item ∈ items, item.2 ∈ item.1.encodings) (front back : ByteArray) :
    decodeMany (front ++ (items.flatMap Prod.snd).toByteArray ++ back) front.size items.length =
      .ok (items.map fun item => (item.1, item.2.length),
        front.size + (items.flatMap Prod.snd).length) := by
  obtain ⟨is, rfl⟩ := exists_instructions h
  have hbytes : (is.map fun i => (i.command, i.bytes)).flatMap Prod.snd =
      is.flatMap Instruction.bytes :=
    List.flatMap_map (fun i : Instruction => (i.command, i.bytes)) Prod.snd is
  have hreads := ((Instruction.reads_encode is).append_add front).append back
  rw [Nat.add_zero, Instruction.encode, List.size_toByteArray] at hreads
  rw [hbytes, List.length_map, decodeMany_of_reads hreads, List.map_map]
  simp only [Function.comp_def, Instruction.length_bytes]

/-- **Commands and their bytes.**  Some commands, each written in any of its ways, are decoded one
after the other as those commands with those lengths, from where they begin to where they end and
whatever stands in front and behind.

Nothing else is decoded: where a command is decoded, one of the ways to write it stands, inside the
data, and wherever the same bytes stand the same command is decoded.

There is no command past the end of the data, which is its own failure.  Inside the data a command
is cut off exactly if its opcode is one with operands and they run past the end, and unknown exactly
if its opcode is none of the list; both failures name the opcode and where it stands. -/
theorem decode_encodings :
    (∀ (items : List (Command × List UInt8)) (front back : ByteArray),
      (∀ item ∈ items, item.2 ∈ item.1.encodings) →
        decodeMany (front ++ (items.flatMap Prod.snd).toByteArray ++ back) front.size
            items.length =
          .ok (items.map fun item => (item.1, item.2.length),
            front.size + (items.flatMap Prod.snd).length)) ∧
    ∀ (data : ByteArray) (offset : Nat),
      (∀ command length, decode data offset = .ok (command, length) ↔
        offset + length ≤ data.size ∧ ∃ bytes ∈ command.encodings, bytes.length = length ∧
          hasBytesAt data offset bytes = true) ∧
      (∀ command length, decode data offset = .ok (command, length) →
        ∀ (data' : ByteArray) (offset' : Nat),
          (∀ k < length, data'[offset' + k]? = data[offset + k]?) →
            decode data' offset' = .ok (command, length)) ∧
      (∀ fault, decode data offset = .error (.invalidImage fault) ↔
        fault = .commandOffsetPastEnd offset ∧ data.size ≤ offset) ∧
      (∀ opcode position, decode data offset = .error (.truncatedCommand opcode position) ↔
        position = offset ∧ ∃ h : offset < data.size, data[offset].toNat = opcode ∧
          (opcode = 0x50 ∧ data.size ≤ offset + 1 ∨ opcode = 0x61 ∧ data.size ≤ offset + 2)) ∧
      (∀ opcode position, decode data offset = .error (.unknownCommand opcode position) ↔
        position = offset ∧ ∃ h : offset < data.size, data[offset].toNat = opcode ∧
          opcode ∉ Instruction.opcodes) := by
  refine ⟨fun items front back h => decodeMany_flatMap h front back, fun data offset =>
    ⟨fun command length => decode_eq_ok_iff_mem_encodings, fun command length h data' offset' =>
      decode_congr h, fun fault => ?_, fun opcode position => ?_, fun opcode position => ?_⟩⟩
  · rw [decode_eq_error_cases]
    constructor
    · rintro (⟨hend, hfault⟩ | ⟨-, ⟨-, ⟨⟩⟩ | ⟨-, ⟨⟩⟩⟩)
      exact ⟨Error.invalidImage.inj hfault, hend⟩
    · rintro ⟨rfl, hend⟩
      exact .inl ⟨hend, rfl⟩
  · rw [decode_eq_error_cases]
    constructor
    · rintro (⟨-, ⟨⟩⟩ | ⟨hlt, ⟨-, ⟨⟩⟩ | ⟨hcut, hfault⟩⟩)
      obtain ⟨rfl, rfl⟩ := Error.truncatedCommand.inj hfault
      exact ⟨rfl, hlt, rfl, hcut⟩
    · rintro ⟨rfl, hlt, rfl, hcut⟩
      exact .inr ⟨hlt, .inr ⟨hcut, rfl⟩⟩
  · rw [decode_eq_error_cases]
    constructor
    · rintro (⟨-, ⟨⟩⟩ | ⟨hlt, ⟨hunknown, hfault⟩ | ⟨-, ⟨⟩⟩⟩)
      obtain ⟨rfl, rfl⟩ := Error.unknownCommand.inj hfault
      exact ⟨rfl, hlt, rfl, hunknown⟩
    · rintro ⟨rfl, hlt, rfl, hunknown⟩
      exact .inr ⟨hlt, .inl ⟨hunknown, rfl⟩⟩

/-- A frame in its two ways and ten samples in their two, behind an opcode that would take the first
byte as its operand and before a wait that is cut off. -/
theorem decode_encodings_cut_behind :
    let data : ByteArray := ⟨#[0x50, 0x50, 0x9F, 0x62, 0x61, 0xDF, 0x02, 0x63, 0x79, 0x61, 0x0A, 0x00,
      0x66, 0x61, 0x01]⟩
    decodeMany data 1 7 =
        .ok ([(.write 0x9F, 2), (.wait 735, 1), (.wait 735, 3), (.wait 882, 1), (.wait 10, 1),
          (.wait 10, 3), (.stop, 1)], 13) ∧
      decode data 13 = .error (.truncatedCommand 0x61 13) := by
  intro data
  let items : List (Command × List UInt8) :=
    [(.write 0x9F, [0x50, 0x9F]), (.wait 735, [0x62]), (.wait 735, [0x61, 0xDF, 0x02]),
      (.wait 882, [0x63]), (.wait 10, [0x79]), (.wait 10, [0x61, 0x0A, 0x00]), (.stop, [0x66])]
  obtain ⟨hmany, hone⟩ := decode_encodings
  have hways : ∀ item ∈ items, item.2 ∈ item.1.encodings := by decide
  have hread := hmany items ⟨#[0x50]⟩ ⟨#[0x61, 0x01]⟩ hways
  obtain ⟨-, -, -, hcut, -⟩ := hone data 13
  exact ⟨hread, (hcut 0x61 13).mpr ⟨rfl, by decide, by decide, by decide⟩⟩

end Command

end Chiptune
