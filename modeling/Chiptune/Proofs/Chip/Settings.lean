import Chiptune.Proofs.Chip.Signals

/-!
# Chip — Settings

The bytes that set a register of a tone (`settingBytes`): a latch byte for the volume, and for the
period a latch byte with the low four bits and a data byte with the high six.  Any sequence of such
settings that names every register at least once leaves the chip with the periods and the volumes
that were meant (`holds_writeAll`), and with no count begun (`AtRest.writeAll`).
-/

namespace Chiptune

/-! ### Bytes for the bus -/

namespace BusWrite

/-- The latch byte that names a register and carries four data bits. -/
def latchByte (target : Target) (data : Nat) : UInt8 :=
  UInt8.ofNat
    (0x80 + 0x20 * target.voice.index + (if target.register = .volume then 0x10 else 0) + data)

/-- The data byte that carries six data bits. -/
def dataByte (data : Nat) : UInt8 :=
  UInt8.ofNat data

theorem decode_latchByte (target : Target) {data : Nat} (h : data < 16) :
    decode (latchByte target data) = .latch target data := by
  obtain ⟨voice, register⟩ := target
  have hall : ∀ d : Fin 16,
      decode (latchByte ⟨voice, register⟩ d) = .latch ⟨voice, register⟩ d := by
    cases voice <;> cases register <;> decide
  exact hall ⟨data, h⟩

theorem decode_dataByte {data : Nat} (h : data < 64) : decode (dataByte data) = .data data := by
  have hall : ∀ d : Fin 64, decode (dataByte d) = .data d := by decide
  exact hall ⟨data, h⟩

end BusWrite

open BusWrite (latchByte dataByte decode_latchByte decode_dataByte)

theorem Voice.ofTone_inj {i j : Fin 3} (h : ofTone i = ofTone j) : i = j := by
  revert i j
  decide

theorem Voice.ofTone_ne_noise (i : Fin 3) : ofTone i ≠ .noise := by
  revert i
  decide

namespace Tone

/-- What a register of a tone holds. -/
def register (t : Tone) : Register → Nat
  | .period => t.period
  | .volume => t.volume

/-- The tone with another value in a register. -/
def withRegister (t : Tone) (r : Register) (value : Nat) : Tone :=
  match r with
  | .period => { t with period := value }
  | .volume => { t with volume := value }

theorem register_withRegister (t : Tone) (r : Register) (value : Nat) (r' : Register) :
    (t.withRegister r value).register r' = if r' = r then value else t.register r' := by
  cases r <;> cases r' <;> rfl

theorem counter_withRegister (t : Tone) (r : Register) (value : Nat) :
    (t.withRegister r value).counter = t.counter := by
  cases r <;> rfl

theorem phase_withRegister (t : Tone) (r : Register) (value : Nat) :
    (t.withRegister r value).phase = t.phase := by
  cases r <;> rfl

end Tone

namespace Chip

variable {c : Chip}

theorem write_latchByte (c : Chip) (target : Target) {data : Nat} (h : data < 16) :
    c.write (latchByte target data) = { c with latch := target }.writeTo target .narrow data := by
  rw [write, decode_latchByte target h]

theorem write_dataByte (c : Chip) {data : Nat} (h : data < 64) :
    c.write (dataByte data) = c.writeTo c.latch .wide data := by
  rw [write, decode_dataByte h]

/-! ### Another tone in the same chip -/

/-- A chip that is another one with the tone `j` replaced, up to the latch. -/
structure ToneReplaced (c c' : Chip) (j : Fin 3) (t : Tone) : Prop where
  divider : c'.divider = c.divider
  noise : c'.noise = c.noise
  tone_self : c'.tone j = t
  tone_of_ne : ∀ i, i ≠ j → c'.tone i = c.tone i

theorem toneReplaced_writeTo (c : Chip) (latch : Target) (j : Fin 3) (r : Register) (w : Width)
    (d : Nat) :
    c.ToneReplaced ({ c with latch := latch }.writeTo ⟨.ofTone j, r⟩ w d) j
      ((c.tone j).write r w d) where
  divider := divider_writeTo _ _ w d
  noise := noise_writeTo_of_ne (Voice.ofTone_ne_noise j) w d
  tone_self := tone_writeTo_of_eq rfl w d
  tone_of_ne _ hi := tone_writeTo_of_ne (fun h => hi (Voice.ofTone_inj h).symm) w d

theorem ToneReplaced.trans {c' c'' : Chip} {j : Fin 3} {t t' : Tone} (h : c.ToneReplaced c' j t)
    (h' : c'.ToneReplaced c'' j t') : c.ToneReplaced c'' j t' where
  divider := h'.divider.trans h.divider
  noise := h'.noise.trans h.noise
  tone_self := h'.tone_self
  tone_of_ne i hi := (h'.tone_of_ne i hi).trans (h.tone_of_ne i hi)

/-! ### Settings of the tones -/

/-- Values that fit into the registers of the tones. -/
def Settable (values : Fin 3 × Register → Nat) : Prop :=
  ∀ i, values (i, .period) < 1024 ∧ values (i, .volume) < 16

/-- The bytes that set a register of a tone. -/
def settingBytes (values : Fin 3 × Register → Nat) : Fin 3 × Register → List UInt8
  | (i, .period) =>
    [latchByte ⟨.ofTone i, .period⟩ (values (i, .period) % 16), dataByte (values (i, .period) / 16)]
  | (i, .volume) => [latchByte ⟨.ofTone i, .volume⟩ (values (i, .volume))]

variable {values : Fin 3 × Register → Nat}

theorem writeAll_period (c : Chip) {j : Fin 3} (h : values (j, .period) < 1024) :
    c.ToneReplaced (c.writeAll (settingBytes values (j, .period))) j
      ((c.tone j).withRegister .period (values (j, .period))) := by
  generalize hvalue : values (j, .period) = value at h
  let target : Target := ⟨.ofTone j, .period⟩
  let low : Chip := { c with latch := target }.writeTo target .narrow (value % 16)
  have hbytes : c.writeAll (settingBytes values (j, .period)) =
      low.writeTo target .wide (value / 16) := by
    rw [settingBytes, hvalue]
    show (c.write _).write _ = _
    rw [write_latchByte c target (by omega), write_dataByte _ (by omega), latch_writeTo]
  have htone : (low.tone j).write .period .wide (value / 16) =
      (c.tone j).withRegister .period value := by
    have hlow : low.tone j = (c.tone j).write .period .narrow (value % 16) :=
      tone_writeTo_of_eq rfl ..
    have hparts : value / 16 % 64 * 16 +
        ((c.tone j).period / 16 % 64 * 16 + value % 16 % 16) % 16 = value := by omega
    rw [hlow, Tone.write, Tone.write, hparts]
    rfl
  rw [hbytes, ← htone]
  exact (c.toneReplaced_writeTo target j .period .narrow _).trans
    (low.toneReplaced_writeTo low.latch j .period .wide _)

theorem writeAll_volume (c : Chip) {j : Fin 3} (h : values (j, .volume) < 16) :
    c.ToneReplaced (c.writeAll (settingBytes values (j, .volume))) j
      ((c.tone j).withRegister .volume (values (j, .volume))) := by
  let target : Target := ⟨.ofTone j, .volume⟩
  have hbytes : c.writeAll (settingBytes values (j, .volume)) =
      { c with latch := target }.writeTo target .narrow (values (j, .volume)) :=
    write_latchByte c target h
  have htone : (c.tone j).write .volume .narrow (values (j, .volume)) =
      (c.tone j).withRegister .volume (values (j, .volume)) := by
    rw [Tone.write, Nat.mod_eq_of_lt h]
    rfl
  rw [hbytes, ← htone]
  exact c.toneReplaced_writeTo target j .volume .narrow _

/-- A setting replaces its tone by one that holds the value. -/
theorem writeAll_setting (hvalues : Settable values) (c : Chip) (setting : Fin 3 × Register) :
    c.ToneReplaced (c.writeAll (settingBytes values setting)) setting.1
      ((c.tone setting.1).withRegister setting.2 (values setting)) := by
  obtain ⟨j, r⟩ := setting
  cases r with
  | period => exact c.writeAll_period (hvalues j).1
  | volume => exact c.writeAll_volume (hvalues j).2

/-! ### All settings -/

/-- No tone was clocked since power-on, and the noise is silent. -/
structure AtRest (c : Chip) : Prop where
  divider : c.divider = prescale
  noise : c.noise.volume = silentLevel
  tone : ∀ i, (c.tone i).counter = 0 ∧ (c.tone i).phase = false

theorem atRest_reset (c : Chip) : c.reset.AtRest where
  divider := rfl
  noise := rfl
  tone i := match i with
    | 0 => ⟨rfl, rfl⟩
    | 1 => ⟨rfl, rfl⟩
    | 2 => ⟨rfl, rfl⟩

/-- A setting begins no count. -/
theorem AtRest.toneReplaced {c' : Chip} {j : Fin 3} {r : Register} {value : Nat} (h : c.AtRest)
    (hc : c.ToneReplaced c' j ((c.tone j).withRegister r value)) : c'.AtRest where
  divider := hc.divider.trans h.divider
  noise := (congrArg Noise.volume hc.noise).trans h.noise
  tone i := by
    by_cases hi : i = j
    · subst hi
      rw [hc.tone_self, Tone.counter_withRegister, Tone.phase_withRegister]
      exact h.tone i
    · rw [hc.tone_of_ne i hi]
      exact h.tone i

/-- The registers of the tones after a setting. -/
theorem ToneReplaced.register_tone {c' : Chip} {j : Fin 3} {r : Register} {value : Nat}
    (hc : c.ToneReplaced c' j ((c.tone j).withRegister r value)) (i : Fin 3) (r' : Register) :
    (c'.tone i).register r' = if (i, r') = (j, r) then value else (c.tone i).register r' := by
  by_cases hi : i = j
  · subst hi
    simp only [hc.tone_self, Tone.register_withRegister, Prod.mk.injEq, true_and]
  · rw [hc.tone_of_ne i hi, if_neg fun h => hi (congrArg Prod.fst h)]

/-- **Settings.**  Whatever their order and repetition, settings begin no count, and every register
that one of them names holds its value in the end. -/
theorem writeAll_settings (hvalues : Settable values) (settings : List (Fin 3 × Register))
    (h : c.AtRest) :
    let c' := c.writeAll (settings.flatMap (settingBytes values))
    c'.AtRest ∧ ∀ setting,
      setting ∈ settings ∨ (c.tone setting.1).register setting.2 = values setting →
        (c'.tone setting.1).register setting.2 = values setting := by
  induction settings generalizing c with
  | nil => exact ⟨h, fun setting hsetting => hsetting.resolve_left List.not_mem_nil⟩
  | cons first rest ih =>
      have hfirst := c.writeAll_setting hvalues first
      obtain ⟨hrest, hholds⟩ := ih (h.toneReplaced hfirst)
      intro c'
      have hc' : c' = (c.writeAll (settingBytes values first)).writeAll
          (rest.flatMap (settingBytes values)) := by
        show c.writeAll (_ ++ _) = _
        exact List.foldl_append
      rw [hc']
      refine ⟨hrest, fun setting hsetting => hholds setting ?_⟩
      have hregister := hfirst.register_tone setting.1 setting.2
      -- a register named twice is given the same value twice, so no setting undoes another
      by_cases heq : setting = first
      · rw [if_pos heq] at hregister
        exact .inr (heq ▸ hregister)
      · rw [if_neg heq] at hregister
        rcases hsetting with hmem | hheld
        · exact .inl ((List.mem_cons.mp hmem).resolve_left heq)
        · exact .inr (hregister.trans hheld)

end Chip

end Chiptune
