import Chiptune.Chip.History
import Chiptune.Proofs.Chip.Mutes
import Chiptune.Vgm.Song

/-!
# Playback — Restart

A song is played on a chip that was reset, and a reset leaves nothing of what a host did to the chip
before but its mutes.

* `mutes_run`: the mutes of a used chip are those its mute calls make, the other operations left
  out.
* `reset_eq_muteAll`: so resetting a used chip leaves a new chip with the same mutes, equal to it in
  every field.
* `renderOn_run`: and a song renders on both alike, or fails on both alike.

That no operation but a mute call touches the mutes is one case for each kind of operation
(`mutes_apply`); the history is an induction over them.
-/

namespace Chiptune

namespace Chip

/-- The mute calls in a history. -/
def muteCalls (history : List Operation) : List (Nat × Bool) :=
  history.filterMap fun
    | .mute index muted => some (index, muted)
    | _ => none

/-! ### Mute calls change the mutes, and only by the mutes -/

theorem setMute_eq_withMutes (c : Chip) (index : Nat) (muted : Bool) :
    c.setMute index muted = c.withMutes (c.setMute index muted).mutes := by
  unfold setMute
  split <;> rfl

theorem muteAll_eq_withMutes (c : Chip) (calls : List (Nat × Bool)) :
    c.muteAll calls = c.withMutes (c.muteAll calls).mutes := by
  induction calls generalizing c with
  | nil => rfl
  | cons call rest ih =>
      have hfirst := c.setMute_eq_withMutes call.1 call.2
      calc (c.setMute call.1 call.2).muteAll rest
          = (c.setMute call.1 call.2).withMutes (c.muteAll (call :: rest)).mutes := ih _
        _ = (c.withMutes (c.setMute call.1 call.2).mutes).withMutes
              (c.muteAll (call :: rest)).mutes := congrArg (withMutes · _) hfirst
        _ = c.withMutes (c.muteAll (call :: rest)).mutes := rfl

theorem mutes_setMute_congr {c c' : Chip} (h : c'.mutes = c.mutes) (index : Nat) (muted : Bool) :
    (c'.setMute index muted).mutes = (c.setMute index muted).mutes := by
  unfold setMute
  split
  · exact congrArg (PerVoice.set · _ muted) h
  · exact h

theorem mutes_muteAll_congr {c c' : Chip} (h : c'.mutes = c.mutes) (calls : List (Nat × Bool)) :
    (c'.muteAll calls).mutes = (c.muteAll calls).mutes := by
  induction calls generalizing c c' with
  | nil => exact h
  | cons call rest ih => exact ih (mutes_setMute_congr h call.1 call.2)

/-! ### Mutes along a history -/

theorem mutes_renderSamples (c : Chip) (samples : Array Int) (cycles count : Nat) :
    (SoundDevice.renderSamples c samples cycles count).1.mutes = c.mutes := by
  rw [fst_renderSamples, mutes_advance]

/-- No operation but a mute call touches the mutes. -/
theorem mutes_apply (c : Chip) (op : Operation) :
    (c.apply op).mutes = (c.muteAll (muteCalls [op])).mutes := by
  cases op with
  | write byte => exact c.mutes_write byte
  | advance cycles => exact c.mutes_advance cycles
  | render cycles count => exact c.mutes_renderSamples _ cycles count
  | reset => exact c.mutes_reset
  | mute index muted => rfl

/-- Of a history, only the mute calls show in the mutes. -/
theorem mutes_run (c : Chip) (history : List Operation) :
    (c.run history).mutes = (c.muteAll (muteCalls history)).mutes := by
  induction history generalizing c with
  | nil => rfl
  | cons op rest ih =>
      have hsplit : muteCalls (op :: rest) = muteCalls [op] ++ muteCalls rest :=
        List.filterMap_append (l := [op])
      rw [run_cons, ih, hsplit, muteAll, muteAll, List.foldl_append]
      exact mutes_muteAll_congr (c.mutes_apply op) (muteCalls rest)

/-! ### Reset -/

/-- A reset forgets no field but the mutes. -/
theorem reset_eq_withMutes (c : Chip) : c.reset = powerOn.withMutes c.mutes := rfl

/-- A reset chip is a new chip that was muted alike. -/
theorem reset_eq_muteAll {c : Chip} {calls : List (Nat × Bool)}
    (h : (powerOn.muteAll calls).mutes = c.mutes) : c.reset = powerOn.muteAll calls := by
  rw [reset_eq_withMutes, muteAll_eq_withMutes, h]

end Chip

namespace Song

/-- **A used chip plays like a new one.**  Whatever a host did to a chip, a reset puts every field
back to that of a new chip and leaves the mutes alone, and these are the mutes that the mute calls
alone make on a new chip.  So a song renders on the used chip, or fails on it, as on any new chip
that was only muted and has the same mutes. -/
theorem renderOn_run (song : Song) (history : List Chip.Operation) :
    let used := Chip.powerOn.run history
    used.reset = { Chip.powerOn with mutes := used.mutes } ∧
    (Chip.powerOn.muteAll (Chip.muteCalls history)).mutes = used.mutes ∧
    ∀ calls, (Chip.powerOn.muteAll calls).mutes = used.mutes →
      used.reset = Chip.powerOn.muteAll calls ∧
      song.renderOn used = song.renderOn (Chip.powerOn.muteAll calls) := by
  intro used
  refine ⟨used.reset_eq_withMutes, (Chip.powerOn.mutes_run history).symm, fun calls hcalls => ?_⟩
  have hused : used.reset = Chip.powerOn.muteAll calls := Chip.reset_eq_muteAll hcalls
  have hfresh : (Chip.powerOn.muteAll calls).reset = Chip.powerOn.muteAll calls :=
    Chip.reset_eq_muteAll rfl
  refine ⟨hused, ?_⟩
  show (Player.start song.image song.header used.reset).run.1 =
    (Player.start song.image song.header (Chip.powerOn.muteAll calls).reset).run.1
  rw [hused, hfresh]

/-- A chip that was written to, ran on, and was muted back and forth renders the song as a new chip
with its noise muted. -/
theorem renderOn_run_muted_noise :
    let image : ByteArray := ⟨#[0x50, 0x90, 0x70, 0x66]⟩
    let song : Song :=
      ⟨{ Header.fields image with clock := 3579545, totalSamples := 2, dataOffset := 0 }, image⟩
    let used := Chip.powerOn.run
      [.mute 3 true, .write 0xE7, .write 0x8A, .advance 37, .mute 0 true, .render 81 2, .reset,
        .mute 0 false, .mute 7 true]
    used.reset = Chip.powerOn.muteAll [(3, true)] ∧
      song.renderOn used = song.renderOn (Chip.powerOn.muteAll [(3, true)]) := by
  intro image song used
  obtain ⟨-, hmutes, hcalls⟩ := song.renderOn_run
    [.mute 3 true, .write 0xE7, .write 0x8A, .advance 37, .mute 0 true, .render 81 2, .reset,
      .mute 0 false, .mute 7 true]
  have hsame : (Chip.powerOn.muteAll [(3, true)]).mutes =
      (Chip.powerOn.muteAll [(3, true), (0, true), (0, false), (7, true)]).mutes := by decide
  exact hcalls [(3, true)] (hsame.trans hmutes)

end Song

end Chiptune
