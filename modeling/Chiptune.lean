import Chiptune.Json.Reader
import Chiptune.Main
import Chiptune.Proofs.Audio.Exports
import Chiptune.Proofs.Audio.Fade
import Chiptune.Proofs.Chip.Checked
import Chiptune.Proofs.Chip.Crossings
import Chiptune.Proofs.Chip.Decomposition
import Chiptune.Proofs.Chip.FastForward
import Chiptune.Proofs.Chip.Loudness
import Chiptune.Proofs.Chip.NoiseCycles
import Chiptune.Proofs.Chip.Registers
import Chiptune.Proofs.Chip.Reload
import Chiptune.Proofs.File.Names
import Chiptune.Proofs.Gzip.Limit
import Chiptune.Proofs.Playback.Accounts
import Chiptune.Proofs.Playback.Dependence
import Chiptune.Proofs.Playback.Drift
import Chiptune.Proofs.Playback.Failure
import Chiptune.Proofs.Playback.Length
import Chiptune.Proofs.Playback.Restart
import Chiptune.Proofs.Playback.SquareWave
import Chiptune.Proofs.Playback.Stems
import Chiptune.Proofs.Program.Stages
import Chiptune.Proofs.Vgm.Encodings
import Chiptune.Proofs.Vgm.Fields
import Chiptune.Proofs.Vgm.Loading
