import Chip8.Error.Basic
import Chip8.Main
import Chip8.Proofs.Blocks
import Chip8.Proofs.Opcode
import Chip8.Proofs.Invariant
import Chip8.Proofs.Pixels
import Chip8.Proofs.Drawings
import Chip8.Proofs.LitCount
import Chip8.Proofs.Faults
import Chip8.Proofs.Manual
import Chip8.Proofs.Run
import Chip8.Proofs.Step
import Chip8.Proofs.Perform
import Chip8.Proofs.Footprint
import Chip8.Proofs.Calls
import Chip8.Proofs.Timers
import Chip8.Proofs.KeyWait
import Chip8.Proofs.Disassembly
import Chip8.Proofs.Reading
import Chip8.Proofs.Stopped
import Chip8.Proofs.Idle
import Chip8.Proofs.KeyEvents
import Chip8.Proofs.Stores
import Chip8.Proofs.Transfer
import Chip8.Proofs.Flags
import Chip8.Proofs.Overrides
import Chip8.Proofs.Settings
import Chip8.Proofs.Frames
import Chip8.Proofs.Bare
import Chip8.Proofs.Repress
import Chip8.Proofs.Beep
import Chip8.Proofs.Usable
import Chip8.Proofs.Utf8
import Chip8.Proofs.SettingsFile
import Chip8.Proofs.Arithmetic
import Chip8.Proofs.RandomNumbers
import Chip8.Proofs.Answers
import Chip8.Proofs.Merging
import Chip8.Proofs.Listing
import Chip8.Proofs.Paths
import Chip8.Proofs.Loading
import Chip8.Proofs.Brightness
import Chip8.Proofs.Pictures
import Chip8.Proofs.Reach
import Chip8.Proofs.Rolling
import Chip8.Proofs.Events
import Chip8.Proofs.BeepLength
import Chip8.Proofs.Overlay
