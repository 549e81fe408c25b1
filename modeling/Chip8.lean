import Chip8.Main
import Chip8.Proofs.Access
import Chip8.Proofs.Outcome
import Chip8.Proofs.Step
import Chip8.Proofs.NoFault
import Chip8.Proofs.History
import Chip8.Proofs.Bounds
import Chip8.Proofs.Halting
import Chip8.Proofs.Runs
import Chip8.Proofs.Core
import Chip8.Proofs.Unseen
import Chip8.Proofs.Pacing
import Chip8.Proofs.Codec
import Chip8.Proofs.Programs
import Chip8.Proofs.Loading
import Chip8.Proofs.Direct
import Chip8.Proofs.Subroutine
import Chip8.Proofs.Showing
import Chip8.Proofs.FontPlace
import Chip8.Proofs.Hooks
import Chip8.Proofs.FreshStart
import Chip8.Proofs.Closing
import Chip8.Proofs.FrameRate
import Chip8.Proofs.KeyEvents
import Chip8.Proofs.Alignment
import Chip8.Proofs.Congruence
import Chip8.Proofs.Diagnostics
import Chip8.Proofs.Drawing
import Chip8.Proofs.Collision
import Chip8.Proofs.DrawInstruction
import Chip8.Proofs.Successor
import Chip8.Proofs.Arithmetic
import Chip8.Proofs.Transfer
import Chip8.Proofs.Footprint
import Chip8.Proofs.SavedRegisters
import Chip8.Proofs.ByteMap
import Chip8.Proofs.Refusals
import Chip8.Proofs.Running
import Chip8.Proofs.Glyphs
import Chip8.Proofs.Timers
import Chip8.Proofs.Spelling
import Chip8.Proofs.KeymapText
import Chip8.Proofs.FrameBuffer
import Chip8.Proofs.SpeedLimit
import Chip8.Proofs.Tracing
import Chip8.Proofs.Assembly
import Chip8.Proofs.Addressing
