import Chip8.Instruction
import Chip8.Error
import Chip8.RegisterFile
import Chip8.CallStack
import Chip8.Memory
import Chip8.Font
import Chip8.Keypad
import Chip8.Timer
import Chip8.Random
import Chip8.Display
import Chip8.Machine.Step
import Chip8.Machine.Pulse
import Chip8.Machine.Status
import Chip8.Machine.CatchUp
import Chip8.Audio.Speaker
import Chip8.Host.Pane
import Chip8.Host.CommandLine
import Chip8.Host.Script
import Chip8.Main
import Chip8.Proofs.Opcode
import Chip8.Proofs.Instruction
import Chip8.Proofs.Keypad
import Chip8.Proofs.Keypad.Changes
import Chip8.Proofs.Watched
import Chip8.Proofs.Schedule
import Chip8.Proofs.Schedule.Rounds
import Chip8.Proofs.Schedule.Repeats
import Chip8.Proofs.Machine.Failure
import Chip8.Proofs.Machine.Subroutine
import Chip8.Proofs.Machine.Presentation
import Chip8.Proofs.Machine.CatchUp
import Chip8.Proofs.Machine.Timers
import Chip8.Proofs.Machine.Interleaving
import Chip8.Proofs.Machine.Outcome
import Chip8.Proofs.Machine.Bounds
import Chip8.Proofs.Machine.Effect
import Chip8.Proofs.Machine.RandomStream
import Chip8.Proofs.Machine.Reset
import Chip8.Proofs.Machine.Watched
import Chip8.Proofs.Host.Session
import Chip8.Proofs.Display
import Chip8.Proofs.Host.Plan
import Chip8.Proofs.Host.CommandLine
import Chip8.Proofs.Host.Script
import Chip8.Proofs.Audio.Voice
import Chip8.Proofs.Audio.SharedCounter
import Chip8.Proofs.Audio.Tone
import Chip8.Proofs.Machine.Sprite
import Chip8.Proofs.Machine.Arithmetic
import Chip8.Proofs.Machine.IndexFlag
import Chip8.Proofs.Machine.Block
import Chip8.Proofs.Machine.Counter
import Chip8.Proofs.Machine.Loading
import Chip8.Proofs.Machine.KeyWait
import Chip8.Proofs.Machine.HighIndex
