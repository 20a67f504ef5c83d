import Chip8.Bench
import Chip8.Instruction.Pattern
import Chip8.Instruction.Word
import Chip8.Main
import Chip8.Proofs.Addressing
import Chip8.Proofs.Arithmetic
import Chip8.Proofs.Blocks
import Chip8.Proofs.CallStack
import Chip8.Proofs.Channels
import Chip8.Proofs.Coherence
import Chip8.Proofs.Culprit
import Chip8.Proofs.Decoding
import Chip8.Proofs.Drawing
import Chip8.Proofs.Draws
import Chip8.Proofs.Failure
import Chip8.Proofs.Footprint
import Chip8.Proofs.Grammar
import Chip8.Proofs.Holding
import Chip8.Proofs.Independence
import Chip8.Proofs.Interleaving
import Chip8.Proofs.Latching
import Chip8.Proofs.LetterCase
import Chip8.Proofs.Loading
import Chip8.Proofs.LongSprites
import Chip8.Proofs.Overlays
import Chip8.Proofs.Points
import Chip8.Proofs.ProgramCounter
import Chip8.Proofs.Queries
import Chip8.Proofs.Reading
import Chip8.Proofs.Reports
import Chip8.Proofs.RunLoop
import Chip8.Proofs.Screens
import Chip8.Proofs.Sessions
import Chip8.Proofs.Showing
import Chip8.Proofs.Sprites
import Chip8.Proofs.StateLine
import Chip8.Proofs.Timers
import Chip8.Proofs.Waiting
