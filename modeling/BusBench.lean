import BusBench.Binary.I2c
import BusBench.Binary.Root
import BusBench.Binary.Session
import BusBench.Binary.Spi
import BusBench.Binary.Uart
import BusBench.BitBang.Gpio
import BusBench.BitBang.I2c
import BusBench.BitBang.OneWire
import BusBench.BitBang.Scripted
import BusBench.BitBang.Search
import BusBench.BitBang.Spi
import BusBench.Board.Claim
import BusBench.Board.Controller
import BusBench.Board.Faults
import BusBench.Board.Log
import BusBench.Board.Recording
import BusBench.Board.Request
import BusBench.Board.Simulated
import BusBench.Board.Volts
import BusBench.Bus.Byte
import BusBench.Bus.I2c
import BusBench.Bus.Spi
import BusBench.Bus.Uart
import BusBench.CommandLine
import BusBench.Dialogue
import BusBench.Error
import BusBench.Link.Basic
import BusBench.Link.Detector
import BusBench.Main
import BusBench.Prompt.Bench
import BusBench.Prompt.Command
import BusBench.Prompt.I2c
import BusBench.Prompt.MacroTable
import BusBench.Prompt.Mode
import BusBench.Prompt.OneWire
import BusBench.Prompt.Serve
import BusBench.Prompt.Spi
import BusBench.Prompt.Uart
import BusBench.Proofs.Binary.Agreement
import BusBench.Proofs.Binary.Commands
import BusBench.Proofs.Binary.Framing
import BusBench.Proofs.Binary.I2c
import BusBench.Proofs.Binary.Leaving
import BusBench.Proofs.Binary.Parts
import BusBench.Proofs.Binary.Pauses
import BusBench.Proofs.Binary.Programs
import BusBench.Proofs.Binary.Resync
import BusBench.Proofs.Binary.Root
import BusBench.Proofs.Binary.Rounds
import BusBench.Proofs.Binary.Selection
import BusBench.Proofs.Binary.Settings
import BusBench.Proofs.Binary.Spending
import BusBench.Proofs.Binary.Spi
import BusBench.Proofs.Binary.Uart
import BusBench.Proofs.BitBang.I2cAnalyser
import BusBench.Proofs.BitBang.I2cClock
import BusBench.Proofs.BitBang.Pins
import BusBench.Proofs.BitBang.Runs
import BusBench.Proofs.BitBang.SpiBits
import BusBench.Proofs.BitBang.SpiWaveform
import BusBench.Proofs.Bus.Byte
import BusBench.Proofs.I2c.Counterparts
import BusBench.Proofs.I2c.Forms
import BusBench.Proofs.I2c.FreeBus
import BusBench.Proofs.I2c.Groups
import BusBench.Proofs.I2c.Lines
import BusBench.Proofs.I2c.Pulses
import BusBench.Proofs.I2c.Refinement
import BusBench.Proofs.I2c.Transaction
import BusBench.Proofs.I2c.Transcripts
import BusBench.Proofs.Link.Dialogues
import BusBench.Proofs.Link.Frames
import BusBench.Proofs.Link.Pauses
import BusBench.Proofs.Link.Spending
import BusBench.Proofs.Memory.Histories
import BusBench.Proofs.Memory.Store
import BusBench.Proofs.OneWire.Bytes
import BusBench.Proofs.OneWire.DeviceMacros
import BusBench.Proofs.OneWire.Naming
import BusBench.Proofs.OneWire.RomOrder
import BusBench.Proofs.OneWire.SearchComplete
import BusBench.Proofs.OneWire.SearchEnds
import BusBench.Proofs.OneWire.SearchPass
import BusBench.Proofs.OneWire.Slots
import BusBench.Proofs.Prompt.Commands
import BusBench.Proofs.Prompt.Deeds
import BusBench.Proofs.Prompt.Lamp
import BusBench.Proofs.Prompt.ModeLed
import BusBench.Proofs.Prompt.UserPin
import BusBench.Proofs.Resources.Accounts
import BusBench.Proofs.Resources.Commands
import BusBench.Proofs.Resources.Custody
import BusBench.Proofs.Resources.Engines
import BusBench.Proofs.Resources.Locks
import BusBench.Proofs.Resources.Modes
import BusBench.Proofs.Resources.Ownership
import BusBench.Proofs.Resources.Recorded
import BusBench.Proofs.Resources.Sequences
import BusBench.Proofs.Resources.Sessions
import BusBench.Proofs.Sequence.Commands
import BusBench.Proofs.Sequence.Composition
import BusBench.Proofs.Sequence.Literals
import BusBench.Proofs.Sequence.Spelling
import BusBench.Proofs.Sequence.Tokens
import BusBench.Proofs.Serve.Announcement
import BusBench.Proofs.Serve.Endings
import BusBench.Proofs.Serve.Guarded
import BusBench.Proofs.Serve.Handover
import BusBench.Proofs.Serve.LineEnds
import BusBench.Proofs.Serve.Menus
import BusBench.Proofs.Serve.Safety
import BusBench.Proofs.Serve.Termination
import BusBench.Proofs.Terminals.Accord
import BusBench.Proofs.Terminals.Annotated
import BusBench.Proofs.Terminals.Announcements
import BusBench.Proofs.Terminals.Answers
import BusBench.Proofs.Terminals.Attended
import BusBench.Proofs.Terminals.Commands
import BusBench.Proofs.Terminals.Editing
import BusBench.Proofs.Terminals.LineEnds
import BusBench.Proofs.Terminals.Lines
import BusBench.Proofs.Terminals.Modes
import BusBench.Proofs.Terminals.Respelled
import BusBench.Proofs.Terminals.Screens
import BusBench.Proofs.Terminals.Spending
import BusBench.Proofs.Terminals.Waits
import BusBench.Proofs.Terminals.Zeros
import BusBench.Proofs.Text.Literals
import BusBench.Proofs.Text.Numerals
import BusBench.Proofs.Text.Printable
import BusBench.Proofs.Twins.Bench
import BusBench.Proofs.Twins.Binary
import BusBench.Proofs.Twins.Boards
import BusBench.Proofs.Twins.Commands
import BusBench.Proofs.Twins.Loopback
import BusBench.Proofs.Twins.Pairs
import BusBench.Proofs.Twins.Prompt
import BusBench.Proofs.Twins.Sessions
import BusBench.Proofs.Uart.Forwarding
import BusBench.Proofs.Uart.Port
import BusBench.Proofs.Uart.Recorded
import BusBench.Proofs.Uart.Settings
import BusBench.Proofs.World.Guards
import BusBench.Proofs.World.Listening
import BusBench.Proofs.World.Moments
import BusBench.Proofs.World.Monitors
import BusBench.Proofs.World.Showing
import BusBench.Proofs.World.Spending
import BusBench.Proofs.World.Talks
import BusBench.Proofs.World.Working
import BusBench.Rounds
import BusBench.Sequence.Action
import BusBench.Sequence.Parser
import BusBench.Terminal.Basic
import BusBench.Terminal.Console
import BusBench.Terminal.Script
import BusBench.Text.Blank
import BusBench.Text.Literal
import BusBench.Text.Numeral
import BusBench.Wire.I2cTarget
import BusBench.Wire.OneWireDevices
import BusBench.Wire.Plain
import BusBench.World
