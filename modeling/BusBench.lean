import BusBench.Arguments
import BusBench.Bench
import BusBench.Binary64
import BusBench.Blank
import BusBench.Bus
import BusBench.CallCount
import BusBench.CheckCommand
import BusBench.CommandLine
import BusBench.Config
import BusBench.ConfigCheck
import BusBench.ConfigReader
import BusBench.ConfigText
import BusBench.Coverage
import BusBench.CoverageFile
import BusBench.Device
import BusBench.Document
import BusBench.Fault
import BusBench.Fields
import BusBench.FileTree
import BusBench.FloatText
import BusBench.Gzip
import BusBench.HexText
import BusBench.Invocation
import BusBench.JsonReader
import BusBench.JsonText
import BusBench.Listing
import BusBench.Main
import BusBench.Master
import BusBench.Medium
import BusBench.Memory
import BusBench.MemoryImage
import BusBench.Path
import BusBench.Pins
import BusBench.PinsReader
import BusBench.Playback
import BusBench.Proofs.Acceptance
import BusBench.Proofs.Anchoring
import BusBench.Proofs.Bookkeeping
import BusBench.Proofs.ByteHistory
import BusBench.Proofs.CheckSoundness
import BusBench.Proofs.CheckedWords
import BusBench.Proofs.ClockLevel
import BusBench.Proofs.Constraints
import BusBench.Proofs.Coverings
import BusBench.Proofs.Cutoff
import BusBench.Proofs.Edges
import BusBench.Proofs.FailedTick
import BusBench.Proofs.FirstOffender
import BusBench.Proofs.Frames
import BusBench.Proofs.Handshakes
import BusBench.Proofs.HexDigits
import BusBench.Proofs.IdentifierCodes
import BusBench.Proofs.ImageText
import BusBench.Proofs.Inputs
import BusBench.Proofs.Interpreter
import BusBench.Proofs.Inversions
import BusBench.Proofs.Journals
import BusBench.Proofs.JsonTexts
import BusBench.Proofs.Lanes
import BusBench.Proofs.Layouts
import BusBench.Proofs.Lifecycle
import BusBench.Proofs.LimitedDumps
import BusBench.Proofs.Lines
import BusBench.Proofs.ListingLabels
import BusBench.Proofs.MasterEdges
import BusBench.Proofs.Nested
import BusBench.Proofs.Observers
import BusBench.Proofs.Places
import BusBench.Proofs.Preload
import BusBench.Proofs.Ratios
import BusBench.Proofs.Recordings
import BusBench.Proofs.RegressRows
import BusBench.Proofs.Responses
import BusBench.Proofs.Restart
import BusBench.Proofs.RunLaw
import BusBench.Proofs.Scenes
import BusBench.Proofs.ScriptReaders
import BusBench.Proofs.ScriptRuns
import BusBench.Proofs.ScriptSimulation
import BusBench.Proofs.ScriptViews
import BusBench.Proofs.SentinelPrecedence
import BusBench.Proofs.Service
import BusBench.Proofs.SpelledWords
import BusBench.Proofs.Stepping
import BusBench.Proofs.StoredWords
import BusBench.Proofs.StrayKeys
import BusBench.Proofs.TableLines
import BusBench.Proofs.Teardown
import BusBench.Proofs.TestConfigs
import BusBench.Proofs.TestFiles
import BusBench.Proofs.Ticks
import BusBench.Proofs.ToggleCounts
import BusBench.Proofs.VcdDecoding
import BusBench.Proofs.VcdLines
import BusBench.Proofs.VcdReader
import BusBench.Proofs.Violations
import BusBench.Proofs.WaitStates
import BusBench.Quoted
import BusBench.Reading
import BusBench.RegressCommand
import BusBench.Report
import BusBench.ReportText
import BusBench.RunCommand
import BusBench.Schedule
import BusBench.Script
import BusBench.ScriptReader
import BusBench.Sentinel
import BusBench.Session
import BusBench.Settings
import BusBench.ShortestDecimal
import BusBench.Simulation
import BusBench.Sink
import BusBench.Toml
import BusBench.TomlScalar
import BusBench.TomlTable
import BusBench.TomlText
import BusBench.Unprintable
import BusBench.UsageText
import BusBench.Vcd
import BusBench.Word
import BusBench.Workspace
