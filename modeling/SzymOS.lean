import SzymOS.Lib.Run
import SzymOS.Lib.Oracle
import SzymOS.Lib.Bytes
import SzymOS.Lib.Ram
import SzymOS.Lib.BlockWrites
import SzymOS.Lib.Polling
import SzymOS.Lib.Grid
import SzymOS.Lib.Numerals
import SzymOS.Lib.Scan
import SzymOS.Lib.Lexicographic
import SzymOS.Lib.Signed
import SzymOS.Kernel.Strings
import SzymOS.Kernel.StringOrder
import SzymOS.Kernel.Terminal
import SzymOS.Kernel.Messages
import SzymOS.Kernel.Copies
import SzymOS.Filesystem.Layout
import SzymOS.Filesystem.Code
import SzymOS.Kernel.Boot
import SzymOS.Filesystem.Directory
import SzymOS.Filesystem.Effects
import SzymOS.Filesystem.InMemory
import SzymOS.Filesystem.Steps
import SzymOS.Filesystem.FileMap
import SzymOS.Filesystem.Refinement
import SzymOS.Filesystem.CallerBuffer
import SzymOS.Filesystem.PortDrive
import SzymOS.Filesystem.SaveTime
import SzymOS.Filesystem.SectorDrive
import SzymOS.Filesystem.SavedImage
import SzymOS.Filesystem.PlatformView
import SzymOS.Filesystem.Ports
import SzymOS.Filesystem.SaveLoad
import SzymOS.Filesystem.Untrusted
import SzymOS.Filesystem.TornImage
import SzymOS.Filesystem.Interruption
import SzymOS.Filesystem.OtherFiles
import SzymOS.Filesystem.FileCount
import SzymOS.Filesystem.BootLoss
import SzymOS.Filesystem.PartialLoad
import SzymOS.Filesystem.SlotLayout
import SzymOS.Kernel.Ata
import SzymOS.Kernel.AtaPorts
import SzymOS.Kernel.Handshake
import SzymOS.Kernel.Responder
import SzymOS.Kernel.Requests
import SzymOS.Kernel.SectorDrivers
import SzymOS.Kernel.Machine
import SzymOS.Kernel.Shell
import SzymOS.Kernel.ShellFiles
import SzymOS.Kernel.WriteCommand
import SzymOS.Kernel.CommandText
import SzymOS.Kernel.MapShell
import SzymOS.Kernel.DiskSelector
import SzymOS.Kernel.Detection
import SzymOS.Kernel.Identify
import SzymOS.Kernel.Waits
import SzymOS.Kernel.Confinement
import SzymOS.Kernel.SerialLine
import SzymOS.Kernel.DriveAgreement
import SzymOS.Kernel.AtaDisk
import SzymOS.Kernel.Durability
import SzymOS.Kernel.SharedDisk
import SzymOS.Kernel.Screen
import SzymOS.Kernel.LineEditor
import SzymOS.Kernel.Keyboard
import SzymOS.Kernel.AutoRepeat
import SzymOS.Kernel.CommandLine
import SzymOS.Kernel.Console
import SzymOS.Kernel.PowerCycles
import SzymOS.Kernel.PortEvents
import SzymOS.Kernel.Start
import SzymOS.Kernel.Waiting
import SzymOS.Kernel.Printf
import SzymOS.Kernel.PrintfNumbers
import SzymOS.Kernel.PrintfFormat
import SzymOS.Kernel.OnScreen
import SzymOS.Kernel.Rendering
import SzymOS.Kernel.Calculator
import SzymOS.Kernel.CalcNumbers
