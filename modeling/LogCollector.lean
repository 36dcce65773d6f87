import LogCollector.Lib.Machine
import LogCollector.CString
import LogCollector.FileHandle.Basic
import LogCollector.FileHandle.RefCount
import LogCollector.FileHandle.Drain
import LogCollector.FileHandle.ErrorPaths
import LogCollector.Lib.Sometime
import LogCollector.FileHandle.SizeLimit
import LogCollector.Lib.BoundedQueue
import LogCollector.Lib.Counter
import LogCollector.Lib.Reservations
import LogCollector.Ring.Basic
import LogCollector.Ring.Copy
import LogCollector.Ring.Machine
import LogCollector.Ring.Invariant
import LogCollector.Ring.MultiProducer
import LogCollector.Ring.Fifo
import LogCollector.Json.Value
import LogCollector.Json.Serialize
import LogCollector.Json.Lexer
import LogCollector.Json.Parser
import LogCollector.Json.Lines
import LogCollector.Loops.WorkerExit
import LogCollector.Loops.MasterExit
import LogCollector.Loops.Conservation
import LogCollector.Loops.Buffering
import LogCollector.Hash
import LogCollector.Records.CustomFunctions
import LogCollector.Records.Emission
import LogCollector.Records.Noninterference
import LogCollector.Lib.EarliestBest
import LogCollector.Records.Selection
import LogCollector.Records.FieldValues
import LogCollector.Datagram
import LogCollector.FileHandle.Accounting
import LogCollector.Lib.InPlace
import LogCollector.Plugins.Fields
import LogCollector.Startup.Rings
import LogCollector.Startup.Roles
import LogCollector.Startup.Routing
import LogCollector.Plugins.FieldSyntax
import LogCollector.Plugins.Lines
import LogCollector.Plugins.Sanitize
import LogCollector.Plugins.Directives
import LogCollector.Lib.Overwrite
import LogCollector.Plugins.Slots
import LogCollector.Plugins.Independence
import LogCollector.Plugins.Blocks
import LogCollector.Records.Translations
import LogCollector.Records.HashCoverage
import LogCollector.Records.PassTables
import LogCollector.Plugins.Delimiters
import LogCollector.Plugins.Loading
import LogCollector.Config.Handlers
import LogCollector.Config.Sizes
import LogCollector.Config.Totality
import LogCollector.Config.Listed
import LogCollector.Lib.Places
import LogCollector.Config.Bounds
import LogCollector.Records.ReservedKeys
import LogCollector.Lib.Hexadecimal
import LogCollector.Tools.Keys
import LogCollector.Lib.Separated
import LogCollector.Startup.CoreTable
import LogCollector.Tools.CoreMasks
import LogCollector.HashTable.Hmap
import LogCollector.HashTable.Linked
import LogCollector.HashTable.Walk
import LogCollector.HashTable.Shash
import LogCollector.HashTable.Dictionary
import LogCollector.Json.Acceptance
import LogCollector.Json.Lexing
import LogCollector.Json.Reading
import LogCollector.Lib.Relay
import LogCollector.Loops.Files
import LogCollector.Startup.Delivery
import LogCollector.Startup.Contents
import LogCollector.Lib.Sorted
import LogCollector.Json.Layout
import LogCollector.Json.Canonical
