import ScriptHost.Arguments
import ScriptHost.Bridge
import ScriptHost.Bundles
import ScriptHost.Calendar
import ScriptHost.Commands
import ScriptHost.Console
import ScriptHost.Control
import ScriptHost.Decimal.Binary
import ScriptHost.Decimal.Layout
import ScriptHost.Decimal.Read
import ScriptHost.Decimal.Shortest
import ScriptHost.Execution
import ScriptHost.Files
import ScriptHost.Guest.Call
import ScriptHost.Guest.Code
import ScriptHost.Guest.Compile
import ScriptHost.Guest.Display
import ScriptHost.Guest.Format
import ScriptHost.Guest.Freeze
import ScriptHost.Guest.Globals
import ScriptHost.Guest.Heap
import ScriptHost.Guest.Inspect
import ScriptHost.Guest.Library
import ScriptHost.Guest.Library.Additions
import ScriptHost.Guest.Library.Base
import ScriptHost.Guest.Library.Catalog
import ScriptHost.Guest.Library.Clock
import ScriptHost.Guest.Library.CodePoints
import ScriptHost.Guest.Library.Conversion
import ScriptHost.Guest.Library.Coroutines
import ScriptHost.Guest.Library.Frozen
import ScriptHost.Guest.Library.Mathematics
import ScriptHost.Guest.Library.Scripts
import ScriptHost.Guest.Library.Strings
import ScriptHost.Guest.Library.Tables
import ScriptHost.Guest.Machine
import ScriptHost.Guest.Native
import ScriptHost.Guest.Number
import ScriptHost.Guest.Parser
import ScriptHost.Guest.Pattern
import ScriptHost.Guest.Render
import ScriptHost.Guest.Sandbox
import ScriptHost.Guest.Scope
import ScriptHost.Guest.Syntax
import ScriptHost.Guest.Table
import ScriptHost.Guest.Token
import ScriptHost.Guest.Value
import ScriptHost.GuestError
import ScriptHost.Host
import ScriptHost.HostError
import ScriptHost.Json
import ScriptHost.Lifecycle
import ScriptHost.Lifetime
import ScriptHost.Log
import ScriptHost.LogFilter
import ScriptHost.Main
import ScriptHost.Name
import ScriptHost.Path
import ScriptHost.Program
import ScriptHost.Proofs.Bridge
import ScriptHost.Proofs.Bridge.Handles
import ScriptHost.Proofs.Commands
import ScriptHost.Proofs.Commands.Presenting
import ScriptHost.Proofs.Console
import ScriptHost.Proofs.Guest.Access
import ScriptHost.Proofs.Guest.Acting
import ScriptHost.Proofs.Guest.Arguments
import ScriptHost.Proofs.Guest.Belonging
import ScriptHost.Proofs.Guest.Confined
import ScriptHost.Proofs.Guest.Contents
import ScriptHost.Proofs.Guest.Conversion
import ScriptHost.Proofs.Guest.Copying
import ScriptHost.Proofs.Guest.Effects
import ScriptHost.Proofs.Guest.Freezing
import ScriptHost.Proofs.Guest.FrozenJson
import ScriptHost.Proofs.Guest.Guarded
import ScriptHost.Proofs.Guest.Heap
import ScriptHost.Proofs.Guest.InAnyOrder
import ScriptHost.Proofs.Guest.InterpreterActs
import ScriptHost.Proofs.Guest.LibraryActs
import ScriptHost.Proofs.Guest.MachineActs
import ScriptHost.Proofs.Guest.Members
import ScriptHost.Proofs.Guest.Mirrors
import ScriptHost.Proofs.Guest.Moves
import ScriptHost.Proofs.Guest.Names
import ScriptHost.Proofs.Guest.NativesAct
import ScriptHost.Proofs.Guest.Nesting
import ScriptHost.Proofs.Guest.PathJson
import ScriptHost.Proofs.Guest.Paths
import ScriptHost.Proofs.Guest.Rendering
import ScriptHost.Proofs.Guest.Reproduction
import ScriptHost.Proofs.Guest.Sandboxes
import ScriptHost.Proofs.Guest.Sequences
import ScriptHost.Proofs.Guest.SharedEnvironment
import ScriptHost.Proofs.Guest.Splitting
import ScriptHost.Proofs.Guest.Stored
import ScriptHost.Proofs.Guest.Table
import ScriptHost.Proofs.Guest.Vault
import ScriptHost.Proofs.Histories
import ScriptHost.Proofs.Host.Answers
import ScriptHost.Proofs.Host.Api
import ScriptHost.Proofs.Host.Besides
import ScriptHost.Proofs.Host.ByActs
import ScriptHost.Proofs.Host.Departures
import ScriptHost.Proofs.Host.Errands
import ScriptHost.Proofs.Host.FailedLoad
import ScriptHost.Proofs.Host.HookLists
import ScriptHost.Proofs.Host.HookOrder
import ScriptHost.Proofs.Host.HookRuns
import ScriptHost.Proofs.Host.InTurn
import ScriptHost.Proofs.Host.Journey
import ScriptHost.Proofs.Host.Lasting
import ScriptHost.Proofs.Host.LikeActs
import ScriptHost.Proofs.Host.LikeLoads
import ScriptHost.Proofs.Host.LikeParts
import ScriptHost.Proofs.Host.Likeness
import ScriptHost.Proofs.Host.Modest
import ScriptHost.Proofs.Host.Noting
import ScriptHost.Proofs.Host.OldTasks
import ScriptHost.Proofs.Host.OneTurn
import ScriptHost.Proofs.Host.Orderly
import ScriptHost.Proofs.Host.Owners
import ScriptHost.Proofs.Host.Ownership
import ScriptHost.Proofs.Host.Reach
import ScriptHost.Proofs.Host.Registrations
import ScriptHost.Proofs.Host.Renewal
import ScriptHost.Proofs.Host.Routing
import ScriptHost.Proofs.Host.Steps
import ScriptHost.Proofs.Host.Stints
import ScriptHost.Proofs.Host.Tasks
import ScriptHost.Proofs.Host.Tidy
import ScriptHost.Proofs.Host.Trail
import ScriptHost.Proofs.Host.Unload
import ScriptHost.Proofs.HostError
import ScriptHost.Proofs.Modules
import ScriptHost.Proofs.Path
import ScriptHost.Proofs.Scheduler.Agreement
import ScriptHost.Proofs.Scheduler.Balance
import ScriptHost.Proofs.Scheduler.Conduct
import ScriptHost.Proofs.Scheduler.Course
import ScriptHost.Proofs.Scheduler.Dealings
import ScriptHost.Proofs.Scheduler.Leading
import ScriptHost.Proofs.Scheduler.Others
import ScriptHost.Proofs.Scheduler.PinMatching
import ScriptHost.Proofs.Scheduler.Release
import ScriptHost.Proofs.Scheduler.Retirement
import ScriptHost.Proofs.SharedObjects
import ScriptHost.Proofs.SharedObjects.OwnedMap
import ScriptHost.Proofs.SideBySide
import ScriptHost.Proofs.Tasks.Errand
import ScriptHost.Proofs.Tasks.Outstanding
import ScriptHost.Proofs.Tasks.Seclusion
import ScriptHost.Proofs.Tasks.Sweep
import ScriptHost.Proofs.Tasks.Tale
import ScriptHost.Proofs.Tasks.Timetable
import ScriptHost.Proofs.Text.Cuts
import ScriptHost.Proofs.Text.Split
import ScriptHost.Proofs.Text.Words
import ScriptHost.Proofs.TickRunner.Account
import ScriptHost.Proofs.TickRunner.Due
import ScriptHost.Proofs.TickRunner.Entries
import ScriptHost.Proofs.TickRunner.Fates
import ScriptHost.Proofs.TickRunner.FiringOrder
import ScriptHost.Proofs.TickRunner.FiringSchedule
import ScriptHost.Proofs.TickRunner.History
import ScriptHost.Proofs.TickRunner.Moments
import ScriptHost.Proofs.TickRunner.Overdue
import ScriptHost.Proofs.TickRunner.Standing
import ScriptHost.Proofs.TreeMap
import ScriptHost.Report
import ScriptHost.Scheduler
import ScriptHost.Settings
import ScriptHost.SharedObjects
import ScriptHost.TaskMode
import ScriptHost.Text.Blank
import ScriptHost.Text.Lowercase
import ScriptHost.Text.Split
import ScriptHost.Text.Utf8
import ScriptHost.TickRunner
