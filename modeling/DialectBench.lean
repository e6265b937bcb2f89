import DialectBench.Command.Scripted
import DialectBench.Main
import DialectBench.Proofs.Session.Calls
import DialectBench.Proofs.Bench.Course
import DialectBench.Proofs.Bench.Cover
import DialectBench.Proofs.Bench.Interruption
import DialectBench.Proofs.Bench.Preparation
import DialectBench.Proofs.Bench.Report
import DialectBench.Proofs.Bench.Teardown
import DialectBench.Proofs.Bench.BestEffort
import DialectBench.Proofs.Bench.Heeding
import DialectBench.Proofs.Bench.Containment
import DialectBench.Proofs.Path.Ancestors
import DialectBench.Proofs.Disk.Sound
import DialectBench.Proofs.Disk.Route
import DialectBench.Proofs.Disk.Lead
import DialectBench.Proofs.Disk.Making
import DialectBench.Proofs.Collection.House
import DialectBench.Proofs.Collection.Founding
import DialectBench.Proofs.Suite.Modules
import DialectBench.Proofs.Collection.Steps
import DialectBench.Proofs.Collection.Withdrawal
import DialectBench.Proofs.Collection.Snapshot
import DialectBench.Proofs.Collection.Completion
import DialectBench.Proofs.Collection.Removal
import DialectBench.Proofs.Collection.Progress
import DialectBench.Proofs.Disk.Landing
import DialectBench.Proofs.Collection.Prune
import DialectBench.Proofs.Collection.Chores
import DialectBench.Proofs.Collection.Endurance
import DialectBench.Proofs.Json.Scan
import DialectBench.Proofs.Json.Numeral
import DialectBench.Proofs.Json.Reading
import DialectBench.Proofs.Collection.Record
import DialectBench.Proofs.Collection.Exactness
import DialectBench.Proofs.Summary.Account
import DialectBench.Proofs.Summary.Attachment
import DialectBench.Proofs.Summary.Aggregate
import DialectBench.Proofs.Summary.Repetition
import DialectBench.Proofs.Text.Utf8
import DialectBench.Proofs.Bench.Upkeep
import DialectBench.Proofs.Suite.Transient
import DialectBench.Proofs.Shell.Rendering
import DialectBench.Proofs.Watching.Silence
import DialectBench.Proofs.Summary.Buckets
import DialectBench.Proofs.Number.Rounding
import DialectBench.Proofs.Number.Decimals
import DialectBench.Proofs.Number.Product
import DialectBench.Proofs.Json.Double
import DialectBench.Proofs.Summary.Storage
import DialectBench.Proofs.Bench.Sweep
import DialectBench.Proofs.Bench.Handover
import DialectBench.Proofs.Rerun.QueryLog
import DialectBench.Proofs.Watching.Log
import DialectBench.Proofs.Session.Foretold
import DialectBench.Proofs.Bench.Rehearsal
import DialectBench.Proofs.Rehearsal
import DialectBench.Proofs.Session.Ordinary
import DialectBench.Proofs.Session.Enacted
import DialectBench.Proofs.Disk.Trail
import DialectBench.Proofs.Disk.Growth
import DialectBench.Proofs.Collection.Growth
import DialectBench.Proofs.Bench.Names
import DialectBench.Proofs.Bench.Shelter
import DialectBench.Proofs.Bench.Announcement
import DialectBench.Proofs.Bench.Answered
import DialectBench.Proofs.Bench.Custody
import DialectBench.Proofs.Bench.Harvest
import DialectBench.Proofs.Rerun.Venues
import DialectBench.Proofs.Summary.Tally
import DialectBench.Proofs.Suite.Counted
import DialectBench.Proofs.Summary.Conservation
import DialectBench.Proofs.Order
import DialectBench.Proofs.Path.Order
import DialectBench.Proofs.Disk.Relisting
import DialectBench.Proofs.Disk.Newest
import DialectBench.Proofs.Disk.Shuffling
import DialectBench.Proofs.Session.Orderless
import DialectBench.Proofs.Collection.Orderless
import DialectBench.Proofs.Enumeration
import DialectBench.Proofs.Failing.Selection
import DialectBench.Proofs.Dialect.Settings
import DialectBench.Proofs.Cleanup.Containers
import DialectBench.Proofs.Cleanup.Exactness
import DialectBench.Proofs.Summary.Backend
import DialectBench.Proofs.Summary.Duration
import DialectBench.Proofs.Watching.Timing
import DialectBench.Proofs.Rerun.Logs
