import Longan.Lib.Text
import Longan.Lib.Disk
import Longan.Lib.Numeral
import Longan.Lib.Python
import Longan.Lib.Runs
import Longan.Lib.Awk
import Longan.Lib.Bracket
import Longan.Lib.Shell
import Longan.Lib.SixDigits
import Longan.Lib.Triple
import Longan.Lib.Expect
import Longan.Lib.Largest
import Longan.Lib.KeyLines
import Longan.Lib.Sed
import Longan.Sched.IllegalValue
import Longan.Sched.Restore
import Longan.Sched.RootGroup
import Longan.Sched.OfflineCgroup
import Longan.Sched.Inputs
import Longan.SchedStress
import Longan.Xfstests.Exclusion
import Longan.Xfstests.Range
import Longan.Xfstests.Wrapper
import Longan.DockerFs
import Longan.Fio.JobFile
import Longan.Runall.Cleanup
import Longan.Runall.Loops
import Longan.Runall.Summary
import Longan.Runall.Umount
import Longan.Runall.Verdict
import Longan.Net.AverageCompare
import Longan.Net.Netperf
import Longan.Net.Connect
import Longan.Net.Scp
import Longan.Net.Hotplug
import Longan.Net.Sriov
import Longan.Lib.Progress
import Longan.Lib.Ring
import Longan.Lib.Hex
import Longan.Bench.Hackbench
import Longan.Bench.Completion
import Longan.Lib.Exits
import Longan.Lib.File
import Longan.Fsx.Ops
import Longan.Fsx.Test
import Longan.Fsx.Choose
import Longan.Fsx.Watch
import Longan.Fsx.Unwatched
import Longan.Fsx.Sound
import Longan.Fsx.Verdict
import Longan.Fsx.Destination
import Longan.Fsx.Book
import Longan.Fsx.OpsFile
import Longan.Fsx.Record
import Longan.Fsx.Replay
import Longan.Lib.Tree
import Longan.Lib.Mirror
import Longan.Fsstress.Calls
import Longan.Fsstress.Paths
import Longan.Fsstress.Lists
import Longan.Fsstress.Entries
import Longan.Fsstress.Ops
import Longan.Fsstress.Changes
import Longan.Fsstress.Mirrored
