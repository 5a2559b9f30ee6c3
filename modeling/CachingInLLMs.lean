import CachingInLLMs.Library.Dict
import CachingInLLMs.Library.Python
import CachingInLLMs.Library.Run
import CachingInLLMs.Library.Split
import CachingInLLMs.Library.Steps
import CachingInLLMs.Library.OrderStatistic
import CachingInLLMs.Library.Numeral
import CachingInLLMs.Library.PyRandom
import CachingInLLMs.Library.Rotation
import CachingInLLMs.Library.Replace
import CachingInLLMs.Library.InFlight
import CachingInLLMs.Router.Endpoint
import CachingInLLMs.Controller.KVController
import CachingInLLMs.Controller.Lookup
import CachingInLLMs.Controller.Registry
import CachingInLLMs.Controller.PeerLookup
import CachingInLLMs.Controller.Deregister
import CachingInLLMs.Controller.Upstream
import CachingInLLMs.Controller.TokenDatabase
import CachingInLLMs.Router.Bridge
import CachingInLLMs.Router.Refresh
import CachingInLLMs.Router.Fleet
import CachingInLLMs.Router.Restart
import CachingInLLMs.Router.Concurrent
import CachingInLLMs.Router.Score
import CachingInLLMs.Router.Route
import CachingInLLMs.Benchmarks.Statistics
import CachingInLLMs.Benchmarks.Percentile
import CachingInLLMs.Benchmarks.Workload
import CachingInLLMs.Benchmarks.Compare
import CachingInLLMs.Benchmarks.SignedRank
import CachingInLLMs.Router.Policy
import CachingInLLMs.Router.Placement
import CachingInLLMs.Router.HotSpot
import CachingInLLMs.Router.RoundRobin
import CachingInLLMs.Router.Session
import CachingInLLMs.Router.Reconfigure
import CachingInLLMs.Benchmarks.CollectJob
import CachingInLLMs.Benchmarks.Frames
import CachingInLLMs.Benchmarks.JobLog
import CachingInLLMs.Benchmarks.Truncation
import CachingInLLMs.Benchmarks.DriverCsv
import CachingInLLMs.Benchmarks.LoadDriver
import CachingInLLMs.Benchmarks.TokenTimes
import CachingInLLMs.Benchmarks.Midranks
import CachingInLLMs.Benchmarks.SingleRun
import CachingInLLMs.Benchmarks.Utilization
import CachingInLLMs.Benchmarks.Coverage
import CachingInLLMs.Benchmarks.Counter
import CachingInLLMs.Benchmarks.Imbalance
import CachingInLLMs.Benchmarks.ReadRun
import CachingInLLMs.Benchmarks.PairedSeeds
import CachingInLLMs.Benchmarks.LoadGate
import CachingInLLMs.Benchmarks.CoverageGate
import CachingInLLMs.Benchmarks.Directions
import CachingInLLMs.Benchmarks.Warmup
import CachingInLLMs.Benchmarks.ResultsFile
import CachingInLLMs.Benchmarks.DcgmPoll
