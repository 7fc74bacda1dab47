import Moonpool.Core.Block
import Moonpool.Explorer.Journal
import Moonpool.Hyper.Reconnect
import Moonpool.Journal.Bytes
import Moonpool.Journal.Telling
import Moonpool.Journal.SpareRuns
import Moonpool.Journal.MetaRuns
import Moonpool.Rpc.Registry
import Moonpool.Rpc.Credit
import Moonpool.Rpc.Addresses
import Moonpool.Rpc.AllowList
import Moonpool.Rpc.Credentials
import Moonpool.Rpc.Simultaneous
import Moonpool.Rpc.Rounds
import Moonpool.Rpc.QueueModel
import Moonpool.Sim.LatentFault
import Moonpool.Sim.Ink
import Moonpool.Sim.Gate
import Moonpool.Sim.ProgressGate
import Moonpool.Sim.Patterns
import Moonpool.Sim.Scheduler
import Moonpool.Sim.Growth
import Moonpool.Sim.Stream
import Moonpool.Net.Delivered
import Moonpool.Sim.Stall
