import Netwatcher.Lib.Refresh
import Netwatcher.Lib.Mailbox
import Netwatcher.Lib.Delta
import Netwatcher.Lib.Settle
import Netwatcher.Lib.Owners
import Netwatcher.Dispatch
import Netwatcher.WatchFd.Modes
import Netwatcher.WatchFd.Handle
import Netwatcher.WatchFd.Settles
import Netwatcher.WatchFd.Dropping
import Netwatcher.DiffExact
import Netwatcher.AddrSets
import Netwatcher.ListUnix.Order
import Netwatcher.HwAddr
import Netwatcher.AsyncQueue
import Netwatcher.WatchAndroid.Chain
import Netwatcher.WatchAndroid.Queued
import Netwatcher.WatchAndroid.Fresh
import Netwatcher.WatchAndroid.History
import Netwatcher.WatchAndroid.Joins
import Netwatcher.WatchAndroid.Replay
import Netwatcher.WatchAndroid.Process
import Netwatcher.WatchAndroid.Released
import Netwatcher.WatchWin.Teardown
import Netwatcher.WatchWin.Served
import Netwatcher.WatchWin.Deliveries
import Netwatcher.WatchWin.Settles
import Netwatcher.WatchWin.Replay
import Netwatcher.QueuedWatches
import Netwatcher.SetupErrors
import Netwatcher.Changes
import Netwatcher.ListWin.Query
import Netwatcher.Snapshots
import Netwatcher.Replay
import Netwatcher.Families
import Netwatcher.AndroidContext
