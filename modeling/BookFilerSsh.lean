import BookFilerSsh.Lib.Machine
import BookFilerSsh.Lib.Pool
import BookFilerSsh.Lib.Streams
import BookFilerSsh.Lib.Tables
import BookFilerSsh.Lib.Effects
import BookFilerSsh.Lib.Assignments
import BookFilerSsh.Lib.Custody
import BookFilerSsh.Lib.ConditionVariable
import BookFilerSsh.Lib.WorkList
import BookFilerSsh.Lib.Json
import BookFilerSsh.Lib.Refinement
import BookFilerSsh.Lib.Pipe
import BookFilerSsh.Lib.Calls
import BookFilerSsh.Lib.Ledger
import BookFilerSsh.Client.Libssh2
import BookFilerSsh.Client.State
import BookFilerSsh.Client.Transfer
import BookFilerSsh.Client.Setup
import BookFilerSsh.Client.EventLoop
import BookFilerSsh.Client.Recording
import BookFilerSsh.Client.Handles
import BookFilerSsh.Client.Blocking
import BookFilerSsh.Client.Threads
import BookFilerSsh.Client.Phases
import BookFilerSsh.Client.Sequential
import BookFilerSsh.Tunnel.PushStream
import BookFilerSsh.Tunnel.Connection
import BookFilerSsh.Tunnel.SendFailures
import BookFilerSsh.Tunnel.PullStream
import BookFilerSsh.Tunnel.PullEnd
import BookFilerSsh.Tunnel.Sending
import BookFilerSsh.Tunnel.Listener
import BookFilerSsh.Tunnel.Server
import BookFilerSsh.Tunnel.Layout
import BookFilerSsh.Tunnel.Refusals
import BookFilerSsh.Tunnel.Publication
import BookFilerSsh.Tunnel.Wiring
import BookFilerSsh.Tunnel.Scheduling
import BookFilerSsh.Tunnel.Exclusion
import BookFilerSsh.Tunnel.Starvation
import BookFilerSsh.Tunnel.Teardown
import BookFilerSsh.Tunnel.Provision
import BookFilerSsh.Tunnel.Isolation
import BookFilerSsh.Tunnel.EndToEnd
import BookFilerSsh.Tunnel.Delivery
import BookFilerSsh.Tunnel.Progress
import BookFilerSsh.Tunnel.Accounting
import BookFilerSsh.Tunnel.Handles
import BookFilerSsh.Port.Connection
import BookFilerSsh.Port.Relay
import BookFilerSsh.Port.Injection
import BookFilerSsh.Port.Bookkeeping
import BookFilerSsh.Port.Writes
import BookFilerSsh.Port.Queues
import BookFilerSsh.Port.Server
import BookFilerSsh.Port.Pairing
import BookFilerSsh.Port.Teardown
import BookFilerSsh.Port.Pipes
import BookFilerSsh.Port.Delivery
import BookFilerSsh.Settings.Values
import BookFilerSsh.Settings.Forwarding
import BookFilerSsh.Settings.Tunnel
import BookFilerSsh.Settings
import BookFilerSsh.Teardown
import BookFilerSsh.Module
import BookFilerSsh.Settings.Manager
import BookFilerSsh.Loading.ModuleManager
import BookFilerSsh.Loading.Loader
