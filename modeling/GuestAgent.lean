import GuestAgent.Agent.ActiveUser
import GuestAgent.Agent.Bracket
import GuestAgent.Agent.BytesIO
import GuestAgent.Agent.Daemon
import GuestAgent.Agent.Dispatch
import GuestAgent.Agent.Platform
import GuestAgent.Agent.Process
import GuestAgent.Agent.Refresh
import GuestAgent.Agent.Stop
import GuestAgent.Channel.Concurrent
import GuestAgent.Channel.FilterObject
import GuestAgent.Channel.Interrupted
import GuestAgent.Channel.Listen
import GuestAgent.Channel.RoundTrip
import GuestAgent.Channel.WinFile
import GuestAgent.Credentials.Connection
import GuestAgent.Credentials.Guarded
import GuestAgent.Credentials.Pam
import GuestAgent.Credentials.PamAuthenticate
import GuestAgent.Credentials.PamLogin
import GuestAgent.Credentials.PamReads
import GuestAgent.Credentials.Quit
import GuestAgent.Credentials.Secrecy
import GuestAgent.Gdm.Login
import GuestAgent.Gdm.Messages
import GuestAgent.Library.Fair
import GuestAgent.Library.Layout
import GuestAgent.Library.RefCount
import GuestAgent.Linux.DiskMapping
import GuestAgent.Linux.DisksUsage
import GuestAgent.Linux.Namespace
import GuestAgent.Linux.OsInfo
import GuestAgent.Linux.Timezone
import GuestAgent.Linux.Vmstat
import GuestAgent.Windows.Account
import GuestAgent.Windows.Agreement
import GuestAgent.Windows.ClockTuning
import GuestAgent.Windows.ComLifetimes
import GuestAgent.Windows.GinaDialog
import GuestAgent.Windows.Handles
import GuestAgent.Windows.Interfaces
import GuestAgent.Windows.KerbLogon
import GuestAgent.Windows.PipeDelivery
import GuestAgent.Windows.Serialization
