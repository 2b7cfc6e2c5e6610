import WinProcessThread.Service.Stopping
import WinProcessThread.Service.HandlerMeaning
import WinProcessThread.Service.Consistency
import WinProcessThread.HexParser.Spelling
import WinProcessThread.TcpClient.Resources
import WinProcessThread.TcpClient.LoopRuns
import WinProcessThread.TcpClient.Listing
import WinProcessThread.TcpClient.Address
import WinProcessThread.TcpClient.Port
import WinProcessThread.ServiceControl.Starting
import WinProcessThread.ServiceControl.Handles
import WinProcessThread.FileHash.Handles
import WinProcessThread.PeCertificate.Resources
import WinProcessThread.Process.WcharToString
import WinProcessThread.Toolhelp.MainThread
import WinProcessThread.Process.WalkHandles
import WinProcessThread.Resource.Rounds
import WinProcessThread.Toolhelp.GracefulExit
import WinProcessThread.Wmi.Query
import WinProcessThread.ServiceControl.Invocation
import WinProcessThread.ServiceControl.Standalone
import WinProcessThread.Wmi.References
import WinProcessThread.HexParser.Meaning
import WinProcessThread.Service.Reporting
import WinProcessThread.TcpClient.Draining
import WinProcessThread.TcpClient.Replay
import WinProcessThread.Toolhelp.SuspendProcess
import WinProcessThread.FileHash.Report
import WinProcessThread.Process.WalkOutput
import WinProcessThread.ServiceControl.StartedService
import WinProcessThread.ServiceControl.StoppedService
import WinProcessThread.HexParser.Output
import WinProcessThread.ServiceControl.ServiceProcess
