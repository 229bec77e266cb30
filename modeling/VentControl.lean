import VentControl.Dhcp.LeaseTheorems
import VentControl.Dhcp.Task
import VentControl.Input.EventTheorems
import VentControl.Input.Task
import VentControl.Lib.CString
import VentControl.Lib.CStruct
import VentControl.Lib.Cells
import VentControl.Lib.Fifo
import VentControl.Lib.Framing
import VentControl.Lib.Refresh
import VentControl.Lib.Run
import VentControl.Lib.Timed
import VentControl.Server.BoundsTheorems
import VentControl.Server.ClockTheorems
import VentControl.Server.CloseTheorems
import VentControl.Server.Connection
import VentControl.Server.DeliveryTheorems
import VentControl.Server.FramingTheorems
import VentControl.Server.FreshTheorems
import VentControl.Server.HeartbeatTheorems
import VentControl.Server.Layout
import VentControl.Server.ParserTheorems
import VentControl.Server.Socket
import VentControl.Server.SocketTheorems
import VentControl.Server.StorageTheorems
import VentControl.Server.Task
import VentControl.Server.TaskTheorems
import VentControl.System.BoostTheorems
import VentControl.System.Clients
import VentControl.System.Firmware
import VentControl.System.ReplyTheorems
import VentControl.System.SpeedTheorems
import VentControl.System.WakeupTheorems
import VentControl.System.WellFormedTheorems
import VentControl.Types
import VentControl.Ventcontrol.BoostTheorems
import VentControl.Ventcontrol.RelayTheorems
import VentControl.Ventcontrol.Steps
import VentControl.Ventcontrol.Task
import VentControl.Dhcp.RetryTheorems
import VentControl.Dhcp.Timer
import VentControl.Input.OverflowTheorems
import VentControl.Input.RateTheorems
import VentControl.System.Ledger
import VentControl.Lib.Progress
import VentControl.System.ControlTheorems
import VentControl.System.OrderTheorems
import VentControl.System.ProgressTheorems
import VentControl.Lib.Flow
import VentControl.System.LossTheorems
import VentControl.System.StartTheorems
import VentControl.Server.LineTheorems
import VentControl.Server.TimeoutTheorems
import VentControl.System.Board
import VentControl.System.BoardTheorems
import VentControl.System.CommandTheorems
import VentControl.System.SettleTheorems
