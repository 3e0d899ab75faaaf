import HydroponicCloset.Provisioning.Interleaving
import HydroponicCloset.Provisioning.Integrity
import HydroponicCloset.Provisioning.Reassembly
import HydroponicCloset.Provisioning.Names
import HydroponicCloset.Framing.Output
import HydroponicCloset.Channels.Peers
import HydroponicCloset.Channels.Routing
import HydroponicCloset.Channels.Allocation
import HydroponicCloset.Channels.Configuration
import HydroponicCloset.Lib.Crc
import HydroponicCloset.Obex.Replies
import HydroponicCloset.Obex.Sequence
import HydroponicCloset.Obex.Fcs
import HydroponicCloset.Obex.Confirmation
import HydroponicCloset.Obex.Retransmission
import HydroponicCloset.Wifi.Station
import HydroponicCloset.Wifi.Stranded
import HydroponicCloset.Wifi.Retries
import HydroponicCloset.App.Routines
import HydroponicCloset.Actuators.WaterFlow
import HydroponicCloset.Sensors.Readings
import HydroponicCloset.Schedule.Irrigation
import HydroponicCloset.Schedule.Modem
import HydroponicCloset.Schedule.Restarts
import HydroponicCloset.Schedule.Interlock
import HydroponicCloset.Safety.Reads
import HydroponicCloset.Safety.Footprint
import HydroponicCloset.Safety.HeaderLoop
import HydroponicCloset.Safety.Writes
import HydroponicCloset.App.OuterLoop
import HydroponicCloset.Provisioning.Sources
import HydroponicCloset.Provisioning.Capacity
import HydroponicCloset.Links.OneLink
import HydroponicCloset.Lib.Fifo
import HydroponicCloset.Transport.SendQueue
import HydroponicCloset.Transport.Delivery
import HydroponicCloset.Lib.Delimited
import HydroponicCloset.Transport.Stream
import HydroponicCloset.Links.Pairing
import HydroponicCloset.Lib.DutyBounds
import HydroponicCloset.Schedule.Rate
import HydroponicCloset.System.Closet
import HydroponicCloset.System.Provisioned
import HydroponicCloset.Discovery.Records
import HydroponicCloset.System.Session
import HydroponicCloset.Lib.CrcErrors
import HydroponicCloset.Obex.Errors
import HydroponicCloset.Wifi.Restart
import HydroponicCloset.Lib.Fair
import HydroponicCloset.System.Progress
import HydroponicCloset.System.Liveness
import HydroponicCloset.Lib.FifoFair
import HydroponicCloset.Transport.Fairness
import HydroponicCloset.System.Firmware
import HydroponicCloset.System.Decomposition
import HydroponicCloset.System.Watering
import HydroponicCloset.System.Answering
