import Motohs.Button.Cycle
import Motohs.Button.Click
import Motohs.Button.Alarm
import Motohs.Button.Startup
import Motohs.Button.Lockstep
import Motohs.SystemTask.Delivery
import Motohs.SystemTask.Wiring
import Motohs.Logging.Recovery
import Motohs.Logging.Colour
import Motohs.Cli.Survival
import Motohs.Cli.Listing
import Motohs.Cli.Attribution
import Motohs.Cli.Buffers
import Motohs.Lib.Terminal
import Motohs.Imgtool.Ota
import Motohs.Imgtool.Emit
