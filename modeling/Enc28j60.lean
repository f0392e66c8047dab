import Enc28j60.Calls
import Enc28j60.Wakeup
import Enc28j60.Transmit
import Enc28j60.Ack
import Enc28j60.Serve
import Enc28j60.Programmed
import Enc28j60.Translate
import Enc28j60.Faults
import Enc28j60.Delivery
import Enc28j60.App.Connection
import Enc28j60.App.Messages
import Enc28j60.App.Rates
import Enc28j60.App.Pool
import Enc28j60.App.Attempts
import Enc28j60.Mqtt.Firmware
import Enc28j60.Mqtt.Incoming
import Enc28j60.Dns.Responses
