import DtApp.Library.Backoff
import DtApp.Library.Bag
import DtApp.Library.Machine
import DtApp.Library.Interleave
import DtApp.Library.Rfc7252
import DtApp.Library.History
import DtApp.Library.Overwrite
import DtApp.Library.Block
import DtApp.Library.Inventory
import DtApp.Coap.Zephyr
import DtApp.Coap.Endpoint
import DtApp.Coap.Messages
import DtApp.Coap.Thread
import DtApp.Coap.Steps
import DtApp.Coap.Reference
import DtApp.Coap.Receive
import DtApp.Coap.Lifecycle
import DtApp.Coap.History
import DtApp.Coap.Completion
import DtApp.Coap.Matching
import DtApp.Coap.Schedule
import DtApp.Coap.Sends
import DtApp.Coap.Replies
import DtApp.Coap.Agreement
import DtApp.Coap.Exchanges
import DtApp.Coap.Callers
import DtApp.Coap.Waiting
import DtApp.Coap.Clock
import DtApp.Coap.Ownership
import DtApp.Coap.Tracking
import DtApp.Coap.Encoding
import DtApp.Coap.Responses
import DtApp.Coap.Shortage
import DtApp.Coap.RxItems
import DtApp.Coap.Initialisation
import DtApp.Coap.InflightArray
import DtApp.Coap.TxrxLoop
import DtApp.Coap.TxItems
import DtApp.Coap.Contract
import DtApp.Coap.Deafness
import DtApp.Coap.Delivery
import DtApp.Coap.Availability
import DtApp.Periodic.Application
import DtApp.Periodic.Samples
import DtApp.Periodic.Periods
import DtApp.Periodic.Timer
import DtApp.Periodic.Sweep
import DtApp.Mqtt.Client
import DtApp.Mqtt.Payload
import DtApp.Mqtt.Identifiers
import DtApp.Mqtt.Broker
import DtApp.Mqtt.Session
