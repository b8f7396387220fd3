import WebIm.SocketIO.LatestSession
import WebIm.SocketIO.Roaming
import WebIm.SocketIO.Confidentiality
import WebIm.SocketIO.NamespaceRace
import WebIm.SocketIO.DisconnectRace
import WebIm.SocketIO.Refusal
import WebIm.Sdk.Listener
import WebIm.Sdk.MakeUpUrl
import WebIm.Sdk.Lifecycle
import WebIm.Sdk.Acknowledgement
import WebIm.Mqtt.TaskOrder
import WebIm.Mqtt.Resubscription
import WebIm.Mqtt.ResendLoop
import WebIm.Mqtt.OfflineResend
import WebIm.Mqtt.Auth
import WebIm.Mqtt.GracefulShutdown
import WebIm.Njs.ClientId
import WebIm.Njs.Segments
import WebIm.Njs.Authentication
import WebIm.Njs.Password
import WebIm.Njs.Sessions
import WebIm.Njs.ReplaceTopic
import WebIm.Haproxy.Wills
import WebIm.SocketIO.Isolation
import WebIm.SocketIO.Ledger
import WebIm.Sdk.EndToEnd
import WebIm.Sdk.ClientBuilder
import WebIm.Mqtt.Shutdown
import WebIm.Mqtt.TaskExecutor
import WebIm.Mqtt.DisconnectTimes
