import WebIm.SocketIO.Transport

/-!
# BaseAbstractHandler, MessageEventHandler and NamespaceHandler

The handlers as the source computes them.  A connect or disconnect callback
maps the namespace (or the server) to its new value and reports the exception
it throws; a message callback leaves the state alone and yields the packets it
has the transport send before it returns or throws.
-/

namespace WebIm.SocketIO

open WebIm.Foundation

def queryParamsClientid : String := "clientid"
def queryParamsRoom : String := "room"
def queryParamsNamespace : String := "ns"

def endpointP2p : String := "messageevent"
def endpointBroadcast : String := "broadcast"
def endpointClientDispatch : String := "clientdispatch"

inductive ClientTypeEnum where
  | targetService
  | broker
  deriving DecidableEq, Repr

def ClientTypeEnum.getChannelName : ClientTypeEnum → String
  | .targetService => "room-target-services"
  | .broker => "room-brokers"

def roomTagBroker : String := ClientTypeEnum.broker.getChannelName

namespace SocketIOClient

def clientId (client : SocketIOClient) : Option String :=
  client.handshakeData.getSingleUrlParam queryParamsClientid

def room (client : SocketIOClient) : Option String :=
  client.handshakeData.getSingleUrlParam queryParamsRoom

def ns (client : SocketIOClient) : Option String :=
  client.handshakeData.getSingleUrlParam queryParamsNamespace

end SocketIOClient

/-! ## What the handlers send -/

inductive EmitSite where
  | sendMsgByP2p
  | onClientDispatch
  | sendMsgByClientDispatch
  | sendMsgByBroadcast
  deriving DecidableEq, Repr

structure SentEvent where
  name : String
  ackCallback : Bool
  data : MessageInfo
  deriving DecidableEq, Repr

def EmitSite.sendEvent (site : EmitSite) (data : MessageInfo) : SentEvent :=
  match site with
  | .sendMsgByP2p => ⟨endpointP2p, true, data⟩
  | .onClientDispatch => ⟨endpointP2p, false, data⟩
  | .sendMsgByClientDispatch => ⟨endpointClientDispatch, false, data⟩
  | .sendMsgByBroadcast => ⟨endpointBroadcast, false, data⟩

inductive Emission where
  | sendAckData (client : SocketIOClient) (tag : Option String)
      (data : MessageInfo)
  | sendEvent (site : EmitSite) (recipients : List SocketIOClient)
      (data : MessageInfo)
  deriving DecidableEq, Repr

structure Reply where
  emissions : List Emission
  thrown : Option JavaException
  deriving DecidableEq, Repr

def Reply.after (first : List Emission) (reply : Reply) : Reply :=
  { reply with emissions := first ++ reply.emissions }

@[simp] theorem Reply.after_thrown (first : List Emission) (reply : Reply) :
    (reply.after first).thrown = reply.thrown := rfl

@[simp] theorem Reply.after_emissions (first : List Emission) (reply : Reply) :
    (reply.after first).emissions = first ++ reply.emissions := rfl

/-! ## Connect and disconnect -/

namespace BaseAbstractHandler

def put (this : BaseAbstractHandler) (clientId : String) (uuid : UUID) :
    BaseAbstractHandler :=
  ⟨Function.update this.sessions clientId (some uuid)⟩

def remove (this : BaseAbstractHandler) (clientId : String) :
    BaseAbstractHandler :=
  ⟨Function.update this.sessions clientId none⟩

/-- The table is a `ConcurrentHashMap`: a `null` key makes `put` throw. -/
def saveSession (this : BaseAbstractHandler) (client : SocketIOClient) :
    Except JavaException BaseAbstractHandler :=
  match client.clientId with
  | none => .error .nullPointerException
  | some clientId => .ok (this.put clientId client.sessionId)

def joinRoom (ns : Namespace) (client : SocketIOClient) : Namespace :=
  match client.room with
  | none => ns
  | some room => if room = "" then ns else ns.join room client.sessionId

def leaveRoom (ns : Namespace) (client : SocketIOClient) : Namespace :=
  match client.room with
  | none => ns
  | some room => if room = "" then ns else ns.leave room client.sessionId

def onConnect (ns : Namespace) (client : SocketIOClient) :
    Namespace × Option JavaException :=
  match ns.handler.saveSession client with
  | .error e => (ns, some e)
  | .ok handler => (joinRoom { ns with handler := handler } client, none)

def onDisconnect (ns : Namespace) (client : SocketIOClient) :
    Namespace × Option JavaException :=
  match client.clientId with
  | none => (ns, some .nullPointerException)
  | some clientId =>
      (leaveRoom { ns with handler := ns.handler.remove clientId } client, none)

/-- Whether the connection made the server create the namespace it names. -/
def addNs (server : Server) (client : SocketIOClient) : Server × Bool :=
  let defaultNs := client.namespaceName
  match client.ns with
  | none => (server, false)
  | some ns =>
      if defaultNs ≠ ns then
        if ns ≠ "" then
          match server.getNamespace ("/" ++ ns) with
          | some _ => (server, false)
          | none =>
              (server.setNamespace ("/" ++ ns)
                (.new BaseAbstractHandler.new), true)
        else (server, false)
      else (server, false)

end BaseAbstractHandler

/--
The handler of the default namespace.  A connection for which `addNs` created
a namespace is closed; the other branch repeats the overridden method.
-/
def MessageEventHandler.onConnect (server : Server) (ns : Namespace)
    (client : SocketIOClient) : Server × Option JavaException :=
  let (server, r) := BaseAbstractHandler.addNs server client
  if r then
    (server.setNamespace client.namespaceName (ns.disconnect client), none)
  else
    let (ns, thrown) := BaseAbstractHandler.onConnect ns client
    (server.setNamespace client.namespaceName ns, thrown)

def NamespaceHandler.onConnect (server : Server) (ns : Namespace)
    (client : SocketIOClient) : Server × Option JavaException :=
  let (ns, thrown) := BaseAbstractHandler.onConnect ns client
  (server.setNamespace client.namespaceName ns, thrown)

/-! ## Messages -/

namespace BaseAbstractHandler

def sendMsgByBroadcast (server : Server) (client : SocketIOClient)
    (sendData : MessageInfo) : Reply :=
  match server.getNamespace client.namespaceName with
  | none => ⟨[], some .nullPointerException⟩
  | some ns =>
      ⟨[.sendEvent .sendMsgByBroadcast ns.allClients sendData], none⟩

def sendMsgByClientDispatch (server : Server) (client : SocketIOClient)
    (sendData : MessageInfo) : Reply :=
  match server.getNamespace client.namespaceName with
  | none => ⟨[], some .nullPointerException⟩
  | some ns =>
      ⟨[.sendEvent .sendMsgByClientDispatch (ns.getRoomClients roomTagBroker)
        sendData], none⟩

/--
`server.getNamespace(name).getClient(uuid).sendEvent(...)`: both look-ups are
dereferenced without a check.
-/
def sendToSession (site : EmitSite) (server : Server) (client : SocketIOClient)
    (uuid : UUID) (data : MessageInfo) : Reply :=
  match (server.getNamespace client.namespaceName).bind (·.getClient uuid) with
  | none => ⟨[], some .nullPointerException⟩
  | some receiver => ⟨[.sendEvent site [receiver] data], none⟩

def sendMsgByP2p (this : BaseAbstractHandler) (server : Server)
    (client : SocketIOClient) (sendData : MessageInfo) : Reply :=
  match sendData.targetClientId with
  | none => ⟨[], some .nullPointerException⟩
  | some target =>
      match this.sessions target with
      | some uuid => sendToSession .sendMsgByP2p server client uuid sendData
      | none => sendMsgByClientDispatch server client sendData

def onEvent (this : BaseAbstractHandler) (server : Server)
    (client : SocketIOClient) (ackRequested : Bool) (data : MessageInfo) :
    Reply :=
  let ack := if ackRequested then [.sendAckData client none data] else []
  if isEmpty data.targetClientId then
    (sendMsgByBroadcast server client data).after ack
  else
    (this.sendMsgByP2p server client data).after ack

def onClientDispatch (this : BaseAbstractHandler) (server : Server)
    (client : SocketIOClient) (ackRequested : Bool) (data : MessageInfo) :
    Reply :=
  let ack :=
    if ackRequested then [.sendAckData client (some "ACK:") data] else []
  Reply.after ack <|
    match data.targetClientId with
    | none => ⟨[], some .nullPointerException⟩
    | some target =>
        match this.sessions target with
        | none => ⟨[], none⟩
        | some uuid => sendToSession .onClientDispatch server client uuid data

end BaseAbstractHandler

end WebIm.SocketIO
