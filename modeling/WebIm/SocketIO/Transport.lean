import Mathlib.Logic.Function.Basic
import WebIm.Foundation.Java

/-!
# The socket.io server as the handlers see it

The part of netty-socketio that the handlers call: handshake parameters,
clients, rooms and namespaces.  A namespace carries the one handler registered
on it.  Session ids are compared only, so natural numbers stand for them.
-/

namespace WebIm.SocketIO

open WebIm.Foundation

abbrev UUID := Nat

structure MessageInfo where
  sourceClientId : Option String
  targetClientId : Option String
  msgType : Option String
  msgContent : Option String
  deriving DecidableEq, Repr

structure HandshakeData where
  urlParams : List (String × String)
  deriving DecidableEq, Repr

/-- The value of a parameter that occurs exactly once, `null` otherwise. -/
def HandshakeData.getSingleUrlParam (data : HandshakeData) (name : String) :
    Option String :=
  match data.urlParams.filter fun param => param.1 = name with
  | [(_, value)] => some value
  | _ => none

structure SocketIOClient where
  sessionId : UUID
  namespaceName : String
  handshakeData : HandshakeData
  deriving DecidableEq, Repr

/-- `local sessions`: the clients of one handler by client id. -/
structure BaseAbstractHandler where
  sessions : String → Option UUID

def BaseAbstractHandler.new : BaseAbstractHandler := ⟨fun _ => none⟩

/--
`opened` lists the session ids ever handed to `onConnect`.  `closing` holds
the clients that `client.disconnect()` has taken out of the namespace and
whose `onDisconnect` callback is still to run.
-/
structure Namespace where
  opened : List UUID
  allClients : List SocketIOClient
  closing : List SocketIOClient
  roomClients : List (String × UUID)
  handler : BaseAbstractHandler

namespace Namespace

def new (handler : BaseAbstractHandler) : Namespace := ⟨[], [], [], [], handler⟩

def addClient (ns : Namespace) (client : SocketIOClient) : Namespace :=
  { ns with
    opened := client.sessionId :: ns.opened
    allClients := ns.allClients ++ [client] }

def getClient (ns : Namespace) (uuid : UUID) : Option SocketIOClient :=
  ns.allClients.find? fun client => client.sessionId = uuid

def removeClient (ns : Namespace) (client : SocketIOClient) : Namespace :=
  { ns with
    allClients := ns.allClients.filter (· ≠ client)
    closing := ns.closing.filter (· ≠ client)
    roomClients := ns.roomClients.filter (·.2 ≠ client.sessionId) }

/-- `client.disconnect()`, called by a handler on the client it is handling. -/
def disconnect (ns : Namespace) (client : SocketIOClient) : Namespace :=
  { ns.removeClient client with
    closing := ns.closing.filter (· ≠ client) ++ [client] }

def join (ns : Namespace) (room : String) (uuid : UUID) : Namespace :=
  { ns with roomClients := ns.roomClients ++ [(room, uuid)] }

def leave (ns : Namespace) (room : String) (uuid : UUID) : Namespace :=
  { ns with roomClients := ns.roomClients.filter (· ≠ (room, uuid)) }

def getRoomClients (ns : Namespace) (room : String) : List SocketIOClient :=
  ns.allClients.filter fun client => (room, client.sessionId) ∈ ns.roomClients

end Namespace

/-- Namespace names in socket.io; the default namespace has the empty name. -/
def defaultName : String := ""

structure Server where
  namespaces : String → Option Namespace

namespace Server

def getNamespace (server : Server) (name : String) : Option Namespace :=
  server.namespaces name

def setNamespace (server : Server) (name : String) (ns : Namespace) : Server :=
  ⟨Function.update server.namespaces name (some ns)⟩

@[simp] theorem getNamespace_setNamespace_self (server : Server)
    (name : String) (ns : Namespace) :
    (server.setNamespace name ns).getNamespace name = some ns := by
  simp [getNamespace, setNamespace]

theorem getNamespace_setNamespace_ne (server : Server) {name other : String}
    (ns : Namespace) (h : other ≠ name) :
    (server.setNamespace name ns).getNamespace other =
      server.getNamespace other := by
  simp [getNamespace, setNamespace, h]

end Server

end WebIm.SocketIO
