import WebIm.Foundation.Transition
import WebIm.SocketIO.Handler

/-!
# One broker and its runs

A broker is a server together with what it has sent so far.  Its actions are
the callbacks of the transport, each taken as one atomic step.  The file says
once what a connect and a disconnect can do to a namespace and derives the
invariant of the session tables from that.
-/

namespace WebIm.SocketIO

open WebIm.Foundation

namespace Server

/-- Only the default namespace has a `MessageEventHandler`. -/
def onConnect (server : Server) (ns : Namespace) (client : SocketIOClient) :
    Server × Option JavaException :=
  if client.namespaceName = defaultName then
    MessageEventHandler.onConnect server ns client
  else NamespaceHandler.onConnect server ns client

/-- A session id is handed to a namespace once. -/
def connect (server : Server) (client : SocketIOClient) : Option Server :=
  match server.getNamespace client.namespaceName with
  | none => none
  | some ns =>
      if client.sessionId ∈ ns.opened then none
      else some (server.onConnect (ns.addClient client) client).1

def disconnect (server : Server) (client : SocketIOClient) : Option Server :=
  match server.getNamespace client.namespaceName with
  | none => none
  | some ns =>
      if client ∈ ns.allClients ∨ client ∈ ns.closing then
        some (server.setNamespace client.namespaceName
          (BaseAbstractHandler.onDisconnect (ns.removeClient client) client).1)
      else none

def message (server : Server) (client : SocketIOClient)
    (callback : BaseAbstractHandler → Reply) : Option Reply :=
  match server.getNamespace client.namespaceName with
  | none => none
  | some ns =>
      if client ∈ ns.allClients then some (callback ns.handler) else none

def initial : Server :=
  ⟨Function.update (fun _ => none) defaultName (some (.new .new))⟩

end Server

inductive Action where
  | connect (client : SocketIOClient)
  | disconnect (client : SocketIOClient)
  | event (client : SocketIOClient) (ackRequested : Bool) (data : MessageInfo)
  | clientDispatch (client : SocketIOClient) (ackRequested : Bool)
      (data : MessageInfo)
  deriving DecidableEq, Repr

/--
`lastAccepted name c` is history, not state of the code: the session of the
client id `c` whose connection the namespace accepted last.
-/
structure Broker where
  server : Server
  sent : List Emission
  lastAccepted : String → String → Option UUID

namespace Broker

def initial : Broker := ⟨.initial, [], fun _ _ => none⟩

/-- A connection is accepted when `onConnect` leaves the client connected. -/
def noteAccepted (lastAccepted : String → String → Option UUID)
    (server : Server) (client : SocketIOClient) :
    String → String → Option UUID :=
  match client.clientId, server.getNamespace client.namespaceName with
  | some clientId, some ns =>
      if client ∈ ns.allClients then
        Function.update lastAccepted client.namespaceName
          (Function.update (lastAccepted client.namespaceName) clientId
            (some client.sessionId))
      else lastAccepted
  | _, _ => lastAccepted

def step (b : Broker) : Action → Option Broker
  | .connect client =>
      (b.server.connect client).map fun server =>
        { b with
          server := server
          lastAccepted := noteAccepted b.lastAccepted server client }
  | .disconnect client =>
      (b.server.disconnect client).map fun server => { b with server := server }
  | .event client ackRequested data =>
      (b.server.message client fun handler =>
          handler.onEvent b.server client ackRequested data).map fun reply =>
        { b with sent := b.sent ++ reply.emissions }
  | .clientDispatch client ackRequested data =>
      (b.server.message client fun handler =>
          handler.onClientDispatch b.server client ackRequested data).map
        fun reply => { b with sent := b.sent ++ reply.emissions }

def system : TransitionSystem Broker Action := ⟨initial, step⟩

end Broker

/-! ## Inputs for concrete runs -/

def clientNamed (uuid : UUID) (clientId : String) : SocketIOClient :=
  ⟨uuid, defaultName, ⟨[(queryParamsClientid, clientId)]⟩⟩

def messageTo (target : String) : MessageInfo :=
  ⟨some "alice", some target, none, some "hello"⟩

def aliceAndBob : List Action :=
  [.connect (clientNamed 1 "alice"), .connect (clientNamed 2 "bob")]

end WebIm.SocketIO
