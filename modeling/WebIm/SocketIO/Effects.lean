import WebIm.SocketIO.Confidentiality
import WebIm.SocketIO.NamespaceRace

/-!
# What one action does to each namespace and each client

A connect is described by the namespaces it leaves, a message by the packets
it makes the server send.
-/

namespace WebIm.SocketIO

open WebIm.Foundation
open AddNs (wantedNs)

/-! ## What all clients receive -/

def Emission.received : Emission → List (SocketIOClient × Packet)
  | .sendAckData client tag data => [(client, .ack tag data)]
  | .sendEvent site recipients data =>
      recipients.map fun receiver => (receiver, .event (site.sendEvent data))

namespace Broker

def received (b : Broker) : List (SocketIOClient × Packet) :=
  b.sent.flatMap Emission.received

def connectedBeside (b : Broker) (client : SocketIOClient) :
    List SocketIOClient :=
  (b.server.getNamespace client.namespaceName).elim [] Namespace.allClients

end Broker

/-! ## Which namespace a connection creates -/

namespace Server

variable {server server' : Server} {client : SocketIOClient} {ns : Namespace}

/-- The namespace that a connection creates, being closed for it. -/
def missing (server : Server) (client : SocketIOClient) : Option String :=
  if client.namespaceName = defaultName then
    (wantedNs client).filter fun name => (server.getNamespace name).isNone
  else none

theorem missing_eq_some {name : String}
    (h : server.missing client = some name) :
    client.namespaceName = defaultName ∧ wantedNs client = some name ∧
      server.getNamespace name = none := by
  unfold missing at h
  split at h
  · rename_i hdefault
    rw [Option.filter_eq_some_iff, Option.isNone_iff_eq_none] at h
    exact ⟨hdefault, h⟩
  · cases h

theorem connect_eq
    (hns : server.getNamespace client.namespaceName = some ns)
    (hfresh : client.sessionId ∉ ns.opened) :
    server.connect client =
      some (match server.missing client with
        | none => server.setNamespace client.namespaceName (ns.connected client)
        | some name =>
            (server.setNamespace name (.new .new)).setNamespace
              client.namespaceName (ns.refuse client)) := by
  unfold Server.connect
  rw [hns]
  dsimp only
  rw [if_neg hfresh, Option.some.injEq]
  unfold Server.onConnect missing
  split
  · unfold MessageEventHandler.onConnect
    rw [AddNs.addNs_eq]
    cases (wantedNs client).filter fun name =>
        (server.getNamespace name).isNone with
    | none =>
        simp [BaseAbstractHandler.onConnect_addClient, Namespace.connected]
    | some name => simp [Namespace.refuse]
  · simp [NamespaceHandler.onConnect, BaseAbstractHandler.onConnect_addClient,
      Namespace.connected]

theorem getNamespace_connect (h : server.connect client = some server')
    (hns : server.getNamespace client.namespaceName = some ns)
    (name : String) :
    server'.getNamespace name =
      if name = client.namespaceName then
        some (if server.missing client = none then ns.connected client
          else ns.refuse client)
      else if server.missing client = some name then some (.new .new)
      else server.getNamespace name := by
  obtain ⟨found, hfound, hfresh, -⟩ := connect_cases h
  obtain rfl : ns = found := Option.some.inj (hns.symm.trans hfound)
  rw [connect_eq hns hfresh, Option.some.injEq] at h
  subst h
  cases server.missing client with
  | none =>
      by_cases hname : name = client.namespaceName
      · simp [hname]
      · simp [hname, getNamespace_setNamespace_ne]
  | some created =>
      by_cases hname : name = client.namespaceName
      · simp [hname]
      · rw [if_neg hname, getNamespace_setNamespace_ne _ _ hname]
        simp only [Option.some.injEq]
        by_cases hcreated : created = name
        · simp [hcreated]
        · rw [if_neg hcreated,
            getNamespace_setNamespace_ne _ _ (Ne.symm hcreated)]

theorem missing_congr (h : client.namespaceName = defaultName →
      ∀ name, wantedNs client = some name →
        (server'.getNamespace name).isNone = (server.getNamespace name).isNone) :
    server'.missing client = server.missing client := by
  unfold missing
  split
  · rename_i hdefault
    cases hasks : wantedNs client with
    | none => rfl
    | some name => simp only [Option.filter, h hdefault name hasks]
  · rfl

theorem isSome_connect (h : server.connect client = some server')
    (name : String) :
    (server'.getNamespace name).isSome =
      ((server.getNamespace name).isSome ||
        decide (server.missing client = some name)) := by
  obtain ⟨ns, hns, -⟩ := connect_cases h
  rw [getNamespace_connect h hns]
  split
  · rename_i hname
    rw [hname, hns]
    rfl
  · split
    · rename_i hmissing
      simp [hmissing]
    · rename_i hmissing
      simp [hmissing]

/-- The session ids handed to the namespace so far, which may not exist yet. -/
def openedIn (server : Server) (name : String) : List UUID :=
  (server.getNamespace name).elim [] Namespace.opened

theorem connect_isSome
    (hns : (server.getNamespace client.namespaceName).isSome)
    (hfresh : client.sessionId ∉ server.openedIn client.namespaceName) :
    ∃ server', server.connect client = some server' := by
  obtain ⟨ns, hns⟩ := Option.isSome_iff_exists.mp hns
  rw [openedIn, hns] at hfresh
  exact ⟨_, connect_eq hns hfresh⟩

theorem openedIn_connect (h : server.connect client = some server')
    (name : String) :
    server'.openedIn name =
      if name = client.namespaceName then
        client.sessionId :: server.openedIn name
      else server.openedIn name := by
  obtain ⟨ns, hns, -⟩ := connect_cases h
  unfold openedIn
  rw [getNamespace_connect h hns]
  split
  · rename_i hname
    rw [hname, hns]
    dsimp only [Option.elim_some]
    split
    · exact ns.connected_opened client
    · rfl
  · split
    · rename_i hmissing
      rw [(missing_eq_some hmissing).2.2]
      rfl
    · rfl

theorem openedIn_disconnect (h : server.disconnect client = some server')
    (name : String) : server'.openedIn name = server.openedIn name := by
  obtain ⟨ns, hns, -, rfl⟩ := disconnect_cases h
  unfold openedIn
  by_cases hname : name = client.namespaceName
  · subst hname
    rw [getNamespace_setNamespace_self, hns]
    exact ns.close_opened client
  · rw [getNamespace_setNamespace_ne _ _ hname]

theorem isSome_disconnect (h : server.disconnect client = some server')
    (name : String) :
    (server'.getNamespace name).isSome = (server.getNamespace name).isSome := by
  obtain ⟨ns, hns, -, rfl⟩ := disconnect_cases h
  by_cases hname : name = client.namespaceName
  · subst hname
    rw [getNamespace_setNamespace_self, hns]
    rfl
  · rw [getNamespace_setNamespace_ne _ _ hname]

end Server

/-! ## What a message does in its own namespace only -/

namespace BaseAbstractHandler

variable {server server' : Server} {client : SocketIOClient}

theorem sendToSession_congr (site : EmitSite) (uuid : UUID) (data : MessageInfo)
    (h : server'.getNamespace client.namespaceName =
      server.getNamespace client.namespaceName) :
    sendToSession site server' client uuid data =
      sendToSession site server client uuid data := by
  unfold sendToSession
  rw [h]

theorem onEvent_congr (this : BaseAbstractHandler) (ackRequested : Bool)
    (data : MessageInfo)
    (h : server'.getNamespace client.namespaceName =
      server.getNamespace client.namespaceName) :
    this.onEvent server' client ackRequested data =
      this.onEvent server client ackRequested data := by
  unfold onEvent sendMsgByP2p sendMsgByBroadcast sendMsgByClientDispatch
  simp only [h, sendToSession_congr _ _ _ h]

theorem onClientDispatch_congr (this : BaseAbstractHandler)
    (ackRequested : Bool) (data : MessageInfo)
    (h : server'.getNamespace client.namespaceName =
      server.getNamespace client.namespaceName) :
    this.onClientDispatch server' client ackRequested data =
      this.onClientDispatch server client ackRequested data := by
  unfold onClientDispatch
  simp only [sendToSession_congr _ _ _ h]

end BaseAbstractHandler

/-! ## What one message makes the server send -/

inductive Reply.Sends (server : Server) (client : SocketIOClient)
    (data : MessageInfo) : Reply → Prop where
  | nothing (thrown : Option JavaException) : Sends server client data ⟨[], thrown⟩
  | event (site : EmitSite) {ns : Namespace} {recipients : List SocketIOClient}
      (hns : server.getNamespace client.namespaceName = some ns)
      (hrecipients : recipients.Sublist ns.allClients) :
      Sends server client data ⟨[.sendEvent site recipients data], none⟩

def ackOf (client : SocketIOClient) (ackRequested : Bool) (tag : Option String)
    (data : MessageInfo) : List Emission :=
  if ackRequested then [.sendAckData client tag data] else []

namespace BaseAbstractHandler

variable {server : Server} {client : SocketIOClient}

theorem sends_sendToSession (site : EmitSite) (uuid : UUID)
    (data : MessageInfo) :
    (sendToSession site server client uuid data).Sends server client data := by
  unfold sendToSession
  cases hns : server.getNamespace client.namespaceName with
  | none => exact .nothing _
  | some ns =>
      dsimp only [Option.bind_some]
      cases hreceiver : ns.getClient uuid with
      | none => exact .nothing _
      | some receiver =>
          apply Reply.Sends.event site hns
          exact List.singleton_sublist.mpr (List.mem_of_find?_eq_some hreceiver)

theorem sends_sendMsgByClientDispatch (data : MessageInfo) :
    (sendMsgByClientDispatch server client data).Sends server client data := by
  unfold sendMsgByClientDispatch
  cases hns : server.getNamespace client.namespaceName with
  | none => exact .nothing _
  | some ns => exact .event _ hns List.filter_sublist

theorem sends_sendMsgByBroadcast (data : MessageInfo) :
    (sendMsgByBroadcast server client data).Sends server client data := by
  unfold sendMsgByBroadcast
  cases hns : server.getNamespace client.namespaceName with
  | none => exact .nothing _
  | some ns => exact .event _ hns (List.Sublist.refl _)

theorem sends_sendMsgByP2p (this : BaseAbstractHandler) (data : MessageInfo) :
    (this.sendMsgByP2p server client data).Sends server client data := by
  unfold sendMsgByP2p
  cases data.targetClientId with
  | none => exact .nothing _
  | some target =>
      dsimp only
      cases this.sessions target with
      | none => exact sends_sendMsgByClientDispatch _
      | some uuid => exact sends_sendToSession _ _ _

theorem onEvent_sends (this : BaseAbstractHandler) (server : Server)
    (client : SocketIOClient) (ackRequested : Bool) (data : MessageInfo) :
    ∃ reply : Reply, reply.Sends server client data ∧
      this.onEvent server client ackRequested data =
        reply.after (ackOf client ackRequested none data) := by
  unfold onEvent
  cases isEmpty data.targetClientId with
  | true => exact ⟨_, sends_sendMsgByBroadcast data, rfl⟩
  | false => exact ⟨_, this.sends_sendMsgByP2p data, rfl⟩

theorem onClientDispatch_sends (this : BaseAbstractHandler) (server : Server)
    (client : SocketIOClient) (ackRequested : Bool) (data : MessageInfo) :
    ∃ reply : Reply, reply.Sends server client data ∧
      this.onClientDispatch server client ackRequested data =
        reply.after (ackOf client ackRequested (some "ACK:") data) := by
  unfold onClientDispatch
  cases data.targetClientId with
  | none => exact ⟨_, .nothing _, rfl⟩
  | some target =>
      dsimp only
      cases this.sessions target with
      | none => exact ⟨_, .nothing _, rfl⟩
      | some uuid => exact ⟨_, sends_sendToSession _ _ _, rfl⟩

end BaseAbstractHandler

structure Incoming where
  client : SocketIOClient
  ackRequested : Bool
  ackTag : Option String
  data : MessageInfo

def Action.incoming : Action → Option Incoming
  | .event client ackRequested data => some ⟨client, ackRequested, none, data⟩
  | .clientDispatch client ackRequested data =>
      some ⟨client, ackRequested, some "ACK:", data⟩
  | _ => none

def Incoming.ack (message : Incoming) : List Emission :=
  ackOf message.client message.ackRequested message.ackTag message.data

namespace Broker

variable {b b' : Broker}

theorem step_incoming {a : Action} {message : Incoming}
    (ha : a.incoming = some message) (h : b.step a = some b') :
    ∃ (ns : Namespace) (reply : Reply),
      b.server.getNamespace message.client.namespaceName = some ns ∧
      message.client ∈ ns.allClients ∧
      reply.Sends b.server message.client message.data ∧
      b' = { b with sent := b.sent ++ (message.ack ++ reply.emissions) } := by
  cases a with
  | connect client => cases ha
  | disconnect client => cases ha
  | event client ackRequested data =>
      cases ha
      obtain ⟨whole, hwhole, rfl⟩ := Option.map_eq_some_iff.mp h
      obtain ⟨ns, hns, hmem, rfl⟩ := message_eq hwhole
      obtain ⟨reply, hsends, hreply⟩ :=
        ns.handler.onEvent_sends b.server client ackRequested data
      exact ⟨ns, reply, hns, hmem, hsends, by rw [hreply]; rfl⟩
  | clientDispatch client ackRequested data =>
      cases ha
      obtain ⟨whole, hwhole, rfl⟩ := Option.map_eq_some_iff.mp h
      obtain ⟨ns, hns, hmem, rfl⟩ := message_eq hwhole
      obtain ⟨reply, hsends, hreply⟩ :=
        ns.handler.onClientDispatch_sends b.server client ackRequested data
      exact ⟨ns, reply, hns, hmem, hsends, by rw [hreply]; rfl⟩

theorem step_sent_of_not_incoming {a : Action} (ha : a.incoming = none)
    (h : b.step a = some b') : b'.sent = b.sent := by
  cases a with
  | connect client =>
      obtain ⟨server, -, rfl⟩ := Option.map_eq_some_iff.mp h
      rfl
  | disconnect client =>
      obtain ⟨server, -, rfl⟩ := Option.map_eq_some_iff.mp h
      rfl
  | event client ackRequested data => cases ha
  | clientDispatch client ackRequested data => cases ha

end Broker

theorem received_named {server : Server} (hserver : server.WellFormed)
    {message : Incoming} {reply : Reply}
    (h : reply.Sends server message.client message.data) :
    ∀ packet ∈ (message.ack ++ reply.emissions).flatMap Emission.received,
      packet.1.namespaceName = message.client.namespaceName := by
  intro packet hpacket
  rw [List.flatMap_append, List.mem_append] at hpacket
  cases hpacket with
  | inl hack =>
      unfold Incoming.ack ackOf at hack
      split at hack
      · simp only [Emission.received, List.flatMap_cons, List.flatMap_nil,
          List.append_nil, List.mem_singleton] at hack
        rw [hack]
      · cases hack
  | inr hevent =>
      cases h with
      | nothing thrown => cases hevent
      | @event site ns recipients hns hrecipients =>
          simp only [Emission.received, List.flatMap_cons, List.flatMap_nil,
            List.append_nil, List.mem_map] at hevent
          obtain ⟨receiver, hreceiver, rfl⟩ := hevent
          exact (hserver _ ns hns).named _
            (Namespace.mem_live_of_allClients (hrecipients.subset hreceiver))

end WebIm.SocketIO
