import WebIm.Sdk.Acknowledgement
import WebIm.Sdk.MakeUpUrl
import WebIm.SocketIO.Joining

/-!
# From the configuration of a client to the business of its listener

The URL a client makes up takes it to its namespace, where a message to its
client id finds it; the listener of its socket does its business with the
message, and the sender's future completes.
-/

namespace WebIm.Sdk

open WebIm.Foundation WebIm.SocketIO

/-- The path `/` is the default namespace. -/
def Connection.namespaceName (connection : Connection) : String :=
  if connection.path = "/" then defaultName else connection.path

def Connection.client (connection : Connection) (uuid : UUID) :
    SocketIOClient :=
  ⟨uuid, connection.namespaceName, connection.handshakeData⟩

theorem namespaceName_eq {connection : Connection} {ns : String}
    (h : connection.path = "/" ++ ns) :
    connection.namespaceName = namespaceFor ns := by
  unfold Connection.namespaceName namespaceFor
  rw [h]
  by_cases hempty : ns = ""
  · subst hempty
    rfl
  · rw [if_neg hempty, if_neg]
    intro hroot
    have hlength := congrArg String.length hroot
    rw [String.length_append] at hlength
    have hne : ns.length ≠ 0 := by simpa using hempty
    exact absurd hlength (by simp [hne])

/-- Somebody has asked for the namespace that the client is configured for. -/
def AskedFor (clientConfig : UrlConfig) (before : List Action) : Prop :=
  configuredNs clientConfig.nameSpace ≠ "" →
    ∃ first, .connect first ∈ before ∧ first.namespaceName = defaultName ∧
      first.ns = some (configuredNs clientConfig.nameSpace)

section Joining

variable {clientConfig : UrlConfig} {clientId : String} {before : List Action}
  {b : Broker} {uuid : UUID}

theorem seated_of_plainConfig (hplain : PlainConfig clientConfig clientId)
    (hrun : Broker.system.run before = some b)
    (hasked : AskedFor clientConfig before)
    (hfresh : uuid ∉ b.server.openedIn defaultName)
    (hunused : uuid ∉ b.server.openedIn
      (namespaceFor (configuredNs clientConfig.nameSpace))) :
    ∃ connection joined,
      connect (makeUpUrl clientConfig clientId) = some connection ∧
      Broker.system.runFrom b (joining uuid connection.handshakeData
        connection.namespaceName) = some joined ∧
      (connection.client uuid).room = some (clientConfig.channel.getD "") ∧
      joined.Seated (connection.client uuid) clientId := by
  obtain ⟨connection, hconnect, hclientId, hroom, hns, hpath⟩ :=
    readBack_of_plainConfig hplain
  have hname := namespaceName_eq hpath
  have hdefault := Broker.isSome_default ⟨before, hrun⟩
  have hpresent : (b.server.getNamespace
      (namespaceFor (configuredNs clientConfig.nameSpace))).isSome := by
    by_cases hempty : configuredNs clientConfig.nameSpace = ""
    · rw [hempty]
      exact hdefault
    · obtain ⟨first, hmem, hfirst, hfirstNs⟩ := hasked hempty
      apply Broker.isSome_of_asked hfirst _ hmem hrun
      unfold AddNs.wantedNs namespaceFor
      simp only [hfirstNs, hfirst]
      rw [if_neg hempty, if_pos]
      exact ⟨fun h => hempty h.symm, hempty⟩
  have hmissing := Broker.missing_of_present b
    ⟨uuid, defaultName, connection.handshakeData⟩ hns hpresent
  obtain ⟨joined, hjoined, hseated⟩ := Broker.joins hclientId hdefault
    (hname ▸ hpresent) hmissing hfresh (hname ▸ hunused)
  exact ⟨connection, joined, hconnect, hjoined, hroom, hseated⟩

/-- The attempt that made the server create `/ns1` and was refused for it. -/
def firstAttempt : SocketIOClient :=
  ⟨1, defaultName, ⟨[("ns", "ns1"), ("clientid", "bob"), ("room", "")]⟩⟩

def bobOfNs1 : SocketIOClient := ⟨2, "/ns1", firstAttempt.handshakeData⟩

def aliceOfNs1 : SocketIOClient :=
  ⟨3, "/ns1", ⟨[("ns", "ns1"), ("clientid", "alice")]⟩⟩

def brokerOfNs1 : SocketIOClient :=
  ⟨2, "/ns1", ⟨[("ns", "ns1"), ("clientid", "broker2"),
    ("room", "room-brokers")]⟩⟩

end Joining

/-! ## There and back -/

def ackValues {lib : JsonLibraries} (tag : Option String) {data : MessageInfo}
    (hjson : lib.RoundTrips data) : List (AckValue lib) :=
  tag.toList.map .text ++ [.data data hjson]

def ClientState.nextAck {lib : JsonLibraries} (s : ClientState lib) : Nat :=
  s.client.acks.length

namespace ClientState

variable {lib : JsonLibraries} {s : ClientState lib} {data : MessageInfo}

theorem sendMsg_new (hsocket : s.client.socket ≠ none) (endPoint : String)
    (data : MessageInfo) :
    (s.sendMsg endPoint (some data) true).client.acks =
        s.client.acks ++ [.new data] ∧
      (s.sendMsg endPoint (some data) true).client.threadPool =
        s.client.threadPool := by
  unfold sendMsg AbstractBaseSocketIOClient.sendMsg
  cases hopen : s.client.socket with
  | none => exact absurd hopen hsocket
  | some socket => exact ⟨rfl, rfl⟩

theorem completes_of_ack (hjson : lib.RoundTrips data)
    (clientConfig : Option SocketIOClientConfig)
    (hsocket : s.client.socket ≠ none)
    (hrunning : s.client.threadPool.isShutdown = false) (endPoint : String)
    (tag : Option String) :
    ∃ s', (system lib clientConfig).runFrom s
        [.sendMsg endPoint (some data) true,
          .ack s.nextAck (ackValues tag hjson), .runTask s.nextAck] = some s' ∧
      (s'.client.acks[s.nextAck]?).map (·.result.outcome) =
        some (some true) := by
  obtain ⟨hacks, hpool⟩ := sendMsg_new hsocket endPoint data
  generalize hsent : s.sendMsg endPoint (some data) true = sent at hacks hpool
  have hget : sent.client.acks[s.nextAck]? = some (.new data) := by
    rw [hacks]
    exact List.getElem?_concat_length
  have hcarries : (ackValues tag hjson).any (·.carries data) = true := by
    unfold ackValues
    rw [List.any_append]
    simp [AckValue.carries]
  cases sent.deliver_cases s.nextAck (.new data) (ackValues tag hjson) with
  | inl hpassed =>
      rw [show (MsgSenderAck.new data).msg = data from rfl, hcarries] at hpassed
      cases hpassed.1
  | inr hcases =>
      cases hcases with
      | inl hrejected =>
          rw [hpool, hrunning] at hrejected
          cases hrejected.2.1
      | inr haccepted =>
          obtain ⟨-, -, n, hn, hdelivered⟩ := haccepted
          generalize hacked : sent.deliver s.nextAck (.new data)
            (ackValues tag hjson) = acked at hdelivered
          have hwaiting : s.nextAck ∈ acked.client.threadPool.waiting := by
            rw [hdelivered]
            apply List.mem_append_right
            exact List.mem_replicate.mpr ⟨by omega, rfl⟩
          have hkept : acked.client.acks = sent.client.acks := by
            rw [hdelivered]
          refine ⟨acked.runTask s.nextAck, ?_, ?_⟩
          · apply (TransitionSystem.runFrom_cons _).mpr
            refine ⟨sent, congrArg some hsent, ?_⟩
            apply (TransitionSystem.runFrom_cons _).mpr
            refine ⟨acked, ?_, ?_⟩
            · exact (congrArg (Option.map _) hget).trans (congrArg some hacked)
            · apply (TransitionSystem.runFrom_cons _).mpr
              exact ⟨_, if_pos hwaiting, rfl⟩
          · rw [acks_runTask, hkept, hget, Option.map_some, if_pos rfl,
              Option.map_some, MsgSenderAck.outcome_run]
            rfl

end ClientState

/--
A message with an acknowledgement asked for, to a client that has its seat in
the sender's namespace: the broker answers the sender and hands the message on,
the receiver's listener does its business once, and the sender's future
completes.
-/
theorem message_round_trip {lib : JsonLibraries} {data : MessageInfo}
    (hjson : lib.RoundTrips data) {b : Broker}
    (hb : Broker.system.Reachable b) (sender receiver : SocketIOClient)
    {clientId : String} (hseated : b.Seated receiver clientId)
    (hsender : sender ∈ b.connectedBeside receiver)
    (htarget : data.targetClientId = some clientId) (hne : clientId ≠ "")
    (config : SocketIOClientConfig) (hurl : isEmpty config.url = false)
    (hendpoint : config.brokerEndpoint = endpointP2p)
    (representation : Representation) (hrep : representation ≠ .messageInfo)
    (clientConfig : Option SocketIOClientConfig) (s : ClientState lib)
    (hsocket : s.client.socket ≠ none)
    (hrunning : s.client.threadPool.isShutdown = false) :
    ∃ b' socket s',
      b.step (.event sender true data) = some b' ∧
      b'.sent = b.sent ++ [.sendAckData sender none data,
        .sendEvent .sendMsgByP2p [receiver] data] ∧
      initConnect (some config) = some socket ∧
      (socket.receive lib representation
        (EmitSite.sendMsgByP2p.sendEvent data)).business = [data] ∧
      (socket.receive lib representation
        (EmitSite.sendMsgByP2p.sendEvent data)).thrown = none ∧
      (ClientState.system lib clientConfig).runFrom s
        [.sendMsg endpointP2p (some data) true,
          .ack s.nextAck (ackValues none hjson), .runTask s.nextAck] =
            some s' ∧
      (s'.client.acks[s.nextAck]?).map (·.result.outcome) =
        some (some true) := by
  obtain ⟨b', hstep, hsent⟩ := hseated.event
    (Broker.reachable_wellFormed hb) hsender htarget hne true
  obtain ⟨socket, hsubscribed, hcount⟩ := initConnect_callbacks hurl
  obtain ⟨s', hrun, hdone⟩ := ClientState.completes_of_ack hjson clientConfig
    hsocket hrunning endpointP2p none
  have hreceive : socket.receive lib representation
      (EmitSite.sendMsgByP2p.sendEvent data) =
        ⟨[data], [representation.encode lib data], none⟩ := by
    rw [hendpoint] at hcount
    unfold Socket.receive
    refine (fire_once _ hcount).trans ?_
    refine (call_with_ack hjson representation).trans ?_
    rw [if_neg hrep]
  exact ⟨b', socket, s', hstep, hsent, hsubscribed, by rw [hreceive],
    by rw [hreceive], hrun, hdone⟩

theorem message_round_trip_to_bob :
    ∃ b b' s', Broker.system.run aliceAndBob = some b ∧
      b.step (.event (clientNamed 1 "alice") true bobsHello) = some b' ∧
      (ClientState.system plainJson none).runFrom
        (ClientState.initial.start (some ⟨some "http://broker", endpointP2p⟩))
        [.sendMsg endpointP2p (some bobsHello) true,
          .ack 0 (ackValues none plainJson_roundTrips), .runTask 0] =
            some s' ∧
      (s'.client.acks[0]?).map (·.result.outcome) = some (some true) := by
  have hrun : Broker.system.run aliceAndBob = some _ := rfl
  have hb : Broker.system.Reachable _ := ⟨aliceAndBob, hrun⟩
  obtain ⟨b', -, s', hstep, -, -, -, -, hsent, hdone⟩ := message_round_trip
    plainJson_roundTrips hb (clientNamed 1 "alice") (clientNamed 2 "bob")
    ⟨_, rfl, by decide, rfl, rfl⟩ (by decide) rfl (by decide)
    ⟨some "http://broker", endpointP2p⟩ rfl rfl .orgJson (by decide) none
    (ClientState.initial.start (some ⟨some "http://broker", endpointP2p⟩))
    nofun rfl
  exact ⟨_, b', s', hrun, hstep, hsent, hdone⟩

end WebIm.Sdk
