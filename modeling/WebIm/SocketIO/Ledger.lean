import WebIm.SocketIO.Effects

/-!
# What a broker has sent and what it keeps

Everything a client has received goes back to a message of the run, and
everything the server holds belongs to a client that is still connected.
-/

namespace WebIm.SocketIO

open WebIm.Foundation

/-! ## Acknowledgements -/

def Packet.isAck : Packet → Bool
  | .ack _ _ => true
  | .event _ => false

def Action.acks (a : Action) : List (SocketIOClient × Packet) :=
  a.incoming.elim [] fun message => message.ack.flatMap Emission.received

theorem Incoming.isAck_ack (message : Incoming) :
    ∀ packet ∈ message.ack.flatMap Emission.received,
      packet.2.isAck = true := by
  intro packet hpacket
  unfold Incoming.ack ackOf at hpacket
  split at hpacket
  · simp only [Emission.received, List.flatMap_cons, List.flatMap_nil,
      List.append_nil, List.mem_singleton] at hpacket
    rw [hpacket]
    rfl
  · cases hpacket

theorem Reply.Sends.not_isAck {server : Server} {client : SocketIOClient}
    {data : MessageInfo} {reply : Reply} (h : reply.Sends server client data) :
    ∀ packet ∈ reply.emissions.flatMap Emission.received,
      packet.2.isAck = false := by
  intro packet hpacket
  cases h with
  | nothing thrown => cases hpacket
  | event site hns hrecipients =>
      simp only [Emission.received, List.flatMap_cons, List.flatMap_nil,
        List.append_nil, List.mem_map] at hpacket
      obtain ⟨receiver, -, rfl⟩ := hpacket
      rfl

namespace Broker

def ackLog (b : Broker) : List (SocketIOClient × Packet) :=
  b.received.filter (·.2.isAck)

theorem received_append (b : Broker) (emissions : List Emission) :
    received { b with sent := b.sent ++ emissions } =
      b.received ++ emissions.flatMap Emission.received :=
  List.flatMap_append

theorem ackLog_step (b : Broker) (a : Action) (b' : Broker)
    (h : b.step a = some b') : b'.ackLog = b.ackLog ++ a.acks := by
  cases ha : a.incoming with
  | none =>
      unfold ackLog received Action.acks
      rw [step_sent_of_not_incoming ha h, ha, Option.elim_none,
        List.append_nil]
  | some message =>
      obtain ⟨ns, reply, -, -, hsends, rfl⟩ := step_incoming ha h
      have hevents : (reply.emissions.flatMap Emission.received).filter
          (·.2.isAck) = [] := by
        apply List.filter_eq_nil_iff.mpr
        intro packet hpacket
        rw [hsends.not_isAck packet hpacket]
        exact Bool.false_ne_true
      unfold Action.acks
      rw [ha, ackLog, received_append, List.filter_append, List.flatMap_append,
        List.filter_append, List.filter_eq_self.mpr message.isAck_ack, hevents,
        List.append_nil]
      rfl

end Broker

/-! ## Events -/

/-- An event with these data, under whichever name it was sent. -/
def Packet.delivers (data : MessageInfo) : Packet → Bool
  | .ack _ _ => false
  | .event sent => sent.data = data

def Action.carries (name : String) (data : MessageInfo) (a : Action) : Bool :=
  a.incoming.any fun message =>
    message.client.namespaceName = name && message.data = data

theorem EmitSite.sendEvent_data (site : EmitSite) (data : MessageInfo) :
    (site.sendEvent data).data = data := by
  cases site <;> rfl

theorem Namespace.WellFormed.nodup {name : String} {ns : Namespace}
    (h : ns.WellFormed name) : ns.allClients.Nodup :=
  (List.nodup_append.mp h.distinct.of_map).1

def deliveries (receiver : SocketIOClient) (data : MessageInfo)
    (packets : List (SocketIOClient × Packet)) : Nat :=
  packets.countP fun packet =>
    packet.1 = receiver && packet.2.delivers data

theorem deliveries_ack (receiver : SocketIOClient) (data : MessageInfo)
    (message : Incoming) :
    deliveries receiver data (message.ack.flatMap Emission.received) = 0 := by
  unfold deliveries Incoming.ack ackOf
  split
  · simp [Emission.received, Packet.delivers]
  · rfl

theorem deliveries_sendEvent (receiver : SocketIOClient) (data : MessageInfo)
    (site : EmitSite) (recipients : List SocketIOClient) (sent : MessageInfo) :
    deliveries receiver data
        ([Emission.sendEvent site recipients sent].flatMap Emission.received) =
      if sent = data then recipients.count receiver else 0 := by
  unfold deliveries
  rw [List.flatMap_singleton, Emission.received, List.countP_map]
  split
  · rename_i hdata
    apply List.countP_congr
    intro client _
    simp [Packet.delivers, site.sendEvent_data, hdata]
  · rename_i hdata
    apply List.countP_eq_zero.mpr
    intro client _
    simp [Packet.delivers, site.sendEvent_data, hdata]

namespace Broker

def delivered (receiver : SocketIOClient) (data : MessageInfo) (b : Broker) :
    Nat :=
  deliveries receiver data b.received

theorem delivered_append (receiver : SocketIOClient) (data : MessageInfo)
    (b : Broker) (message : Incoming) (reply : Reply) :
    delivered receiver data
        { b with sent := b.sent ++ (message.ack ++ reply.emissions) } =
      b.delivered receiver data +
        deliveries receiver data
          (reply.emissions.flatMap Emission.received) := by
  unfold delivered
  rw [received_append, List.flatMap_append, deliveries, List.countP_append,
    List.countP_append]
  have hack := deliveries_ack receiver data message
  unfold deliveries at hack ⊢
  omega

theorem delivered_step (receiver : SocketIOClient) (data : MessageInfo)
    (b : Broker) (a : Action) (b' : Broker) (hb : b.server.WellFormed)
    (h : b.step a = some b') :
    b'.delivered receiver data ≤ b.delivered receiver data +
      if a.carries receiver.namespaceName data then 1 else 0 := by
  cases ha : a.incoming with
  | none =>
      unfold delivered received
      rw [step_sent_of_not_incoming ha h]
      exact Nat.le_add_right _ _
  | some message =>
      obtain ⟨ns, reply, hns, -, hsends, rfl⟩ := step_incoming ha h
      rw [delivered_append]
      cases hsends with
      | nothing thrown => exact Nat.le_add_right _ _
      | @event site beside recipients hbeside hrecipients =>
          rw [deliveries_sendEvent]
          have hbeside := hb _ _ hbeside
          have hnodup := hbeside.nodup.sublist hrecipients
          by_cases hmem : receiver ∈ recipients
          · have hname : receiver.namespaceName =
                message.client.namespaceName :=
              hbeside.named _ (Namespace.mem_live_of_allClients
                (hrecipients.subset hmem))
            have hcount := List.nodup_iff_count_le_one.mp hnodup receiver
            unfold Action.carries
            rw [ha, hname]
            split
            · rename_i hdata
              simp only [Option.any_some, hdata, decide_true, Bool.and_self,
                if_true]
              omega
            · exact Nat.le_add_right _ _
          · rw [List.count_eq_zero.mpr hmem, ite_self]
            exact Nat.le_add_right _ _

/--
A broker makes nothing up: the acknowledgements are those the messages of the
run ask for, one each and in their order, and a client is sent an event at most
as often as a client of its namespace has handed these data in.
-/
theorem received_only_sent (actions : List Action) {b : Broker}
    (hrun : system.run actions = some b) :
    b.received.filter (·.2.isAck) = actions.flatMap Action.acks ∧
      ∀ (receiver : SocketIOClient) (data : MessageInfo),
        b.delivered receiver data ≤
          actions.countP (·.carries receiver.namespaceName data) := by
  constructor
  · exact system.runFrom_log ackLog_step hrun
  · intro receiver data
    have hle := system.runFrom_le_countP step_wellFormed
      (delivered_step receiver data) Server.wellFormed_initial hrun
    have hnone : delivered receiver data system.initial = 0 := rfl
    rw [hnone, Nat.zero_add] at hle
    exact hle

theorem received_only_sent_run :
    ∃ b, system.run (aliceAndBob ++ [.event (clientNamed 1 "alice") true
        (messageTo "bob")]) = some b ∧
      b.delivered (clientNamed 2 "bob") (messageTo "bob") ≤ 1 :=
  ⟨_, rfl, (received_only_sent (aliceAndBob ++
    [.event (clientNamed 1 "alice") true (messageTo "bob")]) rfl).2 _ _⟩

/-! ## Broadcasts -/

/-- A message without target reaches every client of the namespace, and once. -/
theorem broadcast_reaches_each {b b' : Broker} (hb : system.Reachable b)
    {client : SocketIOClient} {ackRequested : Bool} {data : MessageInfo}
    (hempty : isEmpty data.targetClientId = true)
    (h : b.step (.event client ackRequested data) = some b')
    (receiver : SocketIOClient) (other : MessageInfo) :
    b'.delivered receiver other = b.delivered receiver other +
      if other = data ∧ receiver ∈ b.connectedBeside client then 1 else 0 := by
  obtain ⟨whole, hwhole, rfl⟩ := Option.map_eq_some_iff.mp h
  obtain ⟨ns, hns, -, rfl⟩ := message_eq hwhole
  have hreply : ns.handler.onEvent b.server client ackRequested data =
      Reply.after (ackOf client ackRequested none data)
        ⟨[.sendEvent .sendMsgByBroadcast ns.allClients data], none⟩ := by
    unfold BaseAbstractHandler.onEvent BaseAbstractHandler.sendMsgByBroadcast
    rw [if_pos hempty, hns]
    rfl
  rw [hreply]
  refine (delivered_append receiver other b ⟨client, ackRequested, none, data⟩
    ⟨[.sendEvent .sendMsgByBroadcast ns.allClients data], none⟩).trans ?_
  rw [deliveries_sendEvent, connectedBeside, hns, Option.elim_some]
  have hnodup := (reachable_wellFormed hb _ _ hns).nodup
  by_cases hdata : other = data
  · simp only [hdata, true_and, if_true]
    rw [hnodup.count]
  · rw [if_neg (Ne.symm hdata), if_neg fun hboth => hdata hboth.1]

theorem broadcast_reaches_each_run :
    ∃ b b', system.run aliceAndBob = some b ∧
      b.step (.event (clientNamed 1 "alice") false (messageTo "")) = some b' ∧
      b'.delivered (clientNamed 2 "bob") (messageTo "") =
        b.delivered (clientNamed 2 "bob") (messageTo "") + 1 := by
  have hrun : system.run aliceAndBob = some _ := rfl
  refine ⟨_, _, hrun, rfl, ?_⟩
  refine (@broadcast_reaches_each _ _ ⟨aliceAndBob, hrun⟩
    (clientNamed 1 "alice") false (messageTo "") rfl rfl
    (clientNamed 2 "bob") (messageTo "")).trans ?_
  rw [if_pos (by decide)]

end Broker

/-! ## What is left behind -/

namespace Namespace

variable {ns : Namespace} {client : SocketIOClient}

def RoomsKept (ns : Namespace) : Prop :=
  ∀ room uuid, (room, uuid) ∈ ns.roomClients →
    ∃ client ∈ ns.allClients, client.sessionId = uuid

theorem RoomsKept.connected (h : ns.RoomsKept) (client : SocketIOClient) :
    (ns.connected client).RoomsKept := by
  intro room uuid hroom
  rw [connected_allClients]
  cases (ns.mem_connected_roomClients client room uuid).mp hroom with
  | inl hbefore =>
      obtain ⟨other, hother, hid⟩ := h room uuid hbefore
      exact ⟨other, List.mem_append_left _ hother, hid⟩
  | inr hjoined =>
      exact ⟨client, List.mem_append_right _ (List.mem_singleton_self _),
        hjoined.2.2.2.symm⟩

theorem RoomsKept.removed (h : ns.RoomsKept) {after : Namespace}
    (hclients : after.allClients = ns.allClients.filter (· ≠ client))
    (hrooms : after.roomClients =
      ns.roomClients.filter (·.2 ≠ client.sessionId)) : after.RoomsKept := by
  intro room uuid hroom
  rw [hrooms, List.mem_filter, decide_eq_true_eq] at hroom
  obtain ⟨other, hother, hid⟩ := h room uuid hroom.1
  refine ⟨other, ?_, hid⟩
  rw [hclients, List.mem_filter, decide_eq_true_eq]
  refine ⟨hother, ?_⟩
  rintro rfl
  exact hroom.2 hid.symm

theorem RoomsKept.close (h : ns.RoomsKept) (client : SocketIOClient) :
    (ns.close client).RoomsKept :=
  h.removed (ns.close_allClients client) (ns.close_roomClients client)

theorem RoomsKept.refuse (h : ns.RoomsKept) (client : SocketIOClient) :
    (ns.refuse client).RoomsKept := by
  have hadded : (ns.addClient client).RoomsKept := by
    intro room uuid hroom
    obtain ⟨other, hother, hid⟩ := h room uuid hroom
    exact ⟨other, List.mem_append_left _ hother, hid⟩
  exact hadded.removed rfl rfl

end Namespace

/-! ## A property of every namespace -/

namespace Server

def Everywhere (P : Namespace → Prop) (server : Server) : Prop :=
  ∀ name ns, server.getNamespace name = some ns → P ns

variable {P : Namespace → Prop} {server server' : Server}
  {client : SocketIOClient}

theorem everywhere_initial (hnew : P (.new .new)) :
    Server.initial.Everywhere P := by
  intro name ns hget
  unfold getNamespace initial at hget
  dsimp only at hget
  by_cases hname : name = defaultName
  · subst hname
    rw [Function.update_self, Option.some.injEq] at hget
    exact hget ▸ hnew
  · rw [Function.update_of_ne hname] at hget
    cases hget

theorem Everywhere.connect (h : server.Everywhere P) (hnew : P (.new .new))
    (hconnected : ∀ ns, P ns → P (ns.connected client))
    (hrefuse : ∀ ns, P ns → P (ns.refuse client))
    (hconnect : server.connect client = some server') :
    server'.Everywhere P := by
  intro name ns' hget
  obtain ⟨ns, hns, -⟩ := connect_cases hconnect
  rw [getNamespace_connect hconnect hns] at hget
  split at hget
  · obtain rfl := Option.some.inj hget
    split
    · exact hconnected ns (h _ ns hns)
    · exact hrefuse ns (h _ ns hns)
  · split at hget
    · exact Option.some.inj hget ▸ hnew
    · exact h name ns' hget

theorem Everywhere.disconnect (h : server.Everywhere P)
    (hclose : ∀ ns, P ns → P (ns.close client))
    (hdisconnect : server.disconnect client = some server') :
    server'.Everywhere P := by
  intro name ns' hget
  obtain ⟨ns, hns, -, rfl⟩ := disconnect_cases hdisconnect
  by_cases hname : name = client.namespaceName
  · subst hname
    rw [getNamespace_setNamespace_self, Option.some.injEq] at hget
    exact hget ▸ hclose ns (h _ ns hns)
  · rw [getNamespace_setNamespace_ne _ _ hname] at hget
    exact h name ns' hget

end Server

namespace Broker

theorem roomsKept_step (b : Broker) (a : Action) (b' : Broker)
    (hb : b.server.Everywhere Namespace.RoomsKept) (h : b.step a = some b') :
    b'.server.Everywhere Namespace.RoomsKept := by
  cases a with
  | connect client =>
      obtain ⟨server, hserver, rfl⟩ := Option.map_eq_some_iff.mp h
      exact hb.connect nofun (fun ns hns => hns.connected client)
        (fun ns hns => hns.refuse client) hserver
  | disconnect client =>
      obtain ⟨server, hserver, rfl⟩ := Option.map_eq_some_iff.mp h
      exact hb.disconnect (fun ns hns => hns.close client) hserver
  | event client ackRequested data =>
      obtain ⟨reply, -, rfl⟩ := Option.map_eq_some_iff.mp h
      exact hb
  | clientDispatch client ackRequested data =>
      obtain ⟨reply, -, rfl⟩ := Option.map_eq_some_iff.mp h
      exact hb

theorem reachable_roomsKept {b : Broker} (hb : system.Reachable b) :
    b.server.Everywhere Namespace.RoomsKept :=
  TransitionSystem.Reachable.invariant
    (P := fun b : Broker => b.server.Everywhere Namespace.RoomsKept)
    (Server.everywhere_initial nofun) roomsKept_step hb

end Broker

theorem Namespace.RoomsKept.eq_new {name : String} {ns : Namespace}
    (h : ns.RoomsKept) (hns : ns.WellFormed name) (hlive : ns.live = []) :
    ns = { Namespace.new .new with opened := ns.opened } := by
  obtain ⟨hclients, hclosing⟩ := List.append_eq_nil_iff.mp hlive
  have hrooms : ns.roomClients = [] := by
    apply List.eq_nil_iff_forall_not_mem.mpr
    rintro ⟨room, uuid⟩ hroom
    obtain ⟨client, hclient, -⟩ := h room uuid hroom
    rw [hclients] at hclient
    cases hclient
  have hsessions : ns.handler.sessions = fun _ => none := by
    funext clientId
    cases hget : ns.handler.sessions clientId with
    | none => rfl
    | some uuid =>
        obtain ⟨client, hclient, -⟩ := hns.sessions clientId uuid hget
        rw [hclients] at hclient
        cases hclient
  cases ns with
  | mk opened allClients closing roomClients handler =>
      cases handler with
      | mk sessions =>
          cases hclients
          cases hclosing
          cases hrooms
          cases hsessions
          rfl

/--
A room holds exactly the connected clients that gave it as their parameter,
and when the last client has gone, a namespace is as it was when it was created.
-/
theorem nothing_left_behind {b : Broker} (hb : Broker.system.Reachable b)
    (name : String) {ns : Namespace}
    (hns : b.server.getNamespace name = some ns) :
    (∀ room uuid, (room, uuid) ∈ ns.roomClients ↔
      ∃ client ∈ ns.allClients, client.sessionId = uuid ∧
        client.clientId ≠ none ∧ client.room = some room ∧ room ≠ "") ∧
    (ns.live = [] → ns = { Namespace.new .new with opened := ns.opened }) := by
  have hkept := Broker.reachable_roomsKept hb name ns hns
  have hwf := Broker.reachable_wellFormed hb name ns hns
  refine ⟨fun room uuid => ?_, hkept.eq_new hwf⟩
  constructor
  · intro hroom
    obtain ⟨client, hclient, rfl⟩ := hkept room uuid hroom
    exact ⟨client, hclient, rfl, (hwf.rooms client hclient room).mp hroom⟩
  · rintro ⟨client, hclient, rfl, hparams⟩
    exact (hwf.rooms client hclient room).mpr hparams

theorem nothing_left_behind_run :
    ∃ b ns, Broker.system.run (aliceAndBob ++
        [.disconnect (clientNamed 1 "alice"),
          .disconnect (clientNamed 2 "bob")]) = some b ∧
      b.server.getNamespace defaultName = some ns ∧ ns.live = [] ∧
      ns = { Namespace.new .new with opened := ns.opened } := by
  have hrun : Broker.system.run (aliceAndBob ++
      [.disconnect (clientNamed 1 "alice"),
        .disconnect (clientNamed 2 "bob")]) = some _ := rfl
  exact ⟨_, _, hrun, rfl, rfl,
    (nothing_left_behind ⟨_, hrun⟩ defaultName rfl).2 rfl⟩

end WebIm.SocketIO
