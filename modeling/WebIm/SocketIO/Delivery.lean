import WebIm.SocketIO.SessionTable

/-!
# The two delivery paths

What `sendMsgByP2p` and `onClientDispatch` send in a well-formed server, one
lemma for each outcome of the look-up in the table.
-/

namespace WebIm.SocketIO

open WebIm.Foundation

namespace Namespace

variable {name : String} {ns : Namespace}

theorem WellFormed.receiver (h : ns.WellFormed name) {target : String}
    {uuid : UUID} (hget : ns.handler.sessions target = some uuid) :
    ∃ receiver ∈ ns.allClients, ns.getClient uuid = some receiver ∧
      receiver.sessionId = uuid ∧ receiver.clientId = some target ∧
      receiver.namespaceName = name := by
  obtain ⟨receiver, hmem, rfl, hid⟩ := h.sessions target uuid hget
  exact ⟨receiver, hmem, h.getClient hmem, rfl, hid,
    h.named receiver (mem_live_of_allClients hmem)⟩

end Namespace

namespace BaseAbstractHandler

variable {server : Server} {sender receiver : SocketIOClient} {ns : Namespace}
  {target : String} {data : MessageInfo}

theorem sendToSession_eq (site : EmitSite) {uuid : UUID}
    (hns : server.getNamespace sender.namespaceName = some ns)
    (hreceiver : ns.getClient uuid = some receiver) :
    sendToSession site server sender uuid data =
      ⟨[.sendEvent site [receiver] data], none⟩ := by
  simp [sendToSession, hns, hreceiver]

theorem sendMsgByP2p_local
    (hns : server.getNamespace sender.namespaceName = some ns)
    (htarget : data.targetClientId = some target)
    (hget : ns.handler.sessions target = some receiver.sessionId)
    (hreceiver : ns.getClient receiver.sessionId = some receiver) :
    ns.handler.sendMsgByP2p server sender data =
      ⟨[.sendEvent .sendMsgByP2p [receiver] data], none⟩ := by
  simp [sendMsgByP2p, htarget, hget, sendToSession_eq _ hns hreceiver]

theorem sendMsgByP2p_dispatch
    (hns : server.getNamespace sender.namespaceName = some ns)
    (htarget : data.targetClientId = some target)
    (hget : ns.handler.sessions target = none) :
    ns.handler.sendMsgByP2p server sender data =
      ⟨[.sendEvent .sendMsgByClientDispatch (ns.getRoomClients roomTagBroker)
        data], none⟩ := by
  simp [sendMsgByP2p, htarget, hget, sendMsgByClientDispatch, hns]

theorem onEvent_p2p (ackRequested : Bool)
    (htarget : data.targetClientId = some target) (hne : target ≠ "") :
    ns.handler.onEvent server sender ackRequested data =
      (ns.handler.sendMsgByP2p server sender data).after
        (if ackRequested then [.sendAckData sender none data] else []) := by
  simp [onEvent, isEmpty, htarget, hne]

theorem onClientDispatch_local (ackRequested : Bool)
    (hns : server.getNamespace sender.namespaceName = some ns)
    (htarget : data.targetClientId = some target)
    (hget : ns.handler.sessions target = some receiver.sessionId)
    (hreceiver : ns.getClient receiver.sessionId = some receiver) :
    ns.handler.onClientDispatch server sender ackRequested data =
      Reply.after
        (if ackRequested then [.sendAckData sender (some "ACK:") data] else [])
        ⟨[.sendEvent .onClientDispatch [receiver] data], none⟩ := by
  simp [onClientDispatch, htarget, hget, sendToSession_eq _ hns hreceiver]

theorem onClientDispatch_absent (ackRequested : Bool)
    (htarget : data.targetClientId = some target)
    (hget : ns.handler.sessions target = none) :
    ns.handler.onClientDispatch server sender ackRequested data =
      Reply.after
        (if ackRequested then [.sendAckData sender (some "ACK:") data] else [])
        ⟨[], none⟩ := by
  simp [onClientDispatch, htarget, hget]

end BaseAbstractHandler

/-! ## Safety of both paths in every reachable state -/

def Emission.ReachesOnly (data : MessageInfo) (name : String) :
    Emission → Prop
  | .sendAckData _ _ _ => True
  | .sendEvent site recipients sent =>
      site = .sendMsgByClientDispatch ∨
        sent = data ∧ ∀ receiver ∈ recipients,
          receiver.clientId = data.targetClientId ∧
            receiver.namespaceName = name

theorem Namespace.WellFormed.sendMsgByP2p_safe {server : Server}
    {sender : SocketIOClient} {ns : Namespace}
    (h : ns.WellFormed sender.namespaceName)
    (hns : server.getNamespace sender.namespaceName = some ns)
    {data : MessageInfo} (htarget : data.targetClientId ≠ none) :
    (ns.handler.sendMsgByP2p server sender data).thrown = none ∧
      ∀ e ∈ (ns.handler.sendMsgByP2p server sender data).emissions,
        e.ReachesOnly data sender.namespaceName := by
  obtain ⟨target, htarget⟩ := Option.ne_none_iff_exists'.mp htarget
  cases hget : ns.handler.sessions target with
  | none =>
      rw [BaseAbstractHandler.sendMsgByP2p_dispatch hns htarget hget]
      simp [Emission.ReachesOnly]
  | some uuid =>
      obtain ⟨receiver, -, hreceiver, rfl, hid, hname⟩ := h.receiver hget
      rw [BaseAbstractHandler.sendMsgByP2p_local hns htarget hget hreceiver]
      simp [Emission.ReachesOnly, hid, hname, htarget]

theorem Namespace.WellFormed.onClientDispatch_safe {server : Server}
    {sender : SocketIOClient} {ns : Namespace}
    (h : ns.WellFormed sender.namespaceName)
    (hns : server.getNamespace sender.namespaceName = some ns)
    (ackRequested : Bool) {data : MessageInfo}
    (htarget : data.targetClientId ≠ none) :
    (ns.handler.onClientDispatch server sender ackRequested data).thrown =
        none ∧
      ∀ e ∈ (ns.handler.onClientDispatch server sender ackRequested
          data).emissions, e.ReachesOnly data sender.namespaceName := by
  obtain ⟨target, htarget⟩ := Option.ne_none_iff_exists'.mp htarget
  cases hget : ns.handler.sessions target with
  | none =>
      rw [BaseAbstractHandler.onClientDispatch_absent _ htarget hget]
      cases ackRequested <;> simp [Emission.ReachesOnly]
  | some uuid =>
      obtain ⟨receiver, -, hreceiver, rfl, hid, hname⟩ := h.receiver hget
      rw [BaseAbstractHandler.onClientDispatch_local _ hns htarget hget
        hreceiver]
      cases ackRequested <;>
        simp [Emission.ReachesOnly, hid, hname, htarget]

/--
A table entry always names a session connected in the handler's namespace
under the entry's client id, so no delivery path dereferences a missing client
or reaches a session other than the target's, or one in another namespace.
-/
theorem session_table_sound {b : Broker} (hb : Broker.system.Reachable b)
    {name : String} {ns : Namespace}
    (hns : b.server.getNamespace name = some ns) :
    (∀ clientId uuid, ns.handler.sessions clientId = some uuid →
      ∃ client ∈ ns.allClients, ns.getClient uuid = some client ∧
        client.sessionId = uuid ∧ client.clientId = some clientId ∧
        client.namespaceName = name) ∧
    ∀ sender : SocketIOClient, sender.namespaceName = name →
      ∀ (ackRequested : Bool) (data : MessageInfo),
        data.targetClientId ≠ none →
        (ns.handler.sendMsgByP2p b.server sender data).thrown = none ∧
        (ns.handler.onClientDispatch b.server sender ackRequested data).thrown =
          none ∧
        ∀ e ∈ (ns.handler.sendMsgByP2p b.server sender data).emissions ++
            (ns.handler.onClientDispatch b.server sender ackRequested
              data).emissions,
          e.ReachesOnly data sender.namespaceName := by
  have hwf := Broker.reachable_wellFormed hb name ns hns
  refine ⟨fun clientId uuid hget => hwf.receiver hget, ?_⟩
  rintro sender rfl ackRequested data htarget
  obtain ⟨hp2p, hp2pOnly⟩ := hwf.sendMsgByP2p_safe hns htarget
  obtain ⟨hdispatch, hdispatchOnly⟩ :=
    hwf.onClientDispatch_safe hns ackRequested htarget
  refine ⟨hp2p, hdispatch, fun e he => ?_⟩
  rcases List.mem_append.mp he with he | he
  · exact hp2pOnly e he
  · exact hdispatchOnly e he

theorem session_table_sound_run :
    ∃ b ns, Broker.system.run aliceAndBob = some b ∧
      b.server.getNamespace defaultName = some ns ∧
      (ns.handler.sendMsgByP2p b.server (clientNamed 1 "alice")
        (messageTo "bob")).thrown = none :=
  ⟨_, _, rfl, rfl,
    ((session_table_sound ⟨aliceAndBob, rfl⟩ rfl).2 (clientNamed 1 "alice") rfl
      false (messageTo "bob") (by decide)).1⟩

end WebIm.SocketIO
