import WebIm.SocketIO.Effects

/-!
# Coming to a namespace and staying there

A client connects to the default namespace first and then to its own, which
some earlier connection has made the server create.  From then on a message to
its client id reaches it.
-/

namespace WebIm.SocketIO

open WebIm.Foundation

def namespaceFor (ns : String) : String :=
  if ns = "" then defaultName else "/" ++ ns

def joining (uuid : UUID) (handshakeData : HandshakeData) (name : String) :
    List Action :=
  .connect ⟨uuid, defaultName, handshakeData⟩ ::
    if name = defaultName then [] else [.connect ⟨uuid, name, handshakeData⟩]

/-- Someone with the client id comes to the namespace or leaves it. -/
def Action.reseats (name clientId : String) : Action → Bool
  | .connect client =>
      client.namespaceName = name && client.clientId = some clientId
  | .disconnect client =>
      client.namespaceName = name && client.clientId = some clientId
  | _ => false

namespace Broker

/-! ## Namespaces that exist -/

theorem isSome_step {name : String} (b : Broker) (a : Action) (b' : Broker)
    (hname : (b.server.getNamespace name).isSome) (h : b.step a = some b') :
    (b'.server.getNamespace name).isSome := by
  cases a with
  | connect client =>
      obtain ⟨server, hserver, rfl⟩ := Option.map_eq_some_iff.mp h
      dsimp only
      rw [Server.isSome_connect hserver, hname, Bool.true_or]
  | disconnect client =>
      obtain ⟨server, hserver, rfl⟩ := Option.map_eq_some_iff.mp h
      dsimp only
      rw [Server.isSome_disconnect hserver, hname]
  | event client ackRequested data =>
      obtain ⟨reply, -, rfl⟩ := Option.map_eq_some_iff.mp h
      exact hname
  | clientDispatch client ackRequested data =>
      obtain ⟨reply, -, rfl⟩ := Option.map_eq_some_iff.mp h
      exact hname

theorem isSome_default {b : Broker} (hb : system.Reachable b) :
    (b.server.getNamespace defaultName).isSome :=
  TransitionSystem.Reachable.invariant
    (P := fun b : Broker => (b.server.getNamespace defaultName).isSome)
    rfl isSome_step hb

theorem isSome_of_asked {s b : Broker} {actions : List Action}
    {first : SocketIOClient} {name : String}
    (hdefault : first.namespaceName = defaultName)
    (hasks : AddNs.wantedNs first = some name)
    (hmem : .connect first ∈ actions)
    (hrun : system.runFrom s actions = some b) :
    (b.server.getNamespace name).isSome := by
  induction actions generalizing s with
  | nil => cases hmem
  | cons a actions ih =>
      obtain ⟨s', hs', htail⟩ := (system.runFrom_cons).mp hrun
      cases List.mem_cons.mp hmem with
      | inr hlater => exact ih hlater htail
      | inl hnow =>
          subst hnow
          apply system.runFrom_invariant isSome_step _ htail
          obtain ⟨server, hserver, rfl⟩ := Option.map_eq_some_iff.mp hs'
          dsimp only
          rw [Server.isSome_connect hserver]
          unfold Server.missing
          rw [if_pos hdefault, hasks]
          cases hget : s.server.getNamespace name with
          | none => simp [Option.filter, hget]
          | some ns => rfl

/-! ## Connections that are accepted -/

variable {b b' : Broker} {client : SocketIOClient} {clientId : String}

def Seated (b : Broker) (client : SocketIOClient) (clientId : String) : Prop :=
  ∃ ns, b.server.getNamespace client.namespaceName = some ns ∧
    client ∈ ns.allClients ∧ client.clientId = some clientId ∧
    ns.handler.sessions clientId = some client.sessionId

theorem step_connect_accepted (client : SocketIOClient)
    (hclientId : client.clientId = some clientId)
    (hns : (b.server.getNamespace client.namespaceName).isSome)
    (hfresh : client.sessionId ∉ b.server.openedIn client.namespaceName)
    (hmissing : b.server.missing client = none) :
    ∃ b', b.step (.connect client) = some b' ∧ b'.Seated client clientId ∧
      ∀ name, name ≠ client.namespaceName →
        b'.server.getNamespace name = b.server.getNamespace name := by
  obtain ⟨server, hserver⟩ := Server.connect_isSome hns hfresh
  refine ⟨_, Option.map_eq_some_iff.mpr ⟨server, hserver, rfl⟩, ?_, ?_⟩
  · obtain ⟨ns, hns⟩ := Option.isSome_iff_exists.mp hns
    have hafter := Server.getNamespace_connect hserver hns client.namespaceName
    rw [if_pos rfl, if_pos hmissing] at hafter
    refine ⟨_, hafter, ?_, hclientId, ?_⟩
    · rw [Namespace.connected_allClients]
      exact List.mem_append_right _ (List.mem_singleton_self _)
    · rw [Namespace.connected_sessions, if_pos hclientId]
  · intro name hname
    obtain ⟨ns, hns⟩ := Option.isSome_iff_exists.mp hns
    dsimp only
    rw [Server.getNamespace_connect hserver hns, if_neg hname, hmissing]
    rfl

theorem missing_of_present (b : Broker) (client : SocketIOClient) {ns : String}
    (hns : client.ns = some ns)
    (hpresent : (b.server.getNamespace (namespaceFor ns)).isSome) :
    b.server.missing client = none := by
  cases hmissing : b.server.missing client with
  | none => rfl
  | some name =>
      obtain ⟨-, hasks, hnone⟩ := Server.missing_eq_some hmissing
      unfold AddNs.wantedNs at hasks
      simp only [hns] at hasks
      split at hasks
      · rename_i hasked
        obtain rfl := Option.some.inj hasks
        unfold namespaceFor at hpresent
        rw [if_neg hasked.2, hnone] at hpresent
        cases hpresent
      · cases hasks

theorem joins {uuid : UUID} {handshakeData : HandshakeData} {name : String}
    (hclientId : handshakeData.getSingleUrlParam queryParamsClientid =
      some clientId)
    (hdefault : (b.server.getNamespace defaultName).isSome)
    (hpresent : (b.server.getNamespace name).isSome)
    (hmissing : b.server.missing ⟨uuid, defaultName, handshakeData⟩ = none)
    (hfresh : uuid ∉ b.server.openedIn defaultName)
    (hunused : uuid ∉ b.server.openedIn name) :
    ∃ b', system.runFrom b (joining uuid handshakeData name) = some b' ∧
      b'.Seated ⟨uuid, name, handshakeData⟩ clientId := by
  obtain ⟨b₁, hb₁, hseated, hothers⟩ :=
    step_connect_accepted ⟨uuid, defaultName, handshakeData⟩ hclientId hdefault
      hfresh hmissing
  unfold joining
  by_cases hname : name = defaultName
  · subst hname
    rw [if_pos rfl]
    exact ⟨b₁, (system.runFrom_cons).mpr ⟨b₁, hb₁, rfl⟩, hseated⟩
  · have hsame := hothers _ hname
    have hfresh₁ : uuid ∉ b₁.server.openedIn name := by
      unfold Server.openedIn
      rw [hsame]
      exact hunused
    obtain ⟨b₂, hb₂, hseated₂, -⟩ := step_connect_accepted
      ⟨uuid, name, handshakeData⟩ hclientId (hsame ▸ hpresent) hfresh₁
      (if_neg hname)
    rw [if_neg hname]
    refine ⟨b₂, ?_, hseated₂⟩
    exact (system.runFrom_cons).mpr
      ⟨b₁, hb₁, (system.runFrom_cons).mpr ⟨b₂, hb₂, rfl⟩⟩

/-! ## A seat is kept -/

theorem Seated.connect (h : b.Seated client clientId) {other : SocketIOClient}
    (hquiet : (Action.connect other).reseats client.namespaceName clientId =
      false)
    (hstep : b.step (.connect other) = some b') : b'.Seated client clientId := by
  obtain ⟨ns, hns, hmem, hid, hsession⟩ := h
  obtain ⟨server, hserver, rfl⟩ := Option.map_eq_some_iff.mp hstep
  obtain ⟨found, hfound, -⟩ := Server.connect_cases hserver
  have hafter := Server.getNamespace_connect hserver hfound client.namespaceName
  by_cases hname : client.namespaceName = other.namespaceName
  · obtain rfl : ns = found :=
      Option.some.inj (hns.symm.trans (hname ▸ hfound))
    have hother : other.clientId ≠ some clientId := by
      intro hsame
      simp [Action.reseats, hname, hsame] at hquiet
    rw [if_pos hname] at hafter
    refine ⟨_, hafter, ?_, hid, ?_⟩
    · split
      · rw [Namespace.connected_allClients]
        exact List.mem_append_left _ hmem
      · apply List.mem_filter.mpr
        refine ⟨List.mem_append_left _ hmem, decide_eq_true_eq.mpr ?_⟩
        rintro rfl
        exact hother hid
    · split
      · rw [Namespace.connected_sessions, if_neg hother, hsession]
      · exact hsession
  · rw [if_neg hname, if_neg, hns] at hafter
    · exact ⟨ns, hafter, hmem, hid, hsession⟩
    · intro hmissing
      rw [(Server.missing_eq_some hmissing).2.2] at hns
      cases hns

theorem Seated.disconnect (h : b.Seated client clientId)
    {other : SocketIOClient}
    (hquiet : (Action.disconnect other).reseats client.namespaceName clientId =
      false)
    (hstep : b.step (.disconnect other) = some b') :
    b'.Seated client clientId := by
  obtain ⟨ns, hns, hmem, hid, hsession⟩ := h
  obtain ⟨server, hserver, rfl⟩ := Option.map_eq_some_iff.mp hstep
  by_cases hname : client.namespaceName = other.namespaceName
  · obtain ⟨found, hfound, -, hafter⟩ := Server.disconnect_own hserver
    obtain rfl : ns = found :=
      Option.some.inj (hns.symm.trans (hname ▸ hfound))
    have hother : other.clientId ≠ some clientId := by
      intro hsame
      simp [Action.reseats, hname, hsame] at hquiet
    refine ⟨ns.close other, hname ▸ hafter, ?_, hid, ?_⟩
    · rw [Namespace.close_allClients, List.mem_filter, decide_eq_true_eq]
      refine ⟨hmem, ?_⟩
      rintro rfl
      exact hother hid
    · rw [Namespace.close_sessions, if_neg hother, hsession]
  · have hafter := Server.disconnect_other hserver hname
    exact ⟨ns, hafter.trans hns, hmem, hid, hsession⟩

theorem Seated.step (h : b.Seated client clientId) {a : Action}
    (hquiet : a.reseats client.namespaceName clientId = false)
    (hstep : b.step a = some b') : b'.Seated client clientId := by
  cases a with
  | connect other => exact h.connect hquiet hstep
  | disconnect other => exact h.disconnect hquiet hstep
  | event other ackRequested data =>
      obtain ⟨reply, -, rfl⟩ := Option.map_eq_some_iff.mp hstep
      exact h
  | clientDispatch other ackRequested data =>
      obtain ⟨reply, -, rfl⟩ := Option.map_eq_some_iff.mp hstep
      exact h

theorem Seated.run (h : b.Seated client clientId) {later : List Action}
    (hquiet : ∀ a ∈ later, a.reseats client.namespaceName clientId = false)
    (hrun : system.runFrom b later = some b') : b'.Seated client clientId := by
  induction later generalizing b with
  | nil =>
      cases hrun
      exact h
  | cons a later ih =>
      obtain ⟨s, hs, htail⟩ := (system.runFrom_cons).mp hrun
      apply ih (h.step (hquiet a List.mem_cons_self) hs) _ htail
      exact fun b hb => hquiet b (List.mem_cons_of_mem _ hb)

/-! ## Messages to a seat -/

def sessionOf (b : Broker) (name clientId : String) : Option UUID :=
  (b.server.getNamespace name).bind fun ns => ns.handler.sessions clientId

theorem Seated.dispatch (h : b.Seated client clientId)
    (hb : b.server.WellFormed) (hroom : client.room = some roomTagBroker)
    {sender : SocketIOClient} {data : MessageInfo} {target : String}
    (hsender : sender ∈ b.connectedBeside client)
    (htarget : data.targetClientId = some target) (hne : target ≠ "")
    (habsent : b.sessionOf client.namespaceName target = none)
    (ackRequested : Bool) :
    ∃ b' recipients, b.step (.event sender ackRequested data) = some b' ∧
      b'.sent = b.sent ++ (ackOf sender ackRequested none data ++
        [.sendEvent .sendMsgByClientDispatch recipients data]) ∧
      client ∈ recipients := by
  obtain ⟨ns, hns, hmem, hid, -⟩ := h
  unfold connectedBeside at hsender
  rw [hns, Option.elim_some] at hsender
  unfold sessionOf at habsent
  rw [hns, Option.bind_some] at habsent
  have hinRoom : client ∈ ns.getRoomClients roomTagBroker := by
    apply List.mem_filter.mpr
    refine ⟨hmem, decide_eq_true_eq.mpr ?_⟩
    apply ((hb _ ns hns).rooms client hmem roomTagBroker).mpr
    exact ⟨by rw [hid]; exact nofun, hroom, by decide⟩
  have hbeside : sender.namespaceName = client.namespaceName :=
    (hb _ ns hns).named sender (Namespace.mem_live_of_allClients hsender)
  rw [← hbeside] at hns
  refine ⟨_, ns.getRoomClients roomTagBroker, Option.map_eq_some_iff.mpr
    ⟨_, message_of_mem hns hsender _, rfl⟩, ?_, hinRoom⟩
  rw [BaseAbstractHandler.onEvent_p2p ackRequested htarget hne,
    BaseAbstractHandler.sendMsgByP2p_dispatch hns htarget habsent]
  rfl

theorem Seated.event (h : b.Seated client clientId)
    (hb : b.server.WellFormed) {sender : SocketIOClient} {data : MessageInfo}
    (hsender : sender ∈ b.connectedBeside client)
    (htarget : data.targetClientId = some clientId) (hne : clientId ≠ "")
    (ackRequested : Bool) :
    ∃ b', b.step (.event sender ackRequested data) = some b' ∧
      b'.sent = b.sent ++ (ackOf sender ackRequested none data ++
        [.sendEvent .sendMsgByP2p [client] data]) := by
  obtain ⟨ns, hns, hmem, -, hsession⟩ := h
  unfold connectedBeside at hsender
  rw [hns, Option.elim_some] at hsender
  have hbeside : sender.namespaceName = client.namespaceName :=
    (hb _ ns hns).named sender (Namespace.mem_live_of_allClients hsender)
  rw [← hbeside] at hns
  refine ⟨_, Option.map_eq_some_iff.mpr
    ⟨_, message_of_mem hns hsender _, rfl⟩, ?_⟩
  rw [BaseAbstractHandler.onEvent_p2p ackRequested htarget hne,
    BaseAbstractHandler.sendMsgByP2p_local hns htarget hsession
      ((hb _ ns hns).getClient hmem)]
  rfl

end Broker

end WebIm.SocketIO
