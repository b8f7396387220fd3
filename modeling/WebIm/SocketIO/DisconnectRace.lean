import WebIm.SocketIO.Delivery

/-!
# Messages against disconnects

A disconnect is two steps: the transport takes the session out of the
namespace, and `onDisconnect` runs later.  A message is two steps as well: the
handler looks its target up, and then it has the transport send to the session
it found.  Here the steps of different connections interleave.
-/

namespace WebIm.SocketIO

open WebIm.Foundation

namespace Server

def drop (server : Server) (client : SocketIOClient) : Option Server :=
  match server.getNamespace client.namespaceName with
  | none => none
  | some ns =>
      if client ∈ ns.allClients then
        some (server.setNamespace client.namespaceName (ns.disconnect client))
      else none

def onDisconnect (server : Server) (client : SocketIOClient) : Option Server :=
  match server.getNamespace client.namespaceName with
  | none => none
  | some ns =>
      if client ∈ ns.closing then
        some (server.setNamespace client.namespaceName (ns.close client))
      else none

def holds (server : Server) (name : String) (uuid : UUID) : Prop :=
  ((server.getNamespace name).bind (·.getClient uuid)).isSome

instance (server : Server) (name : String) (uuid : UUID) :
    Decidable (server.holds name uuid) :=
  inferInstanceAs (Decidable (_ = true))

end Server

namespace DisconnectRace

/-! ## The two steps of a message -/

/-- A message whose session has been looked up and not yet been sent to. -/
structure Delivery where
  site : EmitSite
  client : SocketIOClient
  uuid : UUID
  data : MessageInfo
  deriving DecidableEq, Repr

def Delivery.Targeted (d : Delivery) : Prop :=
  isEmpty d.data.targetClientId = false

instance (d : Delivery) : Decidable d.Targeted :=
  inferInstanceAs (Decidable (_ = _))

structure Completion where
  site : EmitSite
  data : MessageInfo
  reply : Reply
  deriving DecidableEq, Repr

inductive Found where
  | delivery (d : Delivery)
  | completion (c : Completion)
  deriving DecidableEq, Repr

def eventFound (handler : BaseAbstractHandler) (server : Server)
    (client : SocketIOClient) (data : MessageInfo) : Found :=
  match data.targetClientId with
  | none =>
      .completion ⟨.sendMsgByBroadcast, data,
        BaseAbstractHandler.sendMsgByBroadcast server client data⟩
  | some target =>
      if target = "" then
        .completion ⟨.sendMsgByBroadcast, data,
          BaseAbstractHandler.sendMsgByBroadcast server client data⟩
      else
        match handler.sessions target with
        | some uuid => .delivery ⟨.sendMsgByP2p, client, uuid, data⟩
        | none =>
            .completion ⟨.sendMsgByP2p, data,
              BaseAbstractHandler.sendMsgByClientDispatch server client data⟩

def clientDispatchFound (handler : BaseAbstractHandler) (_ : Server)
    (client : SocketIOClient) (data : MessageInfo) : Found :=
  match data.targetClientId with
  | none =>
      .completion ⟨.onClientDispatch, data, ⟨[], some .nullPointerException⟩⟩
  | some target =>
      match handler.sessions target with
      | some uuid => .delivery ⟨.onClientDispatch, client, uuid, data⟩
      | none => .completion ⟨.onClientDispatch, data, ⟨[], none⟩⟩

def Delivery.complete (d : Delivery) (server : Server) : Completion :=
  ⟨d.site, d.data,
    BaseAbstractHandler.sendToSession d.site server d.client d.uuid d.data⟩

def Found.reply (server : Server) : Found → Reply
  | .delivery d => (d.complete server).reply
  | .completion c => c.reply

/-- With nothing in between, the two steps are the callback. -/
theorem onEvent_eq (handler : BaseAbstractHandler) (server : Server)
    (client : SocketIOClient) (ackRequested : Bool) (data : MessageInfo) :
    handler.onEvent server client ackRequested data =
      ((eventFound handler server client data).reply server).after
        (if ackRequested then [.sendAckData client none data] else []) := by
  unfold BaseAbstractHandler.onEvent eventFound
  cases htarget : data.targetClientId with
  | none => rfl
  | some target =>
      cases decEq target "" with
      | isTrue hempty => simp [isEmpty, hempty, Found.reply]
      | isFalse hne =>
          cases hget : handler.sessions target <;>
            simp [isEmpty, hne, Found.reply, Delivery.complete,
              BaseAbstractHandler.sendMsgByP2p, htarget, hget]

theorem onClientDispatch_eq (handler : BaseAbstractHandler) (server : Server)
    (client : SocketIOClient) (ackRequested : Bool) (data : MessageInfo) :
    handler.onClientDispatch server client ackRequested data =
      ((clientDispatchFound handler server client data).reply server).after
        (if ackRequested then [.sendAckData client (some "ACK:") data]
          else []) := by
  unfold BaseAbstractHandler.onClientDispatch clientDispatchFound
  cases htarget : data.targetClientId with
  | none => rfl
  | some target =>
      cases hget : handler.sessions target <;>
        simp [Found.reply, Delivery.complete, hget]

/-! ## Runs -/

structure State where
  server : Server
  pending : List Delivery
  completed : List Completion
  sent : List Emission

inductive Action where
  | connect (client : SocketIOClient)
  | drop (client : SocketIOClient)
  | onDisconnect (client : SocketIOClient)
  | onEvent (client : SocketIOClient) (ackRequested : Bool)
      (data : MessageInfo)
  | onClientDispatch (client : SocketIOClient) (ackRequested : Bool)
      (data : MessageInfo)
  | deliver (d : Delivery)
  deriving DecidableEq, Repr

namespace State

def complete (s : State) (c : Completion) : State :=
  { s with
    completed := s.completed ++ [c]
    sent := s.sent ++ c.reply.emissions }

def note (s : State) : Found → State
  | .delivery d => { s with pending := s.pending ++ [d] }
  | .completion c => s.complete c

def lookUp (s : State) (client : SocketIOClient) (data : MessageInfo)
    (found : BaseAbstractHandler → Server → SocketIOClient → MessageInfo →
      Found) : Option Found :=
  match s.server.getNamespace client.namespaceName with
  | none => none
  | some ns =>
      if client ∈ ns.allClients then
        some (found ns.handler s.server client data)
      else none

def found (s : State) : Action → Option Found
  | .onEvent client _ data => s.lookUp client data eventFound
  | .onClientDispatch client _ data =>
      s.lookUp client data clientDispatchFound
  | _ => none

end State

/-- The acknowledgement goes out before the target is looked up. -/
def acks : Action → List Emission
  | .onEvent client true data => [.sendAckData client none data]
  | .onClientDispatch client true data =>
      [.sendAckData client (some "ACK:") data]
  | _ => []

def step (s : State) (a : Action) : Option State :=
  match a with
  | .connect client =>
      (s.server.connect client).map fun server => { s with server := server }
  | .drop client =>
      (s.server.drop client).map fun server => { s with server := server }
  | .onDisconnect client =>
      (s.server.onDisconnect client).map fun server =>
        { s with server := server }
  | .onEvent .. | .onClientDispatch .. =>
      (s.found a).map { s with sent := s.sent ++ acks a }.note
  | .deliver d =>
      if d ∈ s.pending then
        some (State.complete { s with pending := s.pending.erase d }
          (d.complete s.server))
      else none

def system : TransitionSystem State Action where
  initial := ⟨.initial, [], [], []⟩
  step := step

/-! ## What the sessions of a namespace are -/

end DisconnectRace

namespace Namespace

/--
The invariant that survives between the two steps of a disconnect: a table
entry names a client whose `onDisconnect` is still to come.
-/
structure Tracked (ns : Namespace) : Prop where
  opened : ∀ client ∈ ns.live, client.sessionId ∈ ns.opened
  distinct : (ns.live.map SocketIOClient.sessionId).Nodup
  sessions : ∀ clientId uuid, ns.handler.sessions clientId = some uuid →
    ∃ client ∈ ns.live,
      client.sessionId = uuid ∧ client.clientId = some clientId

variable {ns : Namespace} {client : SocketIOClient}

theorem tracked_new : (Namespace.new .new).Tracked where
  opened := by simp [Namespace.new, live]
  distinct := by simp [Namespace.new, live]
  sessions := by simp [Namespace.new, BaseAbstractHandler.new]

theorem Tracked.nodup (h : ns.Tracked) : ns.live.Nodup :=
  h.distinct.of_map

theorem Tracked.eq_of_sessionId (h : ns.Tracked)
    {first second : SocketIOClient} (hfirst : first ∈ ns.live)
    (hsecond : second ∈ ns.live) (heq : first.sessionId = second.sessionId) :
    first = second :=
  List.inj_on_of_nodup_map h.distinct hfirst hsecond heq

theorem disconnect_live (ns : Namespace) (client : SocketIOClient) :
    (ns.disconnect client).live = ns.live.filter (· ≠ client) ++ [client] := by
  simp [live, disconnect, removeClient]

theorem Tracked.of_perm (h : ns.Tracked) {other : Namespace}
    (hlive : other.live.Perm ns.live) (hopened : other.opened = ns.opened)
    (hhandler : other.handler = ns.handler) : other.Tracked where
  opened := by
    intro client hclient
    rw [hopened]
    exact h.opened client (hlive.mem_iff.mp hclient)
  distinct := by
    rw [(hlive.map _).nodup_iff]
    exact h.distinct
  sessions := by
    intro clientId uuid hget
    rw [hhandler] at hget
    obtain ⟨client, hclient, hrest⟩ := h.sessions clientId uuid hget
    exact ⟨client, hlive.mem_iff.mpr hclient, hrest⟩

theorem Tracked.disconnect (h : ns.Tracked) (hclient : client ∈ ns.live) :
    (ns.disconnect client).Tracked := by
  refine h.of_perm ?_ rfl rfl
  rw [disconnect_live]
  have herase : ns.live.filter (· ≠ client) = ns.live.erase client := by
    rw [h.nodup.erase_eq_filter]
    simp [bne, beq_eq_decide]
  rw [herase]
  apply (List.perm_append_singleton client _).trans
  exact (List.perm_cons_erase hclient).symm

theorem Tracked.add (h : ns.Tracked) (hfresh : client.sessionId ∉ ns.opened)
    {other : Namespace} (hlive : other.live.Perm (client :: ns.live))
    (hopened : other.opened = client.sessionId :: ns.opened)
    (hsessions : ∀ clientId uuid, other.handler.sessions clientId = some uuid →
      ns.handler.sessions clientId = some uuid ∨
        client.sessionId = uuid ∧ client.clientId = some clientId) :
    other.Tracked where
  opened := by
    intro member hmember
    rw [hlive.mem_iff, List.mem_cons] at hmember
    rw [hopened, List.mem_cons]
    cases hmember with
    | inl heq => exact Or.inl (heq ▸ rfl)
    | inr hmember => exact Or.inr (h.opened member hmember)
  distinct := by
    rw [(hlive.map _).nodup_iff, List.map_cons, List.nodup_cons, List.mem_map]
    refine ⟨?_, h.distinct⟩
    rintro ⟨member, hmember, heq⟩
    exact hfresh (heq ▸ h.opened member hmember)
  sessions := by
    intro clientId uuid hget
    cases hsessions clientId uuid hget with
    | inl hold =>
        obtain ⟨owner, howner, hrest⟩ := h.sessions clientId uuid hold
        exact ⟨owner, hlive.mem_iff.mpr (List.mem_cons_of_mem _ howner), hrest⟩
    | inr hnew =>
        exact ⟨client, hlive.mem_iff.mpr List.mem_cons_self, hnew⟩

theorem Tracked.connected (h : ns.Tracked)
    (hfresh : client.sessionId ∉ ns.opened) : (ns.connected client).Tracked := by
  apply h.add hfresh (connected_live ns client) (connected_opened ns client)
  intro clientId uuid hget
  rw [connected_sessions] at hget
  split at hget
  · rename_i hown
    exact Or.inr ⟨Option.some.inj hget, hown⟩
  · exact Or.inl hget

theorem not_mem_live (h : ns.Tracked) (hfresh : client.sessionId ∉ ns.opened) :
    client ∉ ns.live :=
  fun hclient => hfresh (h.opened client hclient)

theorem Tracked.refuse (h : ns.Tracked)
    (hfresh : client.sessionId ∉ ns.opened) : (ns.refuse client).Tracked := by
  have hkeep : ns.live.filter (· ≠ client) = ns.live := by
    rw [List.filter_eq_self]
    rintro member hmember
    apply decide_eq_true
    rintro rfl
    exact not_mem_live h hfresh hmember
  apply h.add hfresh _ rfl
  · exact fun clientId uuid hget => Or.inl hget
  · have hadded : (ns.addClient client).live.Perm (client :: ns.live) := by
      simp [live, addClient]
    rw [Namespace.refuse, disconnect_live]
    apply (List.perm_append_singleton client _).trans
    apply List.Perm.cons
    have hfilter := hadded.filter (· ≠ client)
    rw [List.filter_cons_of_neg (by simp), hkeep] at hfilter
    exact hfilter

theorem Tracked.close (h : ns.Tracked) (hclient : client ∈ ns.live) :
    (ns.close client).Tracked where
  opened := by
    intro member hmember
    rw [close_live] at hmember
    rw [close_opened]
    exact h.opened member (List.mem_of_mem_filter hmember)
  distinct := by
    rw [close_live]
    exact h.distinct.sublist (List.filter_sublist.map _)
  sessions := by
    intro clientId uuid hget
    rw [close_sessions] at hget
    split at hget
    · cases hget
    · rename_i hother
      obtain ⟨owner, howner, hid, hclientId⟩ := h.sessions clientId uuid hget
      refine ⟨owner, ?_, hid, hclientId⟩
      rw [close_live, List.mem_filter]
      refine ⟨howner, decide_eq_true ?_⟩
      rintro rfl
      exact hother hclientId

/-! ### Which sessions the namespace finds -/

theorem isSome_getClient (ns : Namespace) (uuid : UUID) :
    (ns.getClient uuid).isSome ↔
      ∃ client ∈ ns.allClients, client.sessionId = uuid := by
  simp [getClient]

theorem isSome_getClient_connected (ns : Namespace) {client : SocketIOClient}
    {uuid : UUID} (hne : client.sessionId ≠ uuid) :
    ((ns.connected client).getClient uuid).isSome ↔
      (ns.getClient uuid).isSome := by
  simp [isSome_getClient, connected_allClients, or_and_right, exists_or, hne]

theorem isSome_getClient_disconnect (h : ns.Tracked)
    (hclient : client ∈ ns.allClients) (uuid : UUID) :
    ((ns.disconnect client).getClient uuid).isSome ↔
      (ns.getClient uuid).isSome ∧ uuid ≠ client.sessionId := by
  simp only [isSome_getClient, disconnect, removeClient, List.mem_filter,
    decide_eq_true_eq]
  constructor
  · rintro ⟨member, ⟨hmember, hne⟩, rfl⟩
    refine ⟨⟨member, hmember, rfl⟩, fun heq => hne ?_⟩
    exact h.eq_of_sessionId (mem_live_of_allClients hmember)
      (mem_live_of_allClients hclient) heq
  · rintro ⟨⟨member, hmember, rfl⟩, hne⟩
    exact ⟨member, ⟨hmember, fun heq => hne (heq ▸ rfl)⟩, rfl⟩

theorem close_allClients_of_closing (h : ns.Tracked)
    (hclient : client ∈ ns.closing) :
    (ns.close client).allClients = ns.allClients := by
  rw [close_allClients, List.filter_eq_self]
  intro member hmember
  apply decide_eq_true
  rintro rfl
  have hnodup := h.nodup
  rw [live, List.nodup_append] at hnodup
  exact hnodup.2.2 member hmember member hclient rfl

theorem isSome_getClient_close (h : ns.Tracked) (hclient : client ∈ ns.closing)
    (uuid : UUID) :
    ((ns.close client).getClient uuid).isSome ↔ (ns.getClient uuid).isSome := by
  rw [isSome_getClient, isSome_getClient, close_allClients_of_closing h hclient]

theorem isSome_getClient_refuse (h : ns.Tracked)
    (hfresh : client.sessionId ∉ ns.opened) (uuid : UUID) :
    ((ns.refuse client).getClient uuid).isSome ↔ (ns.getClient uuid).isSome := by
  have hkeep : (ns.refuse client).allClients = ns.allClients := by
    simp only [Namespace.refuse, disconnect, removeClient, addClient,
      List.filter_append]
    rw [List.filter_eq_self.mpr]
    · simp
    · intro member hmember
      apply decide_eq_true
      rintro rfl
      exact not_mem_live h hfresh (mem_live_of_allClients hmember)
  rw [isSome_getClient, isSome_getClient, hkeep]

end Namespace

/-! ## What the steps do to a server -/

namespace Server

def Tracked (server : Server) : Prop :=
  ∀ name ns, server.getNamespace name = some ns → ns.Tracked

def everOpened (server : Server) (name : String) (uuid : UUID) : Prop :=
  ∃ ns, server.getNamespace name = some ns ∧ uuid ∈ ns.opened

theorem tracked_initial : Server.initial.Tracked := by
  intro name ns hget
  simp only [getNamespace, initial, Function.update_apply] at hget
  split at hget
  · cases hget
    exact Namespace.tracked_new
  · cases hget

theorem Tracked.setNamespace {server : Server} (h : server.Tracked)
    {name : String} {ns : Namespace} (hns : ns.Tracked) :
    (server.setNamespace name ns).Tracked := by
  intro other found hget
  cases decEq other name with
  | isTrue heq =>
      subst heq
      rw [getNamespace_setNamespace_self, Option.some.injEq] at hget
      exact hget ▸ hns
  | isFalse hne =>
      rw [getNamespace_setNamespace_ne server ns hne] at hget
      exact h other found hget

structure Keeps (server server' : Server) (name : String) (uuid : UUID) :
    Prop where
  opened : server'.everOpened name uuid
  holds : server'.holds name uuid ↔ server.holds name uuid

theorem keeps_of_getNamespace {server server' : Server} {name : String}
    {uuid : UUID} (h : server.everOpened name uuid)
    (hget : server'.getNamespace name = server.getNamespace name) :
    server.Keeps server' name uuid := by
  constructor
  · unfold everOpened
    rw [hget]
    exact h
  · unfold Server.holds
    rw [hget]

theorem holds_of_getNamespace {server : Server} {name : String}
    {ns : Namespace} (hget : server.getNamespace name = some ns)
    (uuid : UUID) : server.holds name uuid ↔ (ns.getClient uuid).isSome := by
  simp [Server.holds, hget]

theorem Tracked.connect {server server' : Server} {client : SocketIOClient}
    (h : server.Tracked) (hconnect : server.connect client = some server') :
    server'.Tracked := by
  obtain ⟨ns, hget, hfresh, hresult⟩ := connect_cases hconnect
  have hns := h _ _ hget
  rcases hresult with rfl | ⟨created, -, -, rfl⟩
  · exact h.setNamespace (hns.connected hfresh)
  · exact (h.setNamespace Namespace.tracked_new).setNamespace
      (hns.refuse hfresh)

theorem keeps_connect {server server' : Server} {client : SocketIOClient}
    (htracked : server.Tracked)
    (hconnect : server.connect client = some server') {name : String}
    {uuid : UUID} (h : server.everOpened name uuid) :
    server.Keeps server' name uuid := by
  obtain ⟨ns, hget, hopened⟩ := h
  cases decEq name client.namespaceName with
  | isFalse hne =>
      cases connect_other hconnect hne with
      | inl hsame => exact keeps_of_getNamespace ⟨ns, hget, hopened⟩ hsame
      | inr hnew => exact absurd (hget.symm.trans hnew.1) (by simp)
  | isTrue heq =>
      subst heq
      obtain ⟨own, own', hown, hfresh, hown', hresult⟩ := connect_own hconnect
      obtain rfl : ns = own := Option.some.inj (hget.symm.trans hown)
      have hne : client.sessionId ≠ uuid := fun heq => hfresh (heq ▸ hopened)
      have hns := htracked _ _ hget
      constructor
      · refine ⟨own', hown', ?_⟩
        rcases hresult with rfl | rfl
        · rw [Namespace.connected_opened]
          exact List.mem_cons_of_mem _ hopened
        · exact List.mem_cons_of_mem _ hopened
      · rw [holds_of_getNamespace hown', holds_of_getNamespace hget]
        rcases hresult with rfl | rfl
        · exact ns.isSome_getClient_connected hne
        · exact Namespace.isSome_getClient_refuse hns hfresh uuid

theorem drop_cases {server server' : Server} {client : SocketIOClient}
    (h : server.drop client = some server') :
    ∃ ns, server.getNamespace client.namespaceName = some ns ∧
      client ∈ ns.allClients ∧
      server' =
        server.setNamespace client.namespaceName (ns.disconnect client) := by
  unfold drop at h
  cases hget : server.getNamespace client.namespaceName with
  | none => simp [hget] at h
  | some ns =>
      simp only [hget, Option.ite_none_right_eq_some] at h
      exact ⟨ns, rfl, h.1, (Option.some.inj h.2).symm⟩

theorem onDisconnect_cases {server server' : Server} {client : SocketIOClient}
    (h : server.onDisconnect client = some server') :
    ∃ ns, server.getNamespace client.namespaceName = some ns ∧
      client ∈ ns.closing ∧
      server' = server.setNamespace client.namespaceName (ns.close client) := by
  unfold onDisconnect at h
  cases hget : server.getNamespace client.namespaceName with
  | none => simp [hget] at h
  | some ns =>
      simp only [hget, Option.ite_none_right_eq_some] at h
      exact ⟨ns, rfl, h.1, (Option.some.inj h.2).symm⟩

theorem Tracked.drop {server server' : Server} {client : SocketIOClient}
    (h : server.Tracked) (hdrop : server.drop client = some server') :
    server'.Tracked := by
  obtain ⟨ns, hget, hclient, rfl⟩ := drop_cases hdrop
  exact h.setNamespace ((h _ _ hget).disconnect
    (Namespace.mem_live_of_allClients hclient))

theorem Tracked.onDisconnect {server server' : Server}
    {client : SocketIOClient} (h : server.Tracked)
    (hclose : server.onDisconnect client = some server') : server'.Tracked := by
  obtain ⟨ns, hget, hclient, rfl⟩ := onDisconnect_cases hclose
  exact h.setNamespace ((h _ _ hget).close (List.mem_append_right _ hclient))

theorem keeps_onDisconnect {server server' : Server} {client : SocketIOClient}
    (htracked : server.Tracked)
    (hclose : server.onDisconnect client = some server') {name : String}
    {uuid : UUID} (h : server.everOpened name uuid) :
    server.Keeps server' name uuid := by
  obtain ⟨own, hown, hclient, rfl⟩ := onDisconnect_cases hclose
  cases decEq name client.namespaceName with
  | isFalse hne =>
      exact keeps_of_getNamespace h (getNamespace_setNamespace_ne _ _ hne)
  | isTrue heq =>
      subst heq
      obtain ⟨ns, hget, hopened⟩ := h
      obtain rfl : ns = own := Option.some.inj (hget.symm.trans hown)
      constructor
      · refine ⟨_, getNamespace_setNamespace_self _ _ _, ?_⟩
        rw [Namespace.close_opened]
        exact hopened
      · rw [holds_of_getNamespace (getNamespace_setNamespace_self _ _ _),
          holds_of_getNamespace hget]
        exact Namespace.isSome_getClient_close (htracked _ _ hget) hclient uuid

theorem holds_drop {server server' : Server} {client : SocketIOClient}
    (htracked : server.Tracked) (hdrop : server.drop client = some server')
    {name : String} {uuid : UUID} (h : server.everOpened name uuid) :
    server'.everOpened name uuid ∧
      (server'.holds name uuid ↔ server.holds name uuid ∧
        ¬ (name = client.namespaceName ∧ uuid = client.sessionId)) := by
  obtain ⟨own, hown, hclient, rfl⟩ := drop_cases hdrop
  cases decEq name client.namespaceName with
  | isFalse hne =>
      have hkeep := keeps_of_getNamespace h
        (getNamespace_setNamespace_ne server (own.disconnect client) hne)
      simp [hkeep.opened, hkeep.holds, hne]
  | isTrue heq =>
      subst heq
      obtain ⟨ns, hget, hopened⟩ := h
      obtain rfl : ns = own := Option.some.inj (hget.symm.trans hown)
      refine ⟨⟨_, getNamespace_setNamespace_self _ _ _, hopened⟩, ?_⟩
      rw [holds_of_getNamespace (getNamespace_setNamespace_self _ _ _),
        holds_of_getNamespace hget,
        Namespace.isSome_getClient_disconnect (htracked _ _ hget) hclient]
      simp

/-- The two steps together are the disconnect of the sequential model. -/
theorem drop_onDisconnect {server : Server} {client : SocketIOClient}
    {ns : Namespace} (hget : server.getNamespace client.namespaceName = some ns)
    (hclient : client ∈ ns.allClients) :
    (server.drop client).bind (·.onDisconnect client) =
      server.disconnect client := by
  have hclosing : client ∈ (ns.disconnect client).closing := by
    simp [Namespace.disconnect]
  have hclose : (ns.disconnect client).close client = ns.close client := by
    rw [Namespace.close_eq, Namespace.close_eq]
    simp [Namespace.disconnect, Namespace.removeClient]
  have hdrop : server.drop client =
      some (server.setNamespace client.namespaceName (ns.disconnect client)) := by
    simp [drop, hget, hclient]
  rw [hdrop, Option.bind_some, onDisconnect, getNamespace_setNamespace_self]
  simp only [hclosing, if_true, hclose]
  rw [disconnect, hget]
  simp only [hclient, true_or, if_true, Option.some.injEq]
  simp [Server.setNamespace, Namespace.close]

end Server

namespace DisconnectRace

/-! ## What is asked of every message -/

/--
A message with a target is handled without an exception, and by `sendMsgByP2p`
it is sent to its session or passed on to the other brokers.
-/
def Completion.Handled (c : Completion) : Prop :=
  isEmpty c.data.targetClientId = false →
    c.reply.thrown = none ∧
      (c.site = .sendMsgByP2p →
        (∃ receiver, c.reply.emissions =
          [.sendEvent .sendMsgByP2p [receiver] c.data]) ∨
        ∃ brokers, c.reply.emissions =
          [.sendEvent .sendMsgByClientDispatch brokers c.data])

def AllHandled (s : State) : Prop := ∀ c ∈ s.completed, c.Handled

def Delivery.Fresh (d : Delivery) (server : Server) : Prop :=
  d.Targeted → server.holds d.client.namespaceName d.uuid

instance (d : Delivery) (server : Server) : Decidable (d.Fresh server) :=
  inferInstanceAs (Decidable (_ → _))

def Found.Fresh (server : Server) : Found → Prop
  | .delivery d => d.Fresh server
  | .completion _ => True

instance (server : Server) : (f : Found) → Decidable (f.Fresh server)
  | .delivery d => inferInstanceAs (Decidable (d.Fresh server))
  | .completion _ => isTrue trivial

def AllFresh (s : State) : Prop := ∀ d ∈ s.pending, d.Fresh s.server

/--
No look-up finds a session that the transport has already taken out, and the
transport takes no session out while a message looked up for it is under way.
-/
def Undisturbed (s : State) : Action → Prop
  | .drop client =>
      ∀ d ∈ s.pending, d.Targeted →
        ¬ (d.client.namespaceName = client.namespaceName ∧
          d.uuid = client.sessionId)
  | a => ∀ f ∈ s.found a, f.Fresh s.server

instance (s : State) : (a : Action) → Decidable (Undisturbed s a)
  | .drop client =>
      inferInstanceAs (Decidable (∀ d ∈ s.pending, d.Targeted →
        ¬ (d.client.namespaceName = client.namespaceName ∧
          d.uuid = client.sessionId)))
  | .onEvent client ackRequested data =>
      inferInstanceAs (Decidable (∀ f ∈ s.found (.onEvent client ackRequested
        data), f.Fresh s.server))
  | .onClientDispatch client ackRequested data =>
      inferInstanceAs (Decidable (∀ f ∈ s.found (.onClientDispatch client
        ackRequested data), f.Fresh s.server))
  | .connect _ | .onDisconnect _ | .deliver _ =>
      isTrue fun _ hf => by cases hf

structure Invariant (s : State) : Prop where
  tracked : s.server.Tracked
  opened : ∀ d ∈ s.pending, s.server.everOpened d.client.namespaceName d.uuid

/-! ### Look-ups -/

theorem lookUp_cases {s : State} {client : SocketIOClient} {data : MessageInfo}
    {found : BaseAbstractHandler → Server → SocketIOClient → MessageInfo →
      Found} {f : Found} (h : s.lookUp client data found = some f) :
    ∃ ns, s.server.getNamespace client.namespaceName = some ns ∧
      found ns.handler s.server client data = f := by
  unfold State.lookUp at h
  cases hget : s.server.getNamespace client.namespaceName with
  | none => simp [hget] at h
  | some ns =>
      simp only [hget, Option.ite_none_right_eq_some, Option.some.injEq] at h
      exact ⟨ns, rfl, h.2⟩

def Found.Sound (server : Server) : Found → Prop
  | .delivery d =>
      ∃ ns clientId, server.getNamespace d.client.namespaceName = some ns ∧
        ns.handler.sessions clientId = some d.uuid
  | .completion c => c.Handled

theorem eventFound_sound {server : Server} {client : SocketIOClient}
    {ns : Namespace} (hget : server.getNamespace client.namespaceName = some ns)
    (data : MessageInfo) :
    (eventFound ns.handler server client data).Sound server := by
  unfold eventFound
  cases htarget : data.targetClientId with
  | none =>
      intro hne
      simp [htarget, isEmpty] at hne
  | some target =>
      cases decEq target "" with
      | isTrue hempty =>
          simp only [if_pos hempty]
          intro hne
          simp [htarget, isEmpty, hempty] at hne
      | isFalse hne =>
          simp only [if_neg hne]
          cases hsession : ns.handler.sessions target with
          | some uuid => exact ⟨ns, target, hget, hsession⟩
          | none =>
              intro _
              simp only [BaseAbstractHandler.sendMsgByClientDispatch, hget]
              exact ⟨trivial, fun _ => Or.inr ⟨_, rfl⟩⟩

theorem clientDispatchFound_sound {server : Server} {client : SocketIOClient}
    {ns : Namespace} (hget : server.getNamespace client.namespaceName = some ns)
    (data : MessageInfo) :
    (clientDispatchFound ns.handler server client data).Sound server := by
  unfold clientDispatchFound
  cases htarget : data.targetClientId with
  | none =>
      intro hne
      simp [htarget, isEmpty] at hne
  | some target =>
      simp only
      cases hsession : ns.handler.sessions target with
      | some uuid => exact ⟨ns, target, hget, hsession⟩
      | none => exact fun _ => ⟨rfl, fun hsite => by cases hsite⟩

theorem found_sound {s : State} {a : Action} {f : Found}
    (h : s.found a = some f) : f.Sound s.server := by
  cases a with
  | onEvent client ackRequested data =>
      obtain ⟨ns, hget, rfl⟩ := lookUp_cases h
      exact eventFound_sound hget data
  | onClientDispatch client ackRequested data =>
      obtain ⟨ns, hget, rfl⟩ := lookUp_cases h
      exact clientDispatchFound_sound hget data
  | connect client => cases h
  | drop client => cases h
  | onDisconnect client => cases h
  | deliver d => cases h

theorem step_cases {s s' : State} {a : Action} (h : step s a = some s') :
    (∃ client server, a = .connect client ∧
      s.server.connect client = some server ∧ s' = { s with server := server }) ∨
    (∃ client server, a = .drop client ∧
      s.server.drop client = some server ∧ s' = { s with server := server }) ∨
    (∃ client server, a = .onDisconnect client ∧
      s.server.onDisconnect client = some server ∧
      s' = { s with server := server }) ∨
    (∃ f, s.found a = some f ∧
      s' = { s with sent := s.sent ++ acks a }.note f) ∨
    (∃ d, a = .deliver d ∧ d ∈ s.pending ∧
      s' = State.complete { s with pending := s.pending.erase d }
        (d.complete s.server)) := by
  cases a with
  | connect client =>
      obtain ⟨server, hserver, rfl⟩ := Option.map_eq_some_iff.mp h
      exact Or.inl ⟨client, server, rfl, hserver, rfl⟩
  | drop client =>
      obtain ⟨server, hserver, rfl⟩ := Option.map_eq_some_iff.mp h
      exact Or.inr (Or.inl ⟨client, server, rfl, hserver, rfl⟩)
  | onDisconnect client =>
      obtain ⟨server, hserver, rfl⟩ := Option.map_eq_some_iff.mp h
      exact Or.inr (Or.inr (Or.inl ⟨client, server, rfl, hserver, rfl⟩))
  | onEvent client ackRequested data =>
      obtain ⟨f, hf, rfl⟩ := Option.map_eq_some_iff.mp h
      exact Or.inr (Or.inr (Or.inr (Or.inl ⟨f, hf, rfl⟩)))
  | onClientDispatch client ackRequested data =>
      obtain ⟨f, hf, rfl⟩ := Option.map_eq_some_iff.mp h
      exact Or.inr (Or.inr (Or.inr (Or.inl ⟨f, hf, rfl⟩)))
  | deliver d =>
      simp only [step, Option.ite_none_right_eq_some, Option.some.injEq] at h
      exact Or.inr (Or.inr (Or.inr (Or.inr ⟨d, rfl, h.1, h.2.symm⟩)))

/-! ### What one step preserves -/

theorem Found.Sound.opened {server : Server} (htracked : server.Tracked)
    {d : Delivery} (h : (Found.delivery d).Sound server) :
    server.everOpened d.client.namespaceName d.uuid := by
  obtain ⟨ns, clientId, hget, hsession⟩ := h
  have hns := htracked _ _ hget
  obtain ⟨owner, howner, hid, -⟩ := hns.sessions clientId d.uuid hsession
  exact ⟨ns, hget, hid ▸ hns.opened owner howner⟩

theorem invariant_step {s s' : State} {a : Action} (hs : Invariant s)
    (h : step s a = some s') : Invariant s' := by
  rcases step_cases h with ⟨client, server, -, hserver, rfl⟩ |
    ⟨client, server, -, hserver, rfl⟩ | ⟨client, server, -, hserver, rfl⟩ |
    ⟨f, hf, rfl⟩ | ⟨d, -, hd, rfl⟩
  · exact ⟨hs.tracked.connect hserver, fun d hd =>
      (Server.keeps_connect hs.tracked hserver (hs.opened d hd)).opened⟩
  · exact ⟨hs.tracked.drop hserver, fun d hd =>
      (Server.holds_drop hs.tracked hserver (hs.opened d hd)).1⟩
  · exact ⟨hs.tracked.onDisconnect hserver, fun d hd =>
      (Server.keeps_onDisconnect hs.tracked hserver (hs.opened d hd)).opened⟩
  · cases f with
    | completion c => exact ⟨hs.tracked, hs.opened⟩
    | delivery d =>
        refine ⟨hs.tracked, fun other hother => ?_⟩
        cases List.mem_append.mp hother with
        | inl hold => exact hs.opened other hold
        | inr hnew =>
            rw [List.mem_singleton.mp hnew]
            exact (found_sound hf).opened hs.tracked
  · exact ⟨hs.tracked, fun other hother =>
      hs.opened other (List.mem_of_mem_erase hother)⟩

theorem fresh_of_keeps {server server' : Server} {d : Delivery}
    (h : server.Keeps server' d.client.namespaceName d.uuid) :
    d.Fresh server' ↔ d.Fresh server := by
  unfold Delivery.Fresh
  rw [h.holds]

theorem undisturbed_of_found_none {s : State} {a : Action}
    (h : s.found a = none) : ∀ f ∈ s.found a, f.Fresh s.server := by
  simp [h]

theorem fresh_step_iff {s s' : State} {a : Action} (hs : Invariant s)
    (hfresh : AllFresh s) (h : step s a = some s') :
    AllFresh s' ↔ Undisturbed s a := by
  rcases step_cases h with ⟨client, server, rfl, hserver, rfl⟩ |
    ⟨client, server, rfl, hserver, rfl⟩ | ⟨client, server, rfl, hserver, rfl⟩ |
    ⟨f, hf, rfl⟩ | ⟨d, rfl, hd, rfl⟩
  · refine iff_of_true (fun d hd => ?_) (undisturbed_of_found_none rfl)
    rw [fresh_of_keeps
      (Server.keeps_connect hs.tracked hserver (hs.opened d hd))]
    exact hfresh d hd
  · have hholds : ∀ d ∈ s.pending, d.Fresh server ↔ (d.Targeted →
        ¬ (d.client.namespaceName = client.namespaceName ∧
          d.uuid = client.sessionId)) := by
      intro d hd
      unfold Delivery.Fresh
      rw [(Server.holds_drop hs.tracked hserver (hs.opened d hd)).2]
      constructor
      · exact fun hleft htarget => (hleft htarget).2
      · exact fun hleft htarget => ⟨hfresh d hd htarget, hleft htarget⟩
    constructor
    · exact fun hall d hd => (hholds d hd).mp (hall d hd)
    · exact fun hall d hd => (hholds d hd).mpr (hall d hd)
  · refine iff_of_true (fun d hd => ?_) (undisturbed_of_found_none rfl)
    rw [fresh_of_keeps
      (Server.keeps_onDisconnect hs.tracked hserver (hs.opened d hd))]
    exact hfresh d hd
  · have hcondition : Undisturbed s a ↔ f.Fresh s.server := by
      have hall : (∀ g ∈ s.found a, g.Fresh s.server) ↔ f.Fresh s.server := by
        simp [hf]
      cases a with
      | onEvent client ackRequested data => exact hall
      | onClientDispatch client ackRequested data => exact hall
      | connect client => cases hf
      | drop client => cases hf
      | onDisconnect client => cases hf
      | deliver d => cases hf
    rw [hcondition]
    cases f with
    | completion c => exact iff_of_true hfresh trivial
    | delivery d =>
        constructor
        · intro hall
          exact hall d (List.mem_append_right _ (List.mem_singleton_self d))
        · intro hd other hother
          cases List.mem_append.mp hother with
          | inl hold => exact hfresh other hold
          | inr hnew =>
              rw [List.mem_singleton.mp hnew]
              exact hd
  · refine iff_of_true (fun other hother => ?_) (undisturbed_of_found_none rfl)
    exact hfresh other (List.mem_of_mem_erase hother)

theorem handled_complete_iff (d : Delivery) (server : Server) :
    (d.complete server).Handled ↔ d.Fresh server := by
  unfold Completion.Handled Delivery.Fresh Delivery.Targeted Server.holds
    Delivery.complete BaseAbstractHandler.sendToSession
  cases (server.getNamespace d.client.namespaceName).bind
      (·.getClient d.uuid) with
  | none => simp
  | some receiver =>
      apply iff_of_true
      · intro _
        refine ⟨rfl, fun hsite => Or.inl ⟨receiver, ?_⟩⟩
        change d.site = .sendMsgByP2p at hsite
        simp only [hsite]
      · exact fun _ => rfl

theorem handled_step_iff {s s' : State} {a : Action}
    (h : step s a = some s') :
    AllHandled s' ↔ AllHandled s ∧
      ∀ d, a = .deliver d → d.Fresh s.server := by
  have hcomplete : ∀ (t : State) (c : Completion),
      AllHandled (t.complete c) ↔ AllHandled t ∧ c.Handled := by
    intro t c
    simp [AllHandled, State.complete, or_imp, forall_and]
  rcases step_cases h with ⟨client, server, rfl, -, rfl⟩ |
    ⟨client, server, rfl, -, rfl⟩ | ⟨client, server, rfl, -, rfl⟩ |
    ⟨f, hf, rfl⟩ | ⟨d, rfl, -, rfl⟩
  · simp [AllHandled]
  · simp [AllHandled]
  · simp [AllHandled]
  · have hdeliver : ∀ d, a = .deliver d → d.Fresh s.server := by
      rintro d rfl
      cases hf
    rw [and_iff_left hdeliver]
    cases f with
    | delivery d => exact Iff.rfl
    | completion c =>
        rw [State.note, hcomplete]
        exact and_iff_left (found_sound hf)
  · rw [hcomplete, handled_complete_iff]
    simp [AllHandled]

theorem fresh_handled_back {s s' : State} {a : Action} (hs : Invariant s)
    (h : step s a = some s') (hfresh : AllFresh s') (hhandled : AllHandled s') :
    AllFresh s ∧ AllHandled s := by
  obtain ⟨hold, hdeliver⟩ := (handled_step_iff h).mp hhandled
  refine ⟨fun d hd => ?_, hold⟩
  rcases step_cases h with ⟨client, server, rfl, hserver, rfl⟩ |
    ⟨client, server, rfl, hserver, rfl⟩ | ⟨client, server, rfl, hserver, rfl⟩ |
    ⟨f, hf, rfl⟩ | ⟨e, rfl, he, rfl⟩
  · rw [← fresh_of_keeps
      (Server.keeps_connect hs.tracked hserver (hs.opened d hd))]
    exact hfresh d hd
  · intro htarget
    have hholds := Server.holds_drop hs.tracked hserver (hs.opened d hd)
    exact (hholds.2.mp (hfresh d hd htarget)).1
  · rw [← fresh_of_keeps
      (Server.keeps_onDisconnect hs.tracked hserver (hs.opened d hd))]
    exact hfresh d hd
  · cases f with
    | completion c => exact hfresh d hd
    | delivery e => exact hfresh d (List.mem_append_left _ hd)
  · cases decEq d e with
    | isTrue heq => exact heq ▸ hdeliver e rfl
    | isFalse hne => exact hfresh d ((List.mem_erase_of_ne hne).mpr hd)

/-! ## Runs without a disturbance -/

def Action.delivers : Action → Prop
  | .deliver _ => True
  | _ => False

theorem invariant_initial : Invariant system.initial where
  tracked := Server.tracked_initial
  opened := by simp [system]

theorem invariant_run {as : List Action} {s : State}
    (hrun : system.run as = some s) : Invariant s := by
  unfold TransitionSystem.run at hrun
  exact TransitionSystem.runFrom_invariant (P := Invariant)
    (fun _ _ _ hs h => invariant_step hs h) invariant_initial hrun

theorem throughout_fresh_iff (as : List Action) :
    system.Throughout AllFresh system.initial as ↔
      system.EveryStep Undisturbed system.initial as := by
  apply TransitionSystem.throughout_iff_everyStep
  · exact fun s a s' hs h => invariant_step hs h
  · exact fun s a s' hs hfresh h => fresh_step_iff hs hfresh h
  · exact invariant_initial
  · simp [AllFresh, system]

theorem throughout_handled_of_fresh {s : State} {as : List Action}
    (hfresh : system.Throughout AllFresh s as) (hhandled : AllHandled s)
    (hs : Invariant s) : system.Throughout AllHandled s as := by
  induction as generalizing s with
  | nil => exact hhandled
  | cons a as ih =>
      refine ⟨hhandled, fun s' ha => ?_⟩
      apply ih (hfresh.2 s' ha) _ (invariant_step hs ha)
      apply (handled_step_iff ha).mpr
      refine ⟨hhandled, ?_⟩
      rintro d rfl
      simp only [system, step, Option.ite_none_right_eq_some] at ha
      exact hfresh.1 d ha.1

theorem throughout_fresh_of_delivers {s : State} (hs : Invariant s)
    (hfresh : AllFresh s) {rest : List Action}
    (hrest : ∀ a ∈ rest, a.delivers) :
    system.Throughout AllFresh s rest := by
  induction rest generalizing s with
  | nil => exact hfresh
  | cons a rest ih =>
      refine ⟨hfresh, fun s' ha => ?_⟩
      apply ih (invariant_step hs ha)
      · apply (fresh_step_iff hs hfresh ha).mpr
        cases a with
        | deliver d => exact undisturbed_of_found_none rfl
        | _ => exact absurd (hrest _ List.mem_cons_self) id
      · exact fun b hb => hrest b (List.mem_cons_of_mem _ hb)

/--
In a run and the deliveries still under way at its end, every message with a
target is handled exactly when no look-up finds a session already taken out
and no session is taken out while a message for it is under way.
-/
theorem allHandled_iff {as : List Action} {s : State}
    (hrun : system.run as = some s) :
    (∀ rest, (∀ a ∈ rest, Action.delivers a) →
        system.Throughout AllHandled system.initial (as ++ rest)) ↔
      system.EveryStep Undisturbed system.initial as := by
  rw [← throughout_fresh_iff]
  constructor
  · intro h
    -- a message whose session is gone at the end is lost when it is sent
    have hlast : AllFresh s := by
      intro d hd
      have hend := (TransitionSystem.throughout_append.mp
        (h [.deliver d] (by simp [Action.delivers]))).2 s hrun
      have hstep : step s (.deliver d) = some _ := if_pos hd
      exact ((handled_step_iff hstep).mp (hend.2 _ hstep)).2 d rfl
    have hhandled : AllHandled s := by
      have hend := h [] (by simp)
      rw [List.append_nil] at hend
      exact hend.last hrun
    have hback : system.Throughout
        (fun s => Invariant s → AllFresh s ∧ AllHandled s)
        system.initial as := by
      apply TransitionSystem.Throughout.of_last _ hrun
      · exact fun _ => ⟨hlast, hhandled⟩
      · intro s a s' ha hs' hs
        obtain ⟨hfresh, hhandled⟩ := hs' (invariant_step hs ha)
        exact fresh_handled_back hs ha hfresh hhandled
    exact hback.imp_of_invariant (I := Invariant)
      (fun _ _ _ hs h => invariant_step hs h) invariant_initial
      (fun s hs hP => (hP hs).1)
  · intro h rest hrest
    apply throughout_handled_of_fresh _ _ invariant_initial
    · rw [TransitionSystem.throughout_append]
      refine ⟨h, fun t ht => ?_⟩
      apply throughout_fresh_of_delivers _ (h.last ht) hrest
      exact invariant_run ht
    · simp [AllHandled, system]

/-! ## A message between the two steps of a disconnect -/

def aliceTo (target : String) : Delivery :=
  ⟨.sendMsgByP2p, clientNamed 1 "alice", 2, messageTo target⟩

def bobStays : List Action :=
  [.connect (clientNamed 1 "alice"), .connect (clientNamed 2 "bob"),
    .onEvent (clientNamed 1 "alice") true (messageTo "bob")]

theorem allHandled_bobStays :
    system.EveryStep Undisturbed system.initial bobStays ∧
      ∀ rest, (∀ a ∈ rest, Action.delivers a) →
        system.Throughout AllHandled system.initial (bobStays ++ rest) := by
  have hquiet : system.EveryStep Undisturbed system.initial bobStays := by
    decide
  have hrun : system.run bobStays = some _ := rfl
  exact ⟨hquiet, (allHandled_iff hrun).mpr hquiet⟩

def bobLeaves : List Action :=
  bobStays ++ [.drop (clientNamed 2 "bob"), .deliver (aliceTo "bob")]

/-- Alice has her acknowledgement, and her message is lost. -/
theorem message_lost_in_disconnect :
    ∃ s, system.run bobLeaves = some s ∧
      s.sent = [.sendAckData (clientNamed 1 "alice") none (messageTo "bob")] ∧
      s.completed = [⟨.sendMsgByP2p, messageTo "bob",
        ⟨[], some .nullPointerException⟩⟩] ∧
      ¬ AllHandled s := by
  refine ⟨_, rfl, rfl, rfl, fun h => ?_⟩
  have hhandled := h _ List.mem_cons_self
  exact absurd (hhandled (by decide)).1 (by decide)

end DisconnectRace

end WebIm.SocketIO
