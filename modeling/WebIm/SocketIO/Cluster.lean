import Mathlib.Data.List.FinRange
import Mathlib.Data.List.Perm.Basic
import WebIm.SocketIO.Delivery

/-!
# Brokers running the same namespace

Any number of brokers run a namespace of one name.  A message that
`sendMsgByClientDispatch` hands to the broker room is put in flight, one copy
for every other broker, and any copy in flight may be the next one to be
handed to `onClientDispatch` at its destination.  Messages carry no identity
in the code; the number given to each accepted one is history.

A client id has at most one session in the cluster at a time: `connect` is
enabled only when no session of the client id is live at any broker.
-/

namespace WebIm.SocketIO

open WebIm.Foundation

variable {N : Nat}

structure DispatchCopy (N : Nat) where
  id : Nat
  dest : Fin N
  data : MessageInfo
  deriving DecidableEq, Repr

structure P2pDelivery (N : Nat) where
  id : Nat
  broker : Fin N
  receiver : SocketIOClient
  data : MessageInfo
  deriving DecidableEq, Repr

structure Cluster (N : Nat) where
  brokers : Fin N → Server
  nextId : Nat
  inflight : List (DispatchCopy N)
  delivered : List (P2pDelivery N)

inductive ClusterAction (N : Nat) where
  | connect (broker : Fin N) (client : SocketIOClient)
  | disconnect (broker : Fin N) (client : SocketIOClient)
  | event (broker : Fin N) (client : SocketIOClient) (ackRequested : Bool)
      (data : MessageInfo)
  | clientDispatch (index : Nat) (client : SocketIOClient)
      (ackRequested : Bool)

def Emission.deliveries (id : Nat) (broker : Fin N) :
    Emission → List (P2pDelivery N)
  | .sendAckData _ _ _ => []
  | .sendEvent site recipients data =>
      if (site.sendEvent data).name = endpointP2p then
        recipients.map fun receiver => ⟨id, broker, receiver, data⟩
      else []

/-- A dispatch reaches `onClientDispatch` once at every other broker. -/
def Emission.copies (id : Nat) (broker : Fin N) :
    Emission → List (DispatchCopy N)
  | .sendAckData _ _ _ => []
  | .sendEvent site _ data =>
      if (site.sendEvent data).name = endpointClientDispatch then
        ((List.finRange N).filter (· ≠ broker)).map fun dest => ⟨id, dest, data⟩
      else []

namespace Cluster

def on (name : String) (s : Cluster N) (broker : Fin N) : Namespace :=
  ((s.brokers broker).getNamespace name).getD (.new .new)

def setBroker (s : Cluster N) (broker : Fin N) (server : Server) : Cluster N :=
  { s with brokers := Function.update s.brokers broker server }

/-- No live session, at any broker, has the client's id. -/
def IdFree (name : String) (s : Cluster N) (client : SocketIOClient) : Prop :=
  ∀ broker, ∀ other ∈ (s.on name broker).live,
    client.clientId = none ∨ other.clientId ≠ client.clientId

instance (name : String) (s : Cluster N) (client : SocketIOClient) :
    Decidable (s.IdFree name client) :=
  inferInstanceAs (Decidable (∀ broker, ∀ other ∈ (s.on name broker).live,
    client.clientId = none ∨ other.clientId ≠ client.clientId))

def transmit (s : Cluster N) (id : Nat) (broker : Fin N) (reply : Reply) :
    Cluster N :=
  { s with
    inflight := s.inflight ++ reply.emissions.flatMap (·.copies id broker)
    delivered :=
      s.delivered ++ reply.emissions.flatMap (·.deliveries id broker) }

def step (name : String) (s : Cluster N) : ClusterAction N → Option (Cluster N)
  | .connect broker client =>
      if client.namespaceName = name ∧ s.IdFree name client then
        ((s.brokers broker).connect client).map (s.setBroker broker)
      else none
  | .disconnect broker client =>
      if client.namespaceName = name then
        ((s.brokers broker).disconnect client).map (s.setBroker broker)
      else none
  | .event broker client ackRequested data =>
      if client.namespaceName = name then
        ((s.brokers broker).message client fun handler =>
            handler.onEvent (s.brokers broker) client ackRequested data).map
          fun reply =>
            { s with nextId := s.nextId + 1 }.transmit s.nextId broker reply
      else none
  | .clientDispatch index client ackRequested =>
      match s.inflight[index]? with
      | none => none
      | some copy =>
          if client.namespaceName = name then
            some (({ s with inflight := s.inflight.eraseIdx index }).transmit
              copy.id copy.dest
              ((s.on name copy.dest).handler.onClientDispatch
                (s.brokers copy.dest) client ackRequested copy.data))
          else none

def initial (N : Nat) (name : String) : Cluster N :=
  ⟨fun _ => Server.initial.setNamespace name (.new .new), 0, [], []⟩

def system (N : Nat) (name : String) :
    TransitionSystem (Cluster N) (ClusterAction N) :=
  ⟨initial N name, step name⟩

def deliveriesOf (s : Cluster N) (id : Nat) : List (P2pDelivery N) :=
  s.delivered.filter (·.id = id)

def copiesOf (s : Cluster N) (id : Nat) : List (DispatchCopy N) :=
  s.inflight.filter (·.id = id)

end Cluster

/-! ## Exact tables -/

namespace Namespace

def Exact (ns : Namespace) : Prop :=
  ∀ client ∈ ns.allClients, ∀ clientId, client.clientId = some clientId →
    ns.handler.sessions clientId = some client.sessionId

variable {name : String} {ns ns' : Namespace} {client : SocketIOClient}

theorem WellFormed.connect (h : ns.WellFormed client.namespaceName)
    (hfresh : client.sessionId ∉ ns.opened)
    (hcases : ns' = ns.connected client ∨ ns' = ns.refuse client) :
    ns'.WellFormed client.namespaceName := by
  rcases hcases with rfl | rfl
  · exact h.connected hfresh
  · exact h.refuse hfresh

theorem WellFormed.mem_live_connect (h : ns.WellFormed name)
    (hfresh : client.sessionId ∉ ns.opened)
    (hcases : ns' = ns.connected client ∨ ns' = ns.refuse client)
    {other : SocketIOClient} :
    other ∈ ns'.live ↔ other = client ∨ other ∈ ns.live := by
  rcases hcases with rfl | rfl
  · rw [(connected_live ns client).mem_iff, List.mem_cons]
  · rw [h.refuse_eq hfresh]
    simp only [live, List.mem_append, List.mem_singleton]
    tauto

theorem WellFormed.mem_allClients_connect (h : ns.WellFormed name)
    (hfresh : client.sessionId ∉ ns.opened)
    (hcases : ns' = ns.connected client ∨ ns' = ns.refuse client)
    {other : SocketIOClient} (hother : other ∈ ns'.allClients) :
    other = client ∨ other ∈ ns.allClients := by
  rcases hcases with rfl | rfl
  · rw [connected_allClients, List.mem_append, List.mem_singleton] at hother
    exact hother.symm
  · rw [h.refuse_eq hfresh] at hother
    exact Or.inr hother

theorem Exact.connect (hexact : ns.Exact) (h : ns.WellFormed name)
    (hfresh : client.sessionId ∉ ns.opened)
    (hcases : ns' = ns.connected client ∨ ns' = ns.refuse client)
    (hfree : ∀ other ∈ ns.live,
      client.clientId = none ∨ other.clientId ≠ client.clientId) :
    ns'.Exact := by
  rcases hcases with rfl | rfl
  · intro other hother clientId hid
    rw [connected_allClients, List.mem_append, List.mem_singleton] at hother
    rw [connected_sessions]
    rcases hother with hother | rfl
    · have hne : client.clientId ≠ some clientId := by
        intro hown
        rcases hfree other (mem_live_of_allClients hother) with hnone | hne
        · rw [hnone] at hown
          cases hown
        · exact hne (hid.trans hown.symm)
      rw [if_neg hne]
      exact hexact other hother clientId hid
    · rw [if_pos hid]
  · rw [h.refuse_eq hfresh]
    exact hexact

theorem Exact.close (hexact : ns.Exact)
    (hsingle : ∀ other ∈ ns.live, other.clientId ≠ none →
      other.clientId = client.clientId → other = client) :
    (ns.close client).Exact := by
  intro other hother clientId hid
  rw [close_allClients, List.mem_filter] at hother
  rw [close_sessions]
  split
  · rename_i hown
    have heq := hsingle other (mem_live_of_allClients hother.1)
      (by simp [hid]) (hid.trans hown.symm)
    simp [heq] at hother
  · exact hexact other hother.1 clientId hid

end Namespace

/-! ## What a step does -/

namespace Cluster

variable {name : String} {s s' : Cluster N}

def SingleSession (name : String) (s : Cluster N) : Prop :=
  ∀ broker other, ∀ first ∈ (s.on name broker).live,
    ∀ second ∈ (s.on name other).live, first.clientId ≠ none →
      first.clientId = second.clientId → broker = other ∧ first = second

structure Invariant (name : String) (s : Cluster N) : Prop where
  running : ∀ broker,
    (s.brokers broker).getNamespace name = some (s.on name broker)
  wellFormed : ∀ broker, (s.on name broker).WellFormed name
  single : s.SingleSession name
  exact : ∀ broker, (s.on name broker).Exact

theorem on_setBroker (s : Cluster N) (broker : Fin N) (server : Server)
    {ns : Namespace} (hns : server.getNamespace name = some ns) :
    (s.setBroker broker server).on name =
      Function.update (s.on name) broker ns := by
  funext other
  by_cases h : other = broker
  · subst h
    simp [on, setBroker, hns]
  · simp [on, setBroker, h]

theorem connect_cases {broker : Fin N} {client : SocketIOClient}
    (h : Invariant name s)
    (hstep : step name s (.connect broker client) = some s') :
    client.namespaceName = name ∧ s.IdFree name client ∧
      client.sessionId ∉ (s.on name broker).opened ∧
      ∃ server ns', s' = s.setBroker broker server ∧
        server.getNamespace name = some ns' ∧
        (ns' = (s.on name broker).connected client ∨
          ns' = (s.on name broker).refuse client) := by
  simp only [step] at hstep
  split at hstep
  · rename_i hguard
    obtain ⟨rfl, hfree⟩ := hguard
    obtain ⟨server, hserver, rfl⟩ := Option.map_eq_some_iff.mp hstep
    obtain ⟨ns, ns', hns, hfresh, hns', hcases⟩ := Server.connect_own hserver
    rw [h.running broker, Option.some.injEq] at hns
    subst hns
    exact ⟨rfl, hfree, hfresh, server, ns', rfl, hns', hcases⟩
  · cases hstep

theorem disconnect_cases {broker : Fin N} {client : SocketIOClient}
    (h : Invariant name s)
    (hstep : step name s (.disconnect broker client) = some s') :
    client.namespaceName = name ∧ client ∈ (s.on name broker).live ∧
      ∃ server, s' = s.setBroker broker server ∧
        server.getNamespace name = some ((s.on name broker).close client) := by
  simp only [step] at hstep
  split at hstep
  · rename_i hguard
    subst hguard
    obtain ⟨server, hserver, rfl⟩ := Option.map_eq_some_iff.mp hstep
    obtain ⟨ns, hns, hlive, hns'⟩ := Server.disconnect_own hserver
    rw [h.running broker, Option.some.injEq] at hns
    subst hns
    exact ⟨rfl, List.mem_append.mpr hlive, server, rfl, hns'⟩
  · cases hstep

@[simp] theorem deliveries_ack (id : Nat) (broker : Fin N)
    (ackRequested : Bool) (client : SocketIOClient) (tag : Option String)
    (data : MessageInfo) :
    (if ackRequested then [Emission.sendAckData client tag data]
      else []).flatMap (·.deliveries id broker) = [] := by
  cases ackRequested <;> rfl

@[simp] theorem copies_ack (id : Nat) (broker : Fin N)
    (ackRequested : Bool) (client : SocketIOClient) (tag : Option String)
    (data : MessageInfo) :
    (if ackRequested then [Emission.sendAckData client tag data]
      else []).flatMap (·.copies id broker) = [] := by
  cases ackRequested <;> rfl

/--
An accepted message is delivered to the target's local session, or put in
flight to every other broker, or, without a target, broadcast.
-/
theorem event_cases {broker : Fin N} {client : SocketIOClient}
    {ackRequested : Bool} {data : MessageInfo} (h : Invariant name s)
    (hstep : step name s (.event broker client ackRequested data) = some s') :
    s'.brokers = s.brokers ∧ s'.nextId = s.nextId + 1 ∧
      ((∃ receiver ∈ (s.on name broker).allClients,
          receiver.clientId = data.targetClientId ∧
          s'.delivered =
            s.delivered ++ [⟨s.nextId, broker, receiver, data⟩] ∧
          s'.inflight = s.inflight) ∨
        (∃ target, data.targetClientId = some target ∧
          (s.on name broker).handler.sessions target = none ∧
          s'.delivered = s.delivered ∧
          s'.inflight = s.inflight ++
            ((List.finRange N).filter (· ≠ broker)).map
              fun dest => ⟨s.nextId, dest, data⟩) ∨
        isEmpty data.targetClientId ∧ s'.delivered = s.delivered ∧
          s'.inflight = s.inflight) := by
  simp only [step] at hstep
  split at hstep
  swap
  · cases hstep
  rename_i hguard
  subst hguard
  obtain ⟨reply, hreply, rfl⟩ := Option.map_eq_some_iff.mp hstep
  have hns := h.running broker
  simp only [Server.message, hns] at hreply
  split at hreply
  swap
  · cases hreply
  cases hreply
  refine ⟨rfl, rfl, ?_⟩
  by_cases hempty : isEmpty data.targetClientId
  · refine Or.inr (Or.inr ⟨hempty, ?_, ?_⟩) <;>
      simp [transmit, BaseAbstractHandler.onEvent, hempty,
        BaseAbstractHandler.sendMsgByBroadcast, hns, Emission.deliveries,
        Emission.copies, EmitSite.sendEvent, endpointBroadcast, endpointP2p,
        endpointClientDispatch]
  cases htarget : data.targetClientId with
  | none => simp [htarget, isEmpty] at hempty
  | some target =>
      have hne : target ≠ "" := by
        simpa [htarget, isEmpty] using hempty
      cases hget : (s.on client.namespaceName broker).handler.sessions
          target with
      | some uuid =>
          obtain ⟨receiver, hmem, hreceiver, rfl, hid, -⟩ :=
            (h.wellFormed broker).receiver hget
          refine Or.inl ⟨receiver, hmem, hid, ?_, ?_⟩ <;>
            simp [transmit, BaseAbstractHandler.onEvent_p2p _ htarget hne,
              BaseAbstractHandler.sendMsgByP2p_local hns htarget hget
                hreceiver, Emission.deliveries, Emission.copies,
              EmitSite.sendEvent, endpointP2p, endpointClientDispatch]
      | none =>
          refine Or.inr (Or.inl ⟨target, rfl, hget, ?_, ?_⟩) <;>
            simp [transmit, BaseAbstractHandler.onEvent_p2p _ htarget hne,
              BaseAbstractHandler.sendMsgByP2p_dispatch hns htarget hget,
              Emission.deliveries, Emission.copies, EmitSite.sendEvent,
              endpointP2p, endpointClientDispatch]

theorem clientDispatch_cases {index : Nat} {client : SocketIOClient}
    {ackRequested : Bool} (h : Invariant name s)
    (hstep : step name s (.clientDispatch index client ackRequested) =
      some s') :
    ∃ copy, s.inflight[index]? = some copy ∧ s'.brokers = s.brokers ∧
      s'.nextId = s.nextId ∧ s'.inflight = s.inflight.eraseIdx index ∧
      ((∃ receiver ∈ (s.on name copy.dest).allClients,
          receiver.clientId = copy.data.targetClientId ∧
          s'.delivered =
            s.delivered ++ [⟨copy.id, copy.dest, receiver, copy.data⟩]) ∨
        (∀ target, copy.data.targetClientId = some target →
          (s.on name copy.dest).handler.sessions target = none) ∧
          s'.delivered = s.delivered) := by
  simp only [step] at hstep
  split at hstep
  · cases hstep
  rename_i copy hcopy
  split at hstep
  swap
  · cases hstep
  rename_i hguard
  subst hguard
  cases hstep
  have hns := h.running copy.dest
  refine ⟨copy, hcopy, rfl, rfl, ?_⟩
  cases htarget : copy.data.targetClientId with
  | none =>
      refine ⟨?_, Or.inr ⟨by simp, ?_⟩⟩ <;>
        simp [transmit, BaseAbstractHandler.onClientDispatch, htarget]
  | some target =>
      cases hget : (s.on client.namespaceName copy.dest).handler.sessions
          target with
      | some uuid =>
          obtain ⟨receiver, hmem, hreceiver, rfl, hid, -⟩ :=
            (h.wellFormed copy.dest).receiver hget
          have hdispatch := BaseAbstractHandler.onClientDispatch_local
            ackRequested hns htarget hget hreceiver
          refine ⟨?_, Or.inl ⟨receiver, hmem, hid, ?_⟩⟩ <;>
            simp [transmit, hdispatch, Emission.deliveries, Emission.copies,
              EmitSite.sendEvent, endpointP2p, endpointClientDispatch]
      | none =>
          have hdispatch := @BaseAbstractHandler.onClientDispatch_absent
            (s.brokers copy.dest) client _ _ _ ackRequested htarget hget
          refine ⟨?_, Or.inr ⟨?_, ?_⟩⟩
          · simp [transmit, hdispatch]
          · rintro other hother
            cases hother
            exact hget
          · simp [transmit, hdispatch]

/-! ## The invariant -/

theorem invariant_initial : Invariant name (initial N name) where
  running broker := by simp [initial, on]
  wellFormed broker := by
    simpa [initial, on] using Namespace.wellFormed_new name
  single := by
    intro broker other first hfirst
    simp [initial, on, Namespace.live, Namespace.new] at hfirst
  exact broker := by
    intro client hclient
    simp [initial, on, Namespace.new] at hclient

theorem on_of_brokers_eq (heq : s'.brokers = s.brokers) :
    s'.on name = s.on name := by
  funext broker
  simp only [on, heq]

theorem Invariant.of_brokers_eq (h : Invariant name s)
    (heq : s'.brokers = s.brokers) : Invariant name s' := by
  have hon : s'.on name = s.on name := on_of_brokers_eq heq
  constructor
  · intro broker
    rw [hon, heq]
    exact h.running broker
  · intro broker
    rw [hon]
    exact h.wellFormed broker
  · unfold SingleSession
    rw [hon]
    exact h.single
  · intro broker
    rw [hon]
    exact h.exact broker

theorem Invariant.setBroker (h : Invariant name s) {broker : Fin N}
    {server : Server} {ns : Namespace}
    (hns : server.getNamespace name = some ns) (hwf : ns.WellFormed name)
    (hexact : ns.Exact)
    (hsingle : (s.setBroker broker server).SingleSession name) :
    Invariant name (s.setBroker broker server) where
  running other := by
    rw [on_setBroker s broker server hns]
    by_cases hother : other = broker
    · subst hother
      simpa [Cluster.setBroker] using hns
    · simpa [Cluster.setBroker, hother] using h.running other
  wellFormed other := by
    rw [on_setBroker s broker server hns]
    by_cases hother : other = broker
    · subst hother
      simpa using hwf
    · simpa [hother] using h.wellFormed other
  single := hsingle
  exact other := by
    rw [on_setBroker s broker server hns]
    by_cases hother : other = broker
    · subst hother
      simpa using hexact
    · simpa [hother] using h.exact other

theorem mem_live_setBroker {broker other : Fin N} {server : Server}
    {ns : Namespace} {client : SocketIOClient}
    (hns : server.getNamespace name = some ns)
    (hmem : client ∈ ((s.setBroker broker server).on name other).live) :
    other = broker ∧ client ∈ ns.live ∨
      other ≠ broker ∧ client ∈ (s.on name other).live := by
  rw [on_setBroker s broker server hns] at hmem
  by_cases hother : other = broker
  · subst hother
    rw [Function.update_self] at hmem
    exact Or.inl ⟨rfl, hmem⟩
  · rw [Function.update_of_ne hother] at hmem
    exact Or.inr ⟨hother, hmem⟩

theorem Invariant.single_connect (h : Invariant name s) {broker : Fin N}
    {client : SocketIOClient} {server : Server} {ns : Namespace}
    (hfree : s.IdFree name client)
    (hns : server.getNamespace name = some ns)
    (hlive : ∀ other ∈ ns.live,
      other = client ∨ other ∈ (s.on name broker).live) :
    (s.setBroker broker server).SingleSession name := by
  have hplace : ∀ other, ∀ found ∈ ((s.setBroker broker server).on name
      other).live, other = broker ∧ found = client ∨
        found ∈ (s.on name other).live := by
    intro other found hfound
    rcases mem_live_setBroker hns hfound with ⟨rfl, hnew⟩ | ⟨-, hold⟩
    · rcases hlive found hnew with rfl | hold
      · exact Or.inl ⟨rfl, rfl⟩
      · exact Or.inr hold
    · exact Or.inr hold
  intro b b' first hfirst second hsecond hne heq
  rcases hplace b first hfirst with ⟨rfl, rfl⟩ | hfirst'
  · rcases hplace b' second hsecond with ⟨rfl, rfl⟩ | hsecond'
    · exact ⟨rfl, rfl⟩
    · rcases hfree b' second hsecond' with hnone | hdiff
      · exact absurd hnone hne
      · exact absurd heq.symm hdiff
  · rcases hplace b' second hsecond with ⟨rfl, rfl⟩ | hsecond'
    · rcases hfree b first hfirst' with hnone | hdiff
      · exact absurd (heq.trans hnone) hne
      · exact absurd heq hdiff
    · exact h.single b b' first hfirst' second hsecond' hne heq

theorem Invariant.single_disconnect (h : Invariant name s) {broker : Fin N}
    {server : Server} {ns : Namespace}
    (hns : server.getNamespace name = some ns)
    (hlive : ∀ other ∈ ns.live, other ∈ (s.on name broker).live) :
    (s.setBroker broker server).SingleSession name := by
  have hplace : ∀ other, ∀ found ∈ ((s.setBroker broker server).on name
      other).live, found ∈ (s.on name other).live := by
    intro other found hfound
    rcases mem_live_setBroker hns hfound with ⟨rfl, hnew⟩ | ⟨-, hold⟩
    · exact hlive found hnew
    · exact hold
  intro b b' first hfirst second hsecond
  exact h.single b b' first (hplace b first hfirst) second
    (hplace b' second hsecond)

theorem invariant_step (s : Cluster N) (a : ClusterAction N) (s' : Cluster N)
    (h : Invariant name s) (hstep : step name s a = some s') :
    Invariant name s' := by
  cases a with
  | connect broker client =>
      obtain ⟨rfl, hfree, hfresh, server, ns', rfl, hns', hcases⟩ :=
        connect_cases h hstep
      have hwf := h.wellFormed broker
      refine h.setBroker hns' (hwf.connect hfresh hcases)
        ((h.exact broker).connect hwf hfresh hcases (hfree broker)) ?_
      exact h.single_connect hfree hns' fun other hother =>
        (hwf.mem_live_connect hfresh hcases).mp hother
  | disconnect broker client =>
      obtain ⟨rfl, hlive, server, rfl, hns'⟩ := disconnect_cases h hstep
      refine h.setBroker hns' ((h.wellFormed broker).close hlive) ?_ ?_
      · apply (h.exact broker).close
        intro other hother hne heq
        exact (h.single broker broker other hother client hlive hne heq).2
      · apply h.single_disconnect hns'
        intro other hother
        rw [Namespace.close_live] at hother
        exact List.mem_of_mem_filter hother
  | event broker client ackRequested data =>
      exact h.of_brokers_eq (event_cases h hstep).1
  | clientDispatch index client ackRequested =>
      obtain ⟨copy, -, heq, -⟩ := clientDispatch_cases h hstep
      exact h.of_brokers_eq heq

theorem reachable_invariant (h : (system N name).Reachable s) :
    Invariant name s :=
  h.invariant (P := Invariant name) invariant_initial invariant_step

end Cluster

end WebIm.SocketIO
