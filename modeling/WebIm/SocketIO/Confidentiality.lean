import WebIm.Foundation.Noninterference
import WebIm.SocketIO.Delivery

/-!
# What a client learns of messages for others

The brokers receive the messages they dispatch to each other in the room
`room-brokers`, which only the inner clients are meant to join.  The room is a
handshake parameter of any client, so the file compares two runs that differ in
the messages of other clients to other clients and says exactly when the
sessions of the client id `c` see the difference.
-/

namespace WebIm.SocketIO

open WebIm.Foundation

/-! ## What the sessions of a client id receive -/

inductive Packet where
  | ack (tag : Option String) (data : MessageInfo)
  | event (sent : SentEvent)
  deriving DecidableEq, Repr

def Emission.receivedBy (c : String) : Emission → List (SocketIOClient × Packet)
  | .sendAckData client tag data =>
      if client.clientId = some c then [(client, .ack tag data)] else []
  | .sendEvent site recipients data =>
      (recipients.filter (·.clientId = some c)).map fun receiver =>
        (receiver, .event (site.sendEvent data))

def Reply.receivedBy (c : String) (reply : Reply) :
    List (SocketIOClient × Packet) :=
  reply.emissions.flatMap (Emission.receivedBy c)

theorem Reply.receivedBy_after (c : String) (first : List Emission)
    (reply : Reply) :
    (reply.after first).receivedBy c =
      first.flatMap (Emission.receivedBy c) ++ reply.receivedBy c := by
  simp [Reply.receivedBy]

namespace Broker

def receivedBy (c : String) (b : Broker) : List (SocketIOClient × Packet) :=
  b.sent.flatMap (Emission.receivedBy c)

def shows (c : String) (b : Broker) : Action → List (SocketIOClient × Packet)
  | .event client ackRequested data =>
      (b.server.message client fun handler =>
        handler.onEvent b.server client ackRequested data).elim []
          (Reply.receivedBy c)
  | .clientDispatch client ackRequested data =>
      (b.server.message client fun handler =>
        handler.onClientDispatch b.server client ackRequested data).elim []
          (Reply.receivedBy c)
  | _ => []

theorem receivedBy_step (c : String) (b : Broker) (a : Action) (b' : Broker)
    (hstep : b.step a = some b') :
    b'.receivedBy c = b.receivedBy c ++ b.shows c a := by
  cases a with
  | connect client =>
      obtain ⟨server, -, rfl⟩ := Option.map_eq_some_iff.mp hstep
      simp [receivedBy, shows]
  | disconnect client =>
      obtain ⟨server, -, rfl⟩ := Option.map_eq_some_iff.mp hstep
      simp [receivedBy, shows]
  | event client ackRequested data =>
      obtain ⟨reply, hreply, rfl⟩ := Option.map_eq_some_iff.mp hstep
      simp [receivedBy, shows, hreply, Reply.receivedBy]
  | clientDispatch client ackRequested data =>
      obtain ⟨reply, hreply, rfl⟩ := Option.map_eq_some_iff.mp hstep
      simp [receivedBy, shows, hreply, Reply.receivedBy]

end Broker

/-! ## Runs that differ in messages for others -/

/-- A P2P message that is neither from, acknowledged to, nor for `c`. -/
def ForOthers (c : String) (client : SocketIOClient) (data : MessageInfo) :
    Prop :=
  client.clientId ≠ some c ∧ isEmpty data.targetClientId = false ∧
    data.targetClientId ≠ some c

instance (c : String) (client : SocketIOClient) (data : MessageInfo) :
    Decidable (ForOthers c client data) :=
  inferInstanceAs (Decidable (_ ∧ _ ∧ _))

/-- The same action, up to the content of a message for others. -/
inductive SameForOthers (c : String) : Action → Action → Prop where
  | refl (a : Action) : SameForOthers c a a
  | event (client : SocketIOClient) (ackRequested : Bool)
      (data data' : MessageInfo) (others : ForOthers c client data)
      (sameTarget : data'.targetClientId = data.targetClientId) :
      SameForOthers c (.event client ackRequested data)
        (.event client ackRequested data')
  | clientDispatch (client : SocketIOClient) (ackRequested : Bool)
      (data data' : MessageInfo) (others : ForOthers c client data)
      (sameTarget : data'.targetClientId = data.targetClientId) :
      SameForOthers c (.clientDispatch client ackRequested data)
        (.clientDispatch client ackRequested data')

theorem ForOthers.target {c : String} {client : SocketIOClient}
    {data : MessageInfo} (h : ForOthers c client data) :
    ∃ target, data.targetClientId = some target ∧ target ≠ "" ∧ target ≠ c := by
  obtain ⟨-, hempty, hne⟩ := h
  cases htarget : data.targetClientId with
  | none => simp [isEmpty, htarget] at hempty
  | some target =>
      refine ⟨target, rfl, ?_, ?_⟩
      · rintro rfl
        simp [isEmpty, htarget] at hempty
      · rintro rfl
        exact hne htarget

def Namespace.inBrokerRoom (c : String) (ns : Namespace) :
    List SocketIOClient :=
  ns.allClients.filter fun client =>
    client.clientId = some c ∧ client.room = some roomTagBroker

/--
The step does not send a message for others to the brokers' room while a
session of `c` is in it.
-/
def NotDispatchedTo (c : String) (b : Broker) : Action → Prop
  | .event client _ data =>
      ForOthers c client data →
        ∀ ns, b.server.getNamespace client.namespaceName = some ns →
          (∀ target, data.targetClientId = some target →
            ns.handler.sessions target = none) →
          ns.inBrokerRoom c = []
  | _ => True

instance (c : String) (b : Broker) :
    (a : Action) → Decidable (NotDispatchedTo c b a)
  | .event client _ data =>
      match hns : b.server.getNamespace client.namespaceName with
      | none => isTrue (by simp [NotDispatchedTo, hns])
      | some ns =>
          decidable_of_iff (ForOthers c client data →
              (∀ target ∈ data.targetClientId,
                ns.handler.sessions target = none) →
                ns.inBrokerRoom c = []) (by simp [NotDispatchedTo, hns])
  | .connect _ => isTrue trivial
  | .disconnect _ => isTrue trivial
  | .clientDispatch _ _ _ => isTrue trivial

/-! ## One step -/

section Step

variable {c : String} {server : Server} {client : SocketIOClient}
  {ns : Namespace} {data : MessageInfo} {target : String}

theorem Namespace.WellFormed.brokerRoom {name : String}
    (h : ns.WellFormed name) :
    (ns.getRoomClients roomTagBroker).filter (·.clientId = some c) =
      ns.inBrokerRoom c := by
  unfold Namespace.getRoomClients Namespace.inBrokerRoom
  rw [List.filter_filter]
  apply List.filter_congr
  intro other hother
  have hroom : roomTagBroker ≠ "" := by decide
  by_cases hid : other.clientId = some c
  · simp [hid, h.rooms other hother, hroom]
  · simp [hid]

theorem sendToSession_hidden (h : ns.WellFormed client.namespaceName)
    (hns : server.getNamespace client.namespaceName = some ns)
    (hne : target ≠ c) {uuid : UUID}
    (hget : ns.handler.sessions target = some uuid) (site : EmitSite) :
    (BaseAbstractHandler.sendToSession site server client uuid
      data).receivedBy c = [] := by
  obtain ⟨receiver, -, hreceiver, rfl, hid, -⟩ := h.receiver hget
  rw [BaseAbstractHandler.sendToSession_eq site hns hreceiver]
  simp [Reply.receivedBy, Emission.receivedBy, hid, hne]

theorem ack_hidden (hclient : client.clientId ≠ some c) (ackRequested : Bool)
    (tag : Option String) :
    List.flatMap (Emission.receivedBy c)
      (if ackRequested then [.sendAckData client tag data] else []) = [] := by
  cases ackRequested <;> simp [Emission.receivedBy, hclient]

theorem onEvent_receivedBy (h : ns.WellFormed client.namespaceName)
    (hns : server.getNamespace client.namespaceName = some ns)
    (hothers : ForOthers c client data)
    (htarget : data.targetClientId = some target) (ackRequested : Bool) :
    (ns.handler.onEvent server client ackRequested data).receivedBy c =
      if ns.handler.sessions target = none then
        (ns.inBrokerRoom c).map fun receiver =>
          (receiver, .event (EmitSite.sendMsgByClientDispatch.sendEvent data))
      else [] := by
  obtain ⟨own, hown, hempty, hne⟩ := hothers.target
  obtain rfl : own = target := Option.some.inj (hown.symm.trans htarget)
  rw [BaseAbstractHandler.onEvent_p2p ackRequested htarget hempty,
    Reply.receivedBy_after, ack_hidden hothers.1, List.nil_append]
  cases hget : ns.handler.sessions own with
  | none =>
      rw [BaseAbstractHandler.sendMsgByP2p_dispatch hns htarget hget]
      simp [Reply.receivedBy, Emission.receivedBy, h.brokerRoom]
  | some uuid =>
      have hsend : ns.handler.sendMsgByP2p server client data =
          BaseAbstractHandler.sendToSession .sendMsgByP2p server client uuid
            data := by
        simp [BaseAbstractHandler.sendMsgByP2p, htarget, hget]
      simp [hsend, sendToSession_hidden h hns hne hget]

theorem onClientDispatch_hidden (h : ns.WellFormed client.namespaceName)
    (hns : server.getNamespace client.namespaceName = some ns)
    (hothers : ForOthers c client data) (ackRequested : Bool) :
    (ns.handler.onClientDispatch server client ackRequested
      data).receivedBy c = [] := by
  obtain ⟨target, htarget, -, hne⟩ := hothers.target
  unfold BaseAbstractHandler.onClientDispatch
  rw [Reply.receivedBy_after, ack_hidden hothers.1, List.nil_append, htarget]
  cases hget : ns.handler.sessions target with
  | none => simp [hget, Reply.receivedBy]
  | some uuid =>
      simpa [hget] using sendToSession_hidden h hns hne hget .onClientDispatch

end Step

theorem ForOthers.congr {c : String} {client : SocketIOClient}
    {data data' : MessageInfo} (h : ForOthers c client data)
    (hsame : data'.targetClientId = data.targetClientId) :
    ForOthers c client data' := by
  unfold ForOthers
  rw [hsame]
  exact h

def MessageInfo.altered (data : MessageInfo) : MessageInfo :=
  { data with
    msgContent := if data.msgContent = none then some "" else none }

theorem MessageInfo.altered_ne (data : MessageInfo) : data.altered ≠ data := by
  intro h
  have hcontent := congrArg MessageInfo.msgContent h
  cases hnone : data.msgContent <;> simp [altered, hnone] at hcontent

namespace Broker

variable {c : String} {b b' : Broker}

theorem message_eq {client : SocketIOClient} {reply : Reply}
    {callback : BaseAbstractHandler → Reply}
    (h : b.server.message client callback = some reply) :
    ∃ ns, b.server.getNamespace client.namespaceName = some ns ∧
      client ∈ ns.allClients ∧ reply = callback ns.handler := by
  unfold Server.message at h
  cases hns : b.server.getNamespace client.namespaceName with
  | none => simp [hns] at h
  | some ns =>
      simp only [hns] at h
      split at h
      · rename_i hmem
        exact ⟨ns, rfl, hmem, (Option.some.inj h).symm⟩
      · cases h

theorem message_of_mem {client : SocketIOClient} {ns : Namespace}
    (hns : b.server.getNamespace client.namespaceName = some ns)
    (hmem : client ∈ ns.allClients) (callback : BaseAbstractHandler → Reply) :
    b.server.message client callback = some (callback ns.handler) := by
  simp [Server.message, hns, hmem]

theorem shows_event (h : b.server.WellFormed) {client : SocketIOClient}
    {ns : Namespace}
    (hns : b.server.getNamespace client.namespaceName = some ns)
    (hmem : client ∈ ns.allClients) {sent : MessageInfo}
    (hothers : ForOthers c client sent) {target : String}
    (htarget : sent.targetClientId = some target) (ackRequested : Bool) :
    b.shows c (.event client ackRequested sent) =
      if ns.handler.sessions target = none then
        (ns.inBrokerRoom c).map fun receiver => (receiver, .event
          (EmitSite.sendMsgByClientDispatch.sendEvent sent))
      else [] := by
  rw [← onEvent_receivedBy (h _ _ hns) hns hothers htarget ackRequested]
  simp [shows, message_of_mem hns hmem]

theorem shows_iff (h : b.server.WellFormed) {a : Action}
    (hstep : b.step a = some b') :
    (∀ a', SameForOthers c a a' → b.shows c a' = b.shows c a) ↔
      NotDispatchedTo c b a := by
  cases a with
  | connect client =>
      constructor
      · exact fun _ => trivial
      · rintro - a' ⟨⟩
        rfl
  | disconnect client =>
      constructor
      · exact fun _ => trivial
      · rintro - a' ⟨⟩
        rfl
  | clientDispatch client ackRequested data =>
      constructor
      · exact fun _ => trivial
      · intro _ a' hsame
        obtain ⟨reply, hreply, -⟩ := Option.map_eq_some_iff.mp hstep
        obtain ⟨ns, hns, hmem, -⟩ := message_eq hreply
        cases hsame with
        | refl => rfl
        | clientDispatch _ _ _ data' hothers hsame =>
            simp [shows, message_of_mem hns hmem,
              onClientDispatch_hidden (h _ _ hns) hns hothers,
              onClientDispatch_hidden (h _ _ hns) hns (hothers.congr hsame)]
  | event client ackRequested data =>
      obtain ⟨reply, hreply, -⟩ := Option.map_eq_some_iff.mp hstep
      obtain ⟨ns, hns, hmem, -⟩ := message_eq hreply
      constructor
      · intro hall hothers found hfound habsent
        obtain rfl : ns = found := Option.some.inj (hns.symm.trans hfound)
        obtain ⟨target, htarget, -, -⟩ := hothers.target
        have hsame : data.altered.targetClientId = data.targetClientId := rfl
        have hvaried := hall _
          (.event client ackRequested data data.altered hothers hsame)
        rw [shows_event h hns hmem hothers htarget,
          shows_event h hns hmem (hothers.congr hsame) htarget] at hvaried
        cases hroom : ns.inBrokerRoom c with
        | nil => rfl
        | cons receiver rest =>
            -- the first session in the room would have seen the difference
            simp [hroom, habsent target htarget, EmitSite.sendEvent,
              data.altered_ne] at hvaried
      · intro hnot a' hsame
        cases hsame with
        | refl => rfl
        | event _ _ _ data' hothers hsame =>
            obtain ⟨target, htarget, -, -⟩ := hothers.target
            rw [shows_event h hns hmem hothers htarget,
              shows_event h hns hmem (hothers.congr hsame)
                (hsame.trans htarget)]
            by_cases habsent : ns.handler.sessions target = none
            · have hroom := hnot hothers ns hns (by
                intro other hother
                rw [htarget, Option.some.injEq] at hother
                exact hother ▸ habsent)
              simp [hroom]
            · simp [habsent]

/-! ## Whole runs -/

theorem step_of_same {a a' : Action} {next : Broker}
    (hserver : b.server = b'.server) (hsame : SameForOthers c a a')
    (hstep : b.step a = some next) :
    ∃ next', b'.step a' = some next' ∧ next.server = next'.server := by
  cases hsame with
  | refl =>
      cases a with
      | connect client =>
          obtain ⟨server, hconnect, rfl⟩ := Option.map_eq_some_iff.mp hstep
          rw [hserver] at hconnect
          exact ⟨_, Option.map_eq_some_iff.mpr ⟨server, hconnect, rfl⟩, rfl⟩
      | disconnect client =>
          obtain ⟨server, hdisconnect, rfl⟩ := Option.map_eq_some_iff.mp hstep
          rw [hserver] at hdisconnect
          exact ⟨_, Option.map_eq_some_iff.mpr ⟨server, hdisconnect, rfl⟩, rfl⟩
      | event client ackRequested data =>
          obtain ⟨reply, hreply, rfl⟩ := Option.map_eq_some_iff.mp hstep
          rw [hserver] at hreply
          exact ⟨_, Option.map_eq_some_iff.mpr ⟨reply, hreply, rfl⟩, hserver⟩
      | clientDispatch client ackRequested data =>
          obtain ⟨reply, hreply, rfl⟩ := Option.map_eq_some_iff.mp hstep
          rw [hserver] at hreply
          exact ⟨_, Option.map_eq_some_iff.mpr ⟨reply, hreply, rfl⟩, hserver⟩
  | event client ackRequested data data' _ _ =>
      obtain ⟨reply, hreply, rfl⟩ := Option.map_eq_some_iff.mp hstep
      obtain ⟨ns, hns, hmem, -⟩ := message_eq hreply
      rw [hserver] at hns
      exact ⟨_, Option.map_eq_some_iff.mpr
        ⟨_, message_of_mem hns hmem _, rfl⟩, hserver⟩
  | clientDispatch client ackRequested data data' _ _ =>
      obtain ⟨reply, hreply, rfl⟩ := Option.map_eq_some_iff.mp hstep
      obtain ⟨ns, hns, hmem, -⟩ := message_eq hreply
      rw [hserver] at hns
      exact ⟨_, Option.map_eq_some_iff.mpr
        ⟨_, message_of_mem hns hmem _, rfl⟩, hserver⟩

theorem shows_congr (c : String) (b b' : Broker) (a : Action)
    (hserver : b.server = b'.server) : b.shows c a = b'.shows c a := by
  cases a <;> simp [shows, hserver]

/--
The sessions of `c` receive the same in every run that differs from a given
one in the content of messages for others, exactly when the given run never
dispatches such a message to the brokers' room while a session of `c` is there.
-/
theorem others_messages_hidden_iff {actions : List Action}
    (hrun : system.run actions = some b) (c : String) :
    (∀ actions' b', List.Forall₂ (SameForOthers c) actions actions' →
        system.run actions' = some b' → b'.receivedBy c = b.receivedBy c) ↔
      system.EveryStep (NotDispatchedTo c) initial actions := by
  have hsteps : ∀ s s' a a' t, s.server = s'.server → SameForOthers c a a' →
      system.step s a = some t →
      ∃ t', system.step s' a' = some t' ∧ t.server = t'.server :=
    fun s s' a a' t => step_of_same
  have hlog : ∀ {actions : List Action} {t : Broker},
      system.run actions = some t →
      t.receivedBy c = system.observe (shows c) system.initial actions :=
    fun ht => system.log_eq_observe (shows c) (receivedBy_step c) ht
  have hunwind := system.noninterferent_iff_everyStep (shows c) .refl hsteps
    (shows_congr c) (fun _ => rfl) hrun
  rw [← TransitionSystem.EveryStep.congr_of_invariant
    step_wellFormed (fun s a s' h hstep => shows_iff h hstep) actions
    Server.wellFormed_initial]
  change _ ↔ system.EveryStep _ system.initial actions
  rw [← hunwind]
  constructor
  · intro hall actions' hsame
    obtain ⟨b', hb'⟩ := system.runFrom_of_same hsteps rfl hsame hrun
    rw [← hlog hb', ← hlog hrun]
    exact hall actions' b' hsame hb'
  · intro hall actions' b' hsame hb'
    rw [hlog hb', hlog hrun]
    exact hall actions' hsame

/-- Eve asks for the brokers' room; Alice then writes to Bob, who is away. -/
def eveListens (data : MessageInfo) : List Action :=
  [.connect ⟨3, defaultName, ⟨[(queryParamsClientid, "eve"),
      (queryParamsRoom, roomTagBroker)]⟩⟩,
    .connect (clientNamed 1 "alice"),
    .event (clientNamed 1 "alice") false data]

def eveListensInVain : List Action :=
  .connect (clientNamed 2 "bob") :: eveListens (messageTo "bob")

theorem others_messages_hidden_run :
    ∃ b, system.run eveListensInVain = some b ∧
      ∀ actions' b',
        List.Forall₂ (SameForOthers "eve") eveListensInVain actions' →
        system.run actions' = some b' →
        b'.receivedBy "eve" = b.receivedBy "eve" := by
  have hhidden : system.EveryStep (NotDispatchedTo "eve") initial
      eveListensInVain := by
    decide
  exact ⟨_, rfl, (others_messages_hidden_iff rfl "eve").mpr hhidden⟩

theorem eve_reads_message_for_bob :
    ∃ b b', system.run (eveListens (messageTo "bob")) = some b ∧
      system.run (eveListens (messageTo "bob").altered) = some b' ∧
      List.Forall₂ (SameForOthers "eve") (eveListens (messageTo "bob"))
        (eveListens (messageTo "bob").altered) ∧
      b'.receivedBy "eve" ≠ b.receivedBy "eve" := by
  refine ⟨_, _, rfl, rfl, ?_, by decide⟩
  have hothers : ForOthers "eve" (clientNamed 1 "alice") (messageTo "bob") := by
    decide
  exact .cons (.refl _) (.cons (.refl _)
    (.cons (.event _ _ _ _ hothers rfl) .nil))

end Broker

end WebIm.SocketIO
