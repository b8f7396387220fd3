import WebIm.SocketIO.Delivery

/-!
# The most recently accepted session of a client id

`onDisconnect` removes the table entry of the ending session's client id,
whichever session the entry names.  The file settles exactly which runs keep
the most recently accepted session of every client id reachable.
-/

namespace WebIm.SocketIO

open WebIm.Foundation

/--
If the most recently accepted session of a client id is still connected, the
table names it and a message to the client id is delivered to it locally.
-/
def LatestReachable (name : String) (b : Broker) : Prop :=
  ∀ ns clientId, ∀ client ∈ ns.allClients,
    b.server.getNamespace name = some ns →
    b.lastAccepted name clientId = some client.sessionId →
    ns.handler.sessions clientId = some client.sessionId ∧
    ∀ (sender : SocketIOClient) (data : MessageInfo),
      sender.namespaceName = name → data.targetClientId = some clientId →
      ns.handler.sendMsgByP2p b.server sender data =
        ⟨[.sendEvent .sendMsgByP2p [client] data], none⟩

/--
The step runs no `onDisconnect` of a session, superseded or refused, whose
client id has a different most recently accepted session still connected.
-/
def EndsNoSupersededSession (name : String) (b : Broker) (a : Action) : Prop :=
  ∀ ns client clientId, ∀ latest ∈ ns.allClients,
    a = .disconnect client → client.namespaceName = name →
    client.clientId = some clientId →
    b.server.getNamespace name = some ns →
    b.lastAccepted name clientId = some latest.sessionId → latest = client

/-! ## History -/

theorem Broker.noteAccepted_apply (lastAccepted : String → String → Option UUID)
    (server : Server) (client : SocketIOClient) (name clientId : String) :
    noteAccepted lastAccepted server client name clientId =
      if name = client.namespaceName ∧ client.clientId = some clientId ∧
          ∃ ns, server.getNamespace client.namespaceName = some ns ∧
            client ∈ ns.allClients then
        some client.sessionId
      else lastAccepted name clientId := by
  unfold noteAccepted
  cases hid : client.clientId with
  | none => simp
  | some own =>
      cases hget : server.getNamespace client.namespaceName with
      | none => simp
      | some ns =>
          by_cases hmem : client ∈ ns.allClients
          · by_cases hname : name = client.namespaceName
            · subst hname
              by_cases hown : own = clientId
              · simp [hmem, hown]
              · simp [hmem, hown, Ne.symm hown]
            · simp [hmem, hname]
          · simp [hmem]

def LastAcceptedOpened (b : Broker) : Prop :=
  ∀ name clientId uuid, b.lastAccepted name clientId = some uuid →
    ∃ ns, b.server.getNamespace name = some ns ∧ uuid ∈ ns.opened

structure HistoryInvariant (b : Broker) : Prop where
  wellFormed : b.server.WellFormed
  lastOpened : LastAcceptedOpened b

theorem HistoryInvariant.not_fresh {b : Broker} (h : HistoryInvariant b)
    {name clientId : String} {uuid : UUID} {ns : Namespace}
    (hns : b.server.getNamespace name = some ns) (hfresh : uuid ∉ ns.opened) :
    b.lastAccepted name clientId ≠ some uuid := by
  intro hlast
  obtain ⟨found, hfound, hmem⟩ := h.lastOpened name clientId uuid hlast
  rw [hns] at hfound
  cases hfound
  exact hfresh hmem

theorem Namespace.opened_subset_connect {ns ns' : Namespace}
    {client : SocketIOClient}
    (h : ns' = ns.connected client ∨ ns' = ns.refuse client) :
    ns'.opened = client.sessionId :: ns.opened := by
  rcases h with rfl | rfl
  · exact ns.connected_opened client
  · rfl

theorem lastAcceptedOpened_connect {b : Broker} {server : Server}
    {client : SocketIOClient} (h : LastAcceptedOpened b)
    (hconnect : b.server.connect client = some server) :
    LastAcceptedOpened { b with
      server := server
      lastAccepted :=
        Broker.noteAccepted b.lastAccepted server client } := by
  intro name clientId uuid hlast
  simp only [Broker.noteAccepted_apply] at hlast
  obtain ⟨ns, ns', hns, -, hns', hcases⟩ := Server.connect_own hconnect
  have hopened := Namespace.opened_subset_connect hcases
  split at hlast
  · rename_i hown
    obtain ⟨rfl, -, -⟩ := hown
    cases hlast
    exact ⟨ns', hns', by simp [hopened]⟩
  · obtain ⟨found, hfound, hmem⟩ := h name clientId uuid hlast
    by_cases hname : name = client.namespaceName
    · subst hname
      rw [hns] at hfound
      cases hfound
      exact ⟨ns', hns', by simp [hopened, hmem]⟩
    · rcases Server.connect_other hconnect hname with hsame | ⟨hnone, -⟩
      · exact ⟨found, hsame.trans hfound, hmem⟩
      · rw [hnone] at hfound
        cases hfound

theorem lastAcceptedOpened_disconnect {b : Broker} {server : Server}
    {client : SocketIOClient} (h : LastAcceptedOpened b)
    (hdisconnect : b.server.disconnect client = some server) :
    LastAcceptedOpened { b with server := server } := by
  intro name clientId uuid hlast
  obtain ⟨found, hfound, hmem⟩ := h name clientId uuid hlast
  obtain ⟨ns, hns, -, hns'⟩ := Server.disconnect_own hdisconnect
  by_cases hname : name = client.namespaceName
  · subst hname
    rw [hns] at hfound
    cases hfound
    exact ⟨_, hns', by rwa [Namespace.close_opened]⟩
  · exact ⟨found,
      (Server.disconnect_other hdisconnect hname).trans hfound, hmem⟩

theorem historyInvariant_step (b : Broker) (a : Action) (b' : Broker)
    (h : HistoryInvariant b) (hstep : b.step a = some b') :
    HistoryInvariant b' := by
  refine ⟨Broker.step_wellFormed b a b' h.wellFormed hstep, ?_⟩
  cases a with
  | connect client =>
      obtain ⟨server, hserver, rfl⟩ := Option.map_eq_some_iff.mp hstep
      exact lastAcceptedOpened_connect h.lastOpened hserver
  | disconnect client =>
      obtain ⟨server, hserver, rfl⟩ := Option.map_eq_some_iff.mp hstep
      exact lastAcceptedOpened_disconnect h.lastOpened hserver
  | event client ackRequested data =>
      obtain ⟨reply, -, rfl⟩ := Option.map_eq_some_iff.mp hstep
      exact h.lastOpened
  | clientDispatch client ackRequested data =>
      obtain ⟨reply, -, rfl⟩ := Option.map_eq_some_iff.mp hstep
      exact h.lastOpened

theorem historyInvariant_initial : HistoryInvariant Broker.initial :=
  ⟨Server.wellFormed_initial, by
    intro name clientId uuid hlast
    cases hlast⟩

/-! ## The table half of the property -/

def LatestInTable (name : String) (b : Broker) : Prop :=
  ∀ ns clientId, ∀ client ∈ ns.allClients,
    b.server.getNamespace name = some ns →
    b.lastAccepted name clientId = some client.sessionId →
    ns.handler.sessions clientId = some client.sessionId

theorem latestReachable_iff {b : Broker} (h : b.server.WellFormed)
    (name : String) : LatestReachable name b ↔ LatestInTable name b := by
  constructor
  · intro hreach ns clientId client hmem hns hlast
    exact (hreach ns clientId client hmem hns hlast).1
  · intro htable ns clientId client hmem hns hlast
    have hget := htable ns clientId client hmem hns hlast
    refine ⟨hget, ?_⟩
    rintro sender data rfl htarget
    exact BaseAbstractHandler.sendMsgByP2p_local hns htarget hget
      ((h _ ns hns).getClient hmem)

theorem latestInTable_connect {b : Broker} {server : Server}
    {client : SocketIOClient} {name : String} (h : HistoryInvariant b)
    (htable : LatestInTable name b)
    (hconnect : b.server.connect client = some server) :
    LatestInTable name { b with
      server := server
      lastAccepted :=
        Broker.noteAccepted b.lastAccepted server client } := by
  intro found clientId other hmem hfound hlast
  simp only [Broker.noteAccepted_apply] at hfound hlast
  by_cases hname : name = client.namespaceName
  · subst hname
    obtain ⟨ns, ns', hns, hfresh, hns', hcases⟩ :=
      Server.connect_own hconnect
    rw [hns', Option.some.injEq] at hfound
    subst hfound
    rcases hcases with rfl | rfl
    · rw [Namespace.connected_sessions]
      by_cases hown : client.clientId = some clientId
      · have haccepted : ∃ ns'', server.getNamespace client.namespaceName =
            some ns'' ∧ client ∈ ns''.allClients :=
          ⟨_, hns', by simp [Namespace.connected_allClients]⟩
        simp only [true_and, hown, haccepted, if_true] at hlast ⊢
        exact hlast
      · simp only [hown, false_and, and_false, if_false] at hlast ⊢
        rw [Namespace.connected_allClients, List.mem_append,
          List.mem_singleton] at hmem
        rcases hmem with hmem | rfl
        · exact htable ns clientId other hmem hns hlast
        · exact absurd hlast (h.not_fresh hns hfresh)
    · -- a refused client is not connected, so the record is the old one
      rw [(h.wellFormed _ _ hns).refuse_eq hfresh] at hmem hns' ⊢
      have hnot : ¬∃ ns'', server.getNamespace client.namespaceName =
          some ns'' ∧ client ∈ ns''.allClients := by
        rintro ⟨ns'', hget, hin⟩
        rw [hns', Option.some.injEq] at hget
        subst hget
        exact hfresh ((h.wellFormed _ _ hns).opened client
          (Namespace.mem_live_of_allClients hin))
      simp only [hnot, and_false, if_false] at hlast
      exact htable ns clientId other hmem hns hlast
  · simp only [hname, false_and, if_false] at hlast
    rcases Server.connect_other hconnect hname with hsame | ⟨-, hnew⟩
    · exact htable found clientId other hmem (hsame.symm.trans hfound) hlast
    · rw [hnew, Option.some.injEq] at hfound
      subst hfound
      cases hmem

theorem latestInTable_disconnect {b : Broker} {server : Server}
    {client : SocketIOClient} {name : String}
    (htable : LatestInTable name b)
    (hdisconnect : b.server.disconnect client = some server) :
    LatestInTable name { b with server := server } ↔
      EndsNoSupersededSession name b (.disconnect client) := by
  by_cases hname : name = client.namespaceName
  · subst hname
    obtain ⟨ns, hns, -, hns'⟩ := Server.disconnect_own hdisconnect
    constructor
    · rintro hafter found ended clientId latest hmem haction - hid hfound hlast
      cases haction
      rw [hns] at hfound
      cases hfound
      by_contra hne
      have hstays : latest ∈ (ns.close client).allClients := by
        rw [Namespace.close_allClients, List.mem_filter]
        exact ⟨hmem, by simpa using hne⟩
      have hentry := hafter _ clientId latest hstays hns' hlast
      simp [Namespace.close_sessions, hid] at hentry
    · intro hends found clientId other hmem hfound hlast
      simp only at hfound hlast
      rw [hns', Option.some.injEq] at hfound
      subst hfound
      rw [Namespace.close_allClients, List.mem_filter] at hmem
      rw [Namespace.close_sessions]
      split
      · rename_i hid
        have heq := hends ns client clientId other hmem.1 rfl rfl hid hns hlast
        simp [heq] at hmem
      · exact htable ns clientId other hmem.1 hns hlast
  · have hsame := Server.disconnect_other hdisconnect hname
    constructor
    · rintro - found ended clientId latest - haction rfl
      cases haction
      exact absurd rfl hname
    · rintro - found clientId other hmem hfound hlast
      exact htable found clientId other hmem (hsame.symm.trans hfound) hlast

theorem endsNoSupersededSession_of_ne (name : String) (b : Broker) {a : Action}
    (h : ∀ client, a ≠ .disconnect client) :
    EndsNoSupersededSession name b a :=
  fun _ client _ _ _ haction => absurd haction (h client)

theorem latestReachable_step_iff (name : String) (b : Broker) (a : Action)
    (b' : Broker) (h : HistoryInvariant b) (hreach : LatestReachable name b)
    (hstep : b.step a = some b') :
    LatestReachable name b' ↔ EndsNoSupersededSession name b a := by
  have hwf' := Broker.step_wellFormed b a b' h.wellFormed hstep
  rw [latestReachable_iff hwf']
  rw [latestReachable_iff h.wellFormed] at hreach
  cases a with
  | connect client =>
      obtain ⟨server, hserver, rfl⟩ := Option.map_eq_some_iff.mp hstep
      exact iff_of_true (latestInTable_connect h hreach hserver)
        (endsNoSupersededSession_of_ne name b (by simp))
  | disconnect client =>
      obtain ⟨server, hserver, rfl⟩ := Option.map_eq_some_iff.mp hstep
      exact latestInTable_disconnect hreach hserver
  | event client ackRequested data =>
      obtain ⟨reply, -, rfl⟩ := Option.map_eq_some_iff.mp hstep
      exact iff_of_true hreach (endsNoSupersededSession_of_ne name b (by simp))
  | clientDispatch client ackRequested data =>
      obtain ⟨reply, -, rfl⟩ := Option.map_eq_some_iff.mp hstep
      exact iff_of_true hreach (endsNoSupersededSession_of_ne name b (by simp))

/--
A run keeps the latest sessions of a namespace reachable in every state
exactly when none of its disconnect callbacks ends a superseded or refused
session while the latest one is connected.
-/
theorem latest_session_reachable_iff (name : String) (actions : List Action) :
    Broker.system.Throughout (LatestReachable name) .initial actions ↔
      Broker.system.EveryStep (EndsNoSupersededSession name) .initial
        actions := by
  apply TransitionSystem.throughout_iff_everyStep
    (I := HistoryInvariant) historyInvariant_step
    (latestReachable_step_iff name) actions historyInvariant_initial
  intro ns clientId client _ _ hlast
  cases hlast

def reconnectThenTimeout : List Action :=
  [.connect (clientNamed 1 "alice"), .connect (clientNamed 2 "alice"),
    .disconnect (clientNamed 1 "alice")]

theorem latest_session_lost :
    ¬Broker.system.Throughout (LatestReachable defaultName) .initial
      reconnectThenTimeout := by
  intro hall
  have hlast := hall.last (t := _) rfl
  have hentry := (hlast _ "alice" (clientNamed 2 "alice") (by decide) rfl
    rfl).1
  exact absurd hentry (by decide)

end WebIm.SocketIO
