import Mathlib.Data.List.Nodup
import WebIm.SocketIO.Broker

/-!
# The invariant of the session tables

Every entry of a handler's table names a client that is connected in the
handler's own namespace under that client id.  Accepting, refusing and closing
a connection are named here as operations on one namespace, `connect_cases`
and `disconnect_cases` say that the callbacks do nothing else, and the
invariant is carried through the three operations.
-/

namespace WebIm.SocketIO

open WebIm.Foundation

/-! ## Rooms -/

namespace BaseAbstractHandler

theorem joinRoom_eq (ns : Namespace) (client : SocketIOClient) :
    joinRoom ns client =
      { ns with roomClients := (joinRoom ns client).roomClients } := by
  unfold joinRoom
  split
  · rfl
  · split <;> rfl

@[simp] theorem joinRoom_opened (ns : Namespace) (client : SocketIOClient) :
    (joinRoom ns client).opened = ns.opened := by
  rw [joinRoom_eq]

@[simp] theorem joinRoom_allClients (ns : Namespace) (client : SocketIOClient) :
    (joinRoom ns client).allClients = ns.allClients := by
  rw [joinRoom_eq]

@[simp] theorem joinRoom_closing (ns : Namespace) (client : SocketIOClient) :
    (joinRoom ns client).closing = ns.closing := by
  rw [joinRoom_eq]

@[simp] theorem joinRoom_handler (ns : Namespace) (client : SocketIOClient) :
    (joinRoom ns client).handler = ns.handler := by
  rw [joinRoom_eq]

theorem mem_joinRoom (ns : Namespace) (client : SocketIOClient)
    (room : String) (uuid : UUID) :
    (room, uuid) ∈ (joinRoom ns client).roomClients ↔
      (room, uuid) ∈ ns.roomClients ∨
        client.room = some room ∧ room ≠ "" ∧ uuid = client.sessionId := by
  unfold joinRoom
  cases hroom : client.room with
  | none => simp
  | some own =>
      by_cases hempty : own = ""
      · simp only [hempty, if_true]
        constructor
        · exact Or.inl
        · rintro (h | ⟨h, hne, -⟩)
          · exact h
          · exact absurd (Option.some.inj h).symm hne
      · simp only [hempty, if_false, Namespace.join, List.mem_append,
          List.mem_singleton, Prod.mk.injEq, Option.some.injEq]
        constructor
        · rintro (h | ⟨rfl, rfl⟩)
          · exact Or.inl h
          · exact Or.inr ⟨rfl, hempty, rfl⟩
        · rintro (h | ⟨rfl, -, rfl⟩)
          · exact Or.inl h
          · exact Or.inr ⟨rfl, rfl⟩

theorem leaveRoom_eq (ns : Namespace) (client : SocketIOClient) :
    leaveRoom ns client =
      { ns with roomClients := (leaveRoom ns client).roomClients } := by
  unfold leaveRoom
  split
  · rfl
  · split <;> rfl

theorem leaveRoom_removeClient (ns : Namespace) (client : SocketIOClient)
    (handler : BaseAbstractHandler) :
    (leaveRoom { ns.removeClient client with handler := handler }
      client).roomClients = (ns.removeClient client).roomClients := by
  unfold leaveRoom
  split
  · rfl
  · split
    · rfl
    · simp only [Namespace.leave, Namespace.removeClient, List.filter_filter]
      apply List.filter_congr
      intro entry _
      by_cases h : entry.2 = client.sessionId
      · simp [h]
      · simp only [ne_eq, h, not_false_eq_true, decide_true, Bool.and_true,
          decide_eq_true_eq]
        rintro rfl
        exact h rfl

end BaseAbstractHandler

/-! ## What the callbacks do to a namespace -/

namespace Namespace

def accept (ns : Namespace) (client : SocketIOClient) (clientId : String) :
    Namespace :=
  BaseAbstractHandler.joinRoom
    { ns.addClient client with
      handler := ns.handler.put clientId client.sessionId } client

def refuse (ns : Namespace) (client : SocketIOClient) : Namespace :=
  (ns.addClient client).disconnect client

/-- The client's end: dropped by the transport, then `onDisconnect`. -/
def close (ns : Namespace) (client : SocketIOClient) : Namespace :=
  (BaseAbstractHandler.onDisconnect (ns.removeClient client) client).1

end Namespace

theorem BaseAbstractHandler.onConnect_addClient (ns : Namespace)
    (client : SocketIOClient) :
    (BaseAbstractHandler.onConnect (ns.addClient client) client).1 =
      match client.clientId with
      | none => ns.addClient client
      | some clientId => ns.accept client clientId := by
  unfold BaseAbstractHandler.onConnect BaseAbstractHandler.saveSession
  cases client.clientId <;> rfl

theorem BaseAbstractHandler.addNs_cases (server : Server)
    (client : SocketIOClient) :
    BaseAbstractHandler.addNs server client = (server, false) ∨
      ∃ ns, client.ns = some ns ∧ server.getNamespace ("/" ++ ns) = none ∧
        BaseAbstractHandler.addNs server client =
          (server.setNamespace ("/" ++ ns) (.new .new), true) := by
  unfold BaseAbstractHandler.addNs
  cases client.ns with
  | none => exact Or.inl rfl
  | some ns =>
      by_cases hname : client.namespaceName ≠ ns
      · by_cases hempty : ns ≠ ""
        · cases hget : server.getNamespace ("/" ++ ns) with
          | none => exact Or.inr ⟨ns, rfl, hget, by simp [hname, hempty, hget]⟩
          | some found => exact Or.inl (by simp [hname, hempty, hget])
        · exact Or.inl (by simp [hempty])
      · exact Or.inl (by simp [hname])

def Namespace.connected (ns : Namespace) (client : SocketIOClient) : Namespace :=
  match client.clientId with
  | none => ns.addClient client
  | some clientId => ns.accept client clientId

theorem Server.connect_cases {server server' : Server} {client : SocketIOClient}
    (h : server.connect client = some server') :
    ∃ ns, server.getNamespace client.namespaceName = some ns ∧
      client.sessionId ∉ ns.opened ∧
      (server' = server.setNamespace client.namespaceName (ns.connected client) ∨
        ∃ created, client.namespaceName = defaultName ∧
          server.getNamespace ("/" ++ created) = none ∧
          server' = (server.setNamespace ("/" ++ created) (.new .new)).setNamespace
            client.namespaceName (ns.refuse client)) := by
  unfold Server.connect at h
  cases hget : server.getNamespace client.namespaceName with
  | none => simp [hget] at h
  | some ns =>
      simp only [hget] at h
      split at h
      · cases h
      rename_i hfresh
      cases h
      refine ⟨ns, rfl, hfresh, ?_⟩
      unfold Server.onConnect
      by_cases hdefault : client.namespaceName = defaultName
      · rw [if_pos hdefault]
        unfold MessageEventHandler.onConnect
        rcases BaseAbstractHandler.addNs_cases server client with
          haddNs | ⟨created, -, hnone, haddNs⟩
        · left
          simp [haddNs, BaseAbstractHandler.onConnect_addClient,
            Namespace.connected]
        · right
          refine ⟨created, hdefault, hnone, ?_⟩
          simp [haddNs, Namespace.refuse]
      · left
        rw [if_neg hdefault]
        simp [NamespaceHandler.onConnect,
          BaseAbstractHandler.onConnect_addClient, Namespace.connected]

theorem Server.disconnect_cases {server server' : Server}
    {client : SocketIOClient} (h : server.disconnect client = some server') :
    ∃ ns, server.getNamespace client.namespaceName = some ns ∧
      (client ∈ ns.allClients ∨ client ∈ ns.closing) ∧
      server' = server.setNamespace client.namespaceName (ns.close client) := by
  unfold Server.disconnect at h
  cases hget : server.getNamespace client.namespaceName with
  | none => simp [hget] at h
  | some ns =>
      simp only [hget] at h
      split at h
      · rename_i hlive
        cases h
        exact ⟨ns, rfl, hlive, rfl⟩
      · cases h

theorem Server.connect_own {server server' : Server} {client : SocketIOClient}
    (h : server.connect client = some server') :
    ∃ ns ns', server.getNamespace client.namespaceName = some ns ∧
      client.sessionId ∉ ns.opened ∧
      server'.getNamespace client.namespaceName = some ns' ∧
      (ns' = ns.connected client ∨ ns' = ns.refuse client) := by
  obtain ⟨ns, hget, hfresh, rfl | ⟨created, -, -, rfl⟩⟩ := connect_cases h
  · exact ⟨ns, _, hget, hfresh, by simp, Or.inl rfl⟩
  · exact ⟨ns, _, hget, hfresh, by simp, Or.inr rfl⟩

theorem Server.connect_other {server server' : Server} {client : SocketIOClient}
    {name : String} (h : server.connect client = some server')
    (hname : name ≠ client.namespaceName) :
    server'.getNamespace name = server.getNamespace name ∨
      server.getNamespace name = none ∧
        server'.getNamespace name = some (.new .new) := by
  obtain ⟨ns, -, -, rfl | ⟨created, -, hnone, rfl⟩⟩ := connect_cases h
  · exact Or.inl (getNamespace_setNamespace_ne _ _ hname)
  · rw [getNamespace_setNamespace_ne _ _ hname]
    by_cases hcreated : name = "/" ++ created
    · subst hcreated
      exact Or.inr ⟨hnone, getNamespace_setNamespace_self _ _ _⟩
    · exact Or.inl (getNamespace_setNamespace_ne _ _ hcreated)

theorem Server.disconnect_own {server server' : Server}
    {client : SocketIOClient} (h : server.disconnect client = some server') :
    ∃ ns, server.getNamespace client.namespaceName = some ns ∧
      (client ∈ ns.allClients ∨ client ∈ ns.closing) ∧
      server'.getNamespace client.namespaceName = some (ns.close client) := by
  obtain ⟨ns, hget, hlive, rfl⟩ := disconnect_cases h
  exact ⟨ns, hget, hlive, by simp⟩

theorem Server.disconnect_other {server server' : Server}
    {client : SocketIOClient} {name : String}
    (h : server.disconnect client = some server')
    (hname : name ≠ client.namespaceName) :
    server'.getNamespace name = server.getNamespace name := by
  obtain ⟨ns, -, -, rfl⟩ := disconnect_cases h
  exact getNamespace_setNamespace_ne _ _ hname

/-! ## Fields of the three operations -/

namespace Namespace

theorem connected_allClients (ns : Namespace) (client : SocketIOClient) :
    (ns.connected client).allClients = ns.allClients ++ [client] := by
  unfold connected
  cases client.clientId <;> simp [accept, addClient]

theorem connected_opened (ns : Namespace) (client : SocketIOClient) :
    (ns.connected client).opened = client.sessionId :: ns.opened := by
  unfold connected
  cases client.clientId <;> simp [accept, addClient]

theorem connected_closing (ns : Namespace) (client : SocketIOClient) :
    (ns.connected client).closing = ns.closing := by
  unfold connected
  cases client.clientId <;> simp [accept, addClient]

theorem connected_sessions (ns : Namespace) (client : SocketIOClient)
    (clientId : String) :
    (ns.connected client).handler.sessions clientId =
      if client.clientId = some clientId then some client.sessionId
      else ns.handler.sessions clientId := by
  unfold connected
  cases hid : client.clientId with
  | none => simp [addClient]
  | some own =>
      by_cases h : own = clientId
      · simp [accept, BaseAbstractHandler.put, h]
      · simp [accept, BaseAbstractHandler.put, h, Ne.symm h]

theorem mem_connected_roomClients (ns : Namespace) (client : SocketIOClient)
    (room : String) (uuid : UUID) :
    (room, uuid) ∈ (ns.connected client).roomClients ↔
      (room, uuid) ∈ ns.roomClients ∨
        client.clientId ≠ none ∧ client.room = some room ∧ room ≠ "" ∧
          uuid = client.sessionId := by
  unfold connected
  cases client.clientId with
  | none => simp [addClient]
  | some own =>
      simp [accept, BaseAbstractHandler.mem_joinRoom, addClient]

/-- The table entry goes by client id, whichever session ends. -/
theorem close_eq (ns : Namespace) (client : SocketIOClient) :
    ns.close client =
      { ns.removeClient client with
        handler := client.clientId.elim ns.handler ns.handler.remove } := by
  unfold close BaseAbstractHandler.onDisconnect
  cases client.clientId with
  | none => rfl
  | some own =>
      simp only
      rw [BaseAbstractHandler.leaveRoom_eq,
        BaseAbstractHandler.leaveRoom_removeClient]
      rfl

theorem close_opened (ns : Namespace) (client : SocketIOClient) :
    (ns.close client).opened = ns.opened := by
  rw [close_eq]
  rfl

theorem close_allClients (ns : Namespace) (client : SocketIOClient) :
    (ns.close client).allClients = ns.allClients.filter (· ≠ client) := by
  rw [close_eq]
  rfl

theorem close_closing (ns : Namespace) (client : SocketIOClient) :
    (ns.close client).closing = ns.closing.filter (· ≠ client) := by
  rw [close_eq]
  rfl

theorem close_roomClients (ns : Namespace) (client : SocketIOClient) :
    (ns.close client).roomClients =
      ns.roomClients.filter (·.2 ≠ client.sessionId) := by
  rw [close_eq]
  rfl

theorem close_sessions (ns : Namespace) (client : SocketIOClient)
    (clientId : String) :
    (ns.close client).handler.sessions clientId =
      if client.clientId = some clientId then none
      else ns.handler.sessions clientId := by
  rw [close_eq]
  cases client.clientId with
  | none => simp
  | some own =>
      by_cases h : own = clientId
      · simp [BaseAbstractHandler.remove, h]
      · simp [BaseAbstractHandler.remove, h, Ne.symm h]

end Namespace

/-! ## Well-formed namespaces -/

namespace Namespace

/-- The clients that have had their `onConnect` and not yet their `onDisconnect`. -/
def live (ns : Namespace) : List SocketIOClient := ns.allClients ++ ns.closing

structure WellFormed (name : String) (ns : Namespace) : Prop where
  named : ∀ client ∈ ns.live, client.namespaceName = name
  opened : ∀ client ∈ ns.live, client.sessionId ∈ ns.opened
  distinct : (ns.live.map SocketIOClient.sessionId).Nodup
  sessions : ∀ clientId uuid, ns.handler.sessions clientId = some uuid →
    ∃ client ∈ ns.allClients,
      client.sessionId = uuid ∧ client.clientId = some clientId
  rooms : ∀ client ∈ ns.allClients, ∀ room,
    (room, client.sessionId) ∈ ns.roomClients ↔
      client.clientId ≠ none ∧ client.room = some room ∧ room ≠ ""
  roomsOpened : ∀ room uuid, (room, uuid) ∈ ns.roomClients → uuid ∈ ns.opened

variable {name : String} {ns : Namespace} {client : SocketIOClient}

theorem wellFormed_new (name : String) :
    (Namespace.new .new).WellFormed name where
  named := by simp [Namespace.new, live]
  opened := by simp [Namespace.new, live]
  distinct := by simp [Namespace.new, live]
  sessions := by simp [Namespace.new, BaseAbstractHandler.new]
  rooms := by simp [Namespace.new]
  roomsOpened := by simp [Namespace.new]

theorem mem_live_of_allClients (h : client ∈ ns.allClients) :
    client ∈ ns.live :=
  List.mem_append_left _ h

theorem WellFormed.eq_of_sessionId (h : ns.WellFormed name)
    {first second : SocketIOClient} (hfirst : first ∈ ns.live)
    (hsecond : second ∈ ns.live) (heq : first.sessionId = second.sessionId) :
    first = second :=
  List.inj_on_of_nodup_map h.distinct hfirst hsecond heq

theorem WellFormed.getClient (h : ns.WellFormed name)
    (hclient : client ∈ ns.allClients) :
    ns.getClient client.sessionId = some client := by
  unfold Namespace.getClient
  cases hfind : ns.allClients.find? (fun other =>
      other.sessionId = client.sessionId) with
  | none =>
      have := List.find?_eq_none.mp hfind client hclient
      simp at this
  | some found =>
      have hmem := List.mem_of_find?_eq_some hfind
      have heq : found.sessionId = client.sessionId := by
        simpa using List.find?_some hfind
      rw [h.eq_of_sessionId (mem_live_of_allClients hmem)
        (mem_live_of_allClients hclient) heq]

theorem connected_live (ns : Namespace) (client : SocketIOClient) :
    (ns.connected client).live.Perm (client :: ns.live) := by
  unfold live
  rw [connected_allClients, connected_closing]
  simp

theorem WellFormed.distinct_cons (h : ns.WellFormed name)
    (hfresh : client.sessionId ∉ ns.opened) :
    ((client :: ns.live).map SocketIOClient.sessionId).Nodup := by
  rw [List.map_cons, List.nodup_cons]
  refine ⟨?_, h.distinct⟩
  rw [List.mem_map]
  rintro ⟨other, hother, heq⟩
  exact hfresh (heq ▸ h.opened other hother)

theorem WellFormed.connected (h : ns.WellFormed client.namespaceName)
    (hfresh : client.sessionId ∉ ns.opened) :
    (ns.connected client).WellFormed client.namespaceName where
  named := by
    intro other hother
    rw [(connected_live ns client).mem_iff, List.mem_cons] at hother
    rcases hother with rfl | hother
    · rfl
    · exact h.named other hother
  opened := by
    intro other hother
    rw [(connected_live ns client).mem_iff, List.mem_cons] at hother
    rw [connected_opened, List.mem_cons]
    rcases hother with rfl | hother
    · exact Or.inl rfl
    · exact Or.inr (h.opened other hother)
  distinct := by
    rw [((connected_live ns client).map _).nodup_iff]
    exact h.distinct_cons hfresh
  sessions := by
    intro clientId uuid hget
    rw [connected_sessions] at hget
    rw [connected_allClients]
    split at hget
    · rename_i hown
      exact ⟨client, by simp, Option.some.inj hget, hown⟩
    · obtain ⟨other, hother, hrest⟩ := h.sessions clientId uuid hget
      exact ⟨other, List.mem_append_left _ hother, hrest⟩
  rooms := by
    intro other hother room
    rw [connected_allClients, List.mem_append, List.mem_singleton] at hother
    rw [mem_connected_roomClients]
    rcases hother with hother | rfl
    · have hne : other.sessionId ≠ client.sessionId := by
        intro heq
        exact hfresh (heq ▸ h.opened other (mem_live_of_allClients hother))
      simp [h.rooms other hother room, hne]
    · have hnot : (room, other.sessionId) ∉ ns.roomClients := by
        intro hmem
        exact hfresh (h.roomsOpened _ _ hmem)
      simp [hnot]
  roomsOpened := by
    intro room uuid hmem
    rw [mem_connected_roomClients] at hmem
    rw [connected_opened, List.mem_cons]
    rcases hmem with hmem | ⟨-, -, -, rfl⟩
    · exact Or.inr (h.roomsOpened room uuid hmem)
    · exact Or.inl rfl

theorem WellFormed.refuse_eq (h : ns.WellFormed name)
    (hfresh : client.sessionId ∉ ns.opened) :
    ns.refuse client =
      { ns with
        opened := client.sessionId :: ns.opened
        closing := ns.closing ++ [client] } := by
  have hall : ∀ other ∈ ns.live, other ≠ client := by
    rintro other hother rfl
    exact hfresh (h.opened other hother)
  have hclients : ns.allClients.filter (· ≠ client) = ns.allClients := by
    rw [List.filter_eq_self]
    intro other hother
    simpa using hall other (mem_live_of_allClients hother)
  have hclosing : ns.closing.filter (· ≠ client) = ns.closing := by
    rw [List.filter_eq_self]
    intro other hother
    simpa using hall other (List.mem_append_right _ hother)
  have hrooms : ns.roomClients.filter (·.2 ≠ client.sessionId) =
      ns.roomClients := by
    rw [List.filter_eq_self]
    rintro ⟨room, uuid⟩ hmem
    simp only [ne_eq, decide_not, Bool.not_eq_eq_eq_not, Bool.not_true,
      decide_eq_false_iff_not]
    rintro rfl
    exact hfresh (h.roomsOpened room _ hmem)
  unfold refuse disconnect removeClient addClient
  simp only [List.filter_append, hclients, hclosing, hrooms]
  simp

theorem WellFormed.refuse (h : ns.WellFormed client.namespaceName)
    (hfresh : client.sessionId ∉ ns.opened) :
    (ns.refuse client).WellFormed client.namespaceName := by
  have hmem : ∀ other, other ∈ (ns.refuse client).live ↔
      other ∈ ns.live ∨ other = client := by
    intro other
    rw [h.refuse_eq hfresh]
    simp [live, or_assoc]
  constructor
  · intro other hother
    rcases (hmem other).mp hother with hother | rfl
    · exact h.named other hother
    · rfl
  · intro other hother
    rw [h.refuse_eq hfresh]
    rcases (hmem other).mp hother with hother | rfl
    · exact List.mem_cons_of_mem _ (h.opened other hother)
    · exact List.mem_cons_self
  · have hlive : (ns.refuse client).live.Perm (client :: ns.live) := by
      rw [h.refuse_eq hfresh]
      simpa [live] using List.perm_append_singleton client ns.live
    rw [(hlive.map _).nodup_iff]
    exact h.distinct_cons hfresh
  · rw [h.refuse_eq hfresh]
    exact h.sessions
  · rw [h.refuse_eq hfresh]
    exact h.rooms
  · rw [h.refuse_eq hfresh]
    intro room uuid hroom
    exact List.mem_cons_of_mem _ (h.roomsOpened room uuid hroom)

theorem close_live (ns : Namespace) (client : SocketIOClient) :
    (ns.close client).live = ns.live.filter (· ≠ client) := by
  unfold live
  rw [close_allClients, close_closing, List.filter_append]

theorem WellFormed.close (h : ns.WellFormed name) (hlive : client ∈ ns.live) :
    (ns.close client).WellFormed name where
  named := by
    intro other hother
    rw [close_live] at hother
    exact h.named other (List.mem_of_mem_filter hother)
  opened := by
    intro other hother
    rw [close_live] at hother
    rw [close_opened]
    exact h.opened other (List.mem_of_mem_filter hother)
  distinct := by
    rw [close_live]
    exact h.distinct.sublist (List.filter_sublist.map _)
  sessions := by
    intro clientId uuid hget
    rw [close_sessions] at hget
    split at hget
    · cases hget
    rename_i hother
    obtain ⟨owner, howner, hid, hclientId⟩ := h.sessions clientId uuid hget
    refine ⟨owner, ?_, hid, hclientId⟩
    rw [close_allClients, List.mem_filter]
    refine ⟨howner, ?_⟩
    -- the entry that stays has another client id, so another session owns it
    simp only [ne_eq, decide_not, Bool.not_eq_eq_eq_not, Bool.not_true,
      decide_eq_false_iff_not]
    rintro rfl
    exact hother hclientId
  rooms := by
    intro other hother room
    rw [close_allClients, List.mem_filter] at hother
    have hne : other.sessionId ≠ client.sessionId := by
      intro heq
      have := h.eq_of_sessionId (mem_live_of_allClients hother.1) hlive heq
      simp [this] at hother
    rw [close_roomClients, List.mem_filter, h.rooms other hother.1 room]
    simp [hne]
  roomsOpened := by
    intro room uuid hmem
    rw [close_roomClients] at hmem
    rw [close_opened]
    exact h.roomsOpened room uuid (List.mem_of_mem_filter hmem)

end Namespace

/-! ## Every reachable server is well-formed -/

namespace Server

def WellFormed (server : Server) : Prop :=
  ∀ name ns, server.getNamespace name = some ns → ns.WellFormed name

theorem wellFormed_initial : Server.initial.WellFormed := by
  intro name ns hget
  by_cases h : name = defaultName
  · subst h
    simp only [getNamespace, initial, Function.update_self,
      Option.some.injEq] at hget
    subst hget
    exact Namespace.wellFormed_new _
  · simp [getNamespace, initial, h] at hget

theorem WellFormed.setNamespace {server : Server} (h : server.WellFormed)
    {name : String} {ns : Namespace} (hns : ns.WellFormed name) :
    (server.setNamespace name ns).WellFormed := by
  intro other found hget
  by_cases heq : other = name
  · subst heq
    rw [getNamespace_setNamespace_self, Option.some.injEq] at hget
    exact hget ▸ hns
  · rw [getNamespace_setNamespace_ne server ns heq] at hget
    exact h other found hget

theorem WellFormed.connect {server server' : Server} {client : SocketIOClient}
    (h : server.WellFormed) (hconnect : server.connect client = some server') :
    server'.WellFormed := by
  obtain ⟨ns, hget, hfresh, hresult⟩ := connect_cases hconnect
  have hns := h _ _ hget
  rcases hresult with rfl | ⟨created, -, -, rfl⟩
  · exact h.setNamespace (hns.connected hfresh)
  · exact (h.setNamespace (Namespace.wellFormed_new _)).setNamespace
      (hns.refuse hfresh)

theorem WellFormed.disconnect {server server' : Server}
    {client : SocketIOClient} (h : server.WellFormed)
    (hdisconnect : server.disconnect client = some server') :
    server'.WellFormed := by
  obtain ⟨ns, hget, hlive, rfl⟩ := disconnect_cases hdisconnect
  exact h.setNamespace ((h _ _ hget).close (List.mem_append.mpr hlive))

end Server

namespace Broker

theorem step_wellFormed (b : Broker) (a : Action) (b' : Broker)
    (h : b.server.WellFormed) (hstep : b.step a = some b') :
    b'.server.WellFormed := by
  cases a with
  | connect client =>
      obtain ⟨server, hserver, rfl⟩ := Option.map_eq_some_iff.mp hstep
      exact h.connect hserver
  | disconnect client =>
      obtain ⟨server, hserver, rfl⟩ := Option.map_eq_some_iff.mp hstep
      exact h.disconnect hserver
  | event client ackRequested data =>
      obtain ⟨reply, -, rfl⟩ := Option.map_eq_some_iff.mp hstep
      exact h
  | clientDispatch client ackRequested data =>
      obtain ⟨reply, -, rfl⟩ := Option.map_eq_some_iff.mp hstep
      exact h

theorem reachable_wellFormed {b : Broker} (h : Broker.system.Reachable b) :
    b.server.WellFormed :=
  TransitionSystem.Reachable.invariant
    (P := fun b : Broker => b.server.WellFormed)
    Server.wellFormed_initial step_wellFormed h

end Broker

end WebIm.SocketIO
