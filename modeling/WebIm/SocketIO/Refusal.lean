import WebIm.SocketIO.NamespaceRace
import WebIm.SocketIO.SessionTable

/-!
# A connection that is refused

Both `onConnect` methods carry the annotation, so the transport may call the
overriding one several times for one client.  The first call creates the
namespace and refuses the client; a later one finds the namespace and accepts
it.  `onDisconnect` does not know that the client was refused.
-/

namespace WebIm.SocketIO

open WebIm.Foundation

namespace Refusal

inductive Callback where
  | onConnect
  | onDisconnect
  deriving DecidableEq, Repr

def call (client : SocketIOClient) (server : Server) (callback : Callback) :
    Server :=
  match server.getNamespace client.namespaceName with
  | none => server
  | some ns =>
      match callback with
      | .onConnect => (MessageEventHandler.onConnect server ns client).1
      | .onDisconnect =>
          server.setNamespace client.namespaceName (ns.close client)

def system (server : Server) (client : SocketIOClient) :
    TransitionSystem Server Callback :=
  ⟨server, fun s callback => some (call client s callback)⟩

def laterCalls (before after : Nat) : List Callback :=
  List.replicate before .onConnect ++
    .onDisconnect :: List.replicate after .onConnect

/-- A client of the default namespace that no table and no room knows yet. -/
structure Arriving (server : Server) (ns : Namespace)
    (client : SocketIOClient) : Prop where
  toDefault : client.namespaceName = defaultName
  own : server.getNamespace defaultName = some ns
  inNoTable : ∀ clientId, ns.handler.sessions clientId ≠ some client.sessionId
  inNoRoom : ∀ room, (room, client.sessionId) ∉ ns.roomClients

structure Untouched (server : Server) (ns : Namespace) (created : String)
    (server' : Server) : Prop where
  added : server'.getNamespace created = some (.new .new)
  others : ∀ name, name ≠ defaultName → name ≠ created →
    server'.getNamespace name = server.getNamespace name
  own : ∃ ns', server'.getNamespace defaultName = some ns' ∧
    ns'.handler.sessions = ns.handler.sessions ∧
    ∀ room uuid, (room, uuid) ∈ ns'.roomClients ↔ (room, uuid) ∈ ns.roomClients

/-! ## Connections of a reachable broker -/

theorem arriving_of_reachable {b : Broker} (hb : Broker.system.Reachable b)
    {client : SocketIOClient} (hname : client.namespaceName = defaultName)
    {ns : Namespace} (hget : b.server.getNamespace defaultName = some ns)
    (hfresh : client.sessionId ∉ ns.opened) :
    Arriving (b.server.setNamespace defaultName (ns.addClient client))
      (ns.addClient client) client := by
  have hns : ns.WellFormed defaultName :=
    Broker.reachable_wellFormed hb defaultName ns hget
  constructor
  · exact hname
  · exact Server.getNamespace_setNamespace_self _ _ _
  · intro clientId hentry
    obtain ⟨other, hother, hid, -⟩ := hns.sessions clientId _ hentry
    apply hfresh
    rw [← hid]
    exact hns.opened other (Namespace.mem_live_of_allClients hother)
  · intro room hmem
    exact hfresh (hns.roomsOpened room _ hmem)

theorem call_onDisconnect {server : Server} {client : SocketIOClient}
    {ns : Namespace} (hget : server.getNamespace client.namespaceName = some ns)
    (hlive : client ∈ ns.allClients ∨ client ∈ ns.closing) :
    server.disconnect client = some (call client server .onDisconnect) := by
  simp [Server.disconnect, call, hget, hlive, Namespace.close]

/-! ## One callback -/

theorem wantedNs_ne_default {client : SocketIOClient} {created : String}
    (hwanted : AddNs.wantedNs client = some created) :
    created ≠ defaultName := by
  unfold AddNs.wantedNs at hwanted
  cases hns : client.ns with
  | none =>
      rw [hns] at hwanted
      cases hwanted
  | some ns =>
      simp only [hns, Option.ite_none_right_eq_some, Option.some.injEq]
        at hwanted
      rw [← hwanted.2]
      simp [defaultName]

theorem Untouched.setNamespace {server server' : Server}
    {ns ns' : Namespace} {created : String}
    (huntouched : Untouched server ns created server')
    (hne : created ≠ defaultName)
    (hsessions : ns'.handler.sessions = ns.handler.sessions)
    (hrooms : ∀ room uuid,
      (room, uuid) ∈ ns'.roomClients ↔ (room, uuid) ∈ ns.roomClients) :
    Untouched server ns created (server'.setNamespace defaultName ns') := by
  constructor
  · rw [Server.getNamespace_setNamespace_ne _ _ hne]
    exact huntouched.added
  · intro name hdefault hcreated
    rw [Server.getNamespace_setNamespace_ne _ _ hdefault]
    exact huntouched.others name hdefault hcreated
  · exact ⟨ns', Server.getNamespace_setNamespace_self _ _ _, hsessions, hrooms⟩

theorem Arriving.mem_without {server : Server} {ns ns' : Namespace}
    {client : SocketIOClient} (h : Arriving server ns client)
    (hrooms : ∀ room uuid,
      (room, uuid) ∈ ns'.roomClients ↔ (room, uuid) ∈ ns.roomClients)
    (room : String) (uuid : UUID) :
    (room, uuid) ∈ ns'.roomClients.filter (·.2 ≠ client.sessionId) ↔
      (room, uuid) ∈ ns.roomClients := by
  simp only [List.mem_filter, hrooms, decide_eq_true_eq, and_iff_left_iff_imp]
  rintro hmem rfl
  exact h.inNoRoom room hmem

section Steps

variable {server : Server} {ns : Namespace} {client : SocketIOClient}
  {created : String} (h : Arriving server ns client)
  (hwanted : AddNs.wantedNs client = some created)

include h hwanted

theorem call_first (hmissing : server.getNamespace created = none) :
    call client server .onConnect =
      (server.setNamespace created (.new .new)).setNamespace defaultName
        (ns.disconnect client) := by
  have haddNs : BaseAbstractHandler.addNs server client =
      (server.setNamespace created (.new .new), true) := by
    simp [AddNs.addNs_eq, hwanted, hmissing, Option.filter]
  simp [call, h.toDefault, h.own, MessageEventHandler.onConnect, haddNs]

theorem call_again {server' : Server} {ns' : Namespace}
    (hadded : server'.getNamespace created = some (.new .new))
    (hns' : server'.getNamespace defaultName = some ns') :
    call client server' .onConnect =
      server'.setNamespace defaultName
        (BaseAbstractHandler.onConnect ns' client).1 := by
  have haddNs : BaseAbstractHandler.addNs server' client = (server', false) := by
    simp [AddNs.addNs_eq, hwanted, hadded, Option.filter]
  simp [call, h.toDefault, hns', MessageEventHandler.onConnect, haddNs]

theorem untouched_first (hmissing : server.getNamespace created = none) :
    Untouched server ns created (call client server .onConnect) := by
  have hadded : Untouched server ns created
      (server.setNamespace created (.new .new)) := by
    constructor
    · exact Server.getNamespace_setNamespace_self _ _ _
    · intro name _ hcreated
      exact Server.getNamespace_setNamespace_ne _ _ hcreated
    · refine ⟨ns, ?_, rfl, fun _ _ => Iff.rfl⟩
      rw [Server.getNamespace_setNamespace_ne _ _
        (wantedNs_ne_default hwanted).symm]
      exact h.own
  rw [call_first h hwanted hmissing]
  apply hadded.setNamespace (wantedNs_ne_default hwanted)
  · rfl
  · exact h.mem_without fun _ _ => Iff.rfl

variable {server' : Server} (huntouched : Untouched server ns created server')

include huntouched

theorem untouched_anonymous (hid : client.clientId = none)
    (callback : Callback) :
    Untouched server ns created (call client server' callback) := by
  obtain ⟨ns', hns', hsessions, hrooms⟩ := huntouched.own
  cases callback with
  | onConnect =>
      rw [call_again h hwanted huntouched.added hns']
      have hsame : (BaseAbstractHandler.onConnect ns' client).1 = ns' := by
        simp [BaseAbstractHandler.onConnect, BaseAbstractHandler.saveSession,
          hid]
      rw [hsame]
      exact huntouched.setNamespace (wantedNs_ne_default hwanted) hsessions hrooms
  | onDisconnect =>
      simp only [call, h.toDefault, hns']
      apply huntouched.setNamespace (wantedNs_ne_default hwanted)
      · rw [Namespace.close_eq, hid]
        exact hsessions
      · rw [Namespace.close_roomClients]
        exact h.mem_without hrooms

theorem registered_again {clientId : String}
    (hid : client.clientId = some clientId) :
    ¬ Untouched server ns created (call client server' .onConnect) := by
  obtain ⟨ns', hns', -⟩ := huntouched.own
  intro hafter
  obtain ⟨ns'', hns'', hsessions, -⟩ := hafter.own
  rw [call_again h hwanted huntouched.added hns',
    Server.getNamespace_setNamespace_self, Option.some.injEq] at hns''
  apply h.inNoTable clientId
  rw [← hsessions, ← hns'']
  simp [BaseAbstractHandler.onConnect, BaseAbstractHandler.saveSession, hid,
    BaseAbstractHandler.put]

/-- The entry of the client id goes, whichever session it is. -/
theorem untouched_onDisconnect_iff {clientId : String}
    (hid : client.clientId = some clientId) :
    Untouched server ns created (call client server' .onDisconnect) ↔
      ns.handler.sessions clientId = none := by
  obtain ⟨ns', hns', hsessions, hrooms⟩ := huntouched.own
  have hcall : call client server' .onDisconnect =
      server'.setNamespace defaultName (ns'.close client) := by
    simp only [call, h.toDefault, hns']
  rw [hcall]
  constructor
  · intro hafter
    obtain ⟨ns'', hns'', hsame, -⟩ := hafter.own
    rw [Server.getNamespace_setNamespace_self, Option.some.injEq] at hns''
    rw [← hsame, ← hns'', Namespace.close_sessions, if_pos hid]
  · intro hnone
    apply huntouched.setNamespace (wantedNs_ne_default hwanted)
    · funext other
      rw [Namespace.close_sessions, ← hsessions, hid]
      cases decEq clientId other with
      | isTrue heq => rw [if_pos (congrArg some heq), ← heq, hsessions, hnone]
      | isFalse hne => rw [if_neg fun heq => hne (Option.some.inj heq)]
    · rw [Namespace.close_roomClients]
      exact h.mem_without hrooms

end Steps

/-! ## All callbacks -/

section Handling

variable {server : Server} {ns : Namespace} {client : SocketIOClient}
  {created : String} (h : Arriving server ns client)
  (hwanted : AddNs.wantedNs client = some created)

include h hwanted

theorem throughout_anonymous (hid : client.clientId = none)
    {server' : Server} (huntouched : Untouched server ns created server')
    (callbacks : List Callback) :
    (system server client).Throughout (Untouched server ns created) server'
      callbacks := by
  induction callbacks generalizing server' with
  | nil => exact huntouched
  | cons callback callbacks ih =>
      refine ⟨huntouched, fun next hnext => ?_⟩
      cases hnext
      exact ih (untouched_anonymous h hwanted huntouched hid callback)

theorem throughout_named_iff {clientId : String}
    (hid : client.clientId = some clientId) {server' : Server}
    (huntouched : Untouched server ns created server') (before after : Nat) :
    (system server client).Throughout (Untouched server ns created) server'
        (laterCalls before after) ↔
      before = 0 ∧ after = 0 ∧ ns.handler.sessions clientId = none := by
  cases before with
  | succ before =>
      constructor
      · rintro ⟨-, hrest⟩
        exact absurd (hrest _ rfl).head
          (registered_again h hwanted huntouched hid)
      · rintro ⟨hzero, -⟩
        cases hzero
  | zero =>
      constructor
      · rintro ⟨-, hrest⟩
        have hclosed := hrest _ rfl
        refine ⟨rfl, ?_, (untouched_onDisconnect_iff h hwanted huntouched
          hid).mp hclosed.head⟩
        cases after with
        | zero => rfl
        | succ after =>
            exact absurd (hclosed.2 _ rfl).head
              (registered_again h hwanted hclosed.head hid)
      · rintro ⟨-, rfl, hnone⟩
        refine ⟨huntouched, fun next hnext => ?_⟩
        cases hnext
        exact (untouched_onDisconnect_iff h hwanted huntouched hid).mpr hnone

/--
A refused client leaves no trace exactly when it has no client id, or
`onConnect` ran once and nobody else was connected under that client id.
-/
theorem refusal_iff (hmissing : server.getNamespace created = none)
    (before after : Nat) :
    (system server client).Throughout (Untouched server ns created)
        (call client server .onConnect) (laterCalls before after) ↔
      client.clientId = none ∨
        before = 0 ∧ after = 0 ∧
          client.clientId.bind ns.handler.sessions = none := by
  have huntouched := untouched_first h hwanted hmissing
  cases hid : client.clientId with
  | none =>
      exact iff_of_true (throughout_anonymous h hwanted hid huntouched _)
        (Or.inl rfl)
  | some clientId =>
      rw [throughout_named_iff h hwanted hid huntouched, Option.bind_some]
      simp

end Handling

/-! ## The same client id on two devices -/

def bobsNamespace : Namespace :=
  ⟨[2], [clientNamed 2 "bob"], [], [], BaseAbstractHandler.new.put "bob" 2⟩

def bobsServer : Server :=
  ⟨Function.update (fun _ => none) defaultName (some bobsNamespace)⟩

def joiningChat (uuid : UUID) (clientId : String) : SocketIOClient :=
  ⟨uuid, defaultName, ⟨[(queryParamsClientid, clientId),
    (queryParamsNamespace, "chat")]⟩⟩

theorem arriving_joiningChat {uuid : UUID} (hne : 2 ≠ uuid)
    (clientId : String) :
    Arriving bobsServer bobsNamespace (joiningChat uuid clientId) := by
  constructor
  · rfl
  · rfl
  · intro other hentry
    simp only [bobsNamespace, BaseAbstractHandler.put, BaseAbstractHandler.new,
      Function.update_apply] at hentry
    split at hentry
    · exact hne (Option.some.inj hentry)
    · cases hentry
  · intro room hmem
    cases hmem

theorem carol_untouched :
    (system bobsServer (joiningChat 5 "carol")).Throughout
      (Untouched bobsServer bobsNamespace "/chat")
      (call (joiningChat 5 "carol") bobsServer .onConnect)
      (laterCalls 0 0) :=
  (refusal_iff (arriving_joiningChat (by decide) "carol") (by decide) rfl
    0 0).mpr (by decide)

theorem bob_evicted :
    Arriving bobsServer bobsNamespace (joiningChat 5 "bob") ∧
    AddNs.wantedNs (joiningChat 5 "bob") = some "/chat" ∧
    bobsServer.getNamespace "/chat" = none ∧
    bobsNamespace.handler.sessions "bob" = some 2 ∧
    (∃ ns, (call (joiningChat 5 "bob") (call (joiningChat 5 "bob") bobsServer
        .onConnect) .onDisconnect).getNamespace defaultName = some ns ∧
      ns.handler.sessions "bob" = none) ∧
    ¬ (system bobsServer (joiningChat 5 "bob")).Throughout
        (Untouched bobsServer bobsNamespace "/chat")
        (call (joiningChat 5 "bob") bobsServer .onConnect)
        (laterCalls 0 0) := by
  have h := arriving_joiningChat (show 2 ≠ 5 by decide) "bob"
  have hwanted : AddNs.wantedNs (joiningChat 5 "bob") = some "/chat" := by
    decide
  refine ⟨h, hwanted, rfl, rfl, ⟨_, rfl, rfl⟩, fun huntouched => ?_⟩
  have hnone := (throughout_named_iff h hwanted
    (show (joiningChat 5 "bob").clientId = some "bob" by decide)
    (untouched_first h hwanted rfl) 0 0).mp huntouched
  exact absurd hnone.2.2 (by decide)

end Refusal

end WebIm.SocketIO
