import WebIm.SocketIO.Effects

/-!
# One namespace beside the others

All namespaces live in one server, and a connection to the default namespace
can create another one.  The file takes everything out of a run that happens
elsewhere and keeps, for a namespace `name`, what its own clients do and the
connections that ask for it.
-/

namespace WebIm.SocketIO

open WebIm.Foundation

/-- What the clients of a namespace do, and the connections that ask for it. -/
def Action.touches (name : String) : Action → Bool
  | .connect client =>
      client.namespaceName = name ||
        (client.namespaceName = defaultName && AddNs.wantedNs client = some name)
  | .disconnect client => client.namespaceName = name
  | .event client _ _ => client.namespaceName = name
  | .clientDispatch client _ _ => client.namespaceName = name

namespace Broker

def receivedIn (name : String) (b : Broker) : List (SocketIOClient × Packet) :=
  b.received.filter (·.1.namespaceName = name)

/--
Two brokers that the clients of `name` cannot tell apart.  The default
namespace also depends on which others exist, and every other one on the
session ids the default namespace still accepts.
-/
structure AgreeOn (name : String) (b b' : Broker) : Prop where
  wellFormed : b.server.WellFormed
  own : b'.server.getNamespace name = b.server.getNamespace name
  default : (b'.server.getNamespace defaultName).isSome
  opened : b'.server.openedIn defaultName ⊆ b.server.openedIn defaultName
  present : name = defaultName → ∀ other,
    (b'.server.getNamespace other).isSome = (b.server.getNamespace other).isSome
  received : b'.receivedIn name = b.receivedIn name

variable {name : String} {b b' next : Broker} {client : SocketIOClient}

theorem agreeOn_initial (name : String) : AgreeOn name initial initial where
  wellFormed := Server.wellFormed_initial
  own := rfl
  default := rfl
  opened := List.Subset.refl _
  present := fun _ _ => rfl
  received := rfl

/-! ## Connects and disconnects -/

theorem AgreeOn.missing_eq (h : AgreeOn name b b')
    (htouches : (Action.connect client).touches name = true) :
    b'.server.missing client = b.server.missing client := by
  apply Server.missing_congr
  intro hdefault asked hasked
  simp only [Action.touches, Bool.or_eq_true, Bool.and_eq_true,
    decide_eq_true_eq] at htouches
  cases htouches with
  | inl hname =>
      rw [← Option.not_isSome, ← Option.not_isSome,
        h.present (hname.symm.trans hdefault)]
  | inr hasks =>
      obtain rfl : name = asked := Option.some.inj (hasks.2.symm.trans hasked)
      rw [h.own]

theorem AgreeOn.connect_kept (h : AgreeOn name b b')
    (htouches : (Action.connect client).touches name = true)
    (hstep : b.step (.connect client) = some next) :
    ∃ next', b'.step (.connect client) = some next' ∧
      AgreeOn name next next' := by
  obtain ⟨server, hserver, rfl⟩ := Option.map_eq_some_iff.mp hstep
  have hmissing := h.missing_eq htouches
  obtain ⟨ns, hns, hfresh, -⟩ := Server.connect_cases hserver
  have hopened : b.server.openedIn client.namespaceName = ns.opened := by
    rw [Server.openedIn, hns]
    rfl
  -- the connection is possible in `b'` too
  have henabled : (b'.server.getNamespace client.namespaceName).isSome ∧
      client.sessionId ∉ b'.server.openedIn client.namespaceName := by
    by_cases hname : client.namespaceName = name
    · unfold Server.openedIn at hopened ⊢
      rw [hname] at hopened hns ⊢
      rw [h.own, hopened]
      exact ⟨by rw [hns]; rfl, hfresh⟩
    · simp only [Action.touches, hname, decide_false, Bool.false_or,
        Bool.and_eq_true, decide_eq_true_eq] at htouches
      rw [htouches.1] at hopened ⊢
      exact ⟨h.default, fun hmem => hfresh (hopened ▸ h.opened hmem)⟩
  obtain ⟨server', hserver'⟩ := Server.connect_isSome henabled.1 henabled.2
  obtain ⟨ns', hns', -⟩ := Server.connect_cases hserver'
  refine ⟨_, Option.map_eq_some_iff.mpr ⟨server', hserver', rfl⟩, ?_⟩
  refine ⟨h.wellFormed.connect hserver, ?_, ?_, ?_, ?_, h.received⟩
  · dsimp only
    rw [Server.getNamespace_connect hserver hns,
      Server.getNamespace_connect hserver' hns', hmissing, h.own]
    split
    · rename_i hname
      rw [hname] at h
      obtain rfl : ns' = ns :=
        Option.some.inj (hns'.symm.trans (h.own.trans hns))
      rfl
    · rfl
  · dsimp only
    rw [Server.isSome_connect hserver', h.default, Bool.true_or]
  · dsimp only
    rw [Server.openedIn_connect hserver, Server.openedIn_connect hserver']
    split
    · exact List.cons_subset_cons _ h.opened
    · exact h.opened
  · intro hdefault other
    dsimp only
    rw [Server.isSome_connect hserver, Server.isSome_connect hserver', hmissing,
      h.present hdefault]

theorem AgreeOn.connect_dropped (h : AgreeOn name b b')
    (htouches : (Action.connect client).touches name = false)
    (hstep : b.step (.connect client) = some next) : AgreeOn name next b' := by
  obtain ⟨server, hserver, rfl⟩ := Option.map_eq_some_iff.mp hstep
  obtain ⟨ns, hns, -⟩ := Server.connect_cases hserver
  simp only [Action.touches, Bool.or_eq_false_iff, decide_eq_false_iff_not,
    Bool.and_eq_false_iff] at htouches
  have hmissing : b.server.missing client ≠ some name := by
    intro hmissing
    obtain ⟨hdefault, hasks, -⟩ := Server.missing_eq_some hmissing
    cases htouches.2 with
    | inl hnot => exact hnot hdefault
    | inr hnot => exact hnot hasks
  refine ⟨h.wellFormed.connect hserver, ?_, h.default, ?_, ?_, h.received⟩
  · dsimp only
    rw [Server.getNamespace_connect hserver hns, if_neg (Ne.symm htouches.1),
      if_neg hmissing, h.own]
  · dsimp only
    rw [Server.openedIn_connect hserver]
    split
    · exact List.subset_cons_of_subset _ h.opened
    · exact h.opened
  · intro hdefault other
    have hnone : b.server.missing client = none := by
      unfold Server.missing
      rw [if_neg (hdefault ▸ htouches.1)]
    dsimp only
    rw [Server.isSome_connect hserver, hnone, h.present hdefault]
    simp

theorem AgreeOn.disconnect_kept (h : AgreeOn name b b')
    (hname : client.namespaceName = name)
    (hstep : b.step (.disconnect client) = some next) :
    ∃ next', b'.step (.disconnect client) = some next' ∧
      AgreeOn name next next' := by
  obtain ⟨server, hserver, rfl⟩ := Option.map_eq_some_iff.mp hstep
  obtain ⟨ns, hns, hlive, rfl⟩ := Server.disconnect_cases hserver
  have hns' : b'.server.getNamespace client.namespaceName = some ns := by
    rw [hname, h.own, ← hname, hns]
  have hserver' : b'.server.disconnect client =
      some (b'.server.setNamespace client.namespaceName (ns.close client)) := by
    unfold Server.disconnect
    rw [hns']
    dsimp only
    rw [if_pos hlive]
    rfl
  refine ⟨_, Option.map_eq_some_iff.mpr ⟨_, hserver', rfl⟩, ?_⟩
  refine ⟨h.wellFormed.disconnect hserver, ?_, ?_, ?_, ?_, h.received⟩
  · dsimp only
    rw [hname, Server.getNamespace_setNamespace_self,
      Server.getNamespace_setNamespace_self]
  · dsimp only
    rw [Server.isSome_disconnect hserver', h.default]
  · dsimp only
    rw [Server.openedIn_disconnect hserver, Server.openedIn_disconnect hserver']
    exact h.opened
  · intro hdefault other
    dsimp only
    rw [Server.isSome_disconnect hserver, Server.isSome_disconnect hserver',
      h.present hdefault]

theorem AgreeOn.disconnect_dropped (h : AgreeOn name b b')
    (hname : client.namespaceName ≠ name)
    (hstep : b.step (.disconnect client) = some next) :
    AgreeOn name next b' := by
  obtain ⟨server, hserver, rfl⟩ := Option.map_eq_some_iff.mp hstep
  refine ⟨h.wellFormed.disconnect hserver, ?_, h.default, ?_, ?_, h.received⟩
  · dsimp only
    rw [Server.disconnect_other hserver (Ne.symm hname), h.own]
  · dsimp only
    rw [Server.openedIn_disconnect hserver]
    exact h.opened
  · intro hdefault other
    dsimp only
    rw [Server.isSome_disconnect hserver, h.present hdefault]

/-! ## Messages -/

theorem receivedIn_append (name : String) (b : Broker)
    (emissions : List Emission) :
    receivedIn name { b with sent := b.sent ++ emissions } =
      b.receivedIn name ++
        (emissions.flatMap Emission.received).filter
          (·.1.namespaceName = name) := by
  simp [receivedIn, received]

theorem AgreeOn.message_kept (h : AgreeOn name b b')
    (hname : client.namespaceName = name)
    {callback callback' : BaseAbstractHandler → Reply}
    (hsame : ∀ handler, callback' handler = callback handler)
    (hstep : (b.server.message client callback).map (fun reply =>
      { b with sent := b.sent ++ reply.emissions }) = some next) :
    ∃ next', (b'.server.message client callback').map (fun reply =>
        { b' with sent := b'.sent ++ reply.emissions }) = some next' ∧
      AgreeOn name next next' := by
  obtain ⟨reply, hreply, rfl⟩ := Option.map_eq_some_iff.mp hstep
  obtain ⟨ns, hns, hmem, rfl⟩ := message_eq hreply
  have hns' : b'.server.getNamespace client.namespaceName = some ns := by
    rw [hname, h.own, ← hname, hns]
  rw [message_of_mem hns' hmem]
  refine ⟨_, rfl, h.wellFormed, h.own, h.default, h.opened, h.present, ?_⟩
  rw [hsame, receivedIn_append, receivedIn_append, h.received]

theorem AgreeOn.message_dropped (h : AgreeOn name b b') {a : Action}
    {message : Incoming} (ha : a.incoming = some message)
    (hname : message.client.namespaceName ≠ name)
    (hstep : b.step a = some next) : AgreeOn name next b' := by
  obtain ⟨ns, reply, -, -, hsends, rfl⟩ := step_incoming ha hstep
  refine ⟨h.wellFormed, h.own, h.default, h.opened, h.present, ?_⟩
  rw [receivedIn_append, h.received, List.filter_eq_nil_iff.mpr,
    List.append_nil]
  intro packet hpacket
  rw [received_named h.wellFormed hsends packet hpacket]
  simpa using hname

/-! ## A run without what happens elsewhere -/

theorem agreeOn_kept (name : String) (b b' : Broker) (a : Action)
    (next : Broker) (h : AgreeOn name b b') (htouches : a.touches name = true)
    (hstep : b.step a = some next) :
    ∃ next', b'.step a = some next' ∧ AgreeOn name next next' := by
  cases a with
  | connect client => exact h.connect_kept htouches hstep
  | disconnect client => exact h.disconnect_kept (of_decide_eq_true htouches) hstep
  | event client ackRequested data =>
      have hname : client.namespaceName = name := of_decide_eq_true htouches
      apply h.message_kept hname _ hstep
      exact fun handler =>
        handler.onEvent_congr ackRequested data (by rw [hname, h.own])
  | clientDispatch client ackRequested data =>
      have hname : client.namespaceName = name := of_decide_eq_true htouches
      apply h.message_kept hname _ hstep
      exact fun handler =>
        handler.onClientDispatch_congr ackRequested data (by rw [hname, h.own])

theorem agreeOn_dropped (name : String) (b b' : Broker) (a : Action)
    (next : Broker) (h : AgreeOn name b b') (htouches : a.touches name = false)
    (hstep : b.step a = some next) : AgreeOn name next b' := by
  cases a with
  | connect client => exact h.connect_dropped htouches hstep
  | disconnect client =>
      exact h.disconnect_dropped (of_decide_eq_false htouches) hstep
  | event client ackRequested data =>
      have hname : client.namespaceName ≠ name := of_decide_eq_false htouches
      exact h.message_dropped rfl hname hstep
  | clientDispatch client ackRequested data =>
      have hname : client.namespaceName ≠ name := of_decide_eq_false htouches
      exact h.message_dropped rfl hname hstep

/--
Whatever happens in the other namespaces, a namespace is in the state and its
clients have received the packets, in their order, that the rest of the run
alone leads to.
-/
theorem namespace_isolated (name : String) (actions : List Action) {b : Broker}
    (hrun : system.run actions = some b) :
    ∃ b', system.run (actions.filter (·.touches name)) = some b' ∧
      b'.server.getNamespace name = b.server.getNamespace name ∧
      b'.receivedIn name = b.receivedIn name := by
  obtain ⟨b', hrun', h⟩ := system.runFrom_filter (agreeOn_kept name)
    (agreeOn_dropped name) (agreeOn_initial name) hrun
  exact ⟨b', hrun', h.own, h.received⟩

def besideNs1 : List Action :=
  let bob uuid name : SocketIOClient :=
    ⟨uuid, name, ⟨[(queryParamsClientid, "bob"), (queryParamsNamespace, "ns1")]⟩⟩
  [.connect (bob 1 defaultName), .connect (clientNamed 2 "alice"),
    .disconnect (bob 1 defaultName), .connect (bob 3 "/ns1"),
    .event (clientNamed 2 "alice") true (messageTo ""),
    .event (bob 3 "/ns1") true (messageTo "bob")]

theorem namespace_isolated_ns1 :
    ∃ b b', system.run besideNs1 = some b ∧
      system.run (besideNs1.filter (·.touches "/ns1")) = some b' ∧
      b'.receivedIn "/ns1" = b.receivedIn "/ns1" := by
  obtain ⟨b', hrun', -, hreceived⟩ :=
    namespace_isolated "/ns1" besideNs1 rfl
  exact ⟨_, b', rfl, hrun', hreceived⟩

end Broker

end WebIm.SocketIO
