import WebIm.SocketIO.OneBroker

/-!
# A target that moves between brokers

Every broker decides from its own table whether to deliver the copy it was
sent, and nothing tells a copy whose message has been delivered from one whose
message has not.  So a message is delivered at most once by each broker, and a
second delivery needs the target to connect, after the first, to a broker that
still has a copy to process.
-/

namespace WebIm.SocketIO

open WebIm.Foundation

namespace Cluster

variable {N : Nat} {name : String} {s s' : Cluster N}

/-! ## What is in a copy -/

structure CopyContents (s : Cluster N) : Prop where
  sameData : ∀ copy ∈ s.inflight, ∀ other ∈ s.inflight,
    copy.id = other.id → copy.data = other.data
  targeted : ∀ copy ∈ s.inflight, copy.data.targetClientId ≠ none

theorem CopyContents.of_subset (h : s.CopyContents)
    (hsub : s'.inflight ⊆ s.inflight) : s'.CopyContents where
  sameData copy hcopy other hother :=
    h.sameData copy (hsub hcopy) other (hsub hother)
  targeted copy hcopy := h.targeted copy (hsub hcopy)

theorem copyContents_step (h : s.CopyContents)
    (hinv : TransitInvariant name s) {a : ClusterAction N}
    (hstep : step name s a = some s') : s'.CopyContents := by
  cases a with
  | connect broker client =>
      obtain ⟨-, -, -, server, -, rfl, -⟩ := connect_cases hinv.tables hstep
      exact h.of_subset (List.Subset.refl _)
  | disconnect broker client =>
      obtain ⟨-, -, server, rfl, -⟩ := disconnect_cases hinv.tables hstep
      exact h.of_subset (List.Subset.refl _)
  | clientDispatch index client ackRequested =>
      obtain ⟨copy, -, -, -, hi, -⟩ := clientDispatch_cases hinv.tables hstep
      refine h.of_subset ?_
      rw [hi]
      exact (List.eraseIdx_sublist _ _).subset
  | event broker client ackRequested data =>
      obtain ⟨-, -, hcases⟩ := event_cases hinv.tables hstep
      rcases hcases with ⟨receiver, -, -, -, hi⟩ | ⟨target, htarget, -, -, hi⟩ |
        ⟨-, -, hi⟩
      · exact h.of_subset (by rw [hi]; exact List.Subset.refl _)
      · -- the new copies share one message, and its number is new
        have hsort : ∀ copy ∈ s'.inflight,
            copy ∈ s.inflight ∧ copy.id < s.nextId ∨
              copy.id = s.nextId ∧ copy.data = data := by
          intro copy hcopy
          rcases mem_dispatched hi hcopy with hcopy | hnew
          · exact Or.inl ⟨hcopy, hinv.transit.copiesOld copy hcopy⟩
          · exact Or.inr hnew
        constructor
        · intro copy hcopy other hother hid
          rcases hsort copy hcopy with ⟨hold, hlt⟩ | ⟨hnew, hdata⟩ <;>
            rcases hsort other hother with ⟨hold', hlt'⟩ | ⟨hnew', hdata'⟩
          · exact h.sameData copy hold other hold' hid
          · omega
          · omega
          · rw [hdata, hdata']
        · intro copy hcopy
          rcases hsort copy hcopy with ⟨hold, -⟩ | ⟨-, hdata⟩
          · exact h.targeted copy hold
          · simp [hdata, htarget]
      · exact h.of_subset (by rw [hi]; exact List.Subset.refl _)

/-! ## At most one delivery by each broker -/

def DeliversToTarget (s : Cluster N) : Prop :=
  ∀ delivery ∈ s.delivered,
    delivery.receiver.clientId = delivery.data.targetClientId

theorem deliversToTarget_step (h : s.DeliversToTarget)
    (hinv : Invariant name s) {a : ClusterAction N}
    (hstep : step name s a = some s') : s'.DeliversToTarget := by
  have hadd : ∀ delivery : P2pDelivery N,
      delivery.receiver.clientId = delivery.data.targetClientId →
      s'.delivered = s.delivered ++ [delivery] → s'.DeliversToTarget := by
    intro delivery hnew hd other hother
    rw [hd, List.mem_append, List.mem_singleton] at hother
    rcases hother with hother | rfl
    · exact h other hother
    · exact hnew
  have hkeep : s'.delivered = s.delivered → s'.DeliversToTarget := by
    intro hd other hother
    exact h other (hd ▸ hother)
  cases a with
  | connect broker client =>
      obtain ⟨-, -, -, server, -, rfl, -⟩ := connect_cases hinv hstep
      exact hkeep rfl
  | disconnect broker client =>
      obtain ⟨-, -, server, rfl, -⟩ := disconnect_cases hinv hstep
      exact hkeep rfl
  | event broker client ackRequested data =>
      obtain ⟨-, -, hcases⟩ := event_cases hinv hstep
      rcases hcases with ⟨receiver, -, hid, hd, -⟩ | ⟨target, -, -, hd, -⟩ |
        ⟨-, hd, -⟩
      · exact hadd _ hid hd
      · exact hkeep hd
      · exact hkeep hd
  | clientDispatch index client ackRequested =>
      obtain ⟨copy, -, -, -, -, hcases⟩ := clientDispatch_cases hinv hstep
      rcases hcases with ⟨receiver, -, hid, hd⟩ | ⟨-, hd⟩
      · exact hadd _ hid hd
      · exact hkeep hd

theorem reachable_deliversToTarget (h : (system N name).Reachable s) :
    s.DeliversToTarget :=
  (h.invariant (P := fun s => Invariant name s ∧ s.DeliversToTarget)
    ⟨invariant_initial, by intro delivery hmem; cases hmem⟩
    fun s a s' hs hstep => ⟨invariant_step s a s' hs.1 hstep,
      deliversToTarget_step hs.2 hs.1 hstep⟩).2

theorem Transit.brokers_nodup (h : s.Transit) (id : Nat) :
    ((s.deliveriesOf id).map P2pDelivery.broker).Nodup :=
  (List.nodup_append.mp (h.once id)).1

/-! ## At most one delivery without a late move -/

/--
The step does not connect a session of the target of message `id`, already
delivered once, to a broker that a copy of the message is still under way to.
-/
def NoLateMove (id : Nat) (s : Cluster N) (a : ClusterAction N) : Prop :=
  ∀ broker client, ∀ copy ∈ s.inflight, a = .connect broker client →
    copy.id = id → copy.dest = broker →
    client.clientId = copy.data.targetClientId → s.deliveriesOf id = []

instance (id : Nat) (s : Cluster N) :
    (a : ClusterAction N) → Decidable (NoLateMove id s a)
  | .connect broker client =>
      decidable_of_iff (∀ copy ∈ s.inflight, copy.id = id →
          copy.dest = broker → client.clientId = copy.data.targetClientId →
            s.deliveriesOf id = []) (by
        simp only [NoLateMove, ClusterAction.connect.injEq]
        constructor
        · rintro h _ _ copy hcopy ⟨rfl, rfl⟩
          exact h copy hcopy
        · intro h copy hcopy
          exact h broker client copy hcopy ⟨rfl, rfl⟩)
  | .disconnect _ _ => isTrue nofun
  | .event _ _ _ _ => isTrue nofun
  | .clientDispatch _ _ _ => isTrue nofun

/-- After the first delivery no copy is under way to a broker of the target. -/
structure AtMostOnce (name : String) (id : Nat) (s : Cluster N) : Prop where
  atMost : (s.deliveriesOf id).length ≤ 1
  away : s.deliveriesOf id ≠ [] → ∀ copy ∈ s.inflight, copy.id = id →
    ∀ client ∈ (s.on name copy.dest).allClients,
      client.clientId ≠ copy.data.targetClientId

structure DeliveredOnce (name : String) (id : Nat) (s : Cluster N) : Prop where
  invariant : TransitInvariant name s
  contents : s.CopyContents
  once : AtMostOnce name id s

variable {id : Nat}

theorem DeliveredOnce.connect (h : DeliveredOnce name id s) {broker : Fin N}
    {client : SocketIOClient}
    (hmove : NoLateMove id s (.connect broker client))
    (hstep : step name s (.connect broker client) = some s') :
    AtMostOnce name id s' := by
  obtain ⟨rfl, -, hfresh, server, ns', rfl, hns', hcases⟩ :=
    connect_cases h.invariant.tables hstep
  refine ⟨h.once.atMost, fun hsome copy hcopy hid other hother => ?_⟩
  rw [on_setBroker s broker server hns'] at hother
  by_cases hdest : copy.dest = broker
  · rw [hdest, Function.update_self] at hother
    rcases (h.invariant.tables.wellFormed broker).mem_allClients_connect hfresh
      hcases hother with rfl | hold
    · intro htarget
      exact hsome (hmove broker other copy hcopy rfl hid hdest htarget)
    · exact h.once.away hsome copy hcopy hid other (hdest ▸ hold)
  · rw [Function.update_of_ne hdest] at hother
    exact h.once.away hsome copy hcopy hid other hother

theorem DeliveredOnce.disconnect (h : DeliveredOnce name id s)
    {broker : Fin N} {client : SocketIOClient}
    (hstep : step name s (.disconnect broker client) = some s') :
    AtMostOnce name id s' := by
  obtain ⟨rfl, -, server, rfl, hns'⟩ :=
    disconnect_cases h.invariant.tables hstep
  refine ⟨h.once.atMost, fun hsome copy hcopy hid other hother => ?_⟩
  rw [on_setBroker s broker server hns'] at hother
  by_cases hdest : copy.dest = broker
  · rw [hdest, Function.update_self, Namespace.close_allClients] at hother
    exact h.once.away hsome copy hcopy hid other
      (hdest ▸ List.mem_of_mem_filter hother)
  · rw [Function.update_of_ne hdest] at hother
    exact h.once.away hsome copy hcopy hid other hother

theorem AtMostOnce.of_nil (hnone : s.deliveriesOf id = []) :
    AtMostOnce name id s where
  atMost := by simp [hnone]
  away := fun hsome => absurd hnone hsome

theorem AtMostOnce.of_same (h : AtMostOnce name id s)
    (heq : s'.brokers = s.brokers)
    (hd : s'.deliveriesOf id = s.deliveriesOf id)
    (hsub : ∀ copy ∈ s'.inflight, copy.id = id → copy ∈ s.inflight) :
    AtMostOnce name id s' where
  atMost := hd ▸ h.atMost
  away := by
    rw [hd, on_of_brokers_eq heq]
    exact fun hsome copy hcopy hid => h.away hsome copy (hsub copy hcopy hid) hid

theorem DeliveredOnce.event (h : DeliveredOnce name id s) {broker : Fin N}
    {client : SocketIOClient} {ackRequested : Bool} {data : MessageInfo}
    (hstep : step name s (.event broker client ackRequested data) = some s') :
    AtMostOnce name id s' := by
  obtain ⟨heq, -, hcases⟩ := event_cases h.invariant.tables hstep
  have htransit := h.invariant.transit
  rcases hcases with ⟨receiver, -, -, hd, hi⟩ | ⟨target, -, -, hd, hi⟩ |
    ⟨-, hd, hi⟩
  · have happend := deliveriesOf_append id _ hd
    by_cases hid : s.nextId = id
    · subst hid
      refine ⟨by simp [happend, htransit.deliveriesOf_fresh], ?_⟩
      intro _ copy hcopy hcopyId
      have := htransit.copiesOld copy (hi ▸ hcopy)
      omega
    · refine h.once.of_same heq ?_ fun copy hcopy _ => hi ▸ hcopy
      simpa [hid] using happend
  · have hsame := deliveriesOf_same id hd
    by_cases hid : s.nextId = id
    · subst hid
      exact .of_nil (hsame.trans htransit.deliveriesOf_fresh)
    · refine h.once.of_same heq hsame fun copy hcopy hcopyId => ?_
      rcases mem_dispatched hi hcopy with hcopy | ⟨hnew, -⟩
      · exact hcopy
      · omega
  · exact h.once.of_same heq (deliveriesOf_same id hd)
      fun copy hcopy _ => hi ▸ hcopy

theorem DeliveredOnce.clientDispatch (h : DeliveredOnce name id s)
    {index : Nat} {client : SocketIOClient} {ackRequested : Bool}
    (hstep : step name s (.clientDispatch index client ackRequested) =
      some s') :
    AtMostOnce name id s' := by
  obtain ⟨copy, hcopy, heq, -, hi, hcases⟩ :=
    clientDispatch_cases h.invariant.tables hstep
  have hmem : copy ∈ s.inflight := List.mem_of_getElem? hcopy
  have hsub : ∀ other ∈ s'.inflight, other.id = id → other ∈ s.inflight := by
    rw [hi]
    intro other hother _
    exact List.mem_of_mem_eraseIdx hother
  rcases hcases with ⟨receiver, hreceiver, hreceiverId, hd⟩ | ⟨-, hd⟩
  · have happend := deliveriesOf_append id _ hd
    by_cases hid : copy.id = id
    · -- the first delivery: the target is here, so it is nowhere else
      have hnone : s.deliveriesOf id = [] := by
        by_contra hsome
        exact h.once.away hsome copy hmem hid receiver hreceiver hreceiverId
      refine ⟨by simp [happend, hnone, hid], ?_⟩
      rw [on_of_brokers_eq heq]
      intro _ other hother hotherId found hfound hfoundId
      have hdata := h.contents.sameData other (hsub other hother hotherId) copy
        hmem (hotherId.trans hid.symm)
      obtain ⟨target, htarget⟩ :=
        Option.ne_none_iff_exists'.mp (h.contents.targeted copy hmem)
      rw [hdata, htarget] at hfoundId
      rw [htarget] at hreceiverId
      have hplace := (h.invariant.tables.eq_of_clientId hfound hreceiver
        hfoundId hreceiverId).1
      rw [hi] at hother
      exact h.invariant.transit.other_dest hcopy hother
        (hotherId.trans hid.symm) hplace
    · refine h.once.of_same heq ?_ hsub
      simpa [hid] using happend
  · exact h.once.of_same heq (deliveriesOf_same id hd) hsub

theorem DeliveredOnce.step (h : DeliveredOnce name id s) {a : ClusterAction N}
    (hmove : NoLateMove id s a) (hstep : Cluster.step name s a = some s') :
    DeliveredOnce name id s' := by
  have hinv' := transitInvariant_step s a s' h.invariant hstep
  have hcontents' := copyContents_step h.contents h.invariant hstep
  refine ⟨hinv', hcontents', ?_⟩
  cases a with
  | connect broker client => exact h.connect hmove hstep
  | disconnect broker client => exact h.disconnect hstep
  | event broker client ackRequested data => exact h.event hstep
  | clientDispatch index client ackRequested => exact h.clientDispatch hstep

theorem deliveredOnce_initial : DeliveredOnce name id (initial N name) where
  invariant := ⟨invariant_initial, transit_initial⟩
  contents := { sameData := by simp [initial], targeted := by simp [initial] }
  once := { atMost := by simp [initial, deliveriesOf], away := by simp [initial] }

/--
Each broker delivers a message at most once, always to a session of the
message's target, and the message is delivered at most once in total in every
run without a late move of its target.
-/
theorem delivered_at_most_once {actions : List (ClusterAction N)}
    (hrun : (system N name).run actions = some s) (id : Nat) :
    ((s.deliveriesOf id).map P2pDelivery.broker).Nodup ∧
    (∀ delivery ∈ s.deliveriesOf id,
      delivery.receiver.clientId = delivery.data.targetClientId) ∧
    ((system N name).EveryStep (NoLateMove id) (initial N name) actions →
      (s.deliveriesOf id).length ≤ 1) := by
  refine ⟨?_, ?_, fun hmoves => ?_⟩
  · exact (reachable_transitInvariant ⟨actions, hrun⟩).transit.brokers_nodup id
  · intro delivery hmem
    exact reachable_deliversToTarget ⟨actions, hrun⟩ delivery
      (List.mem_of_mem_filter hmem)
  · have hall := hmoves.invariant (Q := DeliveredOnce name id)
      (fun s a s' hmove hs hstep => hs.step hmove hstep)
      deliveredOnce_initial
    exact (hall.last hrun).once.atMost

def dispatchedToBob : List (ClusterAction 3) :=
  [.connect 0 (clientNamed 1 "alice"), .connect 1 (clientNamed 2 "bob"),
    .event 0 (clientNamed 1 "alice") false (messageTo "bob"),
    .clientDispatch 0 (clientNamed 1 "alice") false]

theorem delivered_at_most_once_run :
    ∃ s, (system 3 defaultName).run dispatchedToBob = some s ∧
      s.deliveriesOf 0 ≠ [] ∧ (s.deliveriesOf 0).length ≤ 1 := by
  have hmoves : (system 3 defaultName).EveryStep (NoLateMove 0)
      (initial 3 defaultName) dispatchedToBob := by
    decide
  have hrun : (system 3 defaultName).run dispatchedToBob = some _ := rfl
  exact ⟨_, hrun, by decide, (delivered_at_most_once hrun 0).2.2 hmoves⟩

/--
Bob gets the message at the second broker, moves to the third, and gets it
again from the copy that was under way to it.
-/
def bobMovesOn : List (ClusterAction 3) :=
  [.connect 0 (clientNamed 1 "alice"), .connect 1 (clientNamed 2 "bob"),
    .event 0 (clientNamed 1 "alice") false (messageTo "bob"),
    .clientDispatch 0 (clientNamed 1 "alice") false,
    .disconnect 1 (clientNamed 2 "bob"), .connect 2 (clientNamed 3 "bob"),
    .clientDispatch 0 (clientNamed 1 "alice") false]

theorem delivered_twice_when_roaming :
    ¬∀ (s : Cluster 3) (id : Nat), (system 3 defaultName).Reachable s →
      (s.deliveriesOf id).length ≤ 1 := by
  intro hall
  exact absurd (hall _ 0 ⟨bobMovesOn, rfl⟩) (by decide)

end Cluster

end WebIm.SocketIO
