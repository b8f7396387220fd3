import WebIm.SocketIO.Cluster

/-!
# A cluster is one broker with the union of the tables

The message identities in flight and the deliveries made are tracked through a
run, and from that the fate of one message whose target stays where it is.
-/

namespace WebIm.SocketIO

open WebIm.Foundation

namespace Cluster

variable {N : Nat} {name : String} {s s' : Cluster N}

/-! ## Identities in flight -/

/--
Every broker appears at most once among those that have delivered a message
and those that a copy of it is under way to.
-/
structure Transit (s : Cluster N) : Prop where
  copiesOld : ∀ copy ∈ s.inflight, copy.id < s.nextId
  deliveredOld : ∀ delivery ∈ s.delivered, delivery.id < s.nextId
  once : ∀ id, ((s.deliveriesOf id).map P2pDelivery.broker ++
    (s.copiesOf id).map DispatchCopy.dest).Nodup

theorem transit_initial : (initial N name).Transit where
  copiesOld := by simp [initial]
  deliveredOld := by simp [initial]
  once := by simp [initial, deliveriesOf, copiesOf]

theorem Transit.copiesOf_fresh (h : s.Transit) : s.copiesOf s.nextId = [] := by
  rw [copiesOf, List.filter_eq_nil_iff]
  intro copy hcopy
  have := h.copiesOld copy hcopy
  simp only [decide_eq_true_eq]
  omega

theorem Transit.deliveriesOf_fresh (h : s.Transit) :
    s.deliveriesOf s.nextId = [] := by
  rw [deliveriesOf, List.filter_eq_nil_iff]
  intro delivery hdelivery
  have := h.deliveredOld delivery hdelivery
  simp only [decide_eq_true_eq]
  omega

theorem perm_eraseIdx {α : Type*} {l : List α} {i : Nat} {a : α}
    (h : l[i]? = some a) : l.Perm (a :: l.eraseIdx i) := by
  obtain ⟨hlt, rfl⟩ := List.getElem?_eq_some_iff.mp h
  exact (List.getElem_cons_eraseIdx_perm hlt).symm

theorem deliveriesOf_append (id : Nat) (delivery : P2pDelivery N)
    (hdelivered : s'.delivered = s.delivered ++ [delivery]) :
    s'.deliveriesOf id =
      s.deliveriesOf id ++ if delivery.id = id then [delivery] else [] := by
  unfold deliveriesOf
  rw [hdelivered, List.filter_append]
  by_cases h : delivery.id = id <;> simp [h]

theorem deliveriesOf_same (id : Nat) (hdelivered : s'.delivered = s.delivered) :
    s'.deliveriesOf id = s.deliveriesOf id := by
  rw [deliveriesOf, hdelivered, ← deliveriesOf]

theorem mem_dispatched {broker : Fin N} {data : MessageInfo}
    (hinflight : s'.inflight = s.inflight ++
      ((List.finRange N).filter (· ≠ broker)).map
        fun dest => ⟨s.nextId, dest, data⟩)
    {copy : DispatchCopy N} (hcopy : copy ∈ s'.inflight) :
    copy ∈ s.inflight ∨ copy.id = s.nextId ∧ copy.data = data := by
  rw [hinflight] at hcopy
  rcases List.mem_append.mp hcopy with hcopy | hcopy
  · exact Or.inl hcopy
  · obtain ⟨dest, -, rfl⟩ := List.mem_map.mp hcopy
    exact Or.inr ⟨rfl, rfl⟩

theorem Transit.event (h : s.Transit) {broker : Fin N}
    {client : SocketIOClient} {ackRequested : Bool} {data : MessageInfo}
    (hinv : Invariant name s)
    (hstep : step name s (.event broker client ackRequested data) = some s') :
    s'.Transit := by
  obtain ⟨-, hnext, hcases⟩ := event_cases hinv hstep
  have hcopies : ∀ copy ∈ s.inflight, copy.id < s'.nextId := by
    intro copy hcopy
    have := h.copiesOld copy hcopy
    omega
  have hdelivered : ∀ delivery ∈ s.delivered, delivery.id < s'.nextId := by
    intro delivery hdelivery
    have := h.deliveredOld delivery hdelivery
    omega
  rcases hcases with ⟨receiver, -, -, hd, hi⟩ | ⟨target, -, -, hd, hi⟩ |
    ⟨-, hd, hi⟩
  · constructor
    · rw [hi]
      exact hcopies
    · rw [hd]
      intro delivery hmem
      rcases List.mem_append.mp hmem with hmem | hmem
      · exact hdelivered delivery hmem
      · rw [List.mem_singleton] at hmem
        subst hmem
        simp only
        omega
    · intro id
      rw [deliveriesOf_append id _ hd, copiesOf, hi, ← copiesOf]
      by_cases hid : s.nextId = id
      · subst hid
        simp [h.deliveriesOf_fresh, h.copiesOf_fresh]
      · simpa [hid] using h.once id
  · constructor
    · intro copy hmem
      rcases mem_dispatched hi hmem with hmem | ⟨hid, -⟩
      · exact hcopies copy hmem
      · omega
    · rw [hd]
      exact hdelivered
    · intro id
      rw [deliveriesOf_same id hd, copiesOf, hi, List.filter_append, ← copiesOf]
      by_cases hid : s.nextId = id
      · subst hid
        rw [h.deliveriesOf_fresh, h.copiesOf_fresh]
        simp only [List.map_nil, List.nil_append]
        rw [List.filter_eq_self.mpr (by simp), List.map_map]
        exact List.Nodup.map (fun _ _ heq => heq)
          ((List.nodup_finRange N).filter _)
      · rw [List.filter_eq_nil_iff.mpr (by simp [hid]), List.append_nil]
        exact h.once id
  · constructor
    · rw [hi]
      exact hcopies
    · rw [hd]
      exact hdelivered
    · intro id
      rw [deliveriesOf_same id hd, copiesOf, hi, ← copiesOf]
      exact h.once id

theorem Transit.clientDispatch (h : s.Transit) {index : Nat}
    {client : SocketIOClient} {ackRequested : Bool} (hinv : Invariant name s)
    (hstep : step name s (.clientDispatch index client ackRequested) =
      some s') : s'.Transit := by
  obtain ⟨copy, hcopy, -, hnext, hi, hcases⟩ := clientDispatch_cases hinv hstep
  have hmem : copy ∈ s.inflight := List.mem_of_getElem? hcopy
  have hperm : ∀ id, (s.copiesOf id).Perm
      ((if copy.id = id then [copy] else []) ++ s'.copiesOf id) := by
    intro id
    have := (perm_eraseIdx hcopy).filter fun other => decide (other.id = id)
    rw [← hi] at this
    by_cases hid : copy.id = id <;>
      simpa [copiesOf, List.filter_cons, hid] using this
  have hcopies : ∀ other ∈ s'.inflight, other.id < s'.nextId := by
    rw [hi, hnext]
    intro other hother
    exact h.copiesOld other (List.mem_of_mem_eraseIdx hother)
  rcases hcases with ⟨receiver, -, -, hd⟩ | ⟨-, hd⟩
  · refine ⟨hcopies, ?_, ?_⟩
    · rw [hd, hnext]
      intro delivery hdelivery
      rcases List.mem_append.mp hdelivery with hdelivery | hdelivery
      · exact h.deliveredOld delivery hdelivery
      · rw [List.mem_singleton] at hdelivery
        subst hdelivery
        exact h.copiesOld copy hmem
    · intro id
      -- the broker of the new delivery takes the place of the copy's
      have hold := h.once id
      rw [((hperm id).map DispatchCopy.dest).append_left _ |>.nodup_iff] at hold
      rw [deliveriesOf_append id _ hd]
      by_cases hid : copy.id = id
      · simpa [hid] using hold
      · simpa [hid] using hold
  · refine ⟨hcopies, ?_, ?_⟩
    · rw [hd, hnext]
      exact h.deliveredOld
    · intro id
      have hold := h.once id
      rw [((hperm id).map DispatchCopy.dest).append_left _ |>.nodup_iff] at hold
      rw [deliveriesOf_same id hd]
      refine hold.sublist ?_
      rw [List.map_append]
      exact (List.Sublist.refl _).append (List.sublist_append_right _ _)

theorem Transit.setBroker (h : s.Transit) (broker : Fin N) (server : Server) :
    (s.setBroker broker server).Transit :=
  ⟨h.copiesOld, h.deliveredOld, h.once⟩

structure TransitInvariant (name : String) (s : Cluster N) : Prop where
  tables : Invariant name s
  transit : s.Transit

theorem transitInvariant_step (s : Cluster N) (a : ClusterAction N)
    (s' : Cluster N) (h : TransitInvariant name s)
    (hstep : step name s a = some s') : TransitInvariant name s' := by
  refine ⟨invariant_step s a s' h.tables hstep, ?_⟩
  cases a with
  | connect broker client =>
      obtain ⟨-, -, -, server, -, rfl, -⟩ := connect_cases h.tables hstep
      exact h.transit.setBroker broker server
  | disconnect broker client =>
      obtain ⟨-, -, server, rfl, -⟩ := disconnect_cases h.tables hstep
      exact h.transit.setBroker broker server
  | event broker client ackRequested data =>
      exact h.transit.event h.tables hstep
  | clientDispatch index client ackRequested =>
      exact h.transit.clientDispatch h.tables hstep

theorem reachable_transitInvariant (h : (system N name).Reachable s) :
    TransitInvariant name s :=
  h.invariant (P := TransitInvariant name)
    ⟨invariant_initial, transit_initial⟩ transitInvariant_step

/-! ## The union of the session tables -/

theorem Invariant.sessions_iff (h : Invariant name s) (broker : Fin N)
    (target : String) (uuid : UUID) :
    (s.on name broker).handler.sessions target = some uuid ↔
      ∃ client ∈ (s.on name broker).allClients,
        client.sessionId = uuid ∧ client.clientId = some target := by
  constructor
  · exact (h.wellFormed broker).sessions target uuid
  · rintro ⟨client, hclient, rfl, hid⟩
    exact h.exact broker client hclient target hid

theorem Invariant.eq_of_clientId (h : Invariant name s) {broker other : Fin N}
    {first second : SocketIOClient} {target : String}
    (hfirst : first ∈ (s.on name broker).allClients)
    (hsecond : second ∈ (s.on name other).allClients)
    (hfirstId : first.clientId = some target)
    (hsecondId : second.clientId = some target) :
    broker = other ∧ first = second :=
  h.single broker other first (Namespace.mem_live_of_allClients hfirst) second
    (Namespace.mem_live_of_allClients hsecond) (by simp [hfirstId])
    (hfirstId.trans hsecondId.symm)

def union (name : String) (s : Cluster N) (target : String) :
    Option (Fin N × UUID) :=
  (List.finRange N).findSome? fun broker =>
    ((s.on name broker).handler.sessions target).map fun uuid => (broker, uuid)

theorem Invariant.union_eq_some_iff (h : Invariant name s) (target : String)
    (broker : Fin N) (uuid : UUID) :
    s.union name target = some (broker, uuid) ↔
      (s.on name broker).handler.sessions target = some uuid := by
  constructor
  · intro hunion
    obtain ⟨found, -, hentry⟩ := List.exists_of_findSome?_eq_some hunion
    simp only [Option.map_eq_some_iff, Prod.mk.injEq] at hentry
    obtain ⟨uuid', hget, rfl, rfl⟩ := hentry
    exact hget
  · intro hget
    cases hunion : s.union name target with
    | none =>
        rw [union, List.findSome?_eq_none_iff] at hunion
        simpa [hget] using hunion broker (List.mem_finRange broker)
    | some entry =>
        obtain ⟨found, -, hentry⟩ := List.exists_of_findSome?_eq_some hunion
        simp only [Option.map_eq_some_iff] at hentry
        obtain ⟨uuid', hget', rfl⟩ := hentry
        obtain ⟨client, hclient, rfl, hid⟩ :=
          (h.sessions_iff broker target uuid).mp hget
        obtain ⟨client', hclient', rfl, hid'⟩ :=
          (h.sessions_iff found target uuid').mp hget'
        obtain ⟨rfl, rfl⟩ := h.eq_of_clientId hclient' hclient hid' hid
        rfl

/-! ## The fate of one message -/

def AtHome (name target : String) (home : Option (Fin N × SocketIOClient))
    (s : Cluster N) : Prop :=
  ∀ broker client,
    client ∈ (s.on name broker).allClients ∧ client.clientId = some target ↔
      home = some (broker, client)

theorem Invariant.union_of_atHome (h : Invariant name s) {target : String}
    {home : Option (Fin N × SocketIOClient)} (hhome : AtHome name target home s) :
    s.union name target =
      home.map fun place => (place.1, place.2.sessionId) := by
  cases hunion : s.union name target with
  | some entry =>
      obtain ⟨broker, uuid⟩ := entry
      rw [h.union_eq_some_iff, h.sessions_iff] at hunion
      obtain ⟨client, hclient, rfl, hid⟩ := hunion
      rw [(hhome broker client).mp ⟨hclient, hid⟩]
      rfl
  | none =>
      cases home with
      | none => rfl
      | some place =>
          obtain ⟨hclient, hid⟩ := (hhome place.1 place.2).mpr rfl
          have hentry := (h.sessions_iff place.1 target _).mpr
            ⟨place.2, hclient, rfl, hid⟩
          rw [← h.union_eq_some_iff, hunion] at hentry
          cases hentry

/--
Message `id` has either not been delivered, and then a copy is under way to
its target's home, or has been delivered there, and then none is.
-/
structure Pending (id : Nat) (data : MessageInfo)
    (home : Option (Fin N × SocketIOClient)) (s : Cluster N) : Prop where
  issued : id < s.nextId
  content : ∀ copy ∈ s.inflight, copy.id = id → copy.data = data
  outcome :
    s.deliveriesOf id = [] ∧ (∀ place, home = some place →
        ∃ copy ∈ s.inflight, copy.id = id ∧ copy.dest = place.1) ∨
      ∃ place, home = some place ∧
        s.deliveriesOf id = [⟨id, place.1, place.2, data⟩] ∧
        ∀ copy ∈ s.inflight, copy.id = id → copy.dest ≠ place.1

variable {id : Nat} {data : MessageInfo} {target : String}
  {home : Option (Fin N × SocketIOClient)}

theorem Pending.of_same (h : Pending id data home s)
    (hnext : s.nextId ≤ s'.nextId) (hi : s'.inflight = s.inflight)
    (hd : s'.deliveriesOf id = s.deliveriesOf id) :
    Pending id data home s' := by
  refine ⟨by have := h.issued; omega, ?_, ?_⟩
  · rw [hi]
    exact h.content
  · rw [hi, hd]
    exact h.outcome

theorem Pending.event (h : Pending id data home s) {broker : Fin N}
    {client : SocketIOClient} {ackRequested : Bool} {other : MessageInfo}
    (hinv : Invariant name s)
    (hstep : step name s (.event broker client ackRequested other) =
      some s') : Pending id data home s' := by
  obtain ⟨-, hnext, hcases⟩ := event_cases hinv hstep
  have hissued := h.issued
  rcases hcases with ⟨receiver, -, -, hd, hi⟩ | ⟨target, -, -, hd, hi⟩ |
    ⟨-, hd, hi⟩
  · refine h.of_same (by omega) hi ?_
    rw [deliveriesOf_append id _ hd, if_neg (by simp only; omega)]
    simp
  · have hmem : ∀ copy, copy.id = id →
        (copy ∈ s'.inflight ↔ copy ∈ s.inflight) := by
      intro copy hid
      constructor
      · intro hcopy
        rcases mem_dispatched hi hcopy with hold | ⟨hnew, -⟩
        · exact hold
        · omega
      · intro hcopy
        rw [hi]
        exact List.mem_append_left _ hcopy
    refine ⟨by omega, ?_, ?_⟩
    · intro copy hcopy hid
      exact h.content copy ((hmem copy hid).mp hcopy) hid
    · rw [deliveriesOf_same id hd]
      rcases h.outcome with ⟨hnone, hway⟩ | ⟨place, hplace, hone, haway⟩
      · refine Or.inl ⟨hnone, fun place hplace => ?_⟩
        obtain ⟨copy, hcopy, hid, hdest⟩ := hway place hplace
        exact ⟨copy, (hmem copy hid).mpr hcopy, hid, hdest⟩
      · refine Or.inr ⟨place, hplace, hone, fun copy hcopy hid => ?_⟩
        exact haway copy ((hmem copy hid).mp hcopy) hid
  · exact h.of_same (by omega) hi (deliveriesOf_same id hd)

theorem Transit.other_dest (h : s.Transit) {index : Nat}
    {copy : DispatchCopy N} (hcopy : s.inflight[index]? = some copy)
    {other : DispatchCopy N} (hother : other ∈ s.inflight.eraseIdx index)
    (hid : other.id = copy.id) : other.dest ≠ copy.dest := by
  have hnodup := (List.nodup_append.mp (h.once copy.id)).2.1
  have hperm := (perm_eraseIdx hcopy).filter
    fun other => decide (other.id = copy.id)
  rw [copiesOf, (hperm.map DispatchCopy.dest).nodup_iff] at hnodup
  simp only [decide_true, List.filter_cons_of_pos, List.map_cons,
    List.nodup_cons, List.mem_map, List.mem_filter, decide_eq_true_eq] at hnodup
  intro hdest
  exact hnodup.1 ⟨other, ⟨hother, hid⟩, hdest⟩

theorem Pending.used (h : Pending id data home s) {index : Nat}
    {copy : DispatchCopy N} (hcopy : s.inflight[index]? = some copy)
    (hnext : s.nextId ≤ s'.nextId) (hi : s'.inflight = s.inflight.eraseIdx index)
    (hd : s'.deliveriesOf id = s.deliveriesOf id)
    (haway : ∀ place, home = some place → copy.id = id →
      copy.dest ≠ place.1) : Pending id data home s' := by
  have hstays : ∀ other ∈ s.inflight, other ≠ copy →
      other ∈ s'.inflight := by
    intro other hother hne
    rw [hi, List.mem_eraseIdx_iff_getElem?]
    obtain ⟨i, hget⟩ := List.getElem?_of_mem hother
    refine ⟨i, ?_, hget⟩
    rintro rfl
    rw [hget] at hcopy
    exact hne (Option.some.inj hcopy)
  constructor
  · exact Nat.lt_of_lt_of_le h.issued hnext
  · rw [hi]
    intro other hother
    exact h.content other (List.mem_of_mem_eraseIdx hother)
  · rw [hd]
    cases h.outcome with
    | inl hopen =>
        refine Or.inl ⟨hopen.1, fun place hplace => ?_⟩
        obtain ⟨other, hother, hid, hdest⟩ := hopen.2 place hplace
        refine ⟨other, hstays other hother ?_, hid, hdest⟩
        rintro rfl
        exact haway place hplace hid hdest
    | inr hdone =>
        obtain ⟨place, hplace, hone, hnone⟩ := hdone
        refine Or.inr ⟨place, hplace, hone, fun other hother => ?_⟩
        rw [hi] at hother
        exact hnone other (List.mem_of_mem_eraseIdx hother)

theorem Pending.clientDispatch (h : Pending id data home s) {index : Nat}
    {client : SocketIOClient} {ackRequested : Bool}
    (hinv : TransitInvariant name s) (hhome : AtHome name target home s)
    (htarget : data.targetClientId = some target)
    (hstep : step name s (.clientDispatch index client ackRequested) =
      some s') : Pending id data home s' := by
  obtain ⟨copy, hcopy, -, hnext, hi, hcases⟩ :=
    clientDispatch_cases hinv.tables hstep
  have hmem : copy ∈ s.inflight := List.mem_of_getElem? hcopy
  have hle : s.nextId ≤ s'.nextId := by omega
  rcases hcases with ⟨receiver, hreceiver, hreceiverId, hd⟩ | ⟨hnone, hd⟩
  · by_cases hid : copy.id = id
    · -- delivered at home: the first disjunct turns into the second
      rw [h.content copy hmem hid, htarget] at hreceiverId
      have hplace := (hhome copy.dest receiver).mp ⟨hreceiver, hreceiverId⟩
      have hdelivered := deliveriesOf_append id _ hd
      refine ⟨Nat.lt_of_lt_of_le h.issued hle, ?_, ?_⟩
      · rw [hi]
        intro other hother
        exact h.content other (List.mem_of_mem_eraseIdx hother)
      · rcases h.outcome with ⟨hbefore, -⟩ | ⟨place, hsome, -, haway⟩
        · refine Or.inr ⟨_, hplace, ?_, ?_⟩
          · simp [hdelivered, hbefore, hid, h.content copy hmem hid]
          · rw [hi]
            intro other hother hotherId
            exact hinv.transit.other_dest hcopy hother
              (hotherId.trans hid.symm)
        · rw [hplace] at hsome
          cases hsome
          exact absurd rfl (haway copy hmem hid)
    · apply h.used hcopy hle hi
      · rw [deliveriesOf_append id _ hd, if_neg hid, List.append_nil]
      · exact fun _ _ hsame => absurd hsame hid
  · apply h.used hcopy hle hi (deliveriesOf_same id hd)
    -- the home broker has the entry, so this copy is not the one that leads home
    intro place hplace hid hdest
    obtain ⟨hin, hown⟩ := (hhome place.1 place.2).mpr hplace
    have hentry := hnone target (by rw [h.content copy hmem hid, htarget])
    rw [hdest, (hinv.tables.exact place.1) place.2 hin target hown] at hentry
    cases hentry

theorem Pending.step (h : Pending id data home s) (hinv : TransitInvariant name s)
    (hhome : AtHome name target home s)
    (htarget : data.targetClientId = some target) {a : ClusterAction N}
    (hstep : Cluster.step name s a = some s') : Pending id data home s' := by
  cases a with
  | connect broker client =>
      obtain ⟨-, -, -, server, -, rfl, -⟩ := connect_cases hinv.tables hstep
      exact h.of_same le_rfl rfl rfl
  | disconnect broker client =>
      obtain ⟨-, -, server, rfl, -⟩ := disconnect_cases hinv.tables hstep
      exact h.of_same le_rfl rfl rfl
  | event broker client ackRequested other =>
      exact h.event hinv.tables hstep
  | clientDispatch index client ackRequested =>
      exact h.clientDispatch hinv hhome htarget hstep

theorem pending_of_event {broker : Fin N} {client : SocketIOClient}
    {ackRequested : Bool} (hinv : TransitInvariant name s)
    (hhome : AtHome name target home s)
    (htarget : data.targetClientId = some target) (hne : target ≠ "")
    (hstep : Cluster.step name s (.event broker client ackRequested data) =
      some s') : Pending s.nextId data home s' := by
  obtain ⟨-, hnext, hcases⟩ := event_cases hinv.tables hstep
  have hold : ∀ copy ∈ s.inflight, copy.id ≠ s.nextId := by
    intro copy hcopy
    have := hinv.transit.copiesOld copy hcopy
    omega
  rcases hcases with ⟨receiver, hreceiver, hid, hd, hi⟩ |
    ⟨other, hother, hget, hd, hi⟩ | ⟨hempty, -⟩
  · have hplace := (hhome broker receiver).mp ⟨hreceiver, hid.trans htarget⟩
    refine ⟨by omega, ?_, Or.inr ⟨_, hplace, ?_, ?_⟩⟩
    · rw [hi]
      intro copy hcopy hcopyId
      exact absurd hcopyId (hold copy hcopy)
    · rw [deliveriesOf_append _ _ hd, hinv.transit.deliveriesOf_fresh]
      simp
    · rw [hi]
      intro copy hcopy hcopyId
      exact absurd hcopyId (hold copy hcopy)
  · rw [htarget] at hother
    cases hother
    refine ⟨by omega, ?_, Or.inl ⟨?_, ?_⟩⟩
    · intro copy hcopy hcopyId
      rcases mem_dispatched hi hcopy with hcopy | ⟨-, hdata⟩
      · exact absurd hcopyId (hold copy hcopy)
      · exact hdata
    · exact (deliveriesOf_same _ hd).trans hinv.transit.deliveriesOf_fresh
    · intro place hplace
      obtain ⟨hin, hown⟩ := (hhome place.1 place.2).mpr hplace
      have helse : place.1 ≠ broker := by
        rintro rfl
        rw [hinv.tables.exact place.1 place.2 hin target hown] at hget
        cases hget
      refine ⟨⟨s.nextId, place.1, data⟩, ?_, rfl, rfl⟩
      rw [hi]
      simp [helse]
  · simp [isEmpty, htarget, hne] at hempty

structure Settled (name : String) (id : Nat) (fate : List (P2pDelivery N))
    (s : Cluster N) : Prop where
  invariant : TransitInvariant name s
  issued : id < s.nextId
  noCopy : ∀ copy ∈ s.inflight, copy.id ≠ id
  delivered : s.deliveriesOf id = fate

theorem Settled.step {fate : List (P2pDelivery N)} (h : Settled name id fate s)
    {a : ClusterAction N} (hstep : Cluster.step name s a = some s') :
    Settled name id fate s' := by
  obtain ⟨hinv, hissued, hnone, rfl⟩ := h
  have hinv' := transitInvariant_step s a s' hinv hstep
  suffices hrest : id < s'.nextId ∧ (∀ copy ∈ s'.inflight, copy.id ≠ id) ∧
      s'.deliveriesOf id = s.deliveriesOf id from
    ⟨hinv', hrest.1, hrest.2.1, hrest.2.2⟩
  cases a with
  | connect broker client =>
      obtain ⟨-, -, -, server, -, rfl, -⟩ := connect_cases hinv.tables hstep
      exact ⟨hissued, hnone, rfl⟩
  | disconnect broker client =>
      obtain ⟨-, -, server, rfl, -⟩ := disconnect_cases hinv.tables hstep
      exact ⟨hissued, hnone, rfl⟩
  | event broker client ackRequested other =>
      obtain ⟨-, hnext, hcases⟩ := event_cases hinv.tables hstep
      refine ⟨by omega, ?_⟩
      rcases hcases with ⟨receiver, -, -, hd, hi⟩ | ⟨target, -, -, hd, hi⟩ |
        ⟨-, hd, hi⟩
      · rw [hi, deliveriesOf_append id _ hd, if_neg (by simp only; omega)]
        exact ⟨hnone, by simp⟩
      · refine ⟨fun copy hcopy => ?_, deliveriesOf_same id hd⟩
        rcases mem_dispatched hi hcopy with hcopy | ⟨hnew, -⟩
        · exact hnone copy hcopy
        · omega
      · rw [hi]
        exact ⟨hnone, deliveriesOf_same id hd⟩
  | clientDispatch index client ackRequested =>
      obtain ⟨copy, hcopy, -, hnext, hi, hcases⟩ :=
        clientDispatch_cases hinv.tables hstep
      have hother : copy.id ≠ id := hnone copy (List.mem_of_getElem? hcopy)
      refine ⟨by omega, ?_, ?_⟩
      · rw [hi]
        intro other hmem
        exact hnone other (List.mem_of_mem_eraseIdx hmem)
      · rcases hcases with ⟨receiver, -, -, hd⟩ | ⟨-, hd⟩
        · rw [deliveriesOf_append id _ hd, if_neg hother]
          simp
        · exact deliveriesOf_same id hd

theorem deliveries_of_atHome (home : Option (Fin N × SocketIOClient))
    {s₀ s₁ s₂ s₃ : Cluster N} {broker : Fin N} {sender : SocketIOClient}
    {ackRequested : Bool}
    {span rest : List (ClusterAction N)}
    (hreach : (system N name).Reachable s₀)
    (htarget : data.targetClientId = some target) (hne : target ≠ "")
    (hsend : Cluster.step name s₀ (.event broker sender ackRequested data) =
      some s₁)
    (hspan : (system N name).runFrom s₁ span = some s₂)
    (hdone : ∀ copy ∈ s₂.inflight, copy.id ≠ s₀.nextId)
    (hrest : (system N name).runFrom s₂ rest = some s₃)
    (hhome : (system N name).Throughout (AtHome name target home) s₀
      (.event broker sender ackRequested data :: span)) :
    s₃.deliveriesOf s₀.nextId = home.toList.map fun place =>
      ⟨s₀.nextId, place.1, place.2, data⟩ := by
  have hinv₀ := reachable_transitInvariant hreach
  have hinv₁ := transitInvariant_step _ _ _ hinv₀ hsend
  have hpending₁ := pending_of_event hinv₀ hhome.1 htarget hne hsend
  have hend : TransitInvariant name s₂ ∧ Pending s₀.nextId data home s₂ := by
    refine TransitionSystem.Throughout.invariant
      (Q := fun s => TransitInvariant name s ∧ Pending s₀.nextId data home s)
      ?_ (hhome.2 s₁ hsend) ⟨hinv₁, hpending₁⟩ hspan
    intro s a s' hs _ hq hstep
    exact ⟨transitInvariant_step s a s' hq.1 hstep,
      hq.2.step hq.1 hs htarget hstep⟩
  obtain ⟨hinv₂, hpending₂⟩ := hend
  have hfate : s₂.deliveriesOf s₀.nextId = home.toList.map fun place =>
      ⟨s₀.nextId, place.1, place.2, data⟩ := by
    rcases hpending₂.outcome with ⟨hnone, hway⟩ | ⟨place, rfl, hone, -⟩
    · cases home with
      | none => exact hnone
      | some place =>
          obtain ⟨copy, hcopy, hid, -⟩ := hway place rfl
          exact absurd hid (hdone copy hcopy)
    · exact hone
  have hsettled : Settled name s₀.nextId _ s₂ :=
    ⟨hinv₂, hpending₂.issued, hdone, hfate⟩
  exact (TransitionSystem.runFrom_invariant (P := Settled name s₀.nextId _)
    (fun _ _ _ h hstep => h.step hstep) hsettled hrest).delivered

/-! ## Staying connected, or away -/

def ConnectedAt (name target : String) (home : Fin N)
    (receiver : SocketIOClient) (s : Cluster N) : Prop :=
  receiver ∈ (s.on name home).allClients ∧ receiver.clientId = some target

def ConnectedNowhere (name target : String) (s : Cluster N) : Prop :=
  ∀ broker, ∀ client ∈ (s.on name broker).allClients,
    client.clientId ≠ some target

instance (name target : String) (home : Fin N) (receiver : SocketIOClient) :
    DecidablePred (ConnectedAt name target home receiver) :=
  fun s => inferInstanceAs (Decidable
    (receiver ∈ (s.on name home).allClients ∧ receiver.clientId = some target))

theorem Invariant.atHome_of_connectedAt (h : Invariant name s) {home : Fin N}
    {receiver : SocketIOClient} (hat : ConnectedAt name target home receiver s) :
    AtHome name target (some (home, receiver)) s := by
  intro broker client
  constructor
  · rintro ⟨hclient, hid⟩
    obtain ⟨rfl, rfl⟩ := h.eq_of_clientId hat.1 hclient hat.2 hid
    rfl
  · intro heq
    cases heq
    exact hat

theorem atHome_of_connectedNowhere (h : ConnectedNowhere name target s) :
    AtHome name target none s := by
  intro broker client
  constructor
  · rintro ⟨hclient, hid⟩
    exact absurd hid (h broker client hclient)
  · intro heq
    cases heq

/-- What one broker with the given table does with a message to one client. -/
def oneBrokerDelivers (table : String → Option (Fin N × UUID))
    (data : MessageInfo) : List (Fin N × UUID) :=
  (data.targetClientId.bind table).toList

/--
A message whose target stays connected to one broker until its copies are
processed is delivered to the target's session exactly once and to no other;
one whose target is connected nowhere is delivered to nobody.  Both are what
one broker holding the union of the tables does, and no dispatched copy is
dispatched again.
-/
theorem cluster_delivers_as_one_broker {s₀ s₁ s₂ s₃ : Cluster N}
    {broker : Fin N} {sender : SocketIOClient} {ackRequested : Bool}
    {span rest : List (ClusterAction N)}
    (hreach : (system N name).Reachable s₀)
    (htarget : data.targetClientId = some target) (hne : target ≠ "")
    (hsend : Cluster.step name s₀ (.event broker sender ackRequested data) =
      some s₁)
    (hspan : (system N name).runFrom s₁ span = some s₂)
    (hdone : ∀ copy ∈ s₂.inflight, copy.id ≠ s₀.nextId)
    (hrest : (system N name).runFrom s₂ rest = some s₃) :
    (∀ home receiver, (system N name).Throughout
        (ConnectedAt name target home receiver) s₀
        (.event broker sender ackRequested data :: span) →
      s₃.deliveriesOf s₀.nextId = [⟨s₀.nextId, home, receiver, data⟩] ∧
      oneBrokerDelivers (s₀.union name) data = [(home, receiver.sessionId)]) ∧
    ((system N name).Throughout (ConnectedNowhere name target) s₀
        (.event broker sender ackRequested data :: span) →
      s₃.deliveriesOf s₀.nextId = [] ∧
      oneBrokerDelivers (s₀.union name) data = []) ∧
    (∀ client broker uuid, s₀.union name client = some (broker, uuid) ↔
      (s₀.on name broker).handler.sessions client = some uuid) ∧
    ∀ s s' index client ack, (system N name).Reachable s →
      Cluster.step name s (.clientDispatch index client ack) = some s' →
      s'.inflight = s.inflight.eraseIdx index := by
  have hinv := reachable_invariant hreach
  have hfate := fun home => deliveries_of_atHome home hreach htarget
    hne hsend hspan hdone hrest
  refine ⟨fun home receiver hat => ?_, fun hnowhere => ?_,
    fun client broker uuid => hinv.union_eq_some_iff client broker uuid, ?_⟩
  · have hhome := hat.imp_of_invariant
      (Q := AtHome name target (some (home, receiver))) invariant_step hinv
      fun s hs hat => hs.atHome_of_connectedAt hat
    refine ⟨hfate _ hhome, ?_⟩
    simp [oneBrokerDelivers, htarget, hinv.union_of_atHome hhome.1]
  · have hhome := hnowhere.imp_of_invariant
      (Q := AtHome name target none) invariant_step hinv
      fun s _ haway => atHome_of_connectedNowhere haway
    refine ⟨hfate _ hhome, ?_⟩
    simp [oneBrokerDelivers, htarget, hinv.union_of_atHome hhome.1]
  · intro s s' index client ack hs hstep
    obtain ⟨copy, -, -, -, hi, -⟩ :=
      clientDispatch_cases (reachable_invariant hs) hstep
    exact hi

def aliceBesideBob : List (ClusterAction 2) :=
  [.connect 0 (clientNamed 1 "alice"), .connect 1 (clientNamed 2 "bob")]

theorem cluster_delivers_as_one_broker_run :
    ∃ s₀ s₁ s₂, (system 2 defaultName).run aliceBesideBob = some s₀ ∧
      Cluster.step defaultName s₀
        (.event 0 (clientNamed 1 "alice") true (messageTo "bob")) = some s₁ ∧
      (system 2 defaultName).runFrom s₁
        [.clientDispatch 0 (clientNamed 1 "alice") false] = some s₂ ∧
      s₂.deliveriesOf s₀.nextId =
        [⟨s₀.nextId, 1, clientNamed 2 "bob", messageTo "bob"⟩] := by
  refine ⟨_, _, _, rfl, rfl, rfl, ?_⟩
  have hrun := @cluster_delivers_as_one_broker 2 defaultName (messageTo "bob")
    "bob" _ _ _ _ 0 (clientNamed 1 "alice") true
    [.clientDispatch 0 (clientNamed 1 "alice") false] []
    ⟨aliceBesideBob, rfl⟩ rfl (by decide) rfl rfl (by decide) rfl
  exact (hrun.1 1 (clientNamed 2 "bob") (by decide)).1

end Cluster

end WebIm.SocketIO
