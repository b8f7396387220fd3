import WebIm.Sdk.Client

/-!
# The sockets of an SDK client

`start` replaces the socket field whatever it holds, and `stop` closes only
what the field holds.
-/

namespace WebIm.Sdk

open WebIm.Foundation WebIm.SocketIO

variable {lib : JsonLibraries} {clientConfig : Option SocketIOClientConfig}

namespace ClientState

def openSockets (s : ClientState lib) : List OpenedSocket :=
  s.client.sockets.filter OpenedSocket.isOpen

def heard (s : ClientState lib) (name : String) : Nat :=
  (s.openSockets.flatMap fun opened =>
    opened.listeners.callbacks name).count .abstractBase

structure OneSocket (s : ClientState lib) : Prop where
  atMostOne : s.openSockets.length ≤ 1
  heardOnce : ∀ name, s.heard name ≤ 1
  closed : s.started = false → s.openSockets = []

def StartsStopped (s : ClientState lib) : ClientAction lib → Prop
  | .start => s.started = false
  | _ => True

end ClientState

/-! ## Opening and closing in the list of sockets -/

theorem length_filter_close {sockets : List OpenedSocket} {i : Nat}
    {opened : OpenedSocket} (hget : sockets[i]? = some opened) :
    ((sockets.modify i fun opened => { opened with isOpen := false }).filter
        OpenedSocket.isOpen).length + opened.isOpen.toNat =
      (sockets.filter OpenedSocket.isOpen).length := by
  induction sockets generalizing i with
  | nil => simp at hget
  | cons first sockets ih =>
      cases i with
      | zero =>
          rw [List.getElem?_cons_zero, Option.some.injEq] at hget
          rw [List.modify_zero_cons, List.filter_cons_of_neg (by simp), hget,
            List.filter_cons]
          cases opened.isOpen with
          | false => rfl
          | true => rfl
      | succ i =>
          rw [List.getElem?_cons_succ] at hget
          have htail := ih hget
          rw [List.modify_succ_cons, List.filter_cons, List.filter_cons]
          split
          · rw [List.length_cons, List.length_cons]
            omega
          · exact htail

theorem modify_append_length {α : Type} (l : List α) (a : α) (f : α → α) :
    (l ++ [a]).modify l.length f = l ++ [f a] := by
  induction l with
  | nil => rfl
  | cons b l ih => simp [ih]

/-! ## What each action does to the sockets -/

namespace ClientState

structure Tracked (clientConfig : Option SocketIOClientConfig)
    (s : ClientState lib) : Prop where
  made : ∀ opened ∈ s.client.sockets,
    initConnect clientConfig = some opened.listeners
  absent : initConnect clientConfig = none → s.client.socket = none
  current : s.started = true → ∃ i opened, s.client.socket = some i ∧
    s.client.sockets[i]? = some opened ∧ opened.isOpen = true

theorem start_of_initConnect (s : ClientState lib) {socket : Socket}
    (h : initConnect clientConfig = some socket) :
    s.start clientConfig =
      { s with
        client := { s.client with
          sockets := s.client.sockets ++ [⟨socket, true⟩]
          socket := some s.client.sockets.length }
        started := true } := by
  simp [start, AbstractBaseSocketIOClient.start, h,
    AbstractBaseSocketIOClient.assignSocket, AbstractBaseSocketIOClient.setOpen,
    modify_append_length]

theorem start_of_absent {s : ClientState lib} (hs : s.Tracked clientConfig)
    (h : initConnect clientConfig = none) :
    s.start clientConfig = { s with started := false } := by
  simp [start, AbstractBaseSocketIOClient.start, h,
    AbstractBaseSocketIOClient.assignSocket, hs.absent h]

theorem sockets_stop (s : ClientState lib) :
    s.stop.client.sockets =
      match s.client.socket with
      | none => s.client.sockets
      | some i => s.client.sockets.modify i fun opened =>
          { opened with isOpen := false } := by
  rw [stop, AbstractBaseSocketIOClient.stop_eq]
  rfl

theorem socket_stop (s : ClientState lib) :
    s.stop.client.socket = s.client.socket := by
  rw [stop, AbstractBaseSocketIOClient.stop_eq]

structure SameSockets (s s' : ClientState lib) : Prop where
  sockets : s'.client.sockets = s.client.sockets
  socket : s'.client.socket = s.client.socket
  started : s'.started = s.started

theorem sameSockets_sendMsg (s : ClientState lib) (endPoint : String)
    (msg : Option MessageInfo) (isAck : Bool) :
    s.SameSockets (s.sendMsg endPoint msg isAck) := by
  obtain ⟨acks, emitted, hsent, -⟩ :=
    s.client.sendMsg_cases endPoint msg isAck
  rw [sendMsg, hsent]
  exact ⟨rfl, rfl, rfl⟩

theorem sameSockets_deliver (s : ClientState lib) (send : Nat)
    (ack : MsgSenderAck) (values : List (AckValue lib)) :
    s.SameSockets (s.deliver send ack values) := by
  unfold deliver
  dsimp only
  split <;> split <;> exact ⟨rfl, rfl, rfl⟩

theorem step_cases {s s' : ClientState lib} {a : ClientAction lib}
    (h : step clientConfig s a = some s') :
    (a = .start ∧ s' = s.start clientConfig) ∨ (a = .stop ∧ s' = s.stop) ∨
      (a ≠ .start ∧ s.SameSockets s') := by
  cases a with
  | start => exact Or.inl ⟨rfl, (Option.some.inj h).symm⟩
  | stop => exact Or.inr (Or.inl ⟨rfl, (Option.some.inj h).symm⟩)
  | sendMsg endPoint msg isAck =>
      cases h
      exact Or.inr (Or.inr ⟨by simp, s.sameSockets_sendMsg endPoint msg isAck⟩)
  | ack send values =>
      obtain ⟨ack, -, rfl⟩ := Option.map_eq_some_iff.mp h
      exact Or.inr (Or.inr ⟨by simp, s.sameSockets_deliver send ack values⟩)
  | runTask send =>
      simp only [step, Option.ite_none_right_eq_some, Option.some.injEq] at h
      rw [← h.2]
      exact Or.inr (Or.inr ⟨by simp, rfl, rfl, rfl⟩)

/-! ## The invariant -/

theorem tracked_initial : (initial : ClientState lib).Tracked clientConfig where
  made := by simp [initial, AbstractBaseSocketIOClient.new]
  absent := fun _ => rfl
  current := by simp [initial]

theorem Tracked.start {s : ClientState lib} (hs : s.Tracked clientConfig) :
    (s.start clientConfig).Tracked clientConfig := by
  cases hconfig : initConnect clientConfig with
  | none =>
      rw [start_of_absent hs hconfig]
      exact ⟨hs.made, hs.absent, by simp⟩
  | some socket =>
      rw [start_of_initConnect s hconfig]
      constructor
      · intro opened hopened
        cases List.mem_append.mp hopened with
        | inl hold => exact hs.made opened hold
        | inr hnew =>
            rw [List.mem_singleton.mp hnew]
            exact hconfig
      · intro habsent
        rw [hconfig] at habsent
        cases habsent
      · intro _
        exact ⟨s.client.sockets.length, ⟨socket, true⟩, rfl,
          List.getElem?_concat_length, rfl⟩

theorem Tracked.stop {s : ClientState lib} (hs : s.Tracked clientConfig) :
    s.stop.Tracked clientConfig := by
  constructor
  · intro opened hopened
    rw [sockets_stop] at hopened
    cases hsocket : s.client.socket with
    | none =>
        rw [hsocket] at hopened
        exact hs.made opened hopened
    | some i =>
        rw [hsocket] at hopened
        obtain ⟨j, hj⟩ := List.mem_iff_getElem?.mp hopened
        rw [List.getElem?_modify] at hj
        obtain ⟨old, hold, heq⟩ := Option.map_eq_some_iff.mp hj
        have hmade := hs.made old (List.mem_of_getElem? hold)
        rw [hmade, ← heq]
        split <;> rfl
  · intro habsent
    rw [socket_stop]
    exact hs.absent habsent
  · intro hstarted
    cases hstarted

theorem Tracked.sameSockets {s s' : ClientState lib}
    (hs : s.Tracked clientConfig) (h : s.SameSockets s') :
    s'.Tracked clientConfig := by
  constructor
  · rw [h.sockets]
    exact hs.made
  · rw [h.socket]
    exact hs.absent
  · rw [h.sockets, h.socket, h.started]
    exact hs.current

theorem tracked_step (s : ClientState lib) (a : ClientAction lib)
    (s' : ClientState lib) (hs : s.Tracked clientConfig)
    (h : step clientConfig s a = some s') : s'.Tracked clientConfig := by
  rcases step_cases h with ⟨-, rfl⟩ | ⟨-, rfl⟩ | ⟨-, hsame⟩
  · exact hs.start
  · exact hs.stop
  · exact hs.sameSockets hsame

theorem Tracked.heard_le {s : ClientState lib} (hs : s.Tracked clientConfig)
    (name : String) : s.heard name ≤ s.openSockets.length := by
  have hmade : ∀ opened ∈ s.openSockets,
      (opened.listeners.callbacks name).count .abstractBase ≤ 1 := by
    intro opened hopened
    exact count_callbacks_initConnect
      (hs.made opened (List.mem_of_mem_filter hopened)) name
  unfold heard
  generalize s.openSockets = sockets at hmade
  induction sockets with
  | nil => exact Nat.le_refl 0
  | cons opened sockets ih =>
      have hfirst := hmade opened List.mem_cons_self
      have hrest := ih fun other hother =>
        hmade other (List.mem_cons_of_mem opened hother)
      rw [List.flatMap_cons, List.count_append, List.length_cons]
      omega

/-! ## Which steps keep one socket -/

theorem oneSocket_start_iff {s : ClientState lib} (hs : s.Tracked clientConfig)
    (hone : s.OneSocket) :
    (s.start clientConfig).OneSocket ↔ s.started = false := by
  cases hconfig : initConnect clientConfig with
  | none =>
      have hstopped : s.started = false := by
        cases hstarted : s.started with
        | false => rfl
        | true =>
            obtain ⟨i, opened, hsocket, -⟩ := hs.current hstarted
            rw [hs.absent hconfig] at hsocket
            cases hsocket
      rw [start_of_absent hs hconfig]
      apply iff_of_true _ hstopped
      exact ⟨hone.atMostOne, hone.heardOnce, fun _ => hone.closed hstopped⟩
  | some socket =>
      have hopen : (s.start clientConfig).openSockets =
          s.openSockets ++ [⟨socket, true⟩] := by
        rw [start_of_initConnect s hconfig]
        simp [openSockets, List.filter_append]
      constructor
      · intro hafter
        cases hstarted : s.started with
        | false => rfl
        | true =>
            obtain ⟨i, opened, -, hget, hisOpen⟩ := hs.current hstarted
            have hmem : opened ∈ s.openSockets :=
              List.mem_filter.mpr ⟨List.mem_of_getElem? hget, hisOpen⟩
            have hpos := List.length_pos_of_mem hmem
            have hle := hafter.atMostOne
            rw [hopen, List.length_append, List.length_singleton] at hle
            omega
      · intro hstopped
        have hlength : (s.start clientConfig).openSockets.length = 1 := by
          rw [hopen, hone.closed hstopped]
          rfl
        constructor
        · exact Nat.le_of_eq hlength
        · intro name
          rw [← hlength]
          exact hs.start.heard_le name
        · intro hstarted
          rw [start_of_initConnect s hconfig] at hstarted
          cases hstarted

theorem openSockets_stop {s : ClientState lib} (hs : s.Tracked clientConfig)
    (hone : s.OneSocket) : s.stop.openSockets = [] := by
  apply List.eq_nil_of_length_eq_zero
  rw [openSockets, sockets_stop]
  have hle := hone.atMostOne
  rw [openSockets] at hle
  cases hstarted : s.started with
  | true =>
      obtain ⟨i, opened, hsocket, hget, hisOpen⟩ := hs.current hstarted
      have hless := length_filter_close hget
      rw [hisOpen, Bool.toNat_true] at hless
      rw [hsocket]
      dsimp only
      omega
  | false =>
      have hnone := congrArg List.length (hone.closed hstarted)
      rw [openSockets, List.length_nil] at hnone
      cases s.client.socket with
      | none => exact hnone
      | some i =>
          dsimp only
          cases hget : s.client.sockets[i]? with
          | none =>
              rw [List.modify_eq_self (List.getElem?_eq_none_iff.mp hget)]
              exact hnone
          | some opened =>
              have hless := length_filter_close hget
              omega

theorem oneSocket_stop {s : ClientState lib} (hs : s.Tracked clientConfig)
    (hone : s.OneSocket) : s.stop.OneSocket := by
  have hclosed := openSockets_stop hs hone
  constructor
  · simp [hclosed]
  · simp [heard, hclosed]
  · exact fun _ => hclosed

theorem OneSocket.sameSockets {s s' : ClientState lib} (hone : s.OneSocket)
    (h : s.SameSockets s') : s'.OneSocket := by
  have hopen : s'.openSockets = s.openSockets := by
    rw [openSockets, openSockets, h.sockets]
  constructor
  · rw [hopen]
    exact hone.atMostOne
  · intro name
    rw [heard, hopen]
    exact hone.heardOnce name
  · rw [hopen, h.started]
    exact hone.closed

theorem oneSocket_step_iff (s : ClientState lib) (a : ClientAction lib)
    (s' : ClientState lib) (hs : s.Tracked clientConfig) (hone : s.OneSocket)
    (h : step clientConfig s a = some s') :
    s'.OneSocket ↔ s.StartsStopped a := by
  rcases step_cases h with ⟨rfl, rfl⟩ | ⟨rfl, rfl⟩ | ⟨hother, hsame⟩
  · exact oneSocket_start_iff hs hone
  · exact iff_of_true (oneSocket_stop hs hone) trivial
  · apply iff_of_true (hone.sameSockets hsame)
    cases a with
    | start => exact absurd rfl hother
    | stop | sendMsg _ _ _ | ack _ _ | runTask _ => trivial

theorem oneSocket_initial : (initial : ClientState lib).OneSocket := by
  constructor <;> simp [initial, openSockets, heard,
    AbstractBaseSocketIOClient.new]

/--
A client never has two sockets open, and none behind a `stop`, exactly when it
is never started twice without a `stop` in between.
-/
theorem oneSocket_iff (lib : JsonLibraries)
    (clientConfig : Option SocketIOClientConfig)
    (actions : List (ClientAction lib)) :
    (system lib clientConfig).Throughout OneSocket initial actions ↔
      (system lib clientConfig).EveryStep StartsStopped initial actions :=
  TransitionSystem.throughout_iff_everyStep (I := Tracked clientConfig)
    tracked_step oneSocket_step_iff actions tracked_initial oneSocket_initial

/-! ## Started twice -/

def validConfig : Option SocketIOClientConfig :=
  some ⟨some "http://broker", endpointP2p⟩

theorem two_sockets_open :
    ∃ s t : ClientState plainJson,
      (system plainJson validConfig).run [.start, .start] = some s ∧
      s.openSockets.length = 2 ∧ s.heard endpointP2p = 2 ∧
      (system plainJson validConfig).run [.start, .start, .stop] = some t ∧
      t.openSockets.length = 1 ∧
      ¬ (system plainJson validConfig).Throughout OneSocket initial
          [.start, .start, .stop] := by
  refine ⟨_, _, rfl, rfl, by decide, rfl, rfl, fun hone => ?_⟩
  have htwo := (hone.2 _ rfl).2 _ rfl
  exact absurd htwo.head.atMostOne (by decide)

end ClientState

end WebIm.Sdk
