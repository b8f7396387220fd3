import WebIm.Sdk.Client

/-!
# The futures of acknowledged sends

The pool of a client lives as long as the client.  A `stop` shuts it down and
the next `start` does not replace it, so an acknowledgement that comes after
that finds a pool that rejects its task.
-/

namespace WebIm.Sdk

open WebIm.Foundation WebIm.SocketIO

variable {lib : JsonLibraries} {clientConfig : Option SocketIOClientConfig}

/-! ## One acknowledgement -/

theorem MsgSenderAck.run_run (ack : MsgSenderAck) : ack.run.run = ack.run := by
  simp only [run, FutureTask.run_run]

theorem MsgSenderAck.outcome_run (ack : MsgSenderAck) :
    ack.run.result.outcome = ack.result.outcome.or (some true) :=
  FutureTask.outcome_run ack.result true

theorem MsgSenderAck.call_eq (msg : MessageInfo) (result : Nat)
    (values : List (AckValue lib)) (executors : ThreadPool Nat) :
    call msg result (values.map AckValue.argument) executors =
      executors.submitMany result (values.countP (·.carries msg)) := by
  induction values generalizing executors with
  | nil => rfl
  | cons value values ih =>
      cases value with
      | data m roundTrips =>
          simp only [List.map_cons, AckValue.argument, call,
            roundTrips.orgJson, ih, waitAck]
          cases decEq msg m with
          | isTrue hsame => simp [AckValue.carries, hsame, ThreadPool.submitMany]
          | isFalse hother => simp [AckValue.carries, hother]
      | json object =>
          simp only [List.map_cons, AckValue.argument, call, ih, waitAck]
          cases decEq msg (lib.parseObject (lib.toString object)) with
          | isTrue hsame =>
              simp only [if_pos hsame]
              rw [List.countP_cons_of_pos (by simp [AckValue.carries, hsame])]
              rfl
          | isFalse hother =>
              simp only [if_neg hother]
              rw [List.countP_cons_of_neg (by simp [AckValue.carries, hother])]
      | text s =>
          simp only [List.map_cons, AckValue.argument, call, ih]
          rw [List.countP_cons_of_neg (by simp [AckValue.carries])]

namespace ClientState

theorem deliver_cases (s : ClientState lib) (send : Nat) (ack : MsgSenderAck)
    (values : List (AckValue lib)) :
    (values.any (·.carries ack.msg) = false ∧
        s.deliver send ack values = s) ∨
      (values.any (·.carries ack.msg) = true ∧
        s.client.threadPool.isShutdown = true ∧
        s.deliver send ack values =
          { s with
            answered := if s.started then s.answered ++ [send] else s.answered
            raised := s.raised || s.started }) ∨
      (values.any (·.carries ack.msg) = true ∧
        s.client.threadPool.isShutdown = false ∧
        ∃ n, 0 < n ∧ s.deliver send ack values =
          { s with
            client := { s.client with
              threadPool := { s.client.threadPool with
                waiting := s.client.threadPool.waiting ++
                  List.replicate n send } }
            answered :=
              if s.started then s.answered ++ [send] else s.answered }) := by
  cases hany : values.any (·.carries ack.msg) with
  | false =>
      have hzero : values.countP (·.carries ack.msg) = 0 := by
        rw [List.countP_eq_zero]
        simpa using hany
      left
      simp [deliver, MsgSenderAck.call_eq, hany, hzero, ThreadPool.submitMany]
  | true =>
      have hpos : 0 < values.countP (·.carries ack.msg) := by
        rw [List.countP_pos_iff]
        simpa using hany
      right
      cases hpool : s.client.threadPool.isShutdown with
      | true =>
          left
          refine ⟨rfl, rfl, ?_⟩
          cases hstarted : s.started <;>
            simp [deliver, MsgSenderAck.call_eq, hany, hstarted,
              ThreadPool.submitMany_of_shutdown hpool send hpos]
      | false =>
          right
          refine ⟨rfl, rfl, _, hpos, ?_⟩
          cases hstarted : s.started <;>
            simp [deliver, MsgSenderAck.call_eq, hany, hstarted,
              ThreadPool.submitMany_of_running hpool send]

/-! ## The pool runs what it has accepted -/

def settled (s : ClientState lib) : ClientState lib :=
  s.client.threadPool.waiting.foldl runTask s

theorem runFrom_settled (s : ClientState lib) :
    (system lib clientConfig).runFrom s
        (s.client.threadPool.waiting.map .runTask) = some s.settled := by
  unfold settled
  generalize htasks : s.client.threadPool.waiting = tasks
  induction tasks generalizing s with
  | nil => rfl
  | cons send tasks ih =>
      have hmem : send ∈ s.client.threadPool.waiting := by
        rw [htasks]
        exact List.mem_cons_self
      have hrest : (s.runTask send).client.threadPool.waiting = tasks := by
        simp [runTask, AbstractBaseSocketIOClient.runTask, ThreadPool.take,
          htasks]
      rw [List.map_cons, List.foldl_cons]
      apply (TransitionSystem.runFrom_cons _).mpr
      exact ⟨s.runTask send, if_pos hmem, ih (s.runTask send) hrest⟩

theorem acks_runTask (s : ClientState lib) (send i : Nat) :
    (s.runTask send).client.acks[i]? =
      (s.client.acks[i]?).map fun ack => if send = i then ack.run else ack := by
  simp [runTask, AbstractBaseSocketIOClient.runTask, List.getElem?_modify]

theorem acks_settled (s : ClientState lib) (i : Nat) :
    s.settled.client.acks[i]? =
      (s.client.acks[i]?).map fun ack =>
        if i ∈ s.client.threadPool.waiting then ack.run else ack := by
  unfold settled
  generalize s.client.threadPool.waiting = tasks
  induction tasks generalizing s with
  | nil => simp
  | cons send tasks ih =>
      rw [List.foldl_cons, ih, acks_runTask, Option.map_map]
      congr 1
      funext ack
      cases decEq send i with
      | isTrue heq => simp [heq, MsgSenderAck.run_run]
      | isFalse hne => simp [hne, Ne.symm hne]

/--
The future of a send has a value only when its message came back, has it for
sure then once the pool has run its tasks, and no acknowledgement throws.
-/
structure Reliable (s : ClientState lib) : Prop where
  sound : ∀ i ack value, s.client.acks[i]? = some ack →
    ack.result.outcome = some value → value = true ∧ i ∈ s.answered
  complete : ∀ i ack, s.settled.client.acks[i]? = some ack →
    (ack.result.outcome = some true ↔ i ∈ s.answered)
  once : ∀ ack ∈ s.client.acks, ack.result.completions ≤ 1
  quiet : s.raised = false

/--
No acknowledgement that carries its message arrives while the client is
started again after a `stop`.
-/
def NotTooLate (s : ClientState lib) : ClientAction lib → Prop
  | .ack send values =>
      s.started = true → s.client.threadPool.isShutdown = true →
        ∀ ack, s.client.acks[send]? = some ack →
          values.any (·.carries ack.msg) = false
  | _ => True

/-! ## The invariant -/

structure Consistent (s : ClientState lib) : Prop where
  outcome : ∀ i ack value, s.client.acks[i]? = some ack →
    ack.result.outcome = some value → value = true ∧ i ∈ s.answered
  waiting : ∀ i ∈ s.client.threadPool.waiting, i ∈ s.answered
  known : ∀ i ∈ s.answered, i < s.client.acks.length
  stopped : s.started = false →
    s.client.socket = none ∨ s.client.threadPool.isShutdown = true
  absent : s.client.socket = none → s.client.acks = []

/-- Every answered send has its value or a task that waits for a thread. -/
def Accepted (s : ClientState lib) : Prop :=
  ∀ i ack, s.client.acks[i]? = some ack → i ∈ s.answered →
    ack.result.outcome = some true ∨ i ∈ s.client.threadPool.waiting

theorem consistent_initial : (initial : ClientState lib).Consistent where
  outcome := by simp [initial, AbstractBaseSocketIOClient.new]
  waiting := by simp [initial, AbstractBaseSocketIOClient.new, ThreadPool.new]
  known := by simp [initial]
  stopped := fun _ => Or.inl rfl
  absent := fun _ => rfl

section Parts

variable {s : ClientState lib} (hs : s.Consistent)

include hs

theorem Consistent.outcome_settled {i : Nat} {ack : MsgSenderAck}
    (hget : s.client.acks[i]? = some ack) :
    (∀ done, s.settled.client.acks[i]? = some done →
      (done.result.outcome = some true ↔
        ack.result.outcome = some true ∨
          i ∈ s.client.threadPool.waiting)) := by
  intro done hdone
  rw [acks_settled, hget, Option.map_some, Option.some.injEq] at hdone
  rw [← hdone]
  cases decEq (decide (i ∈ s.client.threadPool.waiting)) true with
  | isTrue hwaiting =>
      have hmem := of_decide_eq_true hwaiting
      rw [if_pos hmem, MsgSenderAck.outcome_run]
      apply iff_of_true _ (Or.inr hmem)
      cases houtcome : ack.result.outcome with
      | none => rfl
      | some value =>
          rw [Option.some_or, (hs.outcome i ack value hget houtcome).1]
  | isFalse hnot =>
      have hmem : i ∉ s.client.threadPool.waiting := by simpa using hnot
      rw [if_neg hmem, or_iff_left hmem]

theorem Consistent.reliable_iff_accepted :
    s.Reliable ↔ s.Accepted ∧ s.raised = false := by
  constructor
  · intro h
    refine ⟨fun i ack hget hanswered => ?_, h.quiet⟩
    have hdone := acks_settled s i
    rw [hget, Option.map_some] at hdone
    exact (hs.outcome_settled hget _ hdone).mp
      ((h.complete i _ hdone).mpr hanswered)
  · rintro ⟨haccepted, hquiet⟩
    constructor
    · exact hs.outcome
    · intro i done hdone
      have hback := hdone
      rw [acks_settled] at hback
      obtain ⟨ack, hget, -⟩ := Option.map_eq_some_iff.mp hback
      rw [hs.outcome_settled hget done hdone]
      constructor
      · intro h
        cases h with
        | inl houtcome => exact (hs.outcome i ack true hget houtcome).2
        | inr hwaiting => exact hs.waiting i hwaiting
      · exact haccepted i ack hget
    · intro ack _
      exact ack.result.completions_le
    · exact hquiet

end Parts

/-! ## What each action does to the futures -/

theorem getElem?_append_new {acks : List MsgSenderAck} {m : MessageInfo}
    {i : Nat} {ack : MsgSenderAck}
    (hget : (acks ++ [.new m])[i]? = some ack) :
    acks[i]? = some ack ∨ i = acks.length ∧ ack = .new m := by
  cases Nat.lt_or_ge i acks.length with
  | inl hlt =>
      rw [List.getElem?_append_left hlt] at hget
      exact Or.inl hget
  | inr hge =>
      rw [List.getElem?_append_right hge, List.getElem?_singleton] at hget
      split at hget
      · cases hget
        exact Or.inr ⟨by omega, rfl⟩
      · cases hget

section Actions

variable {s : ClientState lib} (hs : s.Consistent)

include hs

theorem Consistent.start : (s.start clientConfig).Consistent := by
  obtain ⟨sockets, socket, hstart, hsocket, hthrown⟩ :=
    s.client.start_cases clientConfig
  unfold ClientState.start
  rw [hstart]
  exact ⟨hs.outcome, hs.waiting, hs.known, fun h => Or.inl (hthrown h),
    fun h => hs.absent (hsocket h)⟩

theorem Consistent.stop : s.stop.Consistent := by
  unfold ClientState.stop
  rw [AbstractBaseSocketIOClient.stop_eq]
  exact ⟨hs.outcome, hs.waiting, hs.known, fun _ => Or.inr rfl, hs.absent⟩

theorem Consistent.sendMsg (endPoint : String) (msg : Option MessageInfo)
    (isAck : Bool) : (s.sendMsg endPoint msg isAck).Consistent := by
  obtain ⟨acks, emitted, hsent, hacks⟩ :=
    s.client.sendMsg_cases endPoint msg isAck
  unfold ClientState.sendMsg
  rw [hsent]
  cases hacks with
  | inl hsame =>
      rw [hsame]
      exact ⟨hs.outcome, hs.waiting, hs.known, hs.stopped, hs.absent⟩
  | inr hnew =>
      obtain ⟨hsocket, m, hacks⟩ := hnew
      rw [hacks]
      constructor
      · intro i ack value hget houtcome
        cases getElem?_append_new hget with
        | inl hold => exact hs.outcome i ack value hold houtcome
        | inr hlast =>
            rw [hlast.2] at houtcome
            cases houtcome
      · exact hs.waiting
      · intro i hi
        have hlt := hs.known i hi
        rw [List.length_append]
        omega
      · exact hs.stopped
      · exact fun hnone => absurd hnone hsocket

theorem Consistent.started_of_running {send : Nat} {ack : MsgSenderAck}
    (hget : s.client.acks[send]? = some ack)
    (hpool : s.client.threadPool.isShutdown = false) : s.started = true := by
  cases hstarted : s.started with
  | true => rfl
  | false =>
      cases hs.stopped hstarted with
      | inl hsocket =>
          rw [hs.absent hsocket] at hget
          cases hget
      | inr hshutdown =>
          rw [hpool] at hshutdown
          cases hshutdown

theorem Consistent.answer {send : Nat} (hlt : send < s.client.acks.length) :
    ({ s with answered := s.answered ++ [send] } :
      ClientState lib).Consistent := by
  constructor
  · intro i ack value hget houtcome
    have hold := hs.outcome i ack value hget houtcome
    exact ⟨hold.1, List.mem_append_left _ hold.2⟩
  · intro i hi
    exact List.mem_append_left _ (hs.waiting i hi)
  · intro i hi
    cases List.mem_append.mp hi with
    | inl hold => exact hs.known i hold
    | inr hnew => exact List.mem_singleton.mp hnew ▸ hlt
  · exact hs.stopped
  · exact hs.absent

theorem Consistent.accept {send : Nat} (hsend : send ∈ s.answered) (n : Nat) :
    ({ s with
        client := { s.client with
          threadPool := { s.client.threadPool with
            waiting := s.client.threadPool.waiting ++
              List.replicate n send } } } : ClientState lib).Consistent := by
  constructor
  · exact hs.outcome
  · intro i hi
    cases List.mem_append.mp hi with
    | inl hold => exact hs.waiting i hold
    | inr hnew => exact List.eq_of_mem_replicate hnew ▸ hsend
  · exact hs.known
  · exact hs.stopped
  · exact hs.absent

theorem Consistent.withRaised (raised : Bool) :
    ({ s with raised := raised } : ClientState lib).Consistent :=
  ⟨hs.outcome, hs.waiting, hs.known, hs.stopped, hs.absent⟩

theorem Consistent.deliver {send : Nat} {ack : MsgSenderAck}
    (hget : s.client.acks[send]? = some ack) (values : List (AckValue lib)) :
    (s.deliver send ack values).Consistent := by
  have hlt : send < s.client.acks.length :=
    (List.getElem?_eq_some_iff.mp hget).1
  rcases s.deliver_cases send ack values with
    ⟨-, heq⟩ | ⟨-, -, heq⟩ | ⟨-, hpool, n, -, heq⟩
  · rw [heq]
    exact hs
  · rw [heq]
    split
    · exact (hs.answer hlt).withRaised _
    · exact hs.withRaised _
  · rw [heq, if_pos (hs.started_of_running hget hpool)]
    apply (hs.answer hlt).accept
    exact List.mem_append_right _ List.mem_cons_self

theorem Consistent.runTask {send : Nat}
    (hsend : send ∈ s.client.threadPool.waiting) :
    (s.runTask send).Consistent := by
  constructor
  · intro i ack value hget houtcome
    rw [acks_runTask] at hget
    obtain ⟨old, hold, heq⟩ := Option.map_eq_some_iff.mp hget
    cases hresult : old.result.outcome with
    | some before =>
        have hbefore := hs.outcome i old before hold hresult
        have hsame : ack.result.outcome = some before := by
          rw [← heq]
          split
          · rw [MsgSenderAck.outcome_run, hresult, Option.some_or]
          · exact hresult
        rw [hsame, Option.some.injEq] at houtcome
        exact houtcome ▸ hbefore
    | none =>
        rw [← heq] at houtcome
        split at houtcome
        · rename_i hsame
          rw [MsgSenderAck.outcome_run, hresult, Option.none_or,
            Option.some.injEq] at houtcome
          exact ⟨houtcome.symm, hsame ▸ hs.waiting send hsend⟩
        · rw [hresult] at houtcome
          cases houtcome
  · intro i hi
    exact hs.waiting i (List.mem_of_mem_erase hi)
  · intro i hi
    have hlt := hs.known i hi
    simpa [ClientState.runTask, AbstractBaseSocketIOClient.runTask] using hlt
  · exact hs.stopped
  · intro hsocket
    have hnone := hs.absent hsocket
    simp [ClientState.runTask, AbstractBaseSocketIOClient.runTask, hnone]

end Actions

theorem consistent_step (s : ClientState lib) (a : ClientAction lib)
    (s' : ClientState lib) (hs : s.Consistent)
    (h : step clientConfig s a = some s') : s'.Consistent := by
  cases a with
  | start =>
      cases h
      exact hs.start
  | stop =>
      cases h
      exact hs.stop
  | sendMsg endPoint msg isAck =>
      cases h
      exact hs.sendMsg endPoint msg isAck
  | ack send values =>
      obtain ⟨ack, hget, rfl⟩ := Option.map_eq_some_iff.mp h
      exact hs.deliver hget values
  | runTask send =>
      simp only [step, Option.ite_none_right_eq_some, Option.some.injEq] at h
      rw [← h.2]
      exact hs.runTask h.1

/-! ## Which steps keep the promise -/

section Promise

variable {s : ClientState lib}

theorem Accepted.sendMsg (haccepted : s.Accepted) (hs : s.Consistent)
    (endPoint : String) (msg : Option MessageInfo) (isAck : Bool) :
    (s.sendMsg endPoint msg isAck).Accepted := by
  obtain ⟨acks, emitted, hsent, hacks⟩ :=
    s.client.sendMsg_cases endPoint msg isAck
  unfold ClientState.sendMsg
  rw [hsent]
  cases hacks with
  | inl hsame =>
      rw [hsame]
      exact haccepted
  | inr hnew =>
      obtain ⟨-, m, hacks⟩ := hnew
      rw [hacks]
      intro i ack hget hanswered
      cases getElem?_append_new hget with
      | inl hold => exact haccepted i ack hold hanswered
      | inr hlast =>
          have hlt := hs.known i hanswered
          omega

theorem Accepted.runTask (haccepted : s.Accepted) (hs : s.Consistent)
    (send : Nat) : (s.runTask send).Accepted := by
  intro i ack hget hanswered
  rw [acks_runTask] at hget
  obtain ⟨old, hold, heq⟩ := Option.map_eq_some_iff.mp hget
  have hbefore := haccepted i old hold hanswered
  cases decEq send i with
  | isTrue hsame =>
      left
      rw [← heq, if_pos hsame, MsgSenderAck.outcome_run]
      cases hresult : old.result.outcome with
      | none => rfl
      | some value =>
          rw [Option.some_or, (hs.outcome i old value hold hresult).1]
  | isFalse hother =>
      rw [← heq, if_neg hother]
      cases hbefore with
      | inl hresult => exact Or.inl hresult
      | inr hwaiting =>
          exact Or.inr ((List.mem_erase_of_ne (Ne.symm hother)).mpr hwaiting)

theorem Accepted.accept (haccepted : s.Accepted) (send : Nat) {n : Nat}
    (hn : 0 < n) :
    ({ s with
        client := { s.client with
          threadPool := { s.client.threadPool with
            waiting := s.client.threadPool.waiting ++
              List.replicate n send } }
        answered := s.answered ++ [send] } : ClientState lib).Accepted := by
  intro i ack hget hanswered
  cases List.mem_append.mp hanswered with
  | inl hold =>
      cases haccepted i ack hget hold with
      | inl hresult => exact Or.inl hresult
      | inr hwaiting => exact Or.inr (List.mem_append_left _ hwaiting)
  | inr hnew =>
      right
      rw [List.mem_singleton.mp hnew]
      apply List.mem_append_right
      exact List.mem_replicate.mpr ⟨Nat.pos_iff_ne_zero.mp hn, rfl⟩

theorem accepted_deliver_iff (hs : s.Consistent) (haccepted : s.Accepted)
    (hquiet : s.raised = false) {send : Nat} {ack : MsgSenderAck}
    (hget : s.client.acks[send]? = some ack) (values : List (AckValue lib)) :
    (s.deliver send ack values).Accepted ∧
        (s.deliver send ack values).raised = false ↔
      (s.started = true → s.client.threadPool.isShutdown = true →
        values.any (·.carries ack.msg) = false) := by
  rcases s.deliver_cases send ack values with
    ⟨hany, heq⟩ | ⟨hany, hpool, heq⟩ | ⟨hany, hpool, n, hn, heq⟩
  · rw [heq]
    exact iff_of_true ⟨haccepted, hquiet⟩ fun _ _ => hany
  · rw [heq, hany, hpool, hquiet]
    cases hstarted : s.started with
    | true => simp
    | false =>
        apply iff_of_true _ nofun
        exact ⟨haccepted, rfl⟩
  · have hstarted := hs.started_of_running hget hpool
    rw [heq, if_pos hstarted, hpool]
    exact iff_of_true ⟨haccepted.accept send hn, hquiet⟩ nofun

theorem reliable_step_iff (s : ClientState lib) (a : ClientAction lib)
    (s' : ClientState lib) (hs : s.Consistent) (hreliable : s.Reliable)
    (h : step clientConfig s a = some s') : s'.Reliable ↔ s.NotTooLate a := by
  obtain ⟨haccepted, hquiet⟩ := hs.reliable_iff_accepted.mp hreliable
  rw [(consistent_step s a s' hs h).reliable_iff_accepted]
  cases a with
  | start =>
      cases h
      apply iff_of_true _ trivial
      obtain ⟨sockets, socket, hstart, -, -⟩ :=
        s.client.start_cases clientConfig
      unfold ClientState.start
      rw [hstart]
      exact ⟨haccepted, hquiet⟩
  | stop =>
      cases h
      apply iff_of_true _ trivial
      unfold ClientState.stop
      rw [AbstractBaseSocketIOClient.stop_eq]
      exact ⟨haccepted, hquiet⟩
  | sendMsg endPoint msg isAck =>
      cases h
      exact iff_of_true ⟨haccepted.sendMsg hs endPoint msg isAck, hquiet⟩
        trivial
  | ack send values =>
      obtain ⟨ack, hget, rfl⟩ := Option.map_eq_some_iff.mp h
      rw [accepted_deliver_iff hs haccepted hquiet hget values]
      simp [NotTooLate, hget]
  | runTask send =>
      simp only [step, Option.ite_none_right_eq_some, Option.some.injEq] at h
      rw [← h.2]
      exact iff_of_true ⟨haccepted.runTask hs send, hquiet⟩ trivial

end Promise

theorem reliable_initial : (initial : ClientState lib).Reliable := by
  rw [consistent_initial.reliable_iff_accepted]
  constructor
  · intro i ack _ hanswered
    cases hanswered
  · rfl

/--
Futures and acknowledgements agree throughout exactly when no acknowledgement
that carries its message comes in between a later `start` and its `stop`.
-/
theorem reliable_iff (lib : JsonLibraries)
    (clientConfig : Option SocketIOClientConfig)
    (actions : List (ClientAction lib)) :
    (system lib clientConfig).Throughout Reliable initial actions ↔
      (system lib clientConfig).EveryStep NotTooLate initial actions :=
  TransitionSystem.throughout_iff_everyStep (I := Consistent)
    consistent_step reliable_step_iff actions consistent_initial
    reliable_initial

/-! ## Stopped and started again -/

theorem isShutdown_step {s s' : ClientState lib} {a : ClientAction lib}
    (h : step clientConfig s a = some s') :
    s'.client.threadPool.isShutdown = true ↔
      s.client.threadPool.isShutdown = true ∨ .stop = a := by
  cases a with
  | start =>
      cases h
      obtain ⟨sockets, socket, hstart, -, -⟩ :=
        s.client.start_cases clientConfig
      simp [start, hstart]
  | stop =>
      cases h
      simp [stop, AbstractBaseSocketIOClient.stop_eq, ThreadPool.shutdown]
  | sendMsg endPoint msg isAck =>
      cases h
      obtain ⟨acks, emitted, hsent, -⟩ :=
        s.client.sendMsg_cases endPoint msg isAck
      simp [sendMsg, hsent]
  | ack send values =>
      obtain ⟨ack, -, rfl⟩ := Option.map_eq_some_iff.mp h
      rcases s.deliver_cases send ack values with
        ⟨-, heq⟩ | ⟨-, -, heq⟩ | ⟨-, -, n, -, heq⟩ <;> simp [heq]
  | runTask send =>
      simp only [step, Option.ite_none_right_eq_some, Option.some.injEq] at h
      rw [← h.2]
      simp [runTask, AbstractBaseSocketIOClient.runTask, ThreadPool.take]

theorem isShutdown_iff {s t : ClientState lib}
    {actions : List (ClientAction lib)}
    (hrun : (system lib clientConfig).runFrom s actions = some t) :
    t.client.threadPool.isShutdown = true ↔
      s.client.threadPool.isShutdown = true ∨ .stop ∈ actions := by
  induction actions generalizing s with
  | nil =>
      cases hrun
      simp
  | cons a actions ih =>
      obtain ⟨s', ha, hrest⟩ := (TransitionSystem.runFrom_cons _).mp hrun
      rw [ih hrest, isShutdown_step ha, List.mem_cons, or_assoc]

def restarted : List (ClientAction plainJson) :=
  [.start, .stop, .start, .sendMsg endpointP2p (some bobsHello) true,
    .ack 0 [.text "ACK:", .data bobsHello plainJson_roundTrips]]

theorem hello_never_completes :
    ∃ s : ClientState plainJson,
      (system plainJson (some ⟨some "http://broker", endpointP2p⟩)).run
        restarted = some s ∧
      s.started = true ∧ s.answered = [0] ∧ s.raised = true ∧
      s.settled.client.acks = [.new bobsHello] ∧ ¬ s.Reliable := by
  refine ⟨_, rfl, rfl, rfl, rfl, rfl, fun hreliable => ?_⟩
  exact absurd hreliable.quiet (by decide)

end ClientState

end WebIm.Sdk
