import WebIm.Foundation.Transition
import WebIm.Mqtt.SiloRunner

/-!
# AbstractGracefulShutdown: waiting for the archive's queues

The thread of `waitSiloQueueDone` takes one step for each call to the Silo
library and for each read of a queue size.  Between its steps the workers
change their queues, and the client its connection, at will.
-/

namespace WebIm.Mqtt

open WebIm.Foundation

namespace SiloRunner

/-- A `null` dispatcher or pool counts as a pool without workers. -/
def workers (silo : SiloRunner) : List (Option Worker) :=
  (silo.dispatcher.bind SimpleDispatcher.workerPool).getD []

def setConnected (silo : SiloRunner) (connected : Bool) : SiloRunner :=
  ⟨silo.sysConfig, silo.client.map fun _ => ⟨connected⟩, silo.dispatcher, by
    simpa using silo.clientFirst⟩

def setQueueSize (silo : SiloRunner) (i size : Nat) : SiloRunner :=
  ⟨silo.sysConfig, silo.client,
    silo.dispatcher.map fun dispatcher =>
      ⟨dispatcher.workerPool.map fun workers =>
        workers.modify i (Option.map fun _ => ⟨size⟩)⟩, by
    simpa using silo.clientFirst⟩

theorem workers_setQueueSize (silo : SiloRunner) (i size : Nat) :
    (silo.setQueueSize i size).workers =
      silo.workers.modify i (Option.map fun _ => ⟨size⟩) := by
  match silo with
  | ⟨_, _, none, _⟩ => simp [setQueueSize, workers]
  | ⟨_, _, some ⟨none⟩, _⟩ => simp [setQueueSize, workers]
  | ⟨_, _, some ⟨some pool⟩, _⟩ => rfl

theorem workers_of_client_eq_none {silo : SiloRunner}
    (hclient : silo.client = none) : silo.workers = [] := by
  have hfirst := silo.clientFirst
  rw [hclient] at hfirst
  unfold workers
  cases hdispatcher : silo.dispatcher with
  | none => rfl
  | some dispatcher => simp [hdispatcher] at hfirst

end SiloRunner

namespace GracefulShutdown

/-- The map `tmp` with its entries in any order. -/
abbrev Flags := List (Nat × Bool)

def put (tmp : Flags) (i : Nat) (done : Bool) : Flags :=
  (i, done) :: tmp.filter fun item => decide (item.1 ≠ i)

def checkDone (tmp : Flags) : Bool :=
  (tmp.countP fun item => item.2) == tmp.length

/-- Where the thread stands; `sweep i` is the head of the `for` loop. -/
inductive Point where
  | checkClient
  | checkConnected
  | disconnect
  | checkWorkers
  | sweep (i : Nat)
  | sleep
  | returned
  | interrupted
  deriving DecidableEq, Repr

structure State where
  silo : Option SiloRunner
  point : Point
  tmp : Flags

inductive Action where
  | proceed
  | interrupt
  | queue (i size : Nat)
  | connection (connected : Bool)
  deriving DecidableEq, Repr

def State.workers (s : State) : List (Option Worker) :=
  s.silo.elim [] SiloRunner.workers

def State.goto (s : State) (point : Point) : State := { s with point := point }

def State.setConnected (s : State) (connected : Bool) : State :=
  { s with silo := s.silo.map fun silo => silo.setConnected connected }

def State.setQueueSize (s : State) (i size : Nat) : State :=
  { s with silo := s.silo.map fun silo => silo.setQueueSize i size }

/-- `null` workers and empty queues are done. -/
def isDone : Option Worker → Bool
  | some w => !decide (w.queueSize > 0)
  | none => true

def proceed (s : State) : Option State :=
  match s.point with
  | .checkClient =>
      match s.silo.bind SiloRunner.client with
      | none => some (s.goto .returned)
      | some _ => some (s.goto .checkConnected)
  | .checkConnected =>
      if (s.silo.bind SiloRunner.client).any MyMqttClient.connected then
        some (s.goto .disconnect)
      else some (s.goto .checkWorkers)
  | .disconnect => some ((s.setConnected false).goto .checkWorkers)
  | .checkWorkers =>
      if s.workers.isEmpty then some (s.goto .returned)
      else some ⟨s.silo, .sweep 0, []⟩
  | .sweep i =>
      match s.workers[i]? with
      | some w => some ⟨s.silo, .sweep (i + 1), put s.tmp i (isDone w)⟩
      | none =>
          if checkDone s.tmp then some (s.goto .returned)
          else some (s.goto .sleep)
  | .sleep => some (s.goto (.sweep 0))
  | .returned => none
  | .interrupted => none

def step (s : State) : Action → Option State
  | .proceed => proceed s
  | .interrupt =>
      if s.point = .sleep then some (s.goto .interrupted) else none
  | .queue i size => some (s.setQueueSize i size)
  | .connection connected => some (s.setConnected connected)

def waitSiloQueueDone (silo : Option SiloRunner) :
    TransitionSystem State Action :=
  ⟨⟨silo, .checkClient, []⟩, step⟩

/-! ## What the wait is for -/

/-- The thread has found the client disconnected, or has disconnected it. -/
def State.Disconnected (s : State) : Prop :=
  s.point ≠ .checkClient ∧ s.point ≠ .checkConnected ∧ s.point ≠ .disconnect

/-- From then on a queue changes to a smaller size only. -/
def OnlyDecreases (s : State) : Action → Prop
  | .queue i size =>
      s.Disconnected →
        ∀ w, s.workers[i]? = some (some w) → size ≤ w.queueSize
  | _ => True

instance : DecidablePred State.Disconnected := fun s =>
  inferInstanceAs (Decidable (s.point ≠ .checkClient ∧
    s.point ≠ .checkConnected ∧ s.point ≠ .disconnect))

instance (s : State) (a : Action) : Decidable (OnlyDecreases s a) :=
  match a with
  | .proceed => isTrue trivial
  | .interrupt => isTrue trivial
  | .connection _ => isTrue trivial
  | .queue i size =>
      match h : s.workers[i]? with
      | some (some w) =>
          decidable_of_iff (s.Disconnected → size ≤ w.queueSize)
            (by simp [OnlyDecreases, h])
      | some none => isTrue (by simp [OnlyDecreases, h])
      | none => isTrue (by simp [OnlyDecreases, h])

def State.QueuesEmpty (s : State) : Prop :=
  ∀ w, some w ∈ s.workers → w.queueSize = 0

/-! ## Flags -/

theorem checkDone_iff (tmp : Flags) :
    checkDone tmp = true ↔ ∀ item ∈ tmp, item.2 = true := by
  rw [checkDone, beq_iff_eq, List.countP_eq_length]

theorem mem_put (tmp : Flags) (i : Nat) (done : Bool) (item : Nat × Bool) :
    item ∈ put tmp i done ↔
      item = (i, done) ∨ item ∈ tmp ∧ item.1 ≠ i := by
  simp [put]

/-! ## Queues between two steps -/

@[simp] theorem workers_goto (s : State) (point : Point) :
    (s.goto point).workers = s.workers :=
  rfl

@[simp] theorem workers_setConnected (s : State) (connected : Bool) :
    (s.setConnected connected).workers = s.workers := by
  unfold State.setConnected State.workers
  cases s.silo <;> rfl

@[simp] theorem workers_setQueueSize (s : State) (i size : Nat) :
    (s.setQueueSize i size).workers =
      s.workers.modify i (Option.map fun _ => ⟨size⟩) := by
  unfold State.setQueueSize State.workers
  cases s.silo with
  | none => simp
  | some silo => exact silo.workers_setQueueSize i size

def Shrinks (s s' : State) : Prop :=
  ∀ (i : Nat) (w' : Worker), s'.workers[i]? = some (some w') →
    ∃ w : Worker, s.workers[i]? = some (some w) ∧
      w'.queueSize ≤ w.queueSize

theorem Shrinks.of_eq {s s' : State} (h : s'.workers = s.workers) :
    Shrinks s s' := by
  intro i w' hw'
  rw [h] at hw'
  exact ⟨w', hw', Nat.le_refl _⟩

theorem Shrinks.queuesEmpty {s s' : State} (h : Shrinks s s')
    (hempty : s.QueuesEmpty) : s'.QueuesEmpty := by
  intro w' hw'
  obtain ⟨i, hi⟩ := List.mem_iff_getElem?.mp hw'
  obtain ⟨w, hw, hle⟩ := h i w' hi
  have hzero := hempty w (List.mem_iff_getElem?.mpr ⟨i, hw⟩)
  omega

theorem Shrinks.setQueueSize {s : State} {i size : Nat}
    (hsize : ∀ w, s.workers[i]? = some (some w) → size ≤ w.queueSize) :
    Shrinks s (s.setQueueSize i size) := by
  intro j w' hw'
  rw [workers_setQueueSize] at hw'
  by_cases hij : i = j
  · subst hij
    rw [List.getElem?_modify_eq] at hw'
    cases hold : s.workers[i]? with
    | none => simp [hold] at hw'
    | some entry =>
        cases entry with
        | none => simp [hold] at hw'
        | some w =>
            have hnew : (⟨size⟩ : Worker) = w' := by simpa [hold] using hw'
            refine ⟨w, rfl, ?_⟩
            rw [← hnew]
            exact hsize w hold
  · rw [List.getElem?_modify_ne _ _ hij] at hw'
    exact ⟨w', hw', Nat.le_refl _⟩

/-! ## What a sweep has seen -/

/--
The first `n` workers have been read in this sweep.  A flag that says done was
true when it was written, and is still true: the queue cannot have grown.
-/
def Seen (s : State) (n : Nat) : Prop :=
  ∀ i < n, ∃ done, (i, done) ∈ s.tmp ∧
    (done = true → ∀ w, s.workers[i]? = some (some w) → w.queueSize = 0)

theorem Seen.shrinks {s s' : State} {n : Nat} (h : Shrinks s s')
    (htmp : s'.tmp = s.tmp) (hseen : Seen s n) : Seen s' n := by
  intro i hi
  obtain ⟨done, hmem, hdone⟩ := hseen i hi
  refine ⟨done, htmp ▸ hmem, ?_⟩
  intro htrue w' hw'
  obtain ⟨w, hw, hle⟩ := h i w' hw'
  have hzero := hdone htrue w hw
  omega

theorem Seen.put {s : State} {n : Nat} {entry : Option Worker}
    (hentry : s.workers[n]? = some entry) (hseen : Seen s n) :
    Seen ⟨s.silo, .sweep (n + 1), put s.tmp n (isDone entry)⟩ (n + 1) := by
  intro i hi
  by_cases hin : i = n
  · refine ⟨isDone entry, ?_, ?_⟩
    · rw [mem_put, hin]
      exact .inl rfl
    · intro hdone w hw
      have heq : entry = some w :=
        Option.some.inj (hentry.symm.trans (hin ▸ hw))
      rw [heq] at hdone
      simpa [isDone] using hdone
  · obtain ⟨done, hmem, hdone⟩ := hseen i (by omega)
    exact ⟨done, (mem_put _ _ _ _).mpr (.inr ⟨hmem, hin⟩), hdone⟩

theorem Seen.queuesEmpty {s : State} {n : Nat} (hseen : Seen s n)
    (hall : s.workers[n]? = none) (hdone : checkDone s.tmp = true) :
    s.QueuesEmpty := by
  intro w hw
  obtain ⟨i, hi⟩ := List.mem_iff_getElem?.mp hw
  have hlt : i < n := by
    have hbound := (List.getElem?_eq_some_iff.mp hi).1
    have hlen := List.getElem?_eq_none_iff.mp hall
    omega
  obtain ⟨done, hmem, hempty⟩ := hseen i hlt
  exact hempty ((checkDone_iff _).mp hdone (i, done) hmem) w hi

/-! ## The invariant -/

structure Inv (s : State) : Prop where
  seen : ∀ n, s.point = .sweep n → Seen s n
  empty : s.point = .returned → s.QueuesEmpty

theorem queuesEmpty_of_workers_eq_nil {s : State} (h : s.workers = []) :
    s.QueuesEmpty := by
  intro w hw
  rw [h] at hw
  exact absurd hw List.not_mem_nil

theorem Inv.of_point {s : State} (hsweep : ∀ n, s.point ≠ .sweep n)
    (hreturned : s.point ≠ .returned) : Inv s :=
  ⟨fun n h => absurd h (hsweep n), fun h => absurd h hreturned⟩

theorem Inv.of_returned {s : State} (h : s.QueuesEmpty) :
    Inv (s.goto .returned) :=
  ⟨fun n hpoint => by simp [State.goto] at hpoint, fun _ => h⟩

theorem Inv.shrinks {s s' : State} (h : Shrinks s s')
    (hpoint : s'.point = s.point) (htmp : s'.tmp = s.tmp) (hs : Inv s) :
    Inv s' :=
  ⟨fun n hn => (hs.seen n (hpoint ▸ hn)).shrinks h htmp,
    fun hreturned => h.queuesEmpty (hs.empty (hpoint ▸ hreturned))⟩

theorem Inv.of_sweep_zero {s : State} (h : s.point = .sweep 0) : Inv s := by
  refine ⟨fun n hn i hi => ?_, fun hreturned => ?_⟩
  · rw [h] at hn
    cases hn
    exact absurd hi (Nat.not_lt_zero i)
  · rw [h] at hreturned
    cases hreturned

theorem workers_eq_nil_of_client {s : State}
    (hclient : s.silo.bind SiloRunner.client = none) : s.workers = [] := by
  unfold State.workers
  cases hsilo : s.silo with
  | none => rfl
  | some silo =>
      rw [hsilo] at hclient
      exact SiloRunner.workers_of_client_eq_none hclient

theorem Inv.proceed {s s' : State} (hs : Inv s)
    (hstep : proceed s = some s') : Inv s' := by
  unfold GracefulShutdown.proceed at hstep
  cases hpoint : s.point with
  | checkClient =>
      rw [hpoint] at hstep
      cases hclient : s.silo.bind SiloRunner.client with
      | none =>
          simp only [hclient, Option.some.injEq] at hstep
          rw [← hstep]
          apply Inv.of_returned
          exact queuesEmpty_of_workers_eq_nil (workers_eq_nil_of_client hclient)
      | some client =>
          simp only [hclient, Option.some.injEq] at hstep
          rw [← hstep]
          exact Inv.of_point nofun nofun
  | checkConnected =>
      simp only [hpoint] at hstep
      split at hstep
      · cases hstep
        exact Inv.of_point nofun nofun
      · cases hstep
        exact Inv.of_point nofun nofun
  | disconnect =>
      simp only [hpoint, Option.some.injEq] at hstep
      rw [← hstep]
      exact Inv.of_point nofun nofun
  | checkWorkers =>
      simp only [hpoint] at hstep
      split at hstep
      · rename_i hempty
        cases hstep
        apply Inv.of_returned
        exact queuesEmpty_of_workers_eq_nil (List.isEmpty_iff.mp hempty)
      · cases hstep
        exact Inv.of_sweep_zero rfl
  | sweep i =>
      simp only [hpoint] at hstep
      cases hentry : s.workers[i]? with
      | some entry =>
          simp only [hentry, Option.some.injEq] at hstep
          rw [← hstep]
          refine ⟨fun n hn => ?_, nofun⟩
          cases hn
          exact (hs.seen i hpoint).put hentry
      | none =>
          simp only [hentry] at hstep
          split at hstep
          · rename_i hdone
            cases hstep
            exact Inv.of_returned ((hs.seen i hpoint).queuesEmpty hentry hdone)
          · cases hstep
            exact Inv.of_point nofun nofun
  | sleep =>
      simp only [hpoint, Option.some.injEq] at hstep
      rw [← hstep]
      exact Inv.of_sweep_zero rfl
  | returned => simp [hpoint] at hstep
  | interrupted => simp [hpoint] at hstep

theorem Inv.of_not_disconnected {s : State} (h : ¬ s.Disconnected) : Inv s := by
  refine Inv.of_point (fun n hpoint => h ?_) (fun hpoint => h ?_)
  · simp [State.Disconnected, hpoint]
  · simp [State.Disconnected, hpoint]

theorem Inv.step {s s' : State} {a : Action} (hdecreases : OnlyDecreases s a)
    (hs : Inv s) (hstep : step s a = some s') : Inv s' := by
  cases a with
  | proceed => exact hs.proceed hstep
  | interrupt =>
      simp only [GracefulShutdown.step] at hstep
      split at hstep
      · cases hstep
        exact Inv.of_point nofun nofun
      · cases hstep
  | queue i size =>
      cases hstep
      by_cases hdisconnected : s.Disconnected
      · exact hs.shrinks (Shrinks.setQueueSize (hdecreases hdisconnected)) rfl rfl
      · exact Inv.of_not_disconnected hdisconnected
  | connection connected =>
      cases hstep
      exact hs.shrinks (Shrinks.of_eq (workers_setConnected s connected)) rfl rfl

/--
Whenever the wait returns without an interrupt, no queue holds a message, at
that moment and in every state after it.
-/
theorem returned_queues_empty (silo : Option SiloRunner) {as : List Action}
    {t : State}
    (hdecreases : (waitSiloQueueDone silo).EveryStep OnlyDecreases
      (waitSiloQueueDone silo).initial as)
    (hrun : (waitSiloQueueDone silo).run as = some t)
    (hreturned : t.point = .returned) : t.QueuesEmpty := by
  have hinitial : Inv (waitSiloQueueDone silo).initial :=
    Inv.of_point nofun nofun
  have hthroughout := TransitionSystem.EveryStep.invariant
    (fun s a s' ha hs hstep => Inv.step ha hs hstep) hdecreases hinitial
  exact (hthroughout.last hrun).empty hreturned

def twoWorkers : SiloRunner :=
  ⟨none, some ⟨true⟩, some ⟨some [some ⟨1⟩, some ⟨0⟩]⟩, fun _ => rfl⟩

/-- The first queue is read before its message is consumed. -/
def consumedInSweep : List Action :=
  [.queue 1 2, .proceed, .proceed, .proceed, .proceed, .proceed, .queue 0 0,
    .queue 1 0, .proceed, .proceed, .proceed, .proceed, .proceed, .proceed]

theorem second_sweep_returns :
    ∃ t, (waitSiloQueueDone (some twoWorkers)).run consumedInSweep = some t ∧
      t.point = .returned ∧ t.QueuesEmpty := by
  have hdecreases : (waitSiloQueueDone (some twoWorkers)).EveryStep
      OnlyDecreases (waitSiloQueueDone (some twoWorkers)).initial
        consumedInSweep := by
    decide
  exact ⟨_, rfl, rfl, returned_queues_empty _ hdecreases rfl rfl⟩

/-! ## The wait ends -/

structure Clear (s : State) (i : Nat) : Prop where
  keys : ∀ item ∈ s.tmp, item.1 < s.workers.length
  done : ∀ item ∈ s.tmp, item.1 < i → item.2 = true
  empty : s.QueuesEmpty

theorem isDone_of_queuesEmpty {s : State} {i : Nat} {entry : Option Worker}
    (hempty : s.QueuesEmpty) (hentry : s.workers[i]? = some entry) :
    isDone entry = true := by
  cases entry with
  | none => rfl
  | some w =>
      have hzero := hempty w (List.mem_iff_getElem?.mpr ⟨i, hentry⟩)
      simp [isDone, hzero]

theorem Clear.put {s : State} {i : Nat} {entry : Option Worker}
    (hs : Clear s i) (hentry : s.workers[i]? = some entry) :
    Clear ⟨s.silo, .sweep (i + 1), put s.tmp i (isDone entry)⟩ (i + 1) := by
  have hlt := (List.getElem?_eq_some_iff.mp hentry).1
  refine ⟨fun item hitem => ?_, fun item hitem hnext => ?_, hs.empty⟩
  · cases (mem_put _ _ _ _).mp hitem with
    | inl hnew => exact hnew ▸ hlt
    | inr hold => exact hs.keys item hold.1
  · cases (mem_put _ _ _ _).mp hitem with
    | inl hnew =>
        rw [hnew]
        exact isDone_of_queuesEmpty hs.empty hentry
    | inr hold =>
        obtain ⟨hmem, hne⟩ := hold
        exact hs.done item hmem (by omega)

theorem sweep_returns_of_clear (silo : Option SiloRunner) {s : State}
    {i left : Nat} (hpoint : s.point = .sweep i) (hs : Clear s i)
    (hleft : i + left = s.workers.length) :
    ∃ t, (waitSiloQueueDone silo).runFrom s
        (List.replicate (left + 1) .proceed) = some t ∧
      t.point = .returned := by
  induction left generalizing s i with
  | zero =>
      have hend : s.workers[i]? = none :=
        List.getElem?_eq_none (by omega)
      have hdone : checkDone s.tmp = true := by
        apply (checkDone_iff _).mpr
        intro item hitem
        have hkey := hs.keys item hitem
        exact hs.done item hitem (by omega)
      have hstep : (waitSiloQueueDone silo).step s .proceed =
          some (s.goto .returned) := by
        simp [waitSiloQueueDone, step, GracefulShutdown.proceed, hpoint, hend,
          hdone]
      refine ⟨s.goto .returned, ?_, rfl⟩
      rw [List.replicate_succ, TransitionSystem.runFrom_cons]
      exact ⟨_, hstep, rfl⟩
  | succ left ih =>
      have hlt : i < s.workers.length := by omega
      have hentry := List.getElem?_eq_getElem hlt
      have hstep : (waitSiloQueueDone silo).step s .proceed =
          some ⟨s.silo, .sweep (i + 1), put s.tmp i (isDone s.workers[i])⟩ := by
        simp [waitSiloQueueDone, step, GracefulShutdown.proceed, hpoint, hentry]
      have hnext : i + 1 + left = s.workers.length := by omega
      obtain ⟨t, hrun, hreturned⟩ := ih rfl (hs.put hentry) hnext
      refine ⟨t, ?_, hreturned⟩
      rw [List.replicate_succ, TransitionSystem.runFrom_cons]
      exact ⟨_, hstep, hrun⟩

theorem proceed_tmp {s s' : State} (hstep : proceed s = some s') :
    s'.workers = s.workers ∧
      (s'.tmp = s.tmp ∨ s'.tmp = [] ∨
        ∃ i entry, s.workers[i]? = some entry ∧
          s'.tmp = put s.tmp i (isDone entry)) := by
  unfold proceed at hstep
  split at hstep
  · split at hstep <;> cases hstep <;> exact ⟨rfl, .inl rfl⟩
  · split at hstep <;> cases hstep <;> exact ⟨rfl, .inl rfl⟩
  · cases hstep
    exact ⟨by simp, .inl rfl⟩
  · split at hstep
    · cases hstep
      exact ⟨rfl, .inl rfl⟩
    · cases hstep
      exact ⟨rfl, .inr (.inl rfl)⟩
  · split at hstep
    · rename_i i entry hentry
      cases hstep
      exact ⟨rfl, .inr (.inr ⟨_, _, hentry, rfl⟩)⟩
    · split at hstep <;> cases hstep <;> exact ⟨rfl, .inl rfl⟩
  · cases hstep
    exact ⟨rfl, .inl rfl⟩
  · cases hstep
  · cases hstep

def KeysFit (s : State) : Prop := ∀ item ∈ s.tmp, item.1 < s.workers.length

theorem KeysFit.step {s s' : State} {a : Action} (hs : KeysFit s)
    (hstep : step s a = some s') : KeysFit s' := by
  cases a with
  | proceed =>
      obtain ⟨hworkers, htmp⟩ := proceed_tmp hstep
      intro item hitem
      rw [hworkers]
      rcases htmp with hsame | hnil | ⟨i, entry, hentry, hput⟩
      · exact hs item (hsame ▸ hitem)
      · rw [hnil] at hitem
        exact absurd hitem List.not_mem_nil
      · rw [hput] at hitem
        cases (mem_put _ _ _ _).mp hitem with
        | inl hnew => exact hnew ▸ (List.getElem?_eq_some_iff.mp hentry).1
        | inr hold => exact hs item hold.1
  | interrupt =>
      simp only [GracefulShutdown.step] at hstep
      split at hstep
      · cases hstep
        exact hs
      · cases hstep
  | queue i size =>
      cases hstep
      intro item hitem
      rw [workers_setQueueSize, List.length_modify]
      exact hs item hitem
  | connection connected =>
      cases hstep
      intro item hitem
      rw [workers_setConnected]
      exact hs item hitem

/--
No flag of an earlier sweep keeps the wait going: a sweep that starts over
empty queues is the last one.
-/
theorem empty_sweep_returns {silo : Option SiloRunner} {s : State}
    (hs : (waitSiloQueueDone silo).Reachable s) (hpoint : s.point = .sweep 0)
    (hempty : s.QueuesEmpty) :
    ∃ t, (waitSiloQueueDone silo).runFrom s
        (List.replicate (s.workers.length + 1) .proceed) = some t ∧
      t.point = .returned := by
  have hkeys : KeysFit s := by
    apply hs.invariant
    · intro item hitem
      exact absurd hitem List.not_mem_nil
    · intro s a s' hkeys hstep
      exact KeysFit.step hkeys hstep
  have hclear : Clear s 0 :=
    ⟨hkeys, fun item _ hlt => absurd hlt (Nat.not_lt_zero item.1), hempty⟩
  exact sweep_returns_of_clear silo hpoint hclear (Nat.zero_add _)

theorem empty_sweep_returns_twoWorkers :
    ∃ s t, (waitSiloQueueDone (some twoWorkers)).run
        [.queue 0 0, .proceed, .proceed, .proceed, .proceed] = some s ∧
      (waitSiloQueueDone (some twoWorkers)).runFrom s
        (List.replicate 3 .proceed) = some t ∧ t.point = .returned := by
  have hrun : (waitSiloQueueDone (some twoWorkers)).run
      [.queue 0 0, .proceed, .proceed, .proceed, .proceed] = some _ := rfl
  obtain ⟨t, hreturns, hreturned⟩ := empty_sweep_returns ⟨_, hrun⟩ rfl (by
    intro w hw
    change some w ∈ [some (⟨0⟩ : Worker), some ⟨0⟩] at hw
    cases hw with
    | head => rfl
    | tail _ htail => cases List.mem_singleton.mp htail; rfl)
  exact ⟨_, t, hrun, hreturns, hreturned⟩

end GracefulShutdown

end WebIm.Mqtt
