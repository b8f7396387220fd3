import WebIm.Foundation.Java
import WebIm.Foundation.ThreadPool
import WebIm.Mqtt.GracefulShutdown

/-!
# AbstractGracefulShutdown: the whole event

`onApplicationEvent` waits for the archive's queues and then stops Tomcat's
threads.  The thread that runs it can be interrupted at any time; the wait ends
then in its next sleep and leaves the interrupt status set, which the
termination of the executor is awaited under, unless Tomcat clears it.
-/

namespace WebIm.Mqtt

open WebIm.Foundation

namespace Shutdown

structure Executor where
  pool : ThreadPool Nat
  running : List Nat

def Executor.terminated (executor : Executor) : Bool :=
  executor.pool.isShutdown && executor.pool.waiting.isEmpty &&
    executor.running.isEmpty

/-- `executor` is `none` when it is no `ThreadPoolExecutor`. -/
structure Connector where
  paused : Bool
  executor : Option Executor

inductive Outcome where
  | terminated
  | timedOut
  | interrupted
  | noThreadPool
  | thrown (e : JavaException)
  deriving DecidableEq, Repr

inductive Point where
  | waitSiloQueueDone
  | pause
  | shutdown
  | awaitTermination
  | finished (outcome : Outcome)
  deriving DecidableEq, Repr

/-- `accepted` and `served` are history: the tasks taken in and those done. -/
structure State where
  wait : GracefulShutdown.State
  point : Point
  interruptStatus : Bool
  connector : Option Connector
  accepted : List Nat
  served : List Nat

inductive Action where
  | proceed
  | interrupt
  | timeout
  | queue (i size : Nat)
  | connection (connected : Bool)
  | request (task : Nat)
  | runTask (task : Nat)
  | finishTask (task : Nat)
  deriving DecidableEq, Repr

def State.executor (s : State) : Option Executor :=
  s.connector.bind Connector.executor

def State.paused (s : State) : Bool := s.connector.any Connector.paused

def State.setExecutor (s : State) (executor : Executor) : State :=
  { s with
    connector := s.connector.map fun connector =>
      { connector with executor := some executor } }

def State.finish (s : State) (outcome : Outcome) : State :=
  { s with point := .finished outcome }

/--
What Silo's `disconnect()` and Tomcat's `pause()`, whose code is not here, leave
of the interrupt status of the thread that calls them.
-/
structure Library where
  disconnect : Bool → Bool
  pause : Bool → Bool

def KeepsInterrupt (call : Bool → Bool) : Prop := call true = true

/-- A sleep finds the interrupt status; the handler sets it again. -/
def waitAction (s : State) : GracefulShutdown.Action :=
  if s.interruptStatus && s.wait.point = .sleep then .interrupt else .proceed

variable (library : Library)

def statusBehind (s : State) : Bool :=
  if s.wait.point = .disconnect then library.disconnect s.interruptStatus
  else s.interruptStatus

def proceed (s : State) : Option State :=
  match s.point with
  | .waitSiloQueueDone =>
      if s.wait.point = .returned ∨ s.wait.point = .interrupted then
        some { s with point := .pause }
      else
        (GracefulShutdown.step s.wait (waitAction s)).map fun wait =>
          { s with wait := wait, interruptStatus := statusBehind library s }
  | .pause =>
      match s.connector with
      | none => some (s.finish (.thrown .nullPointerException))
      | some connector =>
          some { s with
            connector := some { connector with paused := true }
            interruptStatus := library.pause s.interruptStatus
            point := .shutdown }
  | .shutdown =>
      match s.executor with
      | none => some (s.finish .noThreadPool)
      | some executor =>
          some { s.setExecutor { executor with pool := executor.pool.shutdown }
            with point := .awaitTermination }
  | .awaitTermination =>
      if s.executor.any Executor.terminated then some (s.finish .terminated)
      else if s.interruptStatus then some (s.finish .interrupted)
      else none
  | .finished _ => none

def step (s : State) : Action → Option State
  | .proceed => proceed library s
  | .interrupt => some { s with interruptStatus := true }
  | .timeout =>
      if s.point = .awaitTermination ∧ s.interruptStatus = false then
        some (s.finish .timedOut)
      else none
  | .queue i size => some { s with wait := s.wait.setQueueSize i size }
  | .connection connected =>
      some { s with wait := s.wait.setConnected connected }
  | .request task =>
      s.executor.bind fun executor =>
        (executor.pool.submit task).map fun pool =>
          { s.setExecutor { executor with pool := pool } with
            accepted := s.accepted ++ [task] }
  | .runTask task =>
      s.executor.bind fun executor =>
        if task ∈ executor.pool.waiting then
          some (s.setExecutor
            ⟨executor.pool.take task, executor.running ++ [task]⟩)
        else none
  | .finishTask task =>
      s.executor.bind fun executor =>
        if task ∈ executor.running then
          some { s.setExecutor
              { executor with running := executor.running.erase task } with
            served := s.served ++ [task] }
        else none

def Executor.tasks (executor : Executor) : List Nat :=
  executor.running ++ executor.pool.waiting

/-- The connector is running when the event comes; it may have tasks. -/
def onApplicationEvent (silo : Option SiloRunner)
    (executor : Option (Option Executor)) : TransitionSystem State Action :=
  ⟨{ wait := ⟨silo, .checkClient, []⟩
     point := .waitSiloQueueDone
     interruptStatus := false
     connector := executor.map fun executor => ⟨false, executor⟩
     accepted := executor.join.elim [] Executor.tasks
     served := [] }, step library⟩

def OnlyDecreases (s : State) : Action → Prop
  | .queue i size => GracefulShutdown.OnlyDecreases s.wait (.queue i size)
  | _ => True

instance (s : State) (a : Action) : Decidable (OnlyDecreases s a) :=
  match a with
  | .queue i size =>
      inferInstanceAs (Decidable
        (GracefulShutdown.OnlyDecreases s.wait (.queue i size)))
  | .proceed => isTrue trivial
  | .interrupt => isTrue trivial
  | .timeout => isTrue trivial
  | .connection _ => isTrue trivial
  | .request _ => isTrue trivial
  | .runTask _ => isTrue trivial
  | .finishTask _ => isTrue trivial

variable {library}

/-! ## The executor -/

theorem connector_of_executor {s : State} {executor : Executor}
    (h : s.executor = some executor) :
    ∃ connector, s.connector = some connector ∧
      connector.executor = some executor :=
  Option.bind_eq_some_iff.mp h

theorem executor_setExecutor {s : State} {executor : Executor}
    (h : s.executor = some executor) (after : Executor) :
    (s.setExecutor after).executor = some after := by
  obtain ⟨connector, hconnector, -⟩ := connector_of_executor h
  simp [State.setExecutor, State.executor, hconnector]

theorem paused_setExecutor (s : State) (executor : Executor) :
    (s.setExecutor executor).paused = s.paused := by
  unfold State.setExecutor State.paused
  cases s.connector with
  | none => rfl
  | some connector => rfl

def Balanced (s : State) : Prop :=
  ∀ executor, s.executor = some executor →
    s.accepted.Perm (s.served ++ executor.tasks)

structure Works (s s' : State) : Prop where
  same : s'.wait = s.wait ∧ s'.point = s.point ∧
    s'.interruptStatus = s.interruptStatus ∧ s'.paused = s.paused
  executor : ∃ before after, s.executor = some before ∧
    s'.executor = some after ∧ before.terminated = false ∧
    after.pool.isShutdown = before.pool.isShutdown
  balanced : Balanced s → Balanced s'

theorem Works.request {s s' : State} {task : Nat}
    (h : step library s (.request task) = some s') : Works s s' := by
  obtain ⟨executor, hexecutor, hpool⟩ := Option.bind_eq_some_iff.mp h
  obtain ⟨pool, hsubmit, rfl⟩ := Option.map_eq_some_iff.mp hpool
  unfold ThreadPool.submit at hsubmit
  split at hsubmit
  · cases hsubmit
  · rename_i hopen
    cases hsubmit
    have hafter := executor_setExecutor hexecutor
      { executor with pool :=
        { executor.pool with waiting := executor.pool.waiting ++ [task] } }
    refine ⟨⟨rfl, rfl, rfl, paused_setExecutor s _⟩,
      ⟨executor, _, hexecutor, hafter, ?_, rfl⟩, ?_⟩
    · simp [Executor.terminated, hopen]
    · intro hbalanced now hnow
      obtain rfl := Option.some.inj (hafter.symm.trans hnow)
      dsimp only [Executor.tasks, State.setExecutor]
      rw [← List.append_assoc, ← List.append_assoc, List.append_assoc s.served]
      exact (hbalanced executor hexecutor).append_right [task]

theorem Works.runTask {s s' : State} {task : Nat}
    (h : step library s (.runTask task) = some s') : Works s s' := by
  obtain ⟨executor, hexecutor, hwaiting⟩ := Option.bind_eq_some_iff.mp h
  split at hwaiting
  · rename_i hmem
    cases hwaiting
    have hafter := executor_setExecutor hexecutor
      ⟨executor.pool.take task, executor.running ++ [task]⟩
    refine ⟨⟨rfl, rfl, rfl, paused_setExecutor s _⟩,
      ⟨executor, _, hexecutor, hafter, ?_, rfl⟩, ?_⟩
    · have hne := List.ne_nil_of_mem hmem
      simp [Executor.terminated, hne]
    · intro hbalanced now hnow
      obtain rfl := Option.some.inj (hafter.symm.trans hnow)
      refine (hbalanced executor hexecutor).trans (List.Perm.append_left _ ?_)
      dsimp only [Executor.tasks, ThreadPool.take]
      rw [List.append_assoc]
      exact (List.perm_cons_erase hmem).append_left _
  · cases hwaiting

theorem Works.finishTask {s s' : State} {task : Nat}
    (h : step library s (.finishTask task) = some s') : Works s s' := by
  obtain ⟨executor, hexecutor, hrunning⟩ := Option.bind_eq_some_iff.mp h
  split at hrunning
  · rename_i hmem
    cases hrunning
    have hafter := executor_setExecutor hexecutor
      { executor with running := executor.running.erase task }
    refine ⟨⟨rfl, rfl, rfl, paused_setExecutor s _⟩,
      ⟨executor, _, hexecutor, hafter, ?_, rfl⟩, ?_⟩
    · have hne := List.ne_nil_of_mem hmem
      simp [Executor.terminated, hne]
    · intro hbalanced now hnow
      obtain rfl := Option.some.inj (hafter.symm.trans hnow)
      refine (hbalanced executor hexecutor).trans ?_
      dsimp only [Executor.tasks]
      rw [List.append_assoc]
      apply List.Perm.append_left
      exact (List.perm_cons_erase hmem).append_right executor.pool.waiting
  · cases hrunning

/-! ## The invariant -/

/-- `pause()` has not been called, or keeps the interrupt status. -/
def State.Uncleared (library : Library) (s : State) : Prop :=
  s.point = .waitSiloQueueDone ∨ s.point = .pause ∨
    KeepsInterrupt library.pause

structure Inv (library : Library) (s : State) : Prop where
  wait : GracefulShutdown.Inv s.wait
  status : s.wait.point = .interrupted → s.Uncleared library →
    s.interruptStatus = true
  behind : s.point ≠ .waitSiloQueueDone →
    s.wait.point = .returned ∨ s.wait.point = .interrupted
  paused : s.point = .waitSiloQueueDone ∨ s.point = .pause → s.paused = false
  balanced : Balanced s
  timedOut : s.point = .finished .timedOut → KeepsInterrupt library.pause →
    s.wait.point = .returned
  terminated : s.point = .finished .terminated →
    ∃ executor, s.executor = some executor ∧ executor.terminated = true

theorem Inv.works {s s' : State} (hs : Inv library s) (h : Works s s') :
    Inv library s' := by
  obtain ⟨hwait, hpoint, hstatus, hpaused⟩ := h.same
  obtain ⟨before, after, hbefore, -, halive, -⟩ := h.executor
  refine ⟨hwait ▸ hs.wait, ?_, ?_, ?_, h.balanced hs.balanced, ?_, ?_⟩
  · unfold State.Uncleared
    rw [hwait, hstatus, hpoint]
    exact hs.status
  · rw [hwait, hpoint]
    exact hs.behind
  · rw [hpoint, hpaused]
    exact hs.paused
  · rw [hpoint, hwait]
    exact hs.timedOut
  · intro hdone
    obtain ⟨executor, hexecutor, hterminated⟩ := hs.terminated (hpoint ▸ hdone)
    obtain rfl := Option.some.inj (hbefore.symm.trans hexecutor)
    rw [halive] at hterminated
    cases hterminated

theorem proceed_ne_interrupted {w w' : GracefulShutdown.State}
    (h : GracefulShutdown.proceed w = some w') : w'.point ≠ .interrupted := by
  unfold GracefulShutdown.proceed at h
  split at h
  · split at h <;> cases h <;> exact nofun
  · split at h <;> cases h <;> exact nofun
  · cases h
    exact nofun
  · split at h <;> cases h <;> exact nofun
  · split at h
    · cases h
      exact nofun
    · split at h <;> cases h <;> exact nofun
  · cases h
    exact nofun
  · cases h
  · cases h

theorem Inv.waits {s : State} {wait : GracefulShutdown.State}
    (hs : Inv library s) (hpoint : s.point = .waitSiloQueueDone)
    (h : GracefulShutdown.step s.wait (waitAction s) = some wait) :
    Inv library { s with
      wait := wait
      interruptStatus := statusBehind library s } := by
  have hpaused := hs.paused (Or.inl hpoint)
  refine ⟨?_, ?_, fun hne => absurd hpoint hne, fun _ => hpaused, hs.balanced,
    ?_, ?_⟩
  · apply GracefulShutdown.Inv.step _ hs.wait h
    unfold waitAction
    split <;> trivial
  · intro hinterrupted _
    unfold waitAction at h
    split at h
    · rename_i hboth
      simp only [Bool.and_eq_true, decide_eq_true_eq] at hboth
      dsimp only [statusBehind]
      rw [if_neg (by rw [hboth.2]; exact nofun)]
      exact hboth.1
    · exact absurd hinterrupted (proceed_ne_interrupted h)
  · intro hdone
    rw [show s.point = _ from hdone] at hpoint
    cases hpoint
  · intro hdone
    rw [show s.point = _ from hdone] at hpoint
    cases hpoint

theorem Inv.status_behind {s s' : State} (hs : Inv library s)
    (hwait : s'.wait = s.wait) (hstatus : s'.interruptStatus = s.interruptStatus)
    (hbehind : s'.point ≠ .waitSiloQueueDone ∧ s'.point ≠ .pause) :
    s'.wait.point = .interrupted → s'.Uncleared library →
      s'.interruptStatus = true := by
  rintro hinterrupted (hpoint | hpoint | hkeeps)
  · exact absurd hpoint hbehind.1
  · exact absurd hpoint hbehind.2
  · rw [hstatus]
    rw [hwait] at hinterrupted
    exact hs.status hinterrupted (Or.inr (Or.inr hkeeps))

theorem Inv.finish {s : State} (hs : Inv library s) {outcome : Outcome}
    (hover : s.wait.point = .returned ∨ s.wait.point = .interrupted)
    (htimedOut : outcome = .timedOut → KeepsInterrupt library.pause →
      s.wait.point = .returned)
    (hterminated : outcome = .terminated →
      ∃ executor, s.executor = some executor ∧ executor.terminated = true) :
    Inv library (s.finish outcome) := by
  refine ⟨hs.wait, hs.status_behind rfl rfl ⟨nofun, nofun⟩, fun _ => hover, ?_,
    hs.balanced, ?_, ?_⟩
  · rintro (hpoint | hpoint)
    · cases hpoint
    · cases hpoint
  · intro hpoint
    exact htimedOut (Point.finished.inj hpoint)
  · intro hpoint
    exact hterminated (Point.finished.inj hpoint)

theorem Inv.proceed {s s' : State} (hs : Inv library s)
    (h : proceed library s = some s') : Inv library s' := by
  unfold Shutdown.proceed at h
  cases hpoint : s.point with
  | waitSiloQueueDone =>
      simp only [hpoint] at h
      split at h
      · rename_i hover
        cases h
        have hpaused := hs.paused (Or.inl hpoint)
        exact ⟨hs.wait, fun hinterrupted _ => hs.status hinterrupted (Or.inl hpoint),
          fun _ => hover, fun _ => hpaused, hs.balanced, nofun, nofun⟩
      · obtain ⟨wait, hwait, rfl⟩ := Option.map_eq_some_iff.mp h
        exact hpoint ▸ hs.waits hpoint hwait
  | pause =>
      have hover := hs.behind (by rw [hpoint]; exact nofun)
      simp only [hpoint] at h
      split at h
      · cases h
        exact hs.finish hover nofun nofun
      · rename_i connector hconnector
        cases h
        refine ⟨hs.wait, ?_, fun _ => hover, nofun, ?_, nofun, nofun⟩
        · rintro hinterrupted (hbefore | hbefore | hkeeps)
          · cases hbefore
          · cases hbefore
          · dsimp only
            rw [hs.status hinterrupted (Or.inr (Or.inl hpoint))]
            exact hkeeps
        · intro executor hexecutor
          apply hs.balanced executor
          unfold State.executor
          rw [hconnector]
          exact hexecutor
  | shutdown =>
      have hover := hs.behind (by rw [hpoint]; exact nofun)
      simp only [hpoint] at h
      split at h
      · cases h
        exact hs.finish hover nofun nofun
      · rename_i executor hexecutor
        cases h
        refine ⟨hs.wait, hs.status_behind rfl rfl ⟨nofun, nofun⟩, fun _ => hover,
          nofun, ?_, nofun, nofun⟩
        intro now hnow
        obtain rfl := Option.some.inj
          ((executor_setExecutor hexecutor _).symm.trans hnow)
        exact hs.balanced executor hexecutor
  | awaitTermination =>
      have hover := hs.behind (by rw [hpoint]; exact nofun)
      simp only [hpoint] at h
      split at h
      · rename_i hdone
        cases h
        refine hs.finish hover nofun fun _ => ?_
        cases hexecutor : s.executor with
        | none => simp [hexecutor] at hdone
        | some executor => exact ⟨executor, rfl, by simpa [hexecutor] using hdone⟩
      · split at h
        · cases h
          exact hs.finish hover nofun nofun
        · cases h
  | finished outcome => simp [hpoint] at h

theorem Inv.step {s s' : State} {a : Action} (hdecreases : OnlyDecreases s a)
    (hs : Inv library s) (h : step library s a = some s') : Inv library s' := by
  cases a with
  | proceed => exact hs.proceed h
  | interrupt =>
      cases h
      exact ⟨hs.wait, fun _ _ => rfl, hs.behind, hs.paused, hs.balanced,
        hs.timedOut, hs.terminated⟩
  | timeout =>
      simp only [Shutdown.step] at h
      split at h
      · rename_i hwaiting
        cases h
        have hover := hs.behind (by rw [hwaiting.1]; exact nofun)
        refine hs.finish hover (fun _ hkeeps => ?_) nofun
        cases hover with
        | inl hreturned => exact hreturned
        | inr hinterrupted =>
            have hstatus := hs.status hinterrupted (Or.inr (Or.inr hkeeps))
            rw [hwaiting.2] at hstatus
            cases hstatus
      · cases h
  | queue i size =>
      cases h
      exact ⟨hs.wait.step (a := .queue i size) hdecreases rfl, hs.status,
        hs.behind, hs.paused, hs.balanced, hs.timedOut, hs.terminated⟩
  | connection connected =>
      cases h
      exact ⟨hs.wait.step (a := .connection connected) trivial rfl, hs.status,
        hs.behind, hs.paused, hs.balanced, hs.timedOut, hs.terminated⟩
  | request task => exact hs.works (Works.request h)
  | runTask task => exact hs.works (Works.runTask h)
  | finishTask task => exact hs.works (Works.finishTask h)

theorem inv_initial (silo : Option SiloRunner)
    (executor : Option (Option Executor)) :
    Inv library (onApplicationEvent library silo executor).initial := by
  refine ⟨GracefulShutdown.Inv.of_point nofun nofun, nofun,
    fun hne => absurd rfl hne, fun _ => ?_, ?_, nofun, nofun⟩
  · cases executor with
    | none => rfl
    | some executor => rfl
  · intro found hfound
    cases executor with
    | none => cases hfound
    | some executor =>
        cases executor with
        | none => cases hfound
        | some executor =>
            cases hfound
            exact List.Perm.refl _

/--
Tomcat is stopped only behind the wait: over empty queues, or called with the
interrupt status set.  Where `pause()` keeps the status, an interrupted thread
does not give the executor its time.  Where it reports the end of all tasks,
every task ever taken in is done and no other is taken in.
-/
theorem shutdown_in_order (library : Library) (silo : Option SiloRunner)
    (executor : Option (Option Executor)) {as : List Action} {t : State}
    (hdecreases : (onApplicationEvent library silo executor).EveryStep
      OnlyDecreases (onApplicationEvent library silo executor).initial as)
    (hrun : (onApplicationEvent library silo executor).run as = some t) :
    (t.point = .pause ∨ t.paused = true →
      t.wait.point = .returned ∧ t.wait.QueuesEmpty ∨
        t.wait.point = .interrupted) ∧
    (t.point = .pause → t.wait.point = .interrupted →
      t.interruptStatus = true) ∧
    (KeepsInterrupt library.pause → t.wait.point = .interrupted →
      t.interruptStatus = true ∧ t.point ≠ .finished .timedOut) ∧
    (t.point = .finished .terminated →
      t.accepted.Perm t.served ∧
        ∀ task, step library t (.request task) = none) := by
  have hthroughout := TransitionSystem.EveryStep.invariant
    (fun s a s' ha hs hstep => Inv.step ha hs hstep) hdecreases
    (inv_initial silo executor)
  have ht : Inv library t := hthroughout.last hrun
  refine ⟨?_, ?_, ?_, ?_⟩
  · intro hreached
    have hover : t.wait.point = .returned ∨ t.wait.point = .interrupted := by
      apply ht.behind
      intro hpoint
      cases hreached with
      | inl hpause =>
          rw [hpause] at hpoint
          cases hpoint
      | inr hpaused =>
          rw [ht.paused (Or.inl hpoint)] at hpaused
          cases hpaused
    cases hover with
    | inl hreturned => exact Or.inl ⟨hreturned, ht.wait.empty hreturned⟩
    | inr hinterrupted => exact Or.inr hinterrupted
  · intro hpause hinterrupted
    exact ht.status hinterrupted (Or.inr (Or.inl hpause))
  · intro hkeeps hinterrupted
    refine ⟨ht.status hinterrupted (Or.inr (Or.inr hkeeps)), ?_⟩
    intro htimedOut
    rw [ht.timedOut htimedOut hkeeps] at hinterrupted
    cases hinterrupted
  · intro hdone
    obtain ⟨found, hfound, hterminated⟩ := ht.terminated hdone
    simp only [Executor.terminated, Bool.and_eq_true, List.isEmpty_iff]
      at hterminated
    constructor
    · have hbalanced := ht.balanced found hfound
      rw [Executor.tasks, hterminated.2, hterminated.1.2, List.append_nil,
        List.append_nil] at hbalanced
      exact hbalanced
    · intro task
      simp [Shutdown.step, hfound, ThreadPool.submit, hterminated.1.1]

def keepingLibrary : Library := ⟨id, id⟩

def busyTomcat : Option (Option Executor) := some (some ⟨⟨false, [1]⟩, [0]⟩)

def lastTaskServed : List Action :=
  [.proceed, .proceed, .proceed, .proceed, .queue 0 0, .finishTask 0, .proceed,
    .proceed, .proceed, .proceed, .proceed, .request 2, .proceed, .runTask 1,
    .runTask 2, .finishTask 2, .finishTask 1, .proceed]

theorem shutdown_in_order_busy :
    ∃ t, (onApplicationEvent keepingLibrary (some GracefulShutdown.twoWorkers)
        busyTomcat).run lastTaskServed = some t ∧
      t.point = .finished .terminated ∧ t.accepted.Perm t.served := by
  have hdecreases : (onApplicationEvent keepingLibrary
      (some GracefulShutdown.twoWorkers) busyTomcat).EveryStep OnlyDecreases
        (onApplicationEvent keepingLibrary (some GracefulShutdown.twoWorkers)
          busyTomcat).initial lastTaskServed := by
    decide
  exact ⟨_, rfl, rfl,
    ((shutdown_in_order keepingLibrary _ _ hdecreases rfl).2.2.2 rfl).1⟩

/-! ## An interrupted thread comes to its end -/

/-- The steps left at most over `n` workers when the next sleep is the last. -/
def waitRank (n : Nat) : GracefulShutdown.Point → Nat
  | .checkClient => n + 10
  | .checkConnected => n + 9
  | .disconnect => n + 8
  | .checkWorkers => n + 7
  | .sweep i => (n - i) + 6
  | .sleep => 5
  | .returned => 4
  | .interrupted => 4

def rank (s : State) : Nat :=
  match s.point with
  | .waitSiloQueueDone => waitRank s.wait.workers.length s.wait.point
  | .pause => 3
  | .shutdown => 2
  | .awaitTermination => 1
  | .finished _ => 0

theorem waitRank_proceed {w w' : GracefulShutdown.State}
    (hawake : w.point ≠ .sleep) (h : GracefulShutdown.proceed w = some w') :
    waitRank w.workers.length w'.point < waitRank w.workers.length w.point := by
  unfold GracefulShutdown.proceed at h
  cases hpoint : w.point with
  | checkClient =>
      simp only [hpoint] at h
      split at h <;> cases h <;> simp [waitRank, GracefulShutdown.State.goto]
  | checkConnected =>
      simp only [hpoint] at h
      split at h <;> cases h <;> simp [waitRank, GracefulShutdown.State.goto]
  | disconnect =>
      simp only [hpoint] at h
      cases h
      simp [waitRank, GracefulShutdown.State.goto]
  | checkWorkers =>
      simp only [hpoint] at h
      split at h <;> cases h <;> simp [waitRank, GracefulShutdown.State.goto]
  | sweep i =>
      simp only [hpoint] at h
      split at h
      · rename_i entry hentry
        cases h
        have hlt := (List.getElem?_eq_some_iff.mp hentry).1
        simp only [waitRank]
        omega
      · split at h <;> cases h <;>
          simp only [waitRank, GracefulShutdown.State.goto] <;> omega
  | sleep => exact absurd hpoint hawake
  | returned => simp [hpoint] at h
  | interrupted => simp [hpoint] at h

def Library.Keeps (library : Library) : Prop :=
  KeepsInterrupt library.disconnect ∧ KeepsInterrupt library.pause

theorem statusBehind_of_keeps {s : State} (hkeeps : library.Keeps)
    (hstatus : s.interruptStatus = true) : statusBehind library s = true := by
  unfold statusBehind
  rw [hstatus]
  split
  · exact hkeeps.1
  · rfl

theorem interruptStatus_step (hkeeps : library.Keeps) (s : State) (a : Action)
    (s' : State) (hstatus : s.interruptStatus = true)
    (h : step library s a = some s') : s'.interruptStatus = true := by
  cases a with
  | proceed =>
      simp only [step, proceed] at h
      split at h
      · split at h
        · cases h
          exact hstatus
        · obtain ⟨wait, -, rfl⟩ := Option.map_eq_some_iff.mp h
          exact statusBehind_of_keeps hkeeps hstatus
      · split at h
        · cases h
          exact hstatus
        · cases h
          dsimp only
          rw [hstatus]
          exact hkeeps.2
      · split at h <;> cases h <;> exact hstatus
      · split at h
        · cases h
          exact hstatus
        · cases h
          exact hstatus
      · cases h
  | interrupt =>
      cases h
      rfl
  | timeout =>
      simp only [step] at h
      split at h
      · cases h
        exact hstatus
      · cases h
  | queue i size =>
      cases h
      exact hstatus
  | connection connected =>
      cases h
      exact hstatus
  | request task => exact (Works.request h).same.2.2.1.trans hstatus
  | runTask task => exact (Works.runTask h).same.2.2.1.trans hstatus
  | finishTask task => exact (Works.finishTask h).same.2.2.1.trans hstatus

theorem rank_proceed {s s' : State} (hstatus : s.interruptStatus = true)
    (h : proceed library s = some s') : rank s' < rank s := by
  unfold proceed at h
  cases hpoint : s.point with
  | waitSiloQueueDone =>
      simp only [hpoint] at h
      split at h
      · rename_i hover
        cases h
        cases hover with
        | inl hreturned => simp [rank, hpoint, hreturned, waitRank]
        | inr hinterrupted => simp [rank, hpoint, hinterrupted, waitRank]
      · obtain ⟨wait, hwait, rfl⟩ := Option.map_eq_some_iff.mp h
        simp only [rank, hpoint]
        unfold waitAction at hwait
        split at hwait
        · rename_i hsleep
          have hsleeping : s.wait.point = .sleep := by
            simpa [hstatus] using hsleep
          simp only [GracefulShutdown.step, hsleeping, if_true,
            Option.some.injEq] at hwait
          subst hwait
          simp [waitRank, GracefulShutdown.State.goto, hsleeping]
        · rename_i hawake
          have hworkers := (GracefulShutdown.proceed_tmp hwait).1
          rw [hworkers]
          exact waitRank_proceed (by simpa [hstatus] using hawake) hwait
  | pause =>
      simp only [hpoint] at h
      split at h <;> cases h <;> simp [rank, hpoint, State.finish]
  | shutdown =>
      simp only [hpoint] at h
      split at h <;> cases h <;> simp [rank, hpoint, State.finish]
  | awaitTermination =>
      simp only [hpoint, hstatus, if_true] at h
      split at h <;> cases h <;> simp [rank, hpoint, State.finish]
  | finished outcome => simp [hpoint] at h

theorem rank_step (s : State) (a : Action) (s' : State)
    (hstatus : s.interruptStatus = true) (h : step library s a = some s') :
    rank s' + (if a == .proceed then 1 else 0) ≤ rank s := by
  have hworks (hworks : Works s s') : rank s' + 0 ≤ rank s := by
    obtain ⟨hwait, hpoint, -, -⟩ := hworks.same
    unfold rank
    rw [hwait, hpoint]
    exact Nat.le_refl _
  cases a with
  | proceed => exact rank_proceed hstatus h
  | interrupt =>
      cases h
      exact Nat.le_refl _
  | timeout =>
      simp only [step, hstatus] at h
      simp at h
  | queue i size =>
      cases h
      simp only [rank, GracefulShutdown.workers_setQueueSize,
        List.length_modify]
      exact Nat.le_refl _
  | connection connected =>
      cases h
      simp only [rank, GracefulShutdown.workers_setConnected]
      exact Nat.le_refl _
  | request task => exact hworks (Works.request h)
  | runTask task => exact hworks (Works.runTask h)
  | finishTask task => exact hworks (Works.finishTask h)

theorem wait_proceeds {w : GracefulShutdown.State}
    (hreturned : w.point ≠ .returned) (hinterrupted : w.point ≠ .interrupted) :
    ∃ w', GracefulShutdown.proceed w = some w' := by
  unfold GracefulShutdown.proceed
  cases hpoint : w.point with
  | checkClient =>
      dsimp only
      split <;> exact ⟨_, rfl⟩
  | checkConnected =>
      dsimp only
      split <;> exact ⟨_, rfl⟩
  | disconnect => exact ⟨_, rfl⟩
  | checkWorkers =>
      dsimp only
      split <;> exact ⟨_, rfl⟩
  | sweep i =>
      dsimp only
      split
      · exact ⟨_, rfl⟩
      · split <;> exact ⟨_, rfl⟩
  | sleep => exact ⟨_, rfl⟩
  | returned => exact absurd hpoint hreturned
  | interrupted => exact absurd hpoint hinterrupted

theorem proceeds {s : State} (hstatus : s.interruptStatus = true) :
    (∃ s', step library s .proceed = some s') ∨
      ∃ outcome, s.point = .finished outcome := by
  unfold step proceed
  cases hpoint : s.point with
  | waitSiloQueueDone =>
      left
      dsimp only
      split
      · exact ⟨_, rfl⟩
      · rename_i hnot
        rw [not_or] at hnot
        unfold waitAction
        split
        · rename_i hsleep
          have hsleeping : s.wait.point = .sleep := by
            simpa [hstatus] using hsleep
          simp [GracefulShutdown.step, hsleeping]
        · obtain ⟨wait, hwait⟩ := wait_proceeds hnot.1 hnot.2
          exact ⟨_, congrArg (Option.map _) hwait⟩
  | pause =>
      left
      dsimp only
      split <;> exact ⟨_, rfl⟩
  | shutdown =>
      left
      dsimp only
      split <;> exact ⟨_, rfl⟩
  | awaitTermination =>
      left
      dsimp only
      rw [if_pos hstatus]
      split <;> exact ⟨_, rfl⟩
  | finished outcome => exact Or.inr ⟨outcome, rfl⟩

theorem waitRank_le (n : Nat) (point : GracefulShutdown.Point) :
    waitRank n point ≤ n + 10 := by
  cases point <;> simp only [waitRank] <;> omega

theorem ends_of_keeps (hkeeps : library.Keeps) (silo : Option SiloRunner)
    (executor : Option (Option Executor)) {s t : State} {as : List Action}
    (hstatus : s.interruptStatus = true)
    (hrun : (onApplicationEvent library silo executor).runFrom s as = some t) :
    as.count .proceed ≤ s.wait.workers.length + 10 ∧
      ((∃ t', step library t .proceed = some t') ∨
        ∃ outcome, t.point = .finished outcome) := by
  constructor
  · have hle := TransitionSystem.runFrom_countP_le
      (I := fun s : State => s.interruptStatus = true)
      (interruptStatus_step hkeeps) rank_step hstatus hrun
    have hrank : rank s ≤ s.wait.workers.length + 10 := by
      unfold rank
      split
      · exact waitRank_le _ _
      · omega
      · omega
      · omega
      · omega
    unfold List.count
    omega
  · apply proceeds
    exact TransitionSystem.runFrom_invariant
      (P := fun s : State => s.interruptStatus = true)
      (interruptStatus_step hkeeps) hstatus hrun

theorem awaits {s : State} (hpoint : s.point = .awaitTermination)
    (hstatus : s.interruptStatus = false)
    (hbusy : s.executor.any Executor.terminated = false) :
    step library s .proceed = none := by
  simp [step, proceed, hpoint, hstatus, hbusy]

/-- Tomcat is busy with two tasks when the interrupt is lost in `pause()`. -/
theorem held_up (h : library.pause true = false) :
    ∃ s t, (onApplicationEvent library none busyTomcat).run [.interrupt] =
        some s ∧ s.interruptStatus = true ∧
      (onApplicationEvent library none busyTomcat).runFrom s
        (List.replicate 4 .proceed) = some t ∧
      step library t .proceed = none ∧
      ∀ outcome, t.point ≠ .finished outcome :=
  ⟨_, _, rfl, rfl, rfl, awaits rfl h rfl, nofun⟩

/-- The first queue keeps its message when the interrupt is lost before. -/
theorem sweeps_on (h : library.disconnect true = false) :
    ∃ s t, (onApplicationEvent library (some GracefulShutdown.twoWorkers)
        none).run [.interrupt] = some s ∧ s.interruptStatus = true ∧
      s.wait.workers.length = 2 ∧
      (onApplicationEvent library (some GracefulShutdown.twoWorkers)
        none).runFrom s
          (List.replicate 3 .proceed ++ List.replicate 13 .proceed) = some t := by
  have hsweeps : ∀ status, status = false → ∃ t,
      (onApplicationEvent library (some GracefulShutdown.twoWorkers)
        none).runFrom
          ⟨⟨some (GracefulShutdown.twoWorkers.setConnected false),
            .checkWorkers, []⟩, .waitSiloQueueDone, status, none, [], []⟩
          (List.replicate 13 .proceed) = some t := by
    rintro _ rfl
    exact ⟨_, rfl⟩
  obtain ⟨t, ht⟩ := hsweeps _ h
  exact ⟨_, t, rfl, rfl, rfl,
    (TransitionSystem.runFrom_append _ _ _ _).trans ht⟩

/--
An interrupted thread is never held up again and takes at most ten more steps
than there are workers until the event is over, in every run and whatever the
workers and the executor do meanwhile, exactly if neither `disconnect()` nor
`pause()` swallows the interrupt.
-/
theorem interrupted_ends_iff (library : Library) :
    (∀ (silo : Option SiloRunner) (executor : Option (Option Executor))
        (before as : List Action) (s t : State),
      (onApplicationEvent library silo executor).run before = some s →
      s.interruptStatus = true →
      (onApplicationEvent library silo executor).runFrom s as = some t →
        as.count .proceed ≤ s.wait.workers.length + 10 ∧
          ((∃ t', step library t .proceed = some t') ∨
            ∃ outcome, t.point = .finished outcome)) ↔
      KeepsInterrupt library.disconnect ∧ KeepsInterrupt library.pause := by
  constructor
  · intro hends
    constructor
    · unfold KeepsInterrupt
      by_contra hswallows
      obtain ⟨s, t, hbefore, hstatus, hworkers, hrun⟩ :=
        sweeps_on (eq_false_of_ne_true hswallows)
      have hle := (hends _ _ _ _ s t hbefore hstatus hrun).1
      rw [hworkers, List.count_append, List.count_replicate_self,
        List.count_replicate_self] at hle
      omega
    · unfold KeepsInterrupt
      by_contra hswallows
      obtain ⟨s, t, hbefore, hstatus, hrun, hstuck, hopen⟩ :=
        held_up (eq_false_of_ne_true hswallows)
      obtain ⟨t', ht'⟩ | ⟨outcome, hover⟩ :=
        (hends _ _ _ _ s t hbefore hstatus hrun).2
      · rw [hstuck] at ht'
        cases ht'
      · exact hopen outcome hover
  · intro hkeeps silo executor before as s t _ hstatus hrun
    exact ends_of_keeps hkeeps silo executor hstatus hrun

end Shutdown

end WebIm.Mqtt
