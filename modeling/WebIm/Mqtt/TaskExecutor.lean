import Mathlib.Data.List.Induction
import WebIm.Foundation.BoundedPool
import WebIm.Mqtt.TaskOrder

/-!
# The executor behind the webhook

`taskExecutor` has five threads, room for twenty tasks that wait, and up to ten
threads when that is full; beyond it the webhook runs its task itself.  The
webhooks hand in their tasks while the threads work, in any interleaving.
-/

namespace WebIm.Mqtt.TaskExecutor

open WebIm.Foundation

def taskExecutor : PoolSize where
  core := 5
  maximum := 10
  capacity := 20
  core_pos := by decide
  core_le := by decide
  capacity_pos := by decide

/-- `tasks` are the tasks handed in, each at its number. -/
structure State where
  pool : Pool
  tasks : List Task
  deriving DecidableEq, Repr

inductive Action where
  | webhook (data : Option EmqWebHookData) (ts : Int)
  | pool (a : PoolAction)
  deriving DecidableEq, Repr

namespace State

def submit (s : State) (task : Task) : State :=
  ⟨s.pool.submit taskExecutor, s.tasks ++ [task]⟩

def webhook (s : State) (data : Option EmqWebHookData) (ts : Int) : State :=
  match webhook4MQTT data ts with
  | .error _ => s
  | .ok tasks => tasks.foldl submit s

def step (s : State) : Action → Option State
  | .webhook data ts => some (s.webhook data ts)
  -- only a webhook hands in a task
  | .pool .submit => none
  | .pool a => (s.pool.step taskExecutor a).map fun pool => ⟨pool, s.tasks⟩

def tasksOf (s : State) (numbers : List Nat) : List Task :=
  numbers.filterMap (s.tasks[·]?)

end State

def system : TransitionSystem State Action := ⟨⟨.new, []⟩, State.step⟩

namespace Action

def calls : Action → List (Option EmqWebHookData × Int)
  | .webhook data ts => [(data, ts)]
  | .pool _ => []

def works : Action → Bool
  | .webhook _ _ => false
  | .pool a => a.works

end Action

/-- The executor has room for the task of a webhook, or has been shut down. -/
def Room (s : State) : Action → Prop
  | .webhook data ts =>
      submitted [(data, ts)] ≠ [] → s.pool.Room taskExecutor
  | .pool _ => True

instance (s : State) : (a : Action) → Decidable (Room s a)
  | .webhook data ts =>
      inferInstanceAs (Decidable
        (submitted [(data, ts)] ≠ [] → s.pool.Room taskExecutor))
  | .pool _ => isTrue trivial

/-! ## What one step does -/

variable {s t : State}

theorem webhook_cases (s : State) (data : Option EmqWebHookData) (ts : Int) :
    (submitted [(data, ts)] = [] ∧ s.webhook data ts = s) ∨
      ∃ task, submitted [(data, ts)] = [task] ∧
        s.webhook data ts = s.submit task := by
  unfold State.webhook submitted
  rw [List.flatMap_singleton]
  obtain hcall | hcall | ⟨task, hcall, -⟩ := webhook4MQTT_cases data ts
  · exact .inl (by simp only [hcall, and_self])
  · exact .inl (by simp only [hcall, List.foldl_nil, and_self])
  · exact .inr ⟨task, by simp only [hcall], by
      simp only [hcall, List.foldl_cons, List.foldl_nil]⟩

theorem step_pool (s : State) {a : PoolAction} (ha : a ≠ .submit) :
    s.step (.pool a) =
      (s.pool.step taskExecutor a).map fun pool => ⟨pool, s.tasks⟩ := by
  cases a with
  | submit => exact absurd rfl ha
  | take => rfl
  | finish task => rfl
  | finishCaller task => rfl
  | leave => rfl
  | shutdown => rfl

theorem pool_cases {a : PoolAction} (h : s.step (.pool a) = some t) :
    a ≠ .submit ∧ s.pool.step taskExecutor a = some t.pool ∧
      t.tasks = s.tasks := by
  have hne : a ≠ .submit := by
    rintro rfl
    cases h
  rw [step_pool s hne] at h
  obtain ⟨pool, hpool, rfl⟩ := Option.map_eq_some_iff.mp h
  exact ⟨hne, hpool, rfl⟩

structure Kept (s : State) : Prop where
  pool : s.pool.Kept taskExecutor
  arrived : s.pool.Arrived
  numbered : s.pool.arrived = s.tasks.length

theorem Kept.submit (hs : Kept s) (task : Task) : Kept (s.submit task) := by
  refine ⟨hs.pool.submit, hs.arrived.submit, ?_⟩
  rw [State.submit, Pool.arrived_submit, hs.numbered, List.length_append]
  rfl

theorem kept_step (s : State) (a : Action) (t : State) (hs : Kept s)
    (h : system.step s a = some t) : Kept t := by
  cases a with
  | webhook data ts =>
      cases h
      obtain ⟨-, hsame⟩ | ⟨task, -, hsubmit⟩ := webhook_cases s data ts
      · rw [hsame]
        exact hs
      · rw [hsubmit]
        exact hs.submit task
  | pool a =>
      obtain ⟨hne, hpool, htasks⟩ := pool_cases h
      refine ⟨Pool.kept_step _ _ _ hs.pool hpool,
        Pool.arrived_of_step hs.arrived hpool, ?_⟩
      rw [Pool.arrived_step hne hpool, hs.numbered, htasks]

theorem kept_initial : Kept system.initial :=
  ⟨Pool.kept_new, fun _ htask => absurd htask List.not_mem_nil, rfl⟩

theorem reachable_kept (hs : system.Reachable s) : Kept s :=
  hs.invariant kept_initial kept_step

theorem tasks_step (s : State) (a : Action) (t : State)
    (h : system.step s a = some t) : t.tasks = s.tasks ++ submitted a.calls := by
  cases a with
  | webhook data ts =>
      cases h
      obtain ⟨hnone, hsame⟩ | ⟨task, hone, hsubmit⟩ := webhook_cases s data ts
      · rw [hsame, Action.calls, hnone, List.append_nil]
      · rw [hsubmit, Action.calls, hone]
        rfl
  | pool a =>
      rw [(pool_cases h).2.2]
      exact (List.append_nil _).symm

theorem tasks_run {actions : List Action} (hrun : system.run actions = some s) :
    s.tasks = submitted (actions.flatMap Action.calls) := by
  rw [system.runFrom_log tasks_step hrun, submitted, List.flatMap_assoc]
  rfl

/-! ## Every task once -/

theorem filterMap_range (tasks : List Task) :
    (List.range tasks.length).filterMap (tasks[·]?) = tasks := by
  induction tasks using List.reverseRecOn with
  | nil => rfl
  | append_singleton tasks last ih =>
      have hbefore : (List.range tasks.length).filterMap
          ((tasks ++ [last])[·]?) =
            (List.range tasks.length).filterMap (tasks[·]?) := by
        apply List.filterMap_congr
        intro number hnumber
        exact List.getElem?_append_left (List.mem_range.mp hnumber)
      rw [List.length_append, List.length_singleton, List.range_succ,
        List.filterMap_append, hbefore, ih, List.filterMap_cons,
        List.getElem?_concat_length]
      rfl

theorem Kept.tasks_perm (hs : Kept s) :
    (s.tasksOf s.pool.everywhere).Perm s.tasks := by
  have hperm := hs.pool.once.filterMap (s.tasks[·]?)
  rwa [hs.numbered, filterMap_range] at hperm

theorem callers_webhook (hs : Kept s) {data : Option EmqWebHookData} {ts : Int}
    (h : (s.webhook data ts).pool.callers ≠ s.pool.callers) :
    s.pool.threads = 10 ∧ s.pool.queue.length = 20 := by
  have hthreads : s.pool.threads ≤ 10 := hs.pool.threads_le
  have hqueue : s.pool.queue.length ≤ 20 := hs.pool.queue_le
  obtain ⟨-, hsame⟩ | ⟨task, -, hsubmit⟩ := webhook_cases s data ts
  · rw [hsame] at h
    exact absurd rfl h
  · rw [hsubmit, State.submit] at h
    obtain ⟨-, hpool⟩ | ⟨-, -, -, hpool⟩ | ⟨-, -, -, hpool⟩ |
      ⟨-, hbusy, hfull, -⟩ := Pool.submit_cases taskExecutor s.pool
    · rw [hpool] at h
      exact absurd rfl h
    · rw [hpool] at h
      exact absurd rfl h
    · rw [hpool] at h
      exact absurd rfl h
    · have hmaximum : 10 ≤ s.pool.threads := hbusy
      have hcapacity : 20 ≤ s.pool.queue.length := hfull
      omega

/--
Every task of the webhooks is in one place: done, taken in, or dropped, which
happens only after a shutdown.  The threads and the queue stay within their
bounds, and a webhook runs its task itself only when both are exhausted.
-/
theorem executor_keeps_tasks (actions : List Action)
    (hrun : system.run actions = some s) :
    (s.tasksOf s.pool.finished ++ (s.tasksOf s.pool.discarded ++
        s.tasksOf s.pool.pending)).Perm
      (submitted (actions.flatMap Action.calls)) ∧
    s.pool.threads ≤ 10 ∧ s.pool.queue.length ≤ 20 ∧
    (s.pool.isShutdown = false → s.pool.discarded = []) ∧
    ∀ data ts, (s.webhook data ts).pool.callers ≠ s.pool.callers →
      s.pool.threads = 10 ∧ s.pool.queue.length = 20 := by
  have hs := reachable_kept ⟨actions, hrun⟩
  refine ⟨?_, hs.pool.threads_le, hs.pool.queue_le, hs.pool.discarded,
    fun data ts => callers_webhook hs⟩
  rw [← tasks_run hrun, State.tasksOf, State.tasksOf, State.tasksOf,
    ← List.filterMap_append, ← List.filterMap_append]
  exact hs.tasks_perm

def aliceHandedIn : List Action :=
  aliceReturns.map (fun call => .webhook call.1 call.2) ++ [.pool (.finish 0)]

theorem executor_keeps_tasks_alice :
    ∃ s, system.run aliceHandedIn = some s ∧
      s.tasksOf s.pool.finished = [.refreshDisConnectTime (some "alice") 1000] ∧
      (s.tasksOf s.pool.finished ++ (s.tasksOf s.pool.discarded ++
        s.tasksOf s.pool.pending)).Perm
          (submitted (aliceHandedIn.flatMap Action.calls)) := by
  have hrun : system.run aliceHandedIn = some _ := rfl
  exact ⟨_, hrun, rfl, (executor_keeps_tasks aliceHandedIn hrun).1⟩

/-! ## The order in which they are started -/

theorem inOrder_step (s : State) (a : Action) (t : State) (hs : Kept s)
    (horder : s.pool.InOrder) (h : system.step s a = some t) :
    t.pool.InOrder ↔ Room s a := by
  cases a with
  | webhook data ts =>
      cases h
      obtain ⟨hnone, hsame⟩ | ⟨task, hone, hsubmit⟩ := webhook_cases s data ts
      · rw [hsame]
        exact iff_of_true horder fun hne => absurd hnone hne
      · rw [hsubmit, State.submit,
          Pool.inOrder_submit hs.pool hs.arrived horder, Room, hone]
        simp
  | pool a =>
      obtain ⟨hne, hpool, -⟩ := pool_cases h
      refine iff_of_true ?_ trivial
      rw [Pool.InOrder, Pool.order_step hne hpool]
      exact horder

/--
The tasks are started in the order in which the webhooks came, for as long as
none of them meets five threads and a full queue, and no longer.
-/
theorem starts_in_order_iff (actions : List Action) :
    system.Throughout (fun s => s.pool.InOrder) system.initial actions ↔
      system.EveryStep Room system.initial actions :=
  TransitionSystem.throughout_iff_everyStep kept_step inOrder_step actions
    kept_initial List.Pairwise.nil

/-! ## The end of all tasks -/

theorem work_step (s : State) (a : Action) (t : State)
    (h : system.step s a = some t) :
    (if a.works then 1 else 0) + t.pool.work + 2 * s.tasks.length ≤
      s.pool.work + 2 * t.tasks.length := by
  cases a with
  | webhook data ts =>
      cases h
      obtain ⟨-, hsame⟩ | ⟨task, -, hsubmit⟩ := webhook_cases s data ts
      · rw [hsame]
        simp [Action.works]
      · have hwork := Pool.work_submit_le taskExecutor s.pool
        rw [hsubmit]
        simp only [State.submit, Action.works, Bool.false_eq_true, if_false,
          List.length_append, List.length_singleton]
        omega
  | pool a =>
      obtain ⟨hne, hpool, htasks⟩ := pool_cases h
      have hwork := Pool.work_step hne hpool
      rw [htasks, Action.works]
      omega

theorem work_run {actions : List Action}
    (hrun : system.runFrom s actions = some t) :
    actions.countP Action.works + t.pool.work + 2 * s.tasks.length ≤
      s.pool.work + 2 * t.tasks.length := by
  induction actions generalizing s with
  | nil =>
      cases hrun
      simp
  | cons a actions ih =>
      obtain ⟨s', ha, hactions⟩ := system.runFrom_cons.mp hrun
      have hfirst := work_step s a s' ha
      have hrest := ih hactions
      rw [List.countP_cons]
      omega

theorem Kept.proceeds (hs : Kept s) (hwork : 0 < s.pool.work) :
    ∃ a t, a.works = true ∧ system.step s a = some t := by
  obtain ⟨a, pool, hworks, hpool⟩ := hs.pool.proceeds hwork
  have hne : a ≠ .submit := by
    rintro rfl
    cases hworks
  have hstep : s.step (.pool a) = some ⟨pool, s.tasks⟩ := by
    rw [step_pool s hne, hpool]
    rfl
  exact ⟨.pool a, _, hworks, hstep⟩

/--
The threads take at most two steps for each task handed in, and are never stuck
while one is left: when there is none to take, every task has been run, but for
those dropped after a shutdown.
-/
theorem tasks_handed_in_end (actions : List Action)
    (hrun : system.run actions = some s) :
    actions.countP Action.works ≤
        2 * (submitted (actions.flatMap Action.calls)).length ∧
      ((∃ a t, a.works = true ∧ system.step s a = some t) ∨
        (s.tasksOf s.pool.finished ++ s.tasksOf s.pool.discarded).Perm
          (submitted (actions.flatMap Action.calls))) := by
  have hs := reachable_kept ⟨actions, hrun⟩
  rw [← tasks_run hrun]
  constructor
  · have hle := work_run hrun
    have hnone : system.initial.pool.work = 0 := rfl
    omega
  · cases Nat.eq_zero_or_pos s.pool.work with
    | inl hzero =>
        right
        have hperm := hs.tasks_perm
        rwa [Pool.everywhere, Pool.pending_of_work_eq_zero hzero,
          List.append_nil, State.tasksOf, List.filterMap_append] at hperm
    | inr hpos => exact .inl (hs.proceeds hpos)

theorem tasks_handed_in_end_alice :
    ∃ s, system.run aliceHandedIn = some s ∧
      ((∃ a t, a.works = true ∧ system.step s a = some t) ∨
        (s.tasksOf s.pool.finished ++ s.tasksOf s.pool.discarded).Perm
          (submitted (aliceHandedIn.flatMap Action.calls))) := by
  have hrun : system.run aliceHandedIn = some _ := rfl
  exact ⟨_, hrun, (tasks_handed_in_end aliceHandedIn hrun).2⟩

end WebIm.Mqtt.TaskExecutor
