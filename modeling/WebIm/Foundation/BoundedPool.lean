import Mathlib.Data.List.Nodup
import WebIm.Foundation.Transition

/-!
# Thread pools with a bounded queue

Up to `core` threads are started for the tasks that arrive; then a task waits
in the queue, and when that is full another thread is started for it, up to
`maximum`.  Beyond that the caller runs the task itself.  A pool that is shut
down drops what arrives and still runs what it has taken in.  Tasks are the
numbers of their arrival.
-/

namespace WebIm.Foundation

structure PoolSize where
  core : Nat
  maximum : Nat
  capacity : Nat
  core_pos : 0 < core
  core_le : core ≤ maximum
  capacity_pos : 0 < capacity

/-- `started` and `finished` are history; `callers` are tasks run by callers. -/
structure Pool where
  idle : Nat
  running : List Nat
  queue : List Nat
  callers : List Nat
  isShutdown : Bool
  arrived : Nat
  started : List Nat
  finished : List Nat
  discarded : List Nat
  deriving DecidableEq, Repr

inductive PoolAction where
  | submit
  | take
  | finish (task : Nat)
  | finishCaller (task : Nat)
  | leave
  | shutdown
  deriving DecidableEq, Repr

def PoolAction.works : PoolAction → Bool
  | .take | .finish _ | .finishCaller _ => true
  | .submit | .leave | .shutdown => false

namespace Pool

def new : Pool := ⟨0, [], [], [], false, 0, [], [], []⟩

def threads (s : Pool) : Nat := s.idle + s.running.length

def startThread (s : Pool) : Pool :=
  { s with
    running := s.running ++ [s.arrived]
    started := s.started ++ [s.arrived]
    arrived := s.arrived + 1 }

variable (size : PoolSize)

def submit (s : Pool) : Pool :=
  if s.isShutdown then
    { s with
      discarded := s.discarded ++ [s.arrived]
      arrived := s.arrived + 1 }
  else if s.threads < size.core then s.startThread
  else if s.queue.length < size.capacity then
    { s with
      queue := s.queue ++ [s.arrived]
      arrived := s.arrived + 1 }
  else if s.threads < size.maximum then s.startThread
  else
    { s with
      callers := s.callers ++ [s.arrived]
      started := s.started ++ [s.arrived]
      arrived := s.arrived + 1 }

/-- A thread that waits for a task longer than it may, or for ever. -/
def mayLeave (s : Pool) : Bool :=
  0 < s.idle && (size.core < s.threads || s.isShutdown && s.queue.isEmpty)

def step (s : Pool) : PoolAction → Option Pool
  | .submit => some (s.submit size)
  | .take =>
      match s.idle, s.queue with
      | idle + 1, task :: queue =>
          some { s with
            idle := idle
            queue := queue
            running := s.running ++ [task]
            started := s.started ++ [task] }
      | _, _ => none
  | .finish task =>
      if task ∈ s.running then
        some { s with
          idle := s.idle + 1
          running := s.running.erase task
          finished := s.finished ++ [task] }
      else none
  | .finishCaller task =>
      if task ∈ s.callers then
        some { s with
          callers := s.callers.erase task
          finished := s.finished ++ [task] }
      else none
  | .leave =>
      if s.mayLeave size then some { s with idle := s.idle - 1 } else none
  | .shutdown => some { s with isShutdown := true }

def system : TransitionSystem Pool PoolAction := ⟨new, step size⟩

def pending (s : Pool) : List Nat := s.running ++ (s.callers ++ s.queue)

def everywhere (s : Pool) : List Nat := s.finished ++ (s.discarded ++ s.pending)

/-! ## What one step does -/

variable {size} {s t : Pool}

theorem submit_cases (size : PoolSize) (s : Pool) :
    (s.isShutdown = true ∧ s.submit size =
      { s with
        discarded := s.discarded ++ [s.arrived]
        arrived := s.arrived + 1 }) ∨
    (s.isShutdown = false ∧ s.threads < size.maximum ∧
      (s.threads < size.core ∨ size.capacity ≤ s.queue.length) ∧
      s.submit size = s.startThread) ∨
    (s.isShutdown = false ∧ size.core ≤ s.threads ∧
      s.queue.length < size.capacity ∧ s.submit size =
        { s with
          queue := s.queue ++ [s.arrived]
          arrived := s.arrived + 1 }) ∨
    (s.isShutdown = false ∧ size.maximum ≤ s.threads ∧
      size.capacity ≤ s.queue.length ∧ s.submit size =
        { s with
          callers := s.callers ++ [s.arrived]
          started := s.started ++ [s.arrived]
          arrived := s.arrived + 1 }) := by
  have hle := size.core_le
  unfold submit
  by_cases hshutdown : s.isShutdown = true
  · exact .inl ⟨hshutdown, if_pos hshutdown⟩
  · rw [if_neg hshutdown]
    simp only [Bool.not_eq_true] at hshutdown
    by_cases hcore : s.threads < size.core
    · exact .inr (.inl ⟨hshutdown, by omega, .inl hcore, if_pos hcore⟩)
    · rw [if_neg hcore]
      by_cases hroom : s.queue.length < size.capacity
      · exact .inr (.inr (.inl ⟨hshutdown, by omega, hroom, if_pos hroom⟩))
      · rw [if_neg hroom]
        by_cases hmaximum : s.threads < size.maximum
        · exact .inr (.inl ⟨hshutdown, hmaximum, .inr (by omega),
            if_pos hmaximum⟩)
        · exact .inr (.inr (.inr ⟨hshutdown, by omega, by omega,
            if_neg hmaximum⟩))

theorem take_cases (h : s.step size .take = some t) :
    ∃ idle task queue, s.idle = idle + 1 ∧ s.queue = task :: queue ∧
      t = { s with
        idle := idle
        queue := queue
        running := s.running ++ [task]
        started := s.started ++ [task] } := by
  cases hidle : s.idle with
  | zero => simp [step, hidle] at h
  | succ idle =>
      cases hqueue : s.queue with
      | nil => simp [step, hidle, hqueue] at h
      | cons task queue =>
          simp only [step, hidle, hqueue, Option.some.injEq] at h
          exact ⟨idle, task, queue, rfl, rfl, h.symm⟩

theorem finish_cases {task : Nat} (h : s.step size (.finish task) = some t) :
    task ∈ s.running ∧
      t = { s with
        idle := s.idle + 1
        running := s.running.erase task
        finished := s.finished ++ [task] } := by
  simp only [step, Option.ite_none_right_eq_some, Option.some.injEq] at h
  exact ⟨h.1, h.2.symm⟩

theorem finishCaller_cases {task : Nat}
    (h : s.step size (.finishCaller task) = some t) :
    task ∈ s.callers ∧
      t = { s with
        callers := s.callers.erase task
        finished := s.finished ++ [task] } := by
  simp only [step, Option.ite_none_right_eq_some, Option.some.injEq] at h
  exact ⟨h.1, h.2.symm⟩

theorem leave_cases (h : s.step size .leave = some t) :
    0 < s.idle ∧
      (size.core < s.threads ∨ s.isShutdown = true ∧ s.queue = []) ∧
      t = { s with idle := s.idle - 1 } := by
  simp only [step, Option.ite_none_right_eq_some, Option.some.injEq] at h
  obtain ⟨hmay, rfl⟩ := h
  simpa [mayLeave] using hmay

/-! ## Every task is in one place -/

theorem count_erase_add {task : Nat} {tasks : List Nat} (h : task ∈ tasks)
    (other : Nat) :
    (tasks.erase task).count other + [task].count other =
      tasks.count other := by
  rw [(List.perm_cons_erase h).count_eq other, List.count_cons,
    List.count_cons, List.count_nil, Nat.zero_add]

theorem count_submit (s : Pool) (task : Nat) :
    (s.submit size).everywhere.count task =
      s.everywhere.count task + [s.arrived].count task := by
  obtain ⟨-, h⟩ | ⟨-, -, -, h⟩ | ⟨-, -, -, h⟩ | ⟨-, -, -, h⟩ :=
    submit_cases size s
  all_goals
    rw [h]
    simp only [everywhere, pending, startThread, List.count_append]
    omega

theorem count_step {a : PoolAction} (ha : a ≠ .submit)
    (h : s.step size a = some t) (task : Nat) :
    t.everywhere.count task = s.everywhere.count task := by
  cases a with
  | submit => exact absurd rfl ha
  | take =>
      obtain ⟨idle, first, queue, -, hqueue, rfl⟩ := take_cases h
      simp only [everywhere, pending, hqueue, List.count_append,
        List.count_cons, List.count_nil]
      omega
  | finish own =>
      obtain ⟨hmem, rfl⟩ := finish_cases h
      have herase := count_erase_add hmem task
      simp only [everywhere, pending, List.count_append]
      omega
  | finishCaller own =>
      obtain ⟨hmem, rfl⟩ := finishCaller_cases h
      have herase := count_erase_add hmem task
      simp only [everywhere, pending, List.count_append]
      omega
  | leave =>
      obtain ⟨-, -, rfl⟩ := leave_cases h
      rfl
  | shutdown =>
      cases h
      rfl

theorem arrived_step {a : PoolAction} (ha : a ≠ .submit)
    (h : s.step size a = some t) : t.arrived = s.arrived := by
  cases a with
  | submit => exact absurd rfl ha
  | take =>
      obtain ⟨idle, first, queue, -, -, rfl⟩ := take_cases h
      rfl
  | finish own => rw [(finish_cases h).2]
  | finishCaller own => rw [(finishCaller_cases h).2]
  | leave => rw [(leave_cases h).2.2]
  | shutdown =>
      cases h
      rfl

theorem arrived_submit (s : Pool) :
    (s.submit size).arrived = s.arrived + 1 := by
  obtain ⟨-, h⟩ | ⟨-, -, -, h⟩ | ⟨-, -, -, h⟩ | ⟨-, -, -, h⟩ :=
    submit_cases size s
  · rw [h]
  · rw [h, startThread]
  · rw [h]
  · rw [h]

structure Kept (size : PoolSize) (s : Pool) : Prop where
  once : s.everywhere.Perm (List.range s.arrived)
  threads_le : s.threads ≤ size.maximum
  queue_le : s.queue.length ≤ size.capacity
  staffed : s.queue ≠ [] → size.core ≤ s.threads
  discarded : s.isShutdown = false → s.discarded = []

theorem kept_new : Kept size new :=
  ⟨.refl _, Nat.zero_le _, Nat.zero_le _, fun h => absurd rfl h, fun _ => rfl⟩

theorem once_step {a : PoolAction} (hs : Kept size s)
    (h : s.step size a = some t) : t.everywhere.Perm (List.range t.arrived) := by
  apply List.perm_iff_count.mpr
  intro task
  have hcount := List.perm_iff_count.mp hs.once task
  by_cases ha : a = .submit
  · subst ha
    cases h
    rw [count_submit, arrived_submit, hcount, List.range_succ,
      List.count_append]
  · rw [count_step ha h, arrived_step ha h, hcount]

theorem Kept.submit (hs : Kept size s) : Kept size (s.submit size) := by
  have honce : (s.submit size).everywhere.Perm
      (List.range (s.submit size).arrived) := once_step (a := .submit) hs rfl
  obtain ⟨hshutdown, h⟩ | ⟨hopen, hthreads, -, h⟩ | ⟨hopen, hstaffed, hroom, h⟩ |
    ⟨hopen, hthreads, hfull, h⟩ := submit_cases size s
  · refine ⟨honce, ?_, ?_, ?_, ?_⟩ <;> rw [h]
    · exact hs.threads_le
    · exact hs.queue_le
    · exact hs.staffed
    · intro hopen
      rw [hshutdown] at hopen
      cases hopen
  · have hmore : s.startThread.threads = s.threads + 1 := by
      simp only [threads, startThread, List.length_append,
        List.length_singleton]
      omega
    refine ⟨honce, ?_, ?_, ?_, ?_⟩ <;> rw [h]
    · omega
    · exact hs.queue_le
    · intro hqueue
      have hcore := hs.staffed hqueue
      omega
    · exact hs.discarded
  · refine ⟨honce, ?_, ?_, ?_, ?_⟩ <;> rw [h]
    · exact hs.threads_le
    · rw [List.length_append]
      exact hroom
    · intro _
      exact hstaffed
    · exact hs.discarded
  · refine ⟨honce, ?_, ?_, ?_, ?_⟩ <;> rw [h]
    · exact hs.threads_le
    · exact hs.queue_le
    · exact hs.staffed
    · exact hs.discarded

theorem kept_step (s : Pool) (a : PoolAction) (t : Pool) (hs : Kept size s)
    (h : s.step size a = some t) : Kept size t := by
  have honce := once_step hs h
  cases a with
  | submit =>
      cases h
      exact hs.submit
  | take =>
      obtain ⟨idle, task, queue, hidle, hqueue, rfl⟩ := take_cases h
      have hthreads := hs.threads_le
      have hlength := hs.queue_le
      have hcore := hs.staffed (by simp [hqueue])
      rw [hqueue, List.length_cons] at hlength
      simp only [threads, hidle] at hthreads hcore
      refine ⟨honce, ?_, by dsimp only; omega, ?_, hs.discarded⟩
      all_goals
        simp only [threads, List.length_append, List.length_singleton]
        omega
  | finish task =>
      obtain ⟨hmem, rfl⟩ := finish_cases h
      have hlength := List.length_erase_of_mem hmem
      have hpos := List.length_pos_of_mem hmem
      have hsame : s.idle + 1 + (s.running.erase task).length = s.threads := by
        unfold threads
        omega
      refine ⟨honce, ?_, hs.queue_le, ?_, hs.discarded⟩
      · exact Nat.le_trans (Nat.le_of_eq hsame) hs.threads_le
      · intro hqueue
        exact Nat.le_trans (hs.staffed hqueue) (Nat.le_of_eq hsame.symm)
  | finishCaller task =>
      obtain ⟨-, rfl⟩ := finishCaller_cases h
      exact ⟨honce, hs.threads_le, hs.queue_le, hs.staffed, hs.discarded⟩
  | leave =>
      obtain ⟨hidle, hmay, rfl⟩ := leave_cases h
      have hthreads := hs.threads_le
      unfold threads at hthreads
      refine ⟨honce, ?_, hs.queue_le, ?_, hs.discarded⟩
      · simp only [threads]
        omega
      · intro hqueue
        cases hmay with
        | inl hmore =>
            unfold threads at hmore
            simp only [threads]
            omega
        | inr hempty => exact absurd hempty.2 hqueue
  | shutdown =>
      cases h
      exact ⟨honce, hs.threads_le, hs.queue_le, hs.staffed,
        fun hopen => Bool.noConfusion hopen⟩

/-! ## What is taken in -/

theorem pending_submit (hopen : s.isShutdown = false) :
    (s.submit size).pending.Perm (s.arrived :: s.pending) := by
  apply List.perm_iff_count.mpr
  intro task
  obtain ⟨hshutdown, -⟩ | ⟨-, -, -, h⟩ | ⟨-, -, -, h⟩ | ⟨-, -, -, h⟩ :=
    submit_cases size s
  · rw [hshutdown] at hopen
    cases hopen
  all_goals
    rw [h]
    simp only [pending, startThread, List.count_append, List.count_cons,
      List.count_nil]
    omega

theorem finished_submit (s : Pool) : (s.submit size).finished = s.finished := by
  obtain ⟨-, h⟩ | ⟨-, -, -, h⟩ | ⟨-, -, -, h⟩ | ⟨-, -, -, h⟩ :=
    submit_cases size s
  · rw [h]
  · rw [h, startThread]
  · rw [h]
  · rw [h]

theorem isShutdown_submit (s : Pool) :
    (s.submit size).isShutdown = s.isShutdown := by
  obtain ⟨-, h⟩ | ⟨-, -, -, h⟩ | ⟨-, -, -, h⟩ | ⟨-, -, -, h⟩ :=
    submit_cases size s
  · rw [h]
  · rw [h, startThread]
  · rw [h]
  · rw [h]

theorem isShutdown_step {a : PoolAction} (ha : a ≠ .shutdown)
    (h : s.step size a = some t) : t.isShutdown = s.isShutdown := by
  cases a with
  | submit =>
      cases h
      exact isShutdown_submit s
  | take =>
      obtain ⟨idle, task, queue, -, -, rfl⟩ := take_cases h
      rfl
  | finish task => rw [(finish_cases h).2]
  | finishCaller task => rw [(finishCaller_cases h).2]
  | leave => rw [(leave_cases h).2.2]
  | shutdown => exact absurd rfl ha

theorem pending_step {a : PoolAction} (ha : a ≠ .submit)
    (h : s.step size a = some t) :
    ∃ done, t.finished = s.finished ++ done ∧
      s.pending.Perm (done ++ t.pending) := by
  cases a with
  | submit => exact absurd rfl ha
  | take =>
      obtain ⟨idle, task, queue, -, hqueue, rfl⟩ := take_cases h
      refine ⟨[], (List.append_nil _).symm, List.perm_iff_count.mpr fun other => ?_⟩
      simp only [pending, hqueue, List.nil_append, List.count_append,
        List.count_cons, List.count_nil]
      omega
  | finish task =>
      obtain ⟨hmem, rfl⟩ := finish_cases h
      exact ⟨[task], rfl,
        ((List.perm_cons_erase hmem).append_right _).trans (.refl _)⟩
  | finishCaller task =>
      obtain ⟨hmem, rfl⟩ := finishCaller_cases h
      refine ⟨[task], rfl, List.perm_iff_count.mpr fun other => ?_⟩
      have herase := count_erase_add hmem other
      simp only [pending, List.count_append]
      omega
  | leave =>
      obtain ⟨-, -, rfl⟩ := leave_cases h
      exact ⟨[], (List.append_nil _).symm, .refl _⟩
  | shutdown =>
      cases h
      exact ⟨[], (List.append_nil _).symm, .refl _⟩

/-! ## The order in which tasks are started -/

/-- No task was started before one that arrived earlier and still waits. -/
def InOrder (s : Pool) : Prop :=
  (s.started ++ s.queue).Pairwise (· < ·)

instance : DecidablePred InOrder := fun s =>
  inferInstanceAs (Decidable ((s.started ++ s.queue).Pairwise (· < ·)))

/-- A task that arrives is dropped, or finds room in the core or the queue. -/
def Room (size : PoolSize) (s : Pool) : Prop :=
  s.isShutdown = true ∨ s.threads < size.core ∨
    s.queue.length < size.capacity

instance : DecidablePred (Room size) := fun s =>
  inferInstanceAs (Decidable (s.isShutdown = true ∨ s.threads < size.core ∨
    s.queue.length < size.capacity))

def Arrived (s : Pool) : Prop := ∀ task ∈ s.started ++ s.queue, task < s.arrived

theorem inOrder_submit (hs : Kept size s) (harrived : s.Arrived)
    (horder : s.InOrder) : (s.submit size).InOrder ↔ s.Room size := by
  have hlast : (s.started ++ s.queue ++ [s.arrived]).Pairwise (· < ·) := by
    refine List.pairwise_append.mpr ⟨horder, List.pairwise_singleton _ _, ?_⟩
    intro task htask other hother
    rw [List.mem_singleton.mp hother]
    exact harrived task htask
  -- behind a full queue the new task overtakes the first that waits
  have hovertakes : size.capacity ≤ s.queue.length →
      ¬ (s.started ++ [s.arrived] ++ s.queue).Pairwise (· < ·) := by
    intro hfull hpairwise
    obtain ⟨first, hfirst⟩ : ∃ first, first ∈ s.queue := by
      apply List.exists_mem_of_length_pos
      have hpos := size.capacity_pos
      omega
    have hless := (List.pairwise_append.mp hpairwise).2.2 s.arrived (by simp)
      first hfirst
    have hbefore := harrived first (List.mem_append_right _ hfirst)
    omega
  unfold Room
  obtain ⟨hshutdown, h⟩ | ⟨hopen, -, hwhy, h⟩ | ⟨hopen, hcore, hroom, h⟩ |
    ⟨hopen, hthreads, hfull, h⟩ := submit_cases size s
  · rw [h]
    exact iff_of_true horder (.inl hshutdown)
  · rw [h, hopen]
    by_cases hqueue : s.queue.length < size.capacity
    · have hcore : s.threads < size.core := hwhy.resolve_right (by omega)
      have hempty : s.queue = [] := by
        by_contra hne
        have hstaffed := hs.staffed hne
        omega
      rw [hempty, List.append_nil] at hlast
      refine iff_of_true ?_ (.inr (.inl hcore))
      simpa only [InOrder, startThread, hempty, List.append_nil] using hlast
    · have hcore : ¬ s.threads < size.core := by
        intro hcore
        have hstaffed := hs.staffed (by
          rintro hempty
          have hpos := size.capacity_pos
          rw [hempty] at hqueue
          exact hqueue hpos)
        omega
      refine iff_of_false (hovertakes (by omega)) ?_
      simp only [hcore, hqueue, or_false, Bool.false_eq_true, not_false_iff]
  · rw [h]
    refine iff_of_true ?_ (.inr (.inr hroom))
    simpa only [InOrder, List.append_assoc] using hlast
  · rw [h, hopen]
    have hle := size.core_le
    refine iff_of_false (hovertakes hfull) ?_
    simp only [Bool.false_eq_true, false_or]
    omega

/-- With one thread and room for one task, the third overtakes the second. -/
example : ¬ (system ⟨1, 2, 1, by decide, by decide, by decide⟩).Throughout
    InOrder new [.submit, .submit, .submit] := by
  decide

theorem order_step {a : PoolAction} (ha : a ≠ .submit)
    (h : s.step size a = some t) :
    t.started ++ t.queue = s.started ++ s.queue := by
  cases a with
  | submit => exact absurd rfl ha
  | take =>
      obtain ⟨idle, task, queue, -, hqueue, rfl⟩ := take_cases h
      rw [hqueue, List.append_assoc, List.singleton_append]
  | finish task => rw [(finish_cases h).2]
  | finishCaller task => rw [(finishCaller_cases h).2]
  | leave => rw [(leave_cases h).2.2]
  | shutdown =>
      cases h
      rfl

theorem Arrived.submit (h : s.Arrived) : (s.submit size).Arrived := by
  intro task htask
  rw [arrived_submit]
  have hmem : task ∈ s.started ++ s.queue ∨ task = s.arrived := by
    obtain ⟨-, h⟩ | ⟨-, -, -, h⟩ | ⟨-, -, -, h⟩ | ⟨-, -, -, h⟩ :=
      submit_cases size s
    all_goals
      rw [h] at htask
      simp only [startThread, List.mem_append, List.mem_singleton] at htask ⊢
      tauto
  cases hmem with
  | inl hbefore => exact Nat.lt_succ_of_lt (h task hbefore)
  | inr hlast => omega

theorem arrived_of_step {a : PoolAction} (hs : s.Arrived)
    (h : s.step size a = some t) : t.Arrived := by
  by_cases ha : a = .submit
  · subst ha
    cases h
    exact hs.submit
  · intro task htask
    rw [order_step ha h] at htask
    rw [arrived_step ha h]
    exact hs task htask

/-! ## The end of all tasks -/

/-- The steps that the tasks taken in still need. -/
def work (s : Pool) : Nat :=
  2 * s.queue.length + s.running.length + s.callers.length

theorem work_step {a : PoolAction} (ha : a ≠ .submit)
    (h : s.step size a = some t) :
    t.work + (if a.works then 1 else 0) = s.work := by
  cases a with
  | submit => exact absurd rfl ha
  | take =>
      obtain ⟨idle, task, queue, -, hqueue, rfl⟩ := take_cases h
      simp only [work, hqueue, PoolAction.works, List.length_append,
        List.length_cons, List.length_nil, if_true]
      omega
  | finish task =>
      obtain ⟨hmem, rfl⟩ := finish_cases h
      have hlength := List.length_erase_of_mem hmem
      have hpos := List.length_pos_of_mem hmem
      simp only [work, PoolAction.works, if_true]
      omega
  | finishCaller task =>
      obtain ⟨hmem, rfl⟩ := finishCaller_cases h
      have hlength := List.length_erase_of_mem hmem
      have hpos := List.length_pos_of_mem hmem
      simp only [work, PoolAction.works, if_true]
      omega
  | leave =>
      obtain ⟨-, -, rfl⟩ := leave_cases h
      rfl
  | shutdown =>
      cases h
      rfl

theorem work_submit_le (size : PoolSize) (s : Pool) :
    (s.submit size).work ≤ s.work + 2 := by
  obtain ⟨-, h⟩ | ⟨-, -, -, h⟩ | ⟨-, -, -, h⟩ | ⟨-, -, -, h⟩ :=
    submit_cases size s
  all_goals
    rw [h]
    simp only [work, startThread, List.length_append, List.length_singleton]
    omega

theorem Kept.proceeds (hs : Kept size s) (hwork : 0 < s.work) :
    ∃ a t, a.works = true ∧ s.step size a = some t := by
  cases hrunning : s.running with
  | cons task running =>
      refine ⟨.finish task, _, rfl, if_pos ?_⟩
      rw [hrunning]
      exact List.mem_cons_self
  | nil =>
      cases hcallers : s.callers with
      | cons task callers =>
          refine ⟨.finishCaller task, _, rfl, if_pos ?_⟩
          rw [hcallers]
          exact List.mem_cons_self
      | nil =>
          cases hqueue : s.queue with
          | nil => simp [work, hrunning, hcallers, hqueue] at hwork
          | cons task queue =>
              have hstaffed := hs.staffed (by simp [hqueue])
              have hcore := size.core_pos
              rw [threads, hrunning, List.length_nil, Nat.add_zero] at hstaffed
              obtain ⟨idle, hidle⟩ : ∃ idle, s.idle = idle + 1 :=
                ⟨s.idle - 1, by omega⟩
              have htaken : (s.step size .take).isSome := by
                simp [step, hidle, hqueue]
              obtain ⟨t, ht⟩ := Option.isSome_iff_exists.mp htaken
              exact ⟨.take, t, rfl, ht⟩

theorem pending_of_work_eq_zero (h : s.work = 0) : s.pending = [] := by
  unfold work at h
  have hqueue : s.queue = [] := List.length_eq_zero_iff.mp (by omega)
  have hrunning : s.running = [] := List.length_eq_zero_iff.mp (by omega)
  have hcallers : s.callers = [] := List.length_eq_zero_iff.mp (by omega)
  rw [pending, hqueue, hrunning, hcallers]
  rfl

end Pool

end WebIm.Foundation
