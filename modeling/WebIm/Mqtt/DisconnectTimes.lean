import WebIm.Mqtt.TaskExecutor

/-!
# The disconnect times that Redis holds

Two refreshes of one client that are under way at the same time may be written
in either order.  The file follows the refreshes of one client through the
executor, by their numbers, for as long as no two of them are.
-/

namespace WebIm.Mqtt

open WebIm.Foundation

def Task.key (task : Task) : Option String := task.write.map Prod.fst

namespace TaskExecutor

/-- No refresh of a client arrives while another one is pending. -/
def Spaced (s : State) : Action → Prop
  | .webhook data ts =>
      ∀ task ∈ submitted [(data, ts)], task.key ≠ none →
        ∀ other ∈ s.tasksOf s.pool.pending, other.key ≠ task.key
  | .pool a => a ≠ .shutdown

instance (s : State) : (a : Action) → Decidable (Spaced s a)
  | .webhook data ts =>
      inferInstanceAs (Decidable (∀ task ∈ submitted [(data, ts)],
        task.key ≠ none →
          ∀ other ∈ s.tasksOf s.pool.pending, other.key ≠ task.key))
  | .pool a => inferInstanceAs (Decidable (a ≠ .shutdown))

def State.writing (s : State) (clientId : String) (numbers : List Nat) :
    List Nat :=
  numbers.filter fun number => s.tasks[number]?.bind Task.key = some clientId

variable {s t : State} {clientId : String}

theorem tasksOf_writing (s : State) (clientId : String) (numbers : List Nat) :
    s.tasksOf (s.writing clientId numbers) =
      (s.tasksOf numbers).filter (·.key = some clientId) := by
  unfold State.tasksOf State.writing
  induction numbers with
  | nil => rfl
  | cons number numbers ih =>
      rw [List.filter_cons, List.filterMap_cons]
      cases htask : s.tasks[number]? with
      | none =>
          rw [if_neg (by simp), ih]
      | some task =>
          by_cases hkey : task.key = some clientId
          · rw [if_pos (by simpa using hkey), List.filterMap_cons, htask,
              List.filter_cons, if_pos (decide_eq_true hkey), ih]
          · rw [if_neg (by simpa using hkey), List.filter_cons,
              if_neg (by simpa using hkey), ih]

theorem writing_append (s : State) (clientId : String)
    (first second : List Nat) :
    s.writing clientId (first ++ second) =
      s.writing clientId first ++ s.writing clientId second :=
  List.filter_append ..

theorem writing_submit (task : Task) {numbers : List Nat}
    (hnumbers : ∀ number ∈ numbers, number < s.tasks.length) :
    (s.submit task).writing clientId numbers = s.writing clientId numbers := by
  apply List.filter_congr
  intro number hnumber
  rw [State.submit, List.getElem?_append_left (hnumbers number hnumber)]

theorem writing_last (s : State) (task : Task) (clientId : String) :
    (s.submit task).writing clientId [s.tasks.length] =
      if task.key = some clientId then [s.tasks.length] else [] := by
  rw [State.writing, List.filter_singleton, State.submit,
    List.getElem?_concat_length, Option.bind_some]
  simp

theorem eq_of_perm_of_length_le {first second : List Nat}
    (h : first.Perm second) (hone : second.length ≤ 1) : first = second := by
  cases second with
  | nil => exact h.eq_nil
  | cons number rest =>
      rw [List.length_cons] at hone
      rw [List.length_eq_zero_iff.mp (Nat.le_zero.mp (Nat.le_of_succ_le_succ hone))]
        at h ⊢
      exact List.perm_singleton.mp h

/-- The refreshes of a client are finished in the order of their numbers. -/
structure Current (clientId : String) (s : State) : Prop where
  kept : Kept s
  opened : s.pool.isShutdown = false
  inOrder :
    s.writing clientId s.pool.finished ++ s.writing clientId s.pool.pending =
      s.writing clientId (List.range s.pool.arrived)
  one : (s.writing clientId s.pool.pending).length ≤ 1

theorem Kept.lt_length (hs : Kept s) {number : Nat}
    (h : number ∈ s.pool.everywhere) : number < s.tasks.length := by
  rw [← hs.numbered]
  exact List.mem_range.mp (hs.pool.once.mem_iff.mp h)

theorem writing_eq_nil {numbers : List Nat}
    (h : ∀ task ∈ s.tasksOf numbers, task.key ≠ some clientId) :
    s.writing clientId numbers = [] := by
  apply List.filter_eq_nil_iff.mpr
  intro number hnumber hwrites
  obtain ⟨task, htask, hkey⟩ := Option.bind_eq_some_iff.mp (of_decide_eq_true hwrites)
  exact h task (List.mem_filterMap.mpr ⟨number, hnumber, htask⟩) hkey

theorem Current.submit (hs : Current clientId s) (task : Task)
    (hspaced : task.key ≠ none →
      ∀ other ∈ s.tasksOf s.pool.pending, other.key ≠ task.key) :
    Current clientId (s.submit task) := by
  have hpending : (s.submit task).writing clientId s.pool.pending =
      s.writing clientId s.pool.pending :=
    writing_submit task fun number hnumber => hs.kept.lt_length
      (List.mem_append_right _ (List.mem_append_right _ hnumber))
  have hfinished : (s.submit task).writing clientId s.pool.finished =
      s.writing clientId s.pool.finished :=
    writing_submit task fun number hnumber => hs.kept.lt_length
      (List.mem_append_left _ hnumber)
  have hrange : (s.submit task).writing clientId
      (List.range s.tasks.length) =
        s.writing clientId (List.range s.tasks.length) :=
    writing_submit task fun number hnumber => List.mem_range.mp hnumber
  -- the new number comes to the pending ones, wherever the pool puts it
  have hperm : ((s.submit task).writing clientId
      (s.submit task).pool.pending).Perm
        (s.writing clientId s.pool.pending ++
          if task.key = some clientId then [s.tasks.length] else []) := by
    have hplaced : (s.submit task).pool.pending.Perm
        (s.pool.arrived :: s.pool.pending) := Pool.pending_submit hs.opened
    have hlast := hplaced.trans (List.perm_append_singleton _ _).symm
    rw [hs.kept.numbered] at hlast
    have hfiltered := hlast.filter fun number =>
      (s.submit task).tasks[number]?.bind Task.key = some clientId
    rw [← writing_last, ← hpending, ← writing_append]
    exact hfiltered
  have hone : (s.writing clientId s.pool.pending ++
      if task.key = some clientId then [s.tasks.length] else []).length ≤ 1 := by
    by_cases hkey : task.key = some clientId
    · have hnone : s.writing clientId s.pool.pending = [] := by
        apply writing_eq_nil
        rw [← hkey]
        exact hspaced (by rw [hkey]; exact Option.some_ne_none clientId)
      rw [hnone, if_pos hkey]
      exact Nat.le_refl 1
    · rw [if_neg hkey, List.append_nil]
      exact hs.one
  have heq := eq_of_perm_of_length_le hperm hone
  refine ⟨hs.kept.submit task, ?_, ?_, ?_⟩
  · exact (Pool.isShutdown_submit s.pool).trans hs.opened
  · have harrived : (s.submit task).pool.arrived = s.tasks.length + 1 := by
      rw [State.submit, Pool.arrived_submit, hs.kept.numbered]
    have hsame : (s.submit task).pool.finished = s.pool.finished :=
      Pool.finished_submit _
    have hbefore := hs.inOrder
    rw [hs.kept.numbered] at hbefore
    rw [heq, harrived, List.range_succ, writing_append, writing_last, hrange,
      ← hbefore, hsame, hfinished, List.append_assoc]
  · rw [heq]
    exact hone

theorem Current.pool (hs : Current clientId s) {a : PoolAction}
    (ha : a ≠ .shutdown) (h : s.step (.pool a) = some t) :
    Current clientId t := by
  have hkept := kept_step s (.pool a) t hs.kept h
  obtain ⟨hne, hpool, htasks⟩ := pool_cases h
  obtain ⟨done, hfinished, hperm⟩ := Pool.pending_step hne hpool
  have hwriting : t.writing clientId = s.writing clientId := by
    funext numbers
    rw [State.writing, State.writing, htasks]
  have hmoved : s.writing clientId done ++ s.writing clientId t.pool.pending =
      s.writing clientId s.pool.pending := by
    rw [← writing_append]
    exact eq_of_perm_of_length_le (hperm.symm.filter _) hs.one
  refine ⟨hkept, (Pool.isShutdown_step ha hpool).trans hs.opened, ?_, ?_⟩
  · rw [hwriting, hfinished, writing_append, List.append_assoc, hmoved,
      Pool.arrived_step hne hpool]
    exact hs.inOrder
  · have hlength := congrArg List.length hmoved
    have hone := hs.one
    rw [List.length_append] at hlength
    rw [hwriting]
    omega

theorem current_step (s : State) (a : Action) (t : State)
    (hspaced : Spaced s a) (hs : Current clientId s)
    (h : system.step s a = some t) : Current clientId t := by
  cases a with
  | webhook data ts =>
      cases h
      obtain ⟨-, hsame⟩ | ⟨task, hone, hsubmit⟩ := webhook_cases s data ts
      · rw [hsame]
        exact hs
      · rw [hsubmit]
        exact hs.submit task (hspaced task (by rw [hone]; exact List.mem_cons_self))
  | pool a => exact hs.pool hspaced h

theorem current_initial : Current clientId system.initial :=
  ⟨kept_initial, rfl, rfl, Nat.zero_le 1⟩

end TaskExecutor

end WebIm.Mqtt
