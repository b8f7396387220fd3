import Mathlib.Data.List.Basic

/-!
# Thread pools and one-shot futures

A pool accepts tasks until it is shut down; the tasks it has accepted are still
run after that, in any order.  A future takes the value of its callable the
first time it is run and ignores every later run.
-/

namespace WebIm.Foundation

/-! ## Futures -/

/-- `completions` counts the times the outcome was set. -/
structure FutureTask (β : Type*) where
  outcome : Option β
  completions : Nat
  once : completions = outcome.toList.length

namespace FutureTask

variable {β : Type*}

def new : FutureTask β := ⟨none, 0, rfl⟩

def run (task : FutureTask β) (value : β) : FutureTask β :=
  match h : task.outcome with
  | some _ => task
  | none => ⟨some value, task.completions + 1, by rw [task.once, h]; rfl⟩

theorem completions_le (task : FutureTask β) : task.completions ≤ 1 := by
  rw [task.once]
  cases task.outcome with
  | none => exact Nat.zero_le 1
  | some value => exact Nat.le_refl 1

theorem run_of_isSome {task : FutureTask β} (h : task.outcome.isSome)
    (value : β) : task.run value = task := by
  unfold run
  split
  · rfl
  · rename_i hnone
    rw [hnone] at h
    cases h

theorem outcome_run (task : FutureTask β) (value : β) :
    (task.run value).outcome = task.outcome.or (some value) := by
  unfold run
  split
  · rename_i hsome
    rw [hsome, Option.some_or]
  · rename_i hnone
    simp only [hnone, Option.none_or]

theorem run_run (task : FutureTask β) (first second : β) :
    (task.run first).run second = task.run first := by
  apply run_of_isSome
  rw [outcome_run, Option.isSome_or, Option.isSome_some, Bool.or_true]

end FutureTask

/-! ## Pools -/

/-- `waiting` are the accepted tasks that no thread has run yet. -/
structure ThreadPool (τ : Type*) where
  isShutdown : Bool
  waiting : List τ

namespace ThreadPool

variable {τ : Type*}

def new : ThreadPool τ := ⟨false, []⟩

/-- `none` when the pool rejects the task. -/
def submit (pool : ThreadPool τ) (task : τ) : Option (ThreadPool τ) :=
  if pool.isShutdown then none
  else some { pool with waiting := pool.waiting ++ [task] }

def shutdown (pool : ThreadPool τ) : ThreadPool τ :=
  { pool with isShutdown := true }

def take [DecidableEq τ] (pool : ThreadPool τ) (task : τ) : ThreadPool τ :=
  { pool with waiting := pool.waiting.erase task }

def submitMany (pool : ThreadPool τ) (task : τ) :
    Nat → Option (ThreadPool τ)
  | 0 => some pool
  | n + 1 => (pool.submit task).bind fun pool => pool.submitMany task n

theorem submitMany_of_shutdown {pool : ThreadPool τ}
    (h : pool.isShutdown = true) (task : τ) {n : Nat} (hn : 0 < n) :
    pool.submitMany task n = none := by
  cases n with
  | zero => omega
  | succ n => simp [submitMany, submit, h]

theorem submitMany_of_running {pool : ThreadPool τ}
    (h : pool.isShutdown = false) (task : τ) (n : Nat) :
    pool.submitMany task n =
      some { pool with waiting := pool.waiting ++ List.replicate n task } := by
  induction n generalizing pool with
  | zero => simp [submitMany]
  | succ n ih =>
      have hrunning : ({ pool with waiting := pool.waiting ++ [task] } :
          ThreadPool τ).isShutdown = false := h
      rw [submitMany, submit, if_neg (by simp [h]), Option.bind_some,
        ih hrunning]
      simp [List.replicate_succ]

end ThreadPool

end WebIm.Foundation
