import Mathlib.Data.List.Nodup
import WebIm.Foundation.LastWrite
import WebIm.Mqtt.OfflineMsgService

/-!
# The order in which the executor runs the tasks

The webhooks submit tasks in the order they arrive; the executor may run them
in any other.  A refresh writes Redis without looking, and a resend reads
Redis once, so both are determined by the last writes before them.
-/

namespace WebIm.Mqtt

open WebIm.Foundation

namespace Task

def write : Task → Option (String × Int)
  | .refreshDisConnectTime (some clientId) ts =>
      if clientId = "" then none else some (clientId, ts)
  | _ => none

theorem refresh_eq_applyWrite (clientTs : ClientTs) (clientId : Option String)
    (ts : Int) :
    OfflineMsgService.refreshDisConnectTime clientTs clientId ts =
      applyWrite write clientTs (.refreshDisConnectTime clientId ts) := by
  unfold OfflineMsgService.refreshDisConnectTime applyWrite write
  cases clientId with
  | none => rfl
  | some clientId => by_cases h : clientId = "" <;> simp [h]

end Task

/-! ## Executing tasks -/

/--
What the tasks find besides Redis: the rows of the archive, the clock, and the
results of their publishes.
-/
structure Surroundings where
  table : Task → List SiloMsg
  now : Task → Int
  publishMessage : Task → Nat → Bool

def execute (db : MySql) (env : Surroundings) (clientTs : ClientTs) :
    List Task → ClientTs × List (Task × Option (Int × Int))
  | [] => (clientTs, [])
  | .refreshDisConnectTime clientId ts :: tasks =>
      execute db env
        (OfflineMsgService.refreshDisConnectTime clientTs clientId ts) tasks
  | .getTopicAndResend topic clientId stop :: tasks =>
      let task := .getTopicAndResend topic clientId stop
      let resend :=
        OfflineMsgService.getTopicAndResend db (env.table task) clientTs
          (env.now task) (env.publishMessage task) topic clientId stop
      let (final, windows) := execute db env clientTs tasks
      (final, (task, resend.window) :: windows)

/-- The tasks of a sequence of webhook calls, each with the clock at the call. -/
def submitted (calls : List (Option EmqWebHookData × Int)) : List Task :=
  calls.flatMap fun (data, ts) =>
    match webhook4MQTT data ts with
    | .ok tasks => tasks
    | .error _ => []

theorem submitted_pairwise {calls : List (Option EmqWebHookData × Int)}
    (h : calls.Pairwise (·.2 < ·.2)) :
    (submitted calls).Pairwise (·.stamp < ·.stamp) := by
  have hstamp : ∀ call : Option EmqWebHookData × Int, ∀ task ∈ submitted [call],
      task.stamp = call.2 := by
    rintro ⟨data, ts⟩ task htask
    simp only [submitted, List.flatMap_singleton] at htask
    rcases webhook4MQTT_cases data ts with hcall | hcall | ⟨own, hcall, hts⟩
    · simp [hcall] at htask
    · simp [hcall] at htask
    · simp only [hcall, List.mem_singleton] at htask
      exact htask ▸ hts
  have hone : ∀ call : Option EmqWebHookData × Int,
      (submitted [call]).Pairwise (·.stamp < ·.stamp) := by
    rintro ⟨data, ts⟩
    simp only [submitted, List.flatMap_singleton]
    rcases webhook4MQTT_cases data ts with hcall | hcall | ⟨own, hcall, -⟩
    · simp [hcall]
    · simp [hcall]
    · simp [hcall]
  have hmem : ∀ calls : List (Option EmqWebHookData × Int),
      ∀ task ∈ submitted calls, ∃ call ∈ calls, task ∈ submitted [call] := by
    intro calls task htask
    obtain ⟨call, hcall, htask⟩ := List.mem_flatMap.mp htask
    exact ⟨call, hcall, by simpa [submitted] using htask⟩
  induction calls with
  | nil => exact .nil
  | cons call calls ih =>
      rw [List.pairwise_cons] at h
      have hcons : submitted (call :: calls) =
          submitted [call] ++ submitted calls := by
        simp [submitted]
      rw [hcons, List.pairwise_append]
      refine ⟨hone call, ih h.2, ?_⟩
      intro first hfirst second hsecond
      obtain ⟨other, hother, hsecond⟩ := hmem calls second hsecond
      rw [hstamp call first hfirst, hstamp other second hsecond]
      exact h.1 other hother

/-! ## What an order determines -/

def disconnectSeen (db : MySql) (table : List SiloMsg) (clientTs : ClientTs)
    (order : List Task) (task : Task) (clientId : Option String) : Int :=
  recordedDisconnect db table
    ((order.takeWhile (· ≠ task)).foldl (applyWrite Task.write) clientTs)
    clientId

section Execute

variable {db : MySql} {env : Surroundings}

theorem execute_clientTs (clientTs : ClientTs) (tasks : List Task) :
    (execute db env clientTs tasks).1 =
      tasks.foldl (applyWrite Task.write) clientTs := by
  induction tasks generalizing clientTs with
  | nil => rfl
  | cons task tasks ih =>
      cases task with
      | refreshDisConnectTime clientId ts =>
          rw [execute, ih, Task.refresh_eq_applyWrite]
          rfl
      | getTopicAndResend topic clientId stop => exact ih clientTs

def windowAt (db : MySql) (env : Surroundings) (clientTs : ClientTs)
    (topic clientId : Option String) (stop : Int) : Option (Int × Int) :=
  let task := .getTopicAndResend topic clientId stop
  (OfflineMsgService.getTopicAndResend db (env.table task) clientTs
    (env.now task) (env.publishMessage task) topic clientId stop).window

theorem windowAt_eq (clientTs : ClientTs) {topic clientId : Option String}
    {stop : Int} (hresend : Resendable topic clientId)
    (hnow : stop ≤ env.now (.getTopicAndResend topic clientId stop)) :
    windowAt db env clientTs topic clientId stop =
      offlineWindow (recordedDisconnect db
        (env.table (.getTopicAndResend topic clientId stop)) clientTs
        clientId) stop :=
  OfflineMsgService.window_getTopicAndResend db _ clientTs _ hresend hnow

theorem windowAt_of_not_resendable (clientTs : ClientTs)
    {topic clientId : Option String} (stop : Int)
    (h : ¬ Resendable topic clientId) :
    windowAt db env clientTs topic clientId stop = none :=
  congrArg Resend.window
    (OfflineMsgService.getTopicAndResend_of_not_resendable h)

theorem mem_execute_windows {tasks : List Task} (hnodup : tasks.Nodup)
    (clientTs : ClientTs) (task : Task) (window : Option (Int × Int)) :
    (task, window) ∈ (execute db env clientTs tasks).2 ↔
      ∃ topic clientId stop,
        task = .getTopicAndResend topic clientId stop ∧ task ∈ tasks ∧
        window = windowAt db env ((tasks.takeWhile (· ≠ task)).foldl
          (applyWrite Task.write) clientTs) topic clientId stop := by
  induction tasks generalizing clientTs with
  | nil => simp [execute]
  | cons first tasks ih =>
      obtain ⟨hfirst, hrest⟩ := List.nodup_cons.mp hnodup
      cases first with
      | refreshDisConnectTime own ts =>
          rw [execute, ih hrest, Task.refresh_eq_applyWrite]
          constructor
          · rintro ⟨topic, clientId, stop, rfl, hmem, rfl⟩
            exact ⟨topic, clientId, stop, rfl, by simp [hmem], by simp⟩
          · rintro ⟨topic, clientId, stop, rfl, hmem, rfl⟩
            exact ⟨topic, clientId, stop, rfl, by simpa using hmem, by simp⟩
      | getTopicAndResend ownTopic own ownStop =>
          have hmem : (task, window) ∈ (execute db env clientTs
              (.getTopicAndResend ownTopic own ownStop :: tasks)).2 ↔
              (task = .getTopicAndResend ownTopic own ownStop ∧
                window = windowAt db env clientTs ownTopic own ownStop) ∨
              (task, window) ∈ (execute db env clientTs tasks).2 := by
            simp [execute, windowAt]
          rw [hmem, ih hrest]
          constructor
          · rintro (⟨rfl, rfl⟩ | ⟨topic, clientId, stop, rfl, htask, rfl⟩)
            · exact ⟨ownTopic, own, ownStop, rfl, by simp, by simp⟩
            · refine ⟨topic, clientId, stop, rfl, by simp [htask], ?_⟩
              have hne : Task.getTopicAndResend ownTopic own ownStop ≠
                  .getTopicAndResend topic clientId stop := by
                intro heq
                exact hfirst (heq ▸ htask)
              simp [hne, applyWrite, Task.write]
          · rintro ⟨topic, clientId, stop, rfl, htask, rfl⟩
            by_cases heq : Task.getTopicAndResend topic clientId stop =
                .getTopicAndResend ownTopic own ownStop
            · cases heq
              exact Or.inl ⟨rfl, by simp⟩
            · refine Or.inr ⟨topic, clientId, stop, rfl, ?_, ?_⟩
              · exact (List.mem_cons.mp htask).resolve_left heq
              · have hne := Ne.symm heq
                simp [hne, applyWrite, Task.write]

end Execute

/-! ## When an order changes nothing -/

def Expired (disconnected stop : Int) : Prop :=
  0 < disconnected ∧ disconnected ≤ stop - offlineExpireTime

def Earlier (disconnected stop : Int) : Prop :=
  0 < disconnected ∧ disconnected < stop

/-- Two disconnect times give a resend the same messages to look at. -/
def Interchangeable (first second stop : Int) : Prop :=
  first = second ∨ (Expired first stop ∧ Expired second stop) ∨
    (¬ Earlier first stop ∧ ¬ Earlier second stop)

theorem offlineWindow_eq_iff (first second stop : Int) :
    offlineWindow first stop = offlineWindow second stop ↔
      Interchangeable first second stop := by
  have hexpire : 0 < offlineExpireTime := by decide
  unfold offlineWindow Interchangeable Expired Earlier
  by_cases hfirst : 0 < first ∧ first < stop
  · by_cases hsecond : 0 < second ∧ second < stop
    · rw [if_pos hfirst, if_pos hsecond]
      simp only [Option.some.injEq, Prod.mk.injEq, and_true, hfirst, hsecond,
        and_self, not_true_eq_false, or_false, true_and]
      omega
    · rw [if_pos hfirst, if_neg hsecond]
      simp only [reduceCtorEq, hfirst, hsecond, and_self, not_true_eq_false,
        false_and, or_false, false_iff]
      omega
  · by_cases hsecond : 0 < second ∧ second < stop
    · rw [if_neg hfirst, if_pos hsecond]
      simp only [reduceCtorEq, hfirst, hsecond, and_self, not_true_eq_false,
        and_false, or_false, false_iff]
      omega
    · simp [hfirst, hsecond]

/--
The order ends with the refresh of each client that arrived last, and every
resend finds a disconnect time as good as the one recorded before it arrived.
-/
structure Harmless (db : MySql) (arrivedEnv executedEnv : Surroundings)
    (clientTs : ClientTs) (arrived executed : List Task) : Prop where
  lastRefresh : ∀ clientId,
    lastWrite Task.write clientId executed =
      lastWrite Task.write clientId arrived
  resends : ∀ topic clientId stop,
    .getTopicAndResend topic clientId stop ∈ arrived →
    Resendable topic clientId →
    let task := .getTopicAndResend topic clientId stop
    Interchangeable
      (disconnectSeen db (executedEnv.table task) clientTs executed task
        clientId)
      (disconnectSeen db (arrivedEnv.table task) clientTs arrived task
        clientId) stop

theorem windowAt_eq_iff (db : MySql) {arrivedEnv executedEnv : Surroundings}
    (hclock : ∀ task : Task,
      task.stamp ≤ arrivedEnv.now task ∧ task.stamp ≤ executedEnv.now task)
    (executed arrived : ClientTs) (topic clientId : Option String)
    (stop : Int) :
    windowAt db executedEnv executed topic clientId stop =
        windowAt db arrivedEnv arrived topic clientId stop ↔
      (Resendable topic clientId →
        let task := .getTopicAndResend topic clientId stop
        Interchangeable
          (recordedDisconnect db (executedEnv.table task) executed clientId)
          (recordedDisconnect db (arrivedEnv.table task) arrived clientId)
          stop) := by
  have harrived : stop ≤ arrivedEnv.now _ :=
    (hclock (.getTopicAndResend topic clientId stop)).1
  have hexecuted : stop ≤ executedEnv.now _ :=
    (hclock (.getTopicAndResend topic clientId stop)).2
  by_cases hresend : Resendable topic clientId
  · rw [windowAt_eq _ hresend harrived, windowAt_eq _ hresend hexecuted,
      offlineWindow_eq_iff]
    simp only [hresend, true_imp_iff]
  · simp only [windowAt_of_not_resendable _ _ hresend, hresend, false_imp_iff]

/--
An order of execution leaves the Redis map and the windows of all resends as
the order of arrival does, exactly when it is harmless.
-/
theorem any_order_iff_harmless (db : MySql)
    {arrivedEnv executedEnv : Surroundings} (clientTs : ClientTs)
    {calls : List (Option EmqWebHookData × Int)}
    (hincreasing : calls.Pairwise (·.2 < ·.2))
    (hclock : ∀ task : Task,
      task.stamp ≤ arrivedEnv.now task ∧ task.stamp ≤ executedEnv.now task)
    {executed : List Task} (hperm : executed.Perm (submitted calls)) :
    ((execute db executedEnv clientTs executed).1 =
        (execute db arrivedEnv clientTs (submitted calls)).1 ∧
      ∀ task window,
        (task, window) ∈ (execute db executedEnv clientTs executed).2 ↔
          (task, window) ∈
            (execute db arrivedEnv clientTs (submitted calls)).2) ↔
      Harmless db arrivedEnv executedEnv clientTs (submitted calls)
        executed := by
  have hnodup : (submitted calls).Nodup :=
    (submitted_pairwise hincreasing).imp fun hlt heq => by
      rw [heq] at hlt
      exact absurd hlt (lt_irrefl _)
  have hnodup' : executed.Nodup := hperm.nodup_iff.mpr hnodup
  have hstore := foldl_applyWrite_perm_iff Task.write hperm clientTs
  have hwindow := windowAt_eq_iff db hclock
  constructor
  · rintro ⟨hfinal, hwindows⟩
    rw [execute_clientTs, execute_clientTs, hstore] at hfinal
    refine ⟨hfinal, fun topic clientId stop hmem => ?_⟩
    apply (hwindow _ _ topic clientId stop).mp
    have hentry := (hwindows _ _).mp
      ((mem_execute_windows hnodup' clientTs _ _).mpr
        ⟨topic, clientId, stop, rfl, hperm.mem_iff.mpr hmem, rfl⟩)
    obtain ⟨_, _, _, heq, -, hsame⟩ :=
      (mem_execute_windows hnodup clientTs _ _).mp hentry
    cases heq
    exact hsame
  · intro hharmless
    refine ⟨?_, fun task window => ?_⟩
    · rw [execute_clientTs, execute_clientTs, hstore]
      exact hharmless.lastRefresh
    · rw [mem_execute_windows hnodup', mem_execute_windows hnodup]
      refine exists_congr fun topic => exists_congr fun clientId =>
        exists_congr fun stop => ?_
      rw [hperm.mem_iff]
      refine and_congr_right fun htask => and_congr_right fun hmem => ?_
      subst htask
      rw [(hwindow _ _ topic clientId stop).mpr
        (hharmless.resends topic clientId stop hmem)]

/-! ## Alice leaves and comes back -/

def aliceReturns : List (Option EmqWebHookData × Int) :=
  [(some ⟨some actionDisconnected, some "alice", none⟩, 1000),
    (some ⟨some actionSubscribe, some "alice", some "test/a"⟩, 5000)]

def quietSurroundings : Surroundings where
  table _ := []
  now task := task.stamp + 300
  publishMessage _ _ := true

set_option maxRecDepth 20000 in
theorem any_order_iff_harmless_for_alice :
    ¬ Harmless exactMySql quietSurroundings quietSurroundings (fun _ => none)
      (submitted aliceReturns) (submitted aliceReturns).reverse := by
  intro hharmless
  have hsame := (any_order_iff_harmless exactMySql (fun _ => none) (by decide)
    (fun task => ⟨Int.le_add_of_nonneg_right (by decide),
      Int.le_add_of_nonneg_right (by decide)⟩) (List.reverse_perm _)).mpr
        hharmless
  have hwindow := hsame.2 (.getTopicAndResend (some "test/a") (some "alice") 5000)
    (some (1000, 5000))
  exact absurd (hwindow.mpr (by decide)) (by decide)

set_option maxRecDepth 20000 in
/-- With the two tasks swapped, the resend finds no disconnect time. -/
theorem swapped_tasks_lose_window :
    (submitted aliceReturns).reverse.Perm (submitted aliceReturns) ∧
      (execute exactMySql quietSurroundings (fun _ => none)
        (submitted aliceReturns)).2 =
        [(.getTopicAndResend (some "test/a") (some "alice") 5000,
          some (1000, 5000))] ∧
      (execute exactMySql quietSurroundings (fun _ => none)
        (submitted aliceReturns).reverse).2 =
        [(.getTopicAndResend (some "test/a") (some "alice") 5000, none)] :=
  ⟨List.reverse_perm _, by decide, by decide⟩

end WebIm.Mqtt
