import Mathlib.Data.List.Nodup
import WebIm.Foundation.Transition
import WebIm.Mqtt.OfflineMsgService

/-!
# What repeated subscriptions resend

The webhooks queue their tasks and the tasks run in the order of arrival, on
one clock, while Silo stores whatever is published.  The disconnect time a
resend starts from is only ever overwritten by the next disconnect, so the file
says which resends are free of messages the client already has.
-/

namespace WebIm.Mqtt

open WebIm.Foundation

structure Served where
  clientId : String
  topic : String
  subscribed : Int
  deriving DecidableEq, Repr

/--
`connected`, `storedWhile`, `served` and `republished` are history: who is
connected, who was when a row was stored, the subscriptions served so far, and
the rows published for them.
-/
structure Service where
  now : Int
  clientTs : ClientTs
  table : List SiloMsg
  nextId : Nat
  queue : List Task
  connected : List String
  storedWhile : Nat → List String
  served : List Served
  republished : List (String × String × Nat)

/-- `store` is a message that reaches Silo, whoever published it. -/
inductive ServiceAction where
  | tick (ms : Nat)
  | store (topic message : String)
  | webhook (data : Option EmqWebHookData)
  | execute (publishMessage : Nat → Bool)

namespace Service

def noteConnection (connected : List String) (data : Option EmqWebHookData) :
    List String :=
  match data with
  | some ⟨some action, some clientId, _⟩ =>
      if action = actionConnected then
        clientId :: connected.filter (· ≠ clientId)
      else if action = actionDisconnected then connected.filter (· ≠ clientId)
      else connected
  | _ => connected

def store (s : Service) (topic message : String) : Service :=
  { s with
    table := s.table ++ [⟨s.nextId, topic, message, s.now⟩]
    nextId := s.nextId + 1
    storedWhile := Function.update s.storedWhile s.nextId s.connected }

def webhook (s : Service) (data : Option EmqWebHookData) : Service :=
  match webhook4MQTT data s.now with
  | .error _ => s
  | .ok tasks =>
      { s with
        queue := s.queue ++ tasks
        connected := noteConnection s.connected data }

def noteResend (s : Service) (topic clientId : String) (resend : Resend) :
    Service :=
  { s with
    served := s.served ++
      resend.window.toList.map fun window => ⟨clientId, topic, window.2⟩
    republished := s.republished ++
      resend.rows.map fun row => (clientId, topic, row.id) }

def runTask (db : MySql) (s : Service) (publishMessage : Nat → Bool) :
    Task → Service
  | .refreshDisConnectTime clientId ts =>
      { s with
        clientTs :=
          OfflineMsgService.refreshDisConnectTime s.clientTs clientId ts }
  | .getTopicAndResend (some topic) (some clientId) stop =>
      s.noteResend topic clientId
        (OfflineMsgService.getTopicAndResend db s.table s.clientTs s.now
          publishMessage (some topic) (some clientId) stop)
  -- without a topic or a client nothing is resent
  | .getTopicAndResend _ _ _ => s

def step (db : MySql) (s : Service) : ServiceAction → Option Service
  | .tick ms => some { s with now := s.now + ms }
  | .store topic message => some (s.store topic message)
  | .webhook data => some (s.webhook data)
  | .execute publishMessage =>
      match s.queue with
      | [] => none
      | task :: queue =>
          some { runTask db s publishMessage task with queue := queue }

end Service

/-- An archive and a Redis map from earlier days; nothing has been resent yet. -/
structure Start where
  now : Int
  clientTs : ClientTs
  table : List SiloMsg
  nextId : Nat
  connected : List String
  storedWhile : Nat → List String
  idsBelow : ∀ row ∈ table, row.id < nextId
  idsDistinct : (table.map SiloMsg.id).Nodup

def Start.initial (start : Start) : Service :=
  { now := start.now, clientTs := start.clientTs, table := start.table,
    nextId := start.nextId, queue := [], connected := start.connected,
    storedWhile := start.storedWhile, served := [], republished := [] }

namespace Service

def system (db : MySql) (start : Start) :
    TransitionSystem Service ServiceAction :=
  ⟨start.initial, step db⟩

/-- Only what was stored while the client was away is republished to it. -/
def OnlyMissed (s : Service) : Prop :=
  ∀ entry ∈ s.republished, entry.1 ∉ s.storedWhile entry.2.2

def NeverTwice (s : Service) : Prop := s.republished.Nodup

def storedOn (db : MySql) (s : Service) (topic : String) (start stop : Int) :
    List SiloMsg :=
  s.table.filter fun row =>
    db.sameTopic row.topic topic && start ≤ row.created && row.created ≤ stop

/--
The condition on one subscription, `value` being the topic as the server reads
it: nothing was stored on the topic while the client was connected, from the
start of the window to the subscription, and nothing at all from the start of
the window to an earlier subscription of the client.
-/
structure QuietFor (db : MySql) (s : Service) (topic clientId value : String)
    (window : Int × Int) : Prop where
  away : ∀ row ∈ s.storedOn db value window.1 window.2,
    clientId ∉ s.storedWhile row.id
  firstServed : ∀ earlier ∈ s.served, earlier.clientId = clientId →
    earlier.topic = topic →
    s.storedOn db value window.1 earlier.subscribed = []

def Quiet (db : MySql) (s : Service) (topic clientId : String)
    (window : Int × Int) : Prop :=
  ∃ value ∈ SqlText.pasted topic, QuietFor db s topic clientId value window

def QuietTask (db : MySql) (s : Service) : Task → Prop
  | .getTopicAndResend (some topic) (some clientId) stop =>
      Resendable (some topic) (some clientId) →
        ∀ window ∈ offlineWindow
          (recordedDisconnect db s.table s.clientTs (some clientId)) stop,
          Quiet db s topic clientId window
  | _ => True

def QuietStep (db : MySql) (s : Service) : ServiceAction → Prop
  | .execute _ => ∀ task ∈ s.queue.head?, QuietTask db s task
  | _ => True

section Decidable

variable (db : MySql) (s : Service)

instance (topic clientId value : String) (window : Int × Int) :
    Decidable (QuietFor db s topic clientId value window) :=
  decidable_of_iff
    ((∀ row ∈ s.storedOn db value window.1 window.2,
        clientId ∉ s.storedWhile row.id) ∧
      ∀ earlier ∈ s.served, earlier.clientId = clientId →
        earlier.topic = topic →
        s.storedOn db value window.1 earlier.subscribed = [])
    ⟨fun h => ⟨h.1, h.2⟩, fun h => ⟨h.away, h.firstServed⟩⟩

instance (topic clientId : String) (window : Int × Int) :
    Decidable (Quiet db s topic clientId window) :=
  inferInstanceAs (Decidable (∃ value ∈ SqlText.pasted topic,
    QuietFor db s topic clientId value window))

instance : ∀ task, Decidable (QuietTask db s task)
  | .getTopicAndResend (some _) (some _) _ =>
      inferInstanceAs (Decidable (_ → ∀ window ∈ _, Quiet db s _ _ window))
  | .getTopicAndResend none _ _ => isTrue trivial
  | .getTopicAndResend (some _) none _ => isTrue trivial
  | .refreshDisConnectTime _ _ => isTrue trivial

instance : ∀ a, Decidable (QuietStep db s a)
  | .execute _ => inferInstanceAs (Decidable (∀ task ∈ _, QuietTask db s task))
  | .tick _ => isTrue trivial
  | .store _ _ => isTrue trivial
  | .webhook _ => isTrue trivial

instance : Decidable s.OnlyMissed :=
  inferInstanceAs (Decidable (∀ entry ∈ s.republished, _))

instance : Decidable s.NeverTwice :=
  inferInstanceAs (Decidable (s.republished.Nodup))

end Decidable

/-! ## The invariant -/

structure Invariant (s : Service) : Prop where
  clock : ∀ task ∈ s.queue, task.stamp ≤ s.now
  idsBelow : ∀ row ∈ s.table, row.id < s.nextId
  idsDistinct : (s.table.map SiloMsg.id).Nodup
  publishedBelow : ∀ entry ∈ s.republished, entry.2.2 < s.nextId
  logged : ∀ entry ∈ s.republished, ∀ row ∈ s.table, row.id = entry.2.2 →
    ∃ earlier ∈ s.served, earlier.clientId = entry.1 ∧
      earlier.topic = entry.2.1 ∧ row.created ≤ earlier.subscribed
  onlyMissed : s.OnlyMissed
  neverTwice : s.NeverTwice

theorem invariant_initial (start : Start) : start.initial.Invariant where
  clock := by simp [Start.initial]
  idsBelow := start.idsBelow
  idsDistinct := start.idsDistinct
  publishedBelow := by simp [Start.initial]
  logged := by simp [Start.initial]
  onlyMissed := by simp [Start.initial, OnlyMissed]
  neverTwice := by simp [Start.initial, NeverTwice]

variable {db : MySql} {s : Service}

theorem Invariant.store (h : s.Invariant) (topic message : String) :
    (s.store topic message).Invariant where
  clock := h.clock
  idsBelow := by
    intro row hrow
    exact SiloMsg.id_lt_of_mem_append h.idsBelow hrow
  idsDistinct := by
    change ((s.table ++ [_]).map SiloMsg.id).Nodup
    rw [List.map_append, List.map_singleton, List.nodup_append_comm,
      List.singleton_append, List.nodup_cons]
    refine ⟨?_, h.idsDistinct⟩
    rw [List.mem_map]
    rintro ⟨row, hrow, hid⟩
    exact (h.idsBelow row hrow).ne hid
  publishedBelow := fun entry hentry =>
    Nat.lt_succ_of_lt (h.publishedBelow entry hentry)
  logged := by
    intro entry hentry row hrow hid
    rcases List.mem_append.mp hrow with hrow | hrow
    · exact h.logged entry hentry row hrow hid
    · rw [List.mem_singleton] at hrow
      subst hrow
      exact absurd hid.symm (h.publishedBelow entry hentry).ne
  onlyMissed := by
    intro entry hentry
    -- a new row does not change who was connected when an old one was stored
    have hne : entry.2.2 ≠ s.nextId := (h.publishedBelow entry hentry).ne
    simpa [Service.store, hne] using h.onlyMissed entry hentry
  neverTwice := h.neverTwice

theorem Invariant.webhook (h : s.Invariant) (data : Option EmqWebHookData) :
    (s.webhook data).Invariant := by
  unfold Service.webhook
  cases hcall : webhook4MQTT data s.now with
  | error e => exact h
  | ok tasks =>
      refine ⟨?_, h.idsBelow, h.idsDistinct, h.publishedBelow, h.logged,
        h.onlyMissed, h.neverTwice⟩
      intro task htask
      rcases List.mem_append.mp htask with htask | htask
      · exact h.clock task htask
      · exact (webhook4MQTT_stamp hcall task htask).le

/-! ## One resend -/

theorem mem_storedOn (topic : String) (start stop : Int) (row : SiloMsg) :
    row ∈ s.storedOn db topic start stop ↔
      row ∈ s.table ∧ db.sameTopic row.topic topic = true ∧
        start ≤ row.created ∧ row.created ≤ stop := by
  simp [storedOn, and_assoc]

theorem getOfflineMsg_perm_storedOn {topic value : String}
    (hvalue : SqlText.pasted topic = some value) (start stop : Int) :
    (SiloDao.getOfflineMsg db s.table topic start stop).Perm
      (s.storedOn db value start stop) :=
  SiloDao.getOfflineMsg_perm db s.table hvalue start stop

theorem QuietFor.not_served {topic clientId value : String}
    {window : Int × Int} (h : QuietFor db s topic clientId value window)
    {row : SiloMsg} (hrow : row ∈ s.storedOn db value window.1 window.2)
    {earlier : Served} (hearlier : earlier ∈ s.served)
    (hclient : earlier.clientId = clientId) (htopic : earlier.topic = topic) :
    earlier.subscribed < row.created := by
  have hnone := h.firstServed earlier hearlier hclient htopic
  by_contra hle
  obtain ⟨hmem, hsame, hstart, -⟩ := (mem_storedOn ..).mp hrow
  have hin : row ∈ s.storedOn db value window.1 earlier.subscribed :=
    (mem_storedOn ..).mpr ⟨hmem, hsame, hstart, not_lt.mp hle⟩
  rw [hnone] at hin
  cases hin

theorem Invariant.noteResend_nil (h : s.Invariant) (topic clientId : String)
    {resend : Resend} (hrows : resend.rows = []) :
    (s.noteResend topic clientId resend).Invariant where
  clock := h.clock
  idsBelow := h.idsBelow
  idsDistinct := h.idsDistinct
  publishedBelow := by simpa [noteResend, hrows] using h.publishedBelow
  logged := by
    intro entry hentry row hrow hid
    have hold : entry ∈ s.republished := by
      simpa [noteResend, hrows] using hentry
    obtain ⟨earlier, hearlier, hlogged⟩ := h.logged entry hold row hrow hid
    exact ⟨earlier, List.mem_append_left _ hearlier, hlogged⟩
  onlyMissed := by
    simpa [noteResend, hrows, OnlyMissed] using h.onlyMissed
  neverTwice := by
    simpa [noteResend, hrows, NeverTwice] using h.neverTwice

theorem onlyMissed_noteResend {topic clientId : String} {resend : Resend}
    {rows : List SiloMsg} (hrows : resend.rows.Perm rows) :
    (s.noteResend topic clientId resend).OnlyMissed ↔
      s.OnlyMissed ∧ ∀ row ∈ rows, clientId ∉ s.storedWhile row.id := by
  simp only [OnlyMissed, Service.noteResend, List.forall_mem_append,
    List.forall_mem_map, hrows.mem_iff]

theorem neverTwice_noteResend {topic clientId : String} {resend : Resend}
    {rows : List SiloMsg} (hrows : resend.rows.Perm rows)
    (hids : (rows.map SiloMsg.id).Nodup) :
    (s.noteResend topic clientId resend).NeverTwice ↔
      s.NeverTwice ∧
        ∀ row ∈ rows, (clientId, topic, row.id) ∉ s.republished := by
  have hpair : Function.Injective fun id : Nat => (clientId, topic, id) := by
    intro first second heq
    cases heq
    rfl
  have hnew : (resend.rows.map fun row => (clientId, topic, row.id)).Nodup := by
    rw [(hrows.map _).nodup_iff]
    simpa [List.map_map, Function.comp_def] using hids.map hpair
  change (s.republished ++ _).Nodup ↔ _
  rw [List.nodup_append']
  simp only [NeverTwice, hnew, true_and, List.disjoint_right,
    List.forall_mem_map, hrows.mem_iff]

theorem Invariant.noteResend (h : s.Invariant)
    {topic clientId value : String} {resend : Resend} {window : Int × Int}
    (hwindow : resend.window = some window)
    (hrows : resend.rows.Perm (s.storedOn db value window.1 window.2))
    (hquiet : s.QuietFor db topic clientId value window) :
    (s.noteResend topic clientId resend).Invariant := by
  have hnew : ∀ entry : String × String × Nat,
      entry ∈ resend.rows.map (fun row => (clientId, topic, row.id)) →
      ∃ row ∈ s.storedOn db value window.1 window.2,
        entry = (clientId, topic, row.id) := by
    intro entry hentry
    obtain ⟨row, hrow, rfl⟩ := List.mem_map.mp hentry
    exact ⟨row, hrows.mem_iff.mp hrow, rfl⟩
  refine ⟨h.clock, h.idsBelow, h.idsDistinct, ?_, ?_, ?_, ?_⟩
  · intro entry hentry
    rcases List.mem_append.mp hentry with hentry | hentry
    · exact h.publishedBelow entry hentry
    · obtain ⟨row, hrow, rfl⟩ := hnew entry hentry
      exact h.idsBelow row (List.mem_of_mem_filter hrow)
  · intro entry hentry row hrow hid
    rcases List.mem_append.mp hentry with hentry | hentry
    · obtain ⟨earlier, hearlier, hlogged⟩ := h.logged entry hentry row hrow hid
      exact ⟨earlier, List.mem_append_left _ hearlier, hlogged⟩
    · obtain ⟨found, hfound, rfl⟩ := hnew entry hentry
      obtain ⟨hmem, -, -, hstop⟩ := (mem_storedOn ..).mp hfound
      have heq : row = found :=
        List.inj_on_of_nodup_map h.idsDistinct hrow hmem hid
      refine ⟨⟨clientId, topic, window.2⟩, List.mem_append_right _ ?_, rfl,
        rfl, heq ▸ hstop⟩
      simp [hwindow]
  · exact (onlyMissed_noteResend hrows).mpr ⟨h.onlyMissed, hquiet.away⟩
  · have hids : ((s.storedOn db value window.1 window.2).map
        SiloMsg.id).Nodup :=
      h.idsDistinct.sublist (List.filter_sublist.map _)
    refine (neverTwice_noteResend hrows hids).mpr ⟨h.neverTwice, ?_⟩
    -- an entry on record was stored before an earlier subscription
    intro row hrow hentry
    obtain ⟨earlier, hearlier, hclient, htopic, hle⟩ :=
      h.logged _ hentry row (List.mem_of_mem_filter hrow) rfl
    exact absurd hle
      (not_le.mpr (hquiet.not_served hrow hearlier hclient htopic))

theorem Invariant.resend (h : s.Invariant) {topic clientId : String}
    {stop : Int} (hstop : stop ≤ s.now) (publishMessage : Nat → Bool)
    (hquiet : s.QuietTask db
      (.getTopicAndResend (some topic) (some clientId) stop)) :
    (runTask db s publishMessage
      (.getTopicAndResend (some topic) (some clientId) stop)).Invariant := by
  by_cases hresend : Resendable (some topic) (some clientId)
  · have hrows := OfflineMsgService.rows_getTopicAndResend
      db s.table s.clientTs publishMessage hresend hstop
    have hwindow := OfflineMsgService.window_getTopicAndResend
      db s.table s.clientTs publishMessage hresend hstop
    cases hoffline : offlineWindow (recordedDisconnect db s.table
        s.clientTs (some clientId)) stop with
    | none =>
        rw [hoffline] at hrows
        exact h.noteResend_nil topic clientId hrows
    | some window =>
        obtain ⟨value, hvalue, hfor⟩ := hquiet hresend window hoffline
        rw [hoffline] at hwindow hrows
        apply h.noteResend hwindow _ hfor
        rw [hrows]
        exact getOfflineMsg_perm_storedOn hvalue _ _
  · apply h.noteResend_nil
    rw [OfflineMsgService.getTopicAndResend_of_not_resendable hresend]
    rfl

theorem Invariant.runTask (h : s.Invariant) {task : Task}
    (hmem : task ∈ s.queue) (publishMessage : Nat → Bool)
    (hquiet : s.QuietTask db task) :
    (runTask db s publishMessage task).Invariant := by
  cases task with
  | refreshDisConnectTime clientId ts =>
      exact ⟨h.clock, h.idsBelow, h.idsDistinct, h.publishedBelow, h.logged,
        h.onlyMissed, h.neverTwice⟩
  | getTopicAndResend topic clientId stop =>
      cases topic with
      | none => exact h
      | some topic =>
          cases clientId with
          | none => exact h
          | some clientId => exact h.resend (h.clock _ hmem) publishMessage hquiet

theorem runTask_queue (publishMessage : Nat → Bool) (task : Task) :
    (runTask db s publishMessage task).queue = s.queue := by
  unfold Service.runTask
  split <;> rfl

theorem Invariant.withQueue (h : s.Invariant) {queue : List Task}
    (hsub : queue ⊆ s.queue) : Invariant { s with queue := queue } :=
  ⟨fun task htask => h.clock task (hsub htask), h.idsBelow, h.idsDistinct,
    h.publishedBelow, h.logged, h.onlyMissed, h.neverTwice⟩

theorem invariant_step (s : Service) (a : ServiceAction) (s' : Service)
    (hquiet : s.QuietStep db a) (h : s.Invariant) (hstep : s.step db a = some s') :
    s'.Invariant := by
  cases a with
  | tick ms =>
      cases hstep
      exact ⟨fun task htask =>
          (h.clock task htask).trans (Int.le_add_of_nonneg_right (by simp)),
        h.idsBelow, h.idsDistinct, h.publishedBelow, h.logged, h.onlyMissed,
        h.neverTwice⟩
  | store topic message =>
      cases hstep
      exact h.store topic message
  | webhook data =>
      cases hstep
      exact h.webhook data
  | execute publishMessage =>
      unfold Service.step at hstep
      cases hqueue : s.queue with
      | nil => simp [hqueue] at hstep
      | cons task queue =>
          simp only [hqueue, Option.some.injEq] at hstep
          subst hstep
          have hnext : s.QuietTask db task := hquiet task (by rw [hqueue]; rfl)
          have hmem : task ∈ s.queue := hqueue ▸ List.mem_cons_self
          apply (h.runTask hmem publishMessage hnext).withQueue
          rw [runTask_queue, hqueue]
          exact List.subset_cons_self task queue

/--
In a run all of whose resends meet the condition, a client is sent only what
was stored while it was away, and nothing twice for the same subscription.
-/
theorem resends_only_missed_once (db : MySql) (start : Start)
    {actions : List ServiceAction}
    (hquiet : (system db start).EveryStep (QuietStep db) start.initial
      actions) :
    (system db start).Throughout (fun s => s.OnlyMissed ∧ s.NeverTwice)
      start.initial actions := by
  have hinv := hquiet.invariant (Q := Invariant) invariant_step
    (invariant_initial start)
  exact hinv.imp_of_invariant (I := fun _ => True) (fun _ _ _ _ _ => trivial)
    trivial fun s _ h => ⟨h.onlyMissed, h.neverTwice⟩

/-! ## Alice's subscriptions -/

def emptyStart : Start where
  now := 0
  clientTs _ := none
  table := []
  nextId := 0
  connected := []
  storedWhile _ := []
  idsBelow := by simp
  idsDistinct := by simp

def aliceCalls (action : String) (topic : Option String) : ServiceAction :=
  .webhook (some ⟨some action, some "alice", topic⟩)

def aliceMissesOne : List ServiceAction :=
  [aliceCalls actionConnected none, .tick 1000,
    aliceCalls actionDisconnected none, .execute fun _ => true, .tick 1000,
    .store "test/a" "hello", .tick 1000, aliceCalls actionConnected none,
    aliceCalls actionSubscribe (some "test/a"), .tick 300,
    .execute fun _ => true]

/-- The message is stored after she is back, and she subscribes after that. -/
def aliceMissesNone : List ServiceAction :=
  [aliceCalls actionConnected none, .tick 1000,
    aliceCalls actionDisconnected none, .execute fun _ => true, .tick 1000,
    aliceCalls actionConnected none, .tick 1000, .store "test/a" "hello",
    .tick 1000, aliceCalls actionSubscribe (some "test/a"), .tick 300,
    .execute fun _ => true]

set_option maxRecDepth 20000 in
theorem resends_only_missed_once_for_alice :
    (system exactMySql emptyStart).EveryStep (QuietStep exactMySql)
        emptyStart.initial aliceMissesOne ∧
      (system exactMySql emptyStart).Throughout
        (fun s => s.OnlyMissed ∧ s.NeverTwice) emptyStart.initial
        aliceMissesOne :=
  ⟨by decide, resends_only_missed_once exactMySql emptyStart (by decide)⟩

set_option maxRecDepth 20000 in
/-- She is sent again what she received live. -/
theorem resend_repeats_live_message :
    ∃ s, (system exactMySql emptyStart).run aliceMissesNone = some s ∧
      s.republished = [("alice", "test/a", 0)] ∧ ¬s.OnlyMissed :=
  ⟨_, rfl, by decide, by decide⟩

end Service

end WebIm.Mqtt
