import Mathlib.Data.Int.Order.Basic
import WebIm.Foundation.Java
import WebIm.Mqtt.SiloDao

/-!
# OfflineMsgService and the webhook that calls it

The two `@Async` methods run as tasks.  `clientTs` is the Redis map of
disconnect times, `now` the clock when a task reads it, and `publishMessage k`
the result of the k-th publish of one resend.
-/

namespace WebIm.Mqtt

open WebIm.Foundation

def multiSubs : Char × Char := ('#', '+')

def offlineExpireTime : Int := 24 * 3600 * 1000

abbrev ClientTs := String → Option Int

/-- The window handed to `getOfflineMsg`, if any, and the publish attempts. -/
structure Resend where
  window : Option (Int × Int)
  attempts : List (SiloMsg × Bool)

def Resend.skipped : Resend := ⟨none, []⟩

def Resend.rows (resend : Resend) : List SiloMsg := resend.attempts.map Prod.fst

namespace OfflineMsgService

def getLastDisConnectTime (db : MySql) (table : List SiloMsg)
    (clientTs : ClientTs) (now : Int) (clientId : Option String) : Int :=
  if isEmpty clientId then now
  else
    let ts :=
      match clientId.bind clientTs with
      | some ts => ts
      | none => SiloDao.getClientDisconnectTsByLastWill db table clientId
    if ts > 0 then ts else now

def refreshDisConnectTime (clientTs : ClientTs) (clientId : Option String)
    (ts : Int) : ClientTs :=
  match clientId with
  | none => clientTs
  | some clientId =>
      if clientId = "" then clientTs
      else Function.update clientTs clientId (some ts)

/-- A failed publish does not stop the loop. -/
def publishEach (publishMessage : Nat → Bool) (k : Nat) :
    List SiloMsg → List (SiloMsg × Bool)
  | [] => []
  | m :: msgs => (m, publishMessage k) :: publishEach publishMessage (k + 1) msgs

def resendOfflineMsg (db : MySql) (table : List SiloMsg)
    (publishMessage : Nat → Bool) (topic : String) (start stop : Int) :
    Resend :=
  if topic ≠ "" ∧ start < stop then
    ⟨some (start, stop), publishEach publishMessage 0
      (SiloDao.getOfflineMsg db table topic start stop)⟩
  else .skipped

def getTopicAndResend (db : MySql) (table : List SiloMsg) (clientTs : ClientTs)
    (now : Int) (publishMessage : Nat → Bool)
    (topic clientId : Option String) (stop : Int) : Resend :=
  match topic with
  | none => .skipped
  | some topic =>
      if topic ≠ "" ∧ isEmpty clientId = false then
        if multiSubs.1 ∉ topic.toList ∧ multiSubs.2 ∉ topic.toList then
          let start := getLastDisConnectTime db table clientTs now clientId
          let start :=
            if stop - start > offlineExpireTime then stop - offlineExpireTime
            else start
          resendOfflineMsg db table publishMessage topic start stop
        else .skipped
      else .skipped

end OfflineMsgService

/-! ## The webhook -/

def actionConnected : String := "client_connected"
def actionSubscribe : String := "client_subscribe"
def actionDisconnected : String := "client_disconnected"

structure EmqWebHookData where
  action : Option String
  clientId : Option String
  topic : Option String
  deriving DecidableEq, Repr

inductive Task where
  | refreshDisConnectTime (clientId : Option String) (ts : Int)
  | getTopicAndResend (topic clientId : Option String) (stop : Int)
  deriving DecidableEq, Repr

def Task.stamp : Task → Int
  | .refreshDisConnectTime _ ts => ts
  | .getTopicAndResend _ _ stop => stop

/-- The tasks one call submits; `ts` is the clock at the call. -/
def webhook4MQTT (data : Option EmqWebHookData) (ts : Int) :
    Except JavaException (List Task) :=
  match data with
  | none => .ok []
  | some data =>
      match data.action with
      | none => .error .nullPointerException
      | some action =>
          .ok ((if action = actionDisconnected then
              [.refreshDisConnectTime data.clientId ts] else []) ++
            (if action = actionSubscribe then
              [.getTopicAndResend data.topic data.clientId ts] else []))

theorem webhook4MQTT_cases (data : Option EmqWebHookData) (ts : Int) :
    webhook4MQTT data ts = .error .nullPointerException ∨
      webhook4MQTT data ts = .ok [] ∨
      ∃ task, webhook4MQTT data ts = .ok [task] ∧ task.stamp = ts := by
  unfold webhook4MQTT
  cases data with
  | none => exact Or.inr (Or.inl rfl)
  | some data =>
      obtain ⟨action, clientId, topic⟩ := data
      cases action with
      | none => exact Or.inl rfl
      | some action =>
          refine Or.inr ?_
          have hne : actionDisconnected ≠ actionSubscribe := by decide
          by_cases hdisconnected : action = actionDisconnected
          · exact Or.inr ⟨.refreshDisConnectTime clientId ts,
              by simp [hdisconnected, hne], rfl⟩
          · by_cases hsubscribe : action = actionSubscribe
            · exact Or.inr ⟨.getTopicAndResend topic clientId ts,
                by simp [hsubscribe, hne.symm], rfl⟩
            · exact Or.inl (by simp [hdisconnected, hsubscribe])

theorem webhook4MQTT_stamp {data : Option EmqWebHookData} {ts : Int}
    {tasks : List Task} (h : webhook4MQTT data ts = .ok tasks) :
    ∀ task ∈ tasks, task.stamp = ts := by
  rcases webhook4MQTT_cases data ts with hcall | hcall | ⟨own, hcall, hts⟩
  · rw [h] at hcall
    cases hcall
  · rw [h] at hcall
    cases hcall
    simp
  · rw [h] at hcall
    cases hcall
    simpa using hts

/-! ## The window of a resend -/

def Resendable (topic clientId : Option String) : Prop :=
  isEmpty topic = false ∧ isEmpty clientId = false ∧
    ∀ name ∈ topic, multiSubs.1 ∉ name.toList ∧ multiSubs.2 ∉ name.toList

instance (topic clientId : Option String) :
    Decidable (Resendable topic clientId) :=
  inferInstanceAs (Decidable (_ ∧ _ ∧ _))

theorem resendable_some (name : String) (clientId : Option String) :
    Resendable (some name) clientId ↔
      name ≠ "" ∧ isEmpty clientId = false ∧
        multiSubs.1 ∉ name.toList ∧ multiSubs.2 ∉ name.toList := by
  simp [Resendable, isEmpty]

/-- What Redis or the last will say of a client's disconnect, 0 for nothing. -/
def recordedDisconnect (db : MySql) (table : List SiloMsg)
    (clientTs : ClientTs) (clientId : Option String) : Int :=
  (clientId.bind clientTs).getD
    (SiloDao.getClientDisconnectTsByLastWill db table clientId)

/-- From the disconnect, at most a day back, to the subscription. -/
def offlineWindow (disconnected stop : Int) : Option (Int × Int) :=
  if 0 < disconnected ∧ disconnected < stop then
    some (max disconnected (stop - offlineExpireTime), stop)
  else none

namespace OfflineMsgService

variable {db : MySql} {table : List SiloMsg} {clientTs : ClientTs} {now : Int}
  {publishMessage : Nat → Bool} {topic clientId : Option String} {stop : Int}

theorem rows_publishEach (publishMessage : Nat → Bool) (k : Nat)
    (msgs : List SiloMsg) :
    (publishEach publishMessage k msgs).map Prod.fst = msgs := by
  induction msgs generalizing k with
  | nil => rfl
  | cons m msgs ih => simp [publishEach, ih]

theorem getLastDisConnectTime_eq (h : isEmpty clientId = false) :
    getLastDisConnectTime db table clientTs now clientId =
      if 0 < recordedDisconnect db table clientTs clientId then
        recordedDisconnect db table clientTs clientId
      else now := by
  unfold getLastDisConnectTime recordedDisconnect
  cases clientId.bind clientTs <;> simp [h]

theorem getTopicAndResend_of_not_resendable
    (h : ¬ Resendable topic clientId) :
    getTopicAndResend db table clientTs now publishMessage topic clientId
      stop = .skipped := by
  unfold getTopicAndResend
  cases topic with
  | none => rfl
  | some name =>
      rw [resendable_some] at h
      by_cases hempty : name ≠ "" ∧ isEmpty clientId = false
      · have hsubs : ¬ (multiSubs.1 ∉ name.toList ∧
            multiSubs.2 ∉ name.toList) := fun hsubs =>
          h ⟨hempty.1, hempty.2, hsubs⟩
        simp only [if_pos hempty, if_neg hsubs]
      · simp only [if_neg hempty]

/--
A resend reads the rows of the window from the recorded disconnect on; without
one the clock reading makes the window empty.
-/
theorem getTopicAndResend_eq {name : String}
    (h : Resendable (some name) clientId) (hnow : stop ≤ now) :
    getTopicAndResend db table clientTs now publishMessage (some name)
        clientId stop =
      match offlineWindow (recordedDisconnect db table clientTs clientId)
          stop with
      | some (start, stop) =>
          ⟨some (start, stop), publishEach publishMessage 0
            (SiloDao.getOfflineMsg db table name start stop)⟩
      | none => .skipped := by
  obtain ⟨hname, hclient, hsubs⟩ := (resendable_some name clientId).mp h
  have hboth : name ≠ "" ∧ isEmpty clientId = false := ⟨hname, hclient⟩
  unfold getTopicAndResend
  simp only [if_pos hboth, if_pos hsubs, getLastDisConnectTime_eq hclient]
  generalize recordedDisconnect db table clientTs clientId = recorded
  have hexpire : 0 < offlineExpireTime := by decide
  unfold resendOfflineMsg offlineWindow
  by_cases hpos : 0 < recorded
  · by_cases hlt : recorded < stop
    · have hstart : (if stop - recorded > offlineExpireTime then
          stop - offlineExpireTime else recorded) =
          max recorded (stop - offlineExpireTime) := by
        split <;> omega
      have hbefore : max recorded (stop - offlineExpireTime) < stop := by
        omega
      simp only [hpos, hlt, if_true, hstart, ne_eq, hname, not_false_eq_true,
        hbefore, and_self]
    · have hstart : ¬ stop - recorded > offlineExpireTime := by omega
      simp only [hpos, hlt, hstart, if_true, if_false, and_false]
  · have hstart : ¬ stop - now > offlineExpireTime := by omega
    have hlate : ¬ now < stop := by omega
    simp only [hpos, hstart, hlate, if_false, and_false, false_and]

theorem window_getTopicAndResend (db : MySql) (table : List SiloMsg)
    (clientTs : ClientTs) (publishMessage : Nat → Bool)
    (h : Resendable topic clientId) (hnow : stop ≤ now) :
    (getTopicAndResend db table clientTs now publishMessage topic clientId
        stop).window =
      offlineWindow (recordedDisconnect db table clientTs clientId) stop := by
  cases topic with
  | none => cases h.1
  | some name =>
      rw [getTopicAndResend_eq h hnow]
      cases offlineWindow (recordedDisconnect db table clientTs clientId)
          stop with
      | none => rfl
      | some window => rfl

theorem rows_getTopicAndResend (db : MySql) (table : List SiloMsg)
    (clientTs : ClientTs) (publishMessage : Nat → Bool) {name : String}
    (h : Resendable (some name) clientId) (hnow : stop ≤ now) :
    (getTopicAndResend db table clientTs now publishMessage (some name)
        clientId stop).rows =
      (offlineWindow (recordedDisconnect db table clientTs clientId)
        stop).elim [] fun window =>
          SiloDao.getOfflineMsg db table name window.1 window.2 := by
  rw [getTopicAndResend_eq h hnow]
  cases offlineWindow (recordedDisconnect db table clientTs clientId) stop with
  | none => rfl
  | some window => exact rows_publishEach _ _ _

end OfflineMsgService

end WebIm.Mqtt
