import Mathlib.Algebra.Group.Nat.Defs
import WebIm.Mqtt.OfflineMsgService

/-!
# The archive fed by its own resends

What a resend publishes on an archived topic is delivered to Silo again and
stored as a new row, so the next client to come back finds the message and all
its copies.  `copies` is history: the ids of the rows that hold one message,
the original and what was republished of it.
-/

namespace WebIm.Mqtt

open WebIm.Foundation

/-! ## The topics of silo.yaml -/

def siloTopics : List String :=
  ["$queue/test/#", "$queue/test2/#", "$queue/client/lastwill/#"]

/-- A shared subscription delivers the topics of the filter behind its prefix. -/
def queuePrefix : String := "$queue/"

def levels : List Char → List (List Char)
  | [] => [[]]
  | c :: cs =>
      if c = '/' then [] :: levels cs
      else
        match levels cs with
        | [] => [[c]]
        | level :: rest => (c :: level) :: rest

def topicMatches : List (List Char) → List (List Char) → Bool
  | [['#']], _ => true
  | filter :: filters, level :: rest =>
      (filter = ['+'] || filter = level) && topicMatches filters rest
  | [], [] => true
  | _, _ => false

def archivedBySilo (topic : String) : Bool :=
  siloTopics.any fun filter =>
    topicMatches (levels (filter.toList.drop queuePrefix.length))
      (levels topic.toList)

/-! ## The archive -/

structure Archive where
  table : List SiloMsg
  nextId : Nat
  copies : List Nat

namespace Archive

def store (a : Archive) (copy : Bool) (topic message : String)
    (created : Int) : Archive :=
  { table := a.table ++ [⟨a.nextId, topic, message, created⟩]
    nextId := a.nextId + 1
    copies := if copy then a.nextId :: a.copies else a.copies }

def isCopy (a : Archive) (row : SiloMsg) : Bool := row.id ∈ a.copies

def storeOthers (a : Archive) (others : List (String × String × Int)) :
    Archive :=
  others.foldl
    (fun a other => a.store false other.1 other.2.1 other.2.2) a

/-- What is published reaches Silo; the k-th message arrives at `arrivals k`. -/
def storePublished (a : Archive) (arrivals : Nat → Int) (k : Nat) :
    List (SiloMsg × Bool) → Archive
  | [] => a
  | (row, copy) :: rows =>
      (if archivedBySilo row.topic then
        a.store copy row.topic row.message (arrivals k)
      else a).storePublished arrivals (k + 1) rows

end Archive

/-! ## Clients that come back -/

/-- One client's subscription, and what Silo stores before and after it. -/
structure Comeback where
  clientId : String
  subscribed : Int
  now : Int
  others : List (String × String × Int)
  arrivals : Nat → Int

def Comeback.rows (db : MySql) (clientTs : ClientTs) (topic : String)
    (table : List SiloMsg) (comeback : Comeback) : List SiloMsg :=
  (OfflineMsgService.getTopicAndResend db table clientTs comeback.now
    (fun _ => true) (some topic) (some comeback.clientId)
    comeback.subscribed).rows

/-- How many copies of the message each resend publishes on the topic. -/
def copiesPublished (db : MySql) (clientTs : ClientTs) (topic : String)
    (a : Archive) : List Comeback → List Nat
  | [] => []
  | comeback :: rest =>
      let a := a.storeOthers comeback.others
      let rows := comeback.rows db clientTs topic a.table
      rows.countP (fun row => a.isCopy row && row.topic = topic) ::
        copiesPublished db clientTs topic
          (a.storePublished comeback.arrivals 0
            (rows.map fun row => (row, a.isCopy row))) rest

/--
Clients that were away when the message was published on an archived topic and
subscribe within a day, each after the resend before has reached the archive.
-/
structure AllAway (clientTs : ClientTs) (topic : String) (published : Int)
    (comebacks : List Comeback) : Prop where
  archived : archivedBySilo topic = true
  resendable : ∀ comeback ∈ comebacks,
    Resendable (some topic) (some comeback.clientId)
  away : ∀ comeback ∈ comebacks, ∃ disconnected,
    clientTs comeback.clientId = some disconnected ∧ 0 < disconnected ∧
      disconnected ≤ published
  within : ∀ comeback ∈ comebacks, published < comeback.subscribed ∧
    comeback.subscribed - offlineExpireTime ≤ published
  clock : ∀ comeback ∈ comebacks, comeback.subscribed ≤ comeback.now ∧
    ∀ k, comeback.subscribed ≤ comeback.arrivals k
  oneByOne : comebacks.Pairwise fun earlier later =>
    ∀ k, earlier.arrivals k ≤ later.subscribed

/-! ## Counting the copies -/

structure Archive.Holds (a : Archive) (topic : String) (published : Int)
    (comebacks : List Comeback) (count : Nat) : Prop where
  idsBelow : ∀ row ∈ a.table, row.id < a.nextId
  copiesBelow : ∀ id ∈ a.copies, id < a.nextId
  inWindow : ∀ row ∈ a.table, a.isCopy row = true →
    row.topic = topic ∧ published ≤ row.created ∧
      ∀ comeback ∈ comebacks, row.created ≤ comeback.subscribed
  count : a.table.countP a.isCopy = count

namespace Archive

variable {a : Archive} {topic : String} {published : Int}
  {comebacks : List Comeback} {count : Nat}

theorem isCopy_store (h : ∀ row ∈ a.table, row.id < a.nextId) (copy : Bool)
    (name message : String) (created : Int) :
    ∀ row ∈ a.table,
      (a.store copy name message created).isCopy row = a.isCopy row := by
  intro row hrow
  have hne : row.id ≠ a.nextId := (h row hrow).ne
  cases copy <;> simp [store, isCopy, hne]

theorem isCopy_new (h : ∀ id ∈ a.copies, id < a.nextId) (copy : Bool)
    (name message : String) (created : Int) :
    (a.store copy name message created).isCopy
      ⟨a.nextId, name, message, created⟩ = copy := by
  have hnew : a.nextId ∉ a.copies := fun hmem => (h _ hmem).ne rfl
  cases copy <;> simp [store, isCopy, hnew]

theorem Holds.store (h : a.Holds topic published comebacks count) (copy : Bool)
    {name message : String} {created : Int}
    (hcopy : copy = true → name = topic ∧ published ≤ created ∧
      ∀ comeback ∈ comebacks, created ≤ comeback.subscribed) :
    (a.store copy name message created).Holds topic published comebacks
      (count + copy.toNat) where
  idsBelow := by
    intro row hrow
    exact SiloMsg.id_lt_of_mem_append h.idsBelow hrow
  copiesBelow := by
    intro id hid
    cases copy with
    | false => exact Nat.lt_succ_of_lt (h.copiesBelow id hid)
    | true =>
        rcases List.mem_cons.mp hid with rfl | hid
        · exact Nat.lt_succ_self _
        · exact Nat.lt_succ_of_lt (h.copiesBelow id hid)
  inWindow := by
    intro row hrow hrowCopy
    rcases List.mem_append.mp hrow with hrow | hrow
    · rw [isCopy_store h.idsBelow copy name message created row hrow]
        at hrowCopy
      exact h.inWindow row hrow hrowCopy
    · rw [List.mem_singleton] at hrow
      subst hrow
      rw [isCopy_new h.copiesBelow] at hrowCopy
      exact hcopy hrowCopy
  count := by
    change (a.table ++ [_]).countP _ = _
    rw [List.countP_append, List.countP_singleton, isCopy_new h.copiesBelow,
      List.countP_congr fun row hrow => by
        rw [isCopy_store h.idsBelow copy name message created row hrow],
      h.count]
    cases copy <;> rfl

theorem Holds.storeOthers (h : a.Holds topic published comebacks count)
    (others : List (String × String × Int)) :
    (a.storeOthers others).Holds topic published comebacks count := by
  induction others generalizing a with
  | nil => exact h
  | cons other others ih => exact ih (h.store false (by simp))

theorem Holds.storePublished (harchived : archivedBySilo topic = true)
    (h : a.Holds topic published comebacks count) {arrivals : Nat → Int}
    (harrivals : ∀ k, published ≤ arrivals k ∧
      ∀ comeback ∈ comebacks, arrivals k ≤ comeback.subscribed) (k : Nat)
    {rows : List (SiloMsg × Bool)}
    (hrows : ∀ row ∈ rows, row.2 = true → row.1.topic = topic) :
    (a.storePublished arrivals k rows).Holds topic published comebacks
      (count + rows.countP Prod.snd) := by
  induction rows generalizing a k count with
  | nil => exact h
  | cons row rows ih =>
      obtain ⟨row, copy⟩ := row
      have hrest := fun other hother =>
        hrows other (List.mem_cons_of_mem _ hother)
      have hown := hrows (row, copy) List.mem_cons_self
      have hcount : count + ((row, copy) :: rows).countP Prod.snd =
          count + copy.toNat + rows.countP Prod.snd := by
        cases copy with
        | false => simp
        | true =>
            simp
            omega
      rw [hcount]
      unfold Archive.storePublished
      by_cases hstored : archivedBySilo row.topic = true
      · rw [if_pos hstored]
        exact ih (h.store copy fun hcopy => ⟨hown hcopy, harrivals k⟩) (k + 1)
          hrest
      · rw [if_neg hstored]
        -- a copy is on the archived topic, so this row is none
        have hnot : copy = false := by
          cases copy with
          | false => rfl
          | true => exact absurd (hown rfl ▸ harchived) hstored
        subst hnot
        exact ih h (k + 1) hrest

theorem Holds.tail {comeback : Comeback} {rest : List Comeback}
    (h : a.Holds topic published (comeback :: rest) count) :
    a.Holds topic published rest count where
  idsBelow := h.idsBelow
  copiesBelow := h.copiesBelow
  inWindow := fun row hrow hcopy =>
    ⟨(h.inWindow row hrow hcopy).1, (h.inWindow row hrow hcopy).2.1,
      fun other hother => (h.inWindow row hrow hcopy).2.2 other
        (List.mem_cons_of_mem _ hother)⟩
  count := h.count

end Archive

theorem AllAway.tail {clientTs : ClientTs} {topic : String} {published : Int}
    {comeback : Comeback} {rest : List Comeback}
    (h : AllAway clientTs topic published (comeback :: rest)) :
    AllAway clientTs topic published rest where
  archived := h.archived
  resendable := fun other hother =>
    h.resendable other (List.mem_cons_of_mem _ hother)
  away := fun other hother => h.away other (List.mem_cons_of_mem _ hother)
  within := fun other hother => h.within other (List.mem_cons_of_mem _ hother)
  clock := fun other hother => h.clock other (List.mem_cons_of_mem _ hother)
  oneByOne := (List.pairwise_cons.mp h.oneByOne).2

/-! ## One resend -/

section Resend

variable {clientTs : ClientTs} {topic : String} {published : Int}
  {comeback : Comeback} {rest : List Comeback}

theorem AllAway.rows (h : AllAway clientTs topic published (comeback :: rest))
    (db : MySql) (table : List SiloMsg) :
    ∃ start ≤ published, comeback.rows db clientTs topic table =
      SiloDao.getOfflineMsg db table topic start comeback.subscribed := by
  obtain ⟨disconnected, hrecorded, hpos, hbefore⟩ :=
    h.away comeback List.mem_cons_self
  obtain ⟨hafter, hday⟩ := h.within comeback List.mem_cons_self
  have hclock := (h.clock comeback List.mem_cons_self).1
  have hresend := h.resendable comeback List.mem_cons_self
  have hwindow : offlineWindow (recordedDisconnect db table clientTs
      (some comeback.clientId)) comeback.subscribed =
      some (max disconnected (comeback.subscribed - offlineExpireTime),
        comeback.subscribed) := by
    have hlt : disconnected < comeback.subscribed := by omega
    simp [offlineWindow, recordedDisconnect, hrecorded, hpos, hlt]
  refine ⟨max disconnected (comeback.subscribed - offlineExpireTime),
    by omega, ?_⟩
  rw [Comeback.rows, OfflineMsgService.rows_getTopicAndResend db table clientTs
    _ hresend hclock, hwindow]
  rfl

theorem AllAway.countP_rows {a : Archive} {count : Nat} (db : MySql)
    (h : AllAway clientTs topic published (comeback :: rest))
    (hpasted : SqlText.pasted topic = some topic)
    (ha : a.Holds topic published (comeback :: rest) count) :
    (comeback.rows db clientTs topic a.table).countP
      (fun row => a.isCopy row && row.topic = topic) = count := by
  obtain ⟨start, hstart, hrows⟩ := h.rows db a.table
  rw [hrows, (SiloDao.getOfflineMsg_perm db a.table hpasted start
    comeback.subscribed).countP_eq, List.countP_filter, ← ha.count]
  apply List.countP_congr
  intro row hrow
  cases hcopy : a.isCopy row with
  | false => simp
  | true =>
      obtain ⟨rfl, hpublished, hsubscribed⟩ := ha.inWindow row hrow hcopy
      have hlower : start ≤ row.created := hstart.trans hpublished
      have hupper := hsubscribed comeback List.mem_cons_self
      simp [db.sameTopic_refl, hlower, hupper]

/-- With the topic read back as it is, every resend doubles the copies. -/
theorem copiesPublished_eq (db : MySql)
    (hpasted : SqlText.pasted topic = some topic) {comebacks : List Comeback}
    (h : AllAway clientTs topic published comebacks) {a : Archive} {count : Nat}
    (ha : a.Holds topic published comebacks count) :
    copiesPublished db clientTs topic a comebacks =
      (List.range comebacks.length).map (count * 2 ^ ·) := by
  induction comebacks generalizing a count with
  | nil => rfl
  | cons comeback rest ih =>
      have hothers := ha.storeOthers comeback.others
      have hcount := h.countP_rows db hpasted hothers
      obtain ⟨hclock, harrivals⟩ := h.clock comeback List.mem_cons_self
      have hpublished := (h.within comeback List.mem_cons_self).1
      obtain ⟨honeByOne, -⟩ := List.pairwise_cons.mp h.oneByOne
      set archive := a.storeOthers comeback.others with harchive
      set rows := comeback.rows db clientTs topic archive.table with hrows
      have honTopic : ∀ row ∈ rows, archive.isCopy row = true →
          row.topic = topic := by
        intro row hrow hcopy
        obtain ⟨start, -, heq⟩ := h.rows db archive.table
        rw [hrows, heq, SiloDao.mem_getOfflineMsg db _ hpasted] at hrow
        exact (hothers.inWindow row hrow.1 hcopy).1
      have hcopies : (rows.map fun row =>
          (row, archive.isCopy row)).countP Prod.snd = count := by
        rw [List.countP_map, ← hcount]
        apply List.countP_congr
        intro row hrow
        cases hcopy : archive.isCopy row with
        | false => simp [hcopy]
        | true => simp [hcopy, honTopic row hrow hcopy]
      have hflagged : ∀ flagged ∈ rows.map fun row =>
          (row, archive.isCopy row), flagged.2 = true →
          flagged.1.topic = topic := by
        intro flagged hmem hcopy
        obtain ⟨row, hrow, rfl⟩ := List.mem_map.mp hmem
        exact honTopic row hrow hcopy
      have hnext := hothers.tail.storePublished h.archived
        (fun k => ⟨by have := harrivals k; omega,
          fun other hother => honeByOne other hother k⟩) 0 hflagged
      rw [hcopies] at hnext
      have htail := ih h.tail hnext
      change rows.countP _ :: _ = _
      rw [hcount, htail, List.length_cons, List.range_succ_eq_map,
        List.map_cons, List.map_map]
      congr 1
      · simp
      · apply List.map_congr_left
        intro k _
        change (count + count) * 2 ^ k = count * 2 ^ (k + 1)
        rw [Nat.pow_succ, ← Nat.mul_two, Nat.mul_assoc, Nat.mul_comm 2]

theorem copiesPublished_exactMySql
    (h : AllAway clientTs topic published (comeback :: rest))
    (hpasted : SqlText.pasted topic ≠ some topic) (a : Archive) :
    0 ∈ copiesPublished exactMySql clientTs topic a (comeback :: rest) := by
  have hzero : ∀ table,
      ∀ row ∈ comeback.rows exactMySql clientTs topic table,
        row.topic ≠ topic := by
    intro table row hrow htopic
    obtain ⟨start, -, heq⟩ := h.rows exactMySql table
    rw [heq] at hrow
    cases hvalue : SqlText.pasted topic with
    | none =>
        simp [SiloDao.getOfflineMsg, exactMySql,
          SiloDao.parse_offlineMsgSql, hvalue] at hrow
    | some value =>
        rw [SiloDao.mem_getOfflineMsg exactMySql _ hvalue] at hrow
        have hsame : row.topic = value := by simpa [exactMySql] using hrow.2.1
        exact hpasted (by rw [hvalue, ← hsame, htopic])
  unfold copiesPublished
  apply List.mem_cons.mpr
  left
  symm
  rw [List.countP_eq_zero]
  intro row hrow
  simp [hzero _ row hrow]

end Resend

/--
Each of the clients is sent exactly one copy, whatever the server answers to
other statements, when there is at most one client and the server reads its
topic back as it is; from the second client on there are more.
-/
theorem one_copy_each_iff {clientTs : ClientTs} {topic message : String}
    {published : Int} {comebacks : List Comeback}
    (haway : AllAway clientTs topic published comebacks) {a : Archive}
    (hids : ∀ row ∈ a.table, row.id < a.nextId) (hcopies : a.copies = []) :
    (∀ db, ∀ n ∈ copiesPublished db clientTs topic
        (a.store true topic message published) comebacks, n = 1) ↔
      comebacks = [] ∨
        comebacks.length = 1 ∧ SqlText.pasted topic = some topic := by
  have hnone : a.Holds topic published comebacks 0 := by
    refine ⟨hids, by simp [hcopies], ?_, ?_⟩
    · simp [Archive.isCopy, hcopies]
    · simp [List.countP_eq_zero, Archive.isCopy, hcopies]
  have hone : (a.store true topic message published).Holds topic published
      comebacks 1 :=
    hnone.store true fun _ => ⟨rfl, le_rfl, fun comeback hmem =>
      (haway.within comeback hmem).1.le⟩
  by_cases hpasted : SqlText.pasted topic = some topic
  · have hdoubles := fun db => copiesPublished_eq db hpasted haway hone
    simp only [hdoubles, Nat.one_mul, hpasted, and_true]
    constructor
    · intro hall
      by_contra hmany
      rw [not_or] at hmany
      have hlength : 2 ≤ comebacks.length := by
        have := List.length_pos_iff.mpr hmany.1
        omega
      have := hall exactMySql (2 ^ 1) (List.mem_map_of_mem
        (List.mem_range.mpr hlength))
      omega
    · rintro (rfl | hlength) db n hn
      · simp at hn
      · simpa [hlength] using hn
  · simp only [hpasted, and_false, or_false]
    constructor
    · intro hall
      cases comebacks with
      | nil => rfl
      | cons comeback rest =>
          exact absurd (hall exactMySql 0
            (copiesPublished_exactMySql haway hpasted _)) (by omega)
    · rintro rfl db n hn
      cases hn

/-! ## Bob and Carol come back -/

def bobReturns : Comeback := ⟨"bob", 5000, 5300, [], fun _ => 5400⟩

def carolReturns : Comeback := ⟨"carol", 9000, 9300, [], fun _ => 9400⟩

def emptyArchive : Archive := ⟨[], 0, []⟩

theorem bothAway :
    AllAway (fun _ => some 1000) "test/a" 2000 [bobReturns, carolReturns] where
  archived := by decide
  resendable := by decide
  away := fun _ _ => ⟨1000, rfl, by decide, by decide⟩
  within := by decide
  clock := by
    intro comeback hmem
    rcases List.mem_pair.mp hmem with rfl | rfl
    · exact ⟨by decide, fun _ => show (5000 : Int) ≤ 5400 by decide⟩
    · exact ⟨by decide, fun _ => show (9000 : Int) ≤ 9400 by decide⟩
  oneByOne := by
    rw [List.pairwise_pair]
    exact fun _ => show (5400 : Int) ≤ 9000 by decide

theorem one_copy_each_iff_for_two :
    ¬ ∀ db, ∀ n ∈ copiesPublished db (fun _ => some 1000) "test/a"
      (emptyArchive.store true "test/a" "hello" 2000)
      [bobReturns, carolReturns], n = 1 := by
  intro hall
  obtain hnone | ⟨hone, -⟩ :=
    (one_copy_each_iff bothAway (by decide) rfl).mp hall
  · cases hnone
  · cases hone

set_option maxRecDepth 20000 in
theorem second_client_is_sent_two :
    copiesPublished exactMySql (fun _ => some 1000) "test/a"
      (emptyArchive.store true "test/a" "hello" 2000)
      [bobReturns, carolReturns] = [1, 2] := by
  decide

end WebIm.Mqtt
