import Mathlib.Data.List.Pairwise
import WebIm.Mqtt.OfflineMsgService
import WebIm.Mqtt.SiloQueries

/-!
# What a resend publishes, and in which order

The rows of the offline window are published once each, in the order in which
the server happens to return them.
-/

namespace WebIm.Mqtt

open WebIm.Foundation

/-- The disconnect time in Redis or, without one, that of the newest last will. -/
def IsLastDisconnect (db : MySql) (table : List SiloMsg) (clientTs : ClientTs)
    (clientId : String) (d : Int) : Prop :=
  clientTs clientId = some d ∨
    clientTs clientId = none ∧
      ∃ row ∈ SiloDao.rowsOf db table (topicLastwill ++ clientId),
        d = row.created ∧
          ∀ other ∈ SiloDao.rowsOf db table (topicLastwill ++ clientId),
            other.created ≤ row.created

namespace OfflineMsgService

section Record

variable {db : MySql} {table : List SiloMsg} {clientTs : ClientTs}
  {clientId : String} (hclient : clientId ≠ "")
  (hliteral : SqlText.Literal clientId.toList)

include hclient hliteral

theorem recordedDisconnect_of_isLast {d : Int}
    (h : IsLastDisconnect db table clientTs clientId d) :
    recordedDisconnect db table clientTs (some clientId) = d := by
  unfold recordedDisconnect
  rw [Option.bind_some]
  cases h with
  | inl hredis => rw [hredis, Option.getD_some]
  | inr hwill =>
      obtain ⟨hnone, row, hrow, rfl, hall⟩ := hwill
      rw [hnone, Option.getD_none]
      cases SiloDao.isLatest_getClientDisconnectTs db table hclient
          hliteral with
      | inl hempty =>
          rw [hempty.1] at hrow
          cases hrow
      | inr hfound =>
          obtain ⟨newest, hnewest, hts, hmax⟩ := hfound
          rw [hts]
          exact Int.le_antisymm (hall newest hnewest) (hmax row hrow)

theorem isLast_of_recordedDisconnect
    (hpos : 0 < recordedDisconnect db table clientTs (some clientId)) :
    IsLastDisconnect db table clientTs clientId
      (recordedDisconnect db table clientTs (some clientId)) := by
  unfold recordedDisconnect at hpos ⊢
  rw [Option.bind_some] at hpos ⊢
  cases hredis : clientTs clientId with
  | some ts => exact Or.inl hredis
  | none =>
      rw [hredis, Option.getD_none] at hpos
      rw [Option.getD_none]
      cases SiloDao.isLatest_getClientDisconnectTs db table hclient
          hliteral with
      | inl hempty => omega
      | inr hfound => exact Or.inr ⟨hredis, hfound⟩

end Record

/-! ## Which rows are published -/

theorem publishEach_eq (publishMessage : Nat → Bool) (k : Nat)
    (msgs : List SiloMsg) :
    publishEach publishMessage k msgs =
      (msgs.zipIdx k).map fun entry => (entry.1, publishMessage entry.2) := by
  induction msgs generalizing k with
  | nil => rfl
  | cons m msgs ih => simp [publishEach, ih]

variable {clientId topic : String}

/--
Every row of the topic from the last day of the offline time is published
once, whatever the other attempts come to, and nothing else is.
-/
theorem getTopicAndResend_exact (db : MySql) (table : List SiloMsg)
    (clientTs : ClientTs) (publishMessage : Nat → Bool) (htopic : topic ≠ "")
    (hclient : clientId ≠ "")
    (hsubs : '#' ∉ topic.toList ∧ '+' ∉ topic.toList)
    (htopicPlain : ∀ c ∈ topic.toList,
      c ≠ SqlText.quote ∧ c ≠ SqlText.backslash)
    (hclientPlain : ∀ c ∈ clientId.toList,
      c ≠ SqlText.quote ∧ c ≠ SqlText.backslash)
    {stop now : Int} (hnow : stop ≤ now) {resend : Resend}
    (hresend : getTopicAndResend db table clientTs now publishMessage
      (some topic) (some clientId) stop = resend) :
    (∀ d, IsLastDisconnect db table clientTs clientId d → 0 < d →
      max d (stop - offlineExpireTime) < stop →
        resend.rows.Perm (SiloDao.rowsBetween db table topic
          (max d (stop - offlineExpireTime)) stop)) ∧
    ((∀ d, IsLastDisconnect db table clientTs clientId d →
      d ≤ 0 ∨ stop ≤ d) → resend.attempts = []) ∧
    resend.attempts = resend.rows.zipIdx.map
      fun entry => (entry.1, publishMessage entry.2) := by
  have hliteral := SqlText.literal_of_plain hclientPlain
  have hboth : Resendable (some topic) (some clientId) :=
    (resendable_some topic (some clientId)).mpr
      ⟨htopic, by simp [isEmpty, hclient], hsubs⟩
  have hrows := rows_getTopicAndResend db table clientTs publishMessage hboth
    hnow
  rw [hresend] at hrows
  refine ⟨?_, ?_, ?_⟩
  · intro d hd hpos hbelow
    rw [recordedDisconnect_of_isLast hclient hliteral hd, offlineWindow,
      if_pos ⟨hpos, by omega⟩] at hrows
    rw [hrows]
    exact SiloDao.getOfflineMsg_perm db table
      (SqlText.pasted_plain htopicPlain) _ _
  · intro hnone
    have hwindow : offlineWindow
        (recordedDisconnect db table clientTs (some clientId)) stop = none := by
      unfold offlineWindow
      rw [if_neg]
      rintro ⟨hpos, hlt⟩
      have hlast := hnone _
        (isLast_of_recordedDisconnect hclient hliteral hpos)
      omega
    rw [hwindow] at hrows
    exact List.map_eq_nil_iff.mp hrows
  · rw [← hresend, getTopicAndResend_eq hboth hnow]
    cases offlineWindow (recordedDisconnect db table clientTs (some clientId))
        stop with
    | none => rfl
    | some window =>
        simp only [Resend.rows, rows_publishEach]
        exact publishEach_eq publishMessage 0 _

/-- A last will at 5000, one message before it and two behind it. -/
def newsTable : List SiloMsg :=
  [⟨1, "news", "early", 4000⟩, ⟨2, "client/lastwill/dev1", "", 5000⟩,
    ⟨3, "news", "first", 6000⟩, ⟨4, "news", "second", 7000⟩]

set_option maxRecDepth 20000 in
theorem news_resent :
    (getTopicAndResend exactMySql newsTable (fun _ => none) 8300
        (fun k => k == 0) (some "news") (some "dev1") 8000).rows.Perm
      [⟨3, "news", "first", 6000⟩, ⟨4, "news", "second", 7000⟩] := by
  have htopic : "news".toList.all
      (fun c => c ≠ SqlText.quote && c ≠ SqlText.backslash) := by decide
  have hclient : "dev1".toList.all
      (fun c => c ≠ SqlText.quote && c ≠ SqlText.backslash) := by decide
  have hrows := (getTopicAndResend_exact exactMySql newsTable (fun _ => none)
    (fun k => k == 0) (show "news" ≠ "" by decide)
    (show "dev1" ≠ "" by decide) (by decide) (by simpa using htopic)
    (by simpa using hclient)
    (show (8000 : Int) ≤ 8300 by decide) rfl).1 5000
    (Or.inr ⟨rfl, ⟨2, "client/lastwill/dev1", "", 5000⟩, by decide, rfl,
      by decide⟩) (by decide) (by decide)
  exact hrows

/-! ## In which order -/

end OfflineMsgService

/-- A server that differs only in the order in which it returns rows. -/
def MySql.Reorders (db other : MySql) : Prop :=
  ∀ text table, (other.query text table).Perm (db.query text table)

def MySql.reversed (db : MySql) : MySql where
  sameTopic := db.sameTopic
  query text table := (db.query text table).reverse
  sameTopic_refl := db.sameTopic_refl
  topicBetween := by
    intro text topic start stop table h
    exact (List.reverse_perm _).trans
      (db.topicBetween text topic start stop table h)
  newestOf := by
    intro text topic table h
    cases db.newestOf text topic table h with
    | inl hnone => exact Or.inl ⟨hnone.1, by rw [hnone.2]; rfl⟩
    | inr hsome =>
        obtain ⟨row, hrow, hanswer, hall⟩ := hsome
        exact Or.inr ⟨row, hrow, by rw [hanswer]; rfl, hall⟩

theorem MySql.reorders_reversed (db : MySql) : db.Reorders db.reversed :=
  fun _ _ => List.reverse_perm _

def InOrder (rows : List SiloMsg) : Prop :=
  rows.Pairwise fun earlier later => earlier.created ≤ later.created

theorem same_created_of_reverse {rows : List SiloMsg} (h : InOrder rows)
    (hreverse : InOrder rows.reverse) :
    ∀ first ∈ rows, ∀ second ∈ rows, first.created = second.created := by
  have hback := List.pairwise_reverse.mp hreverse
  have hboth : rows.Pairwise fun first second =>
      first.created = second.created :=
    h.imp₂ (fun _ _ hup hdown => Int.le_antisymm hup hdown) hback
  have hsymm : Std.Symm fun first second : SiloMsg =>
      first.created = second.created := ⟨fun _ _ hsame => hsame.symm⟩
  intro first hfirst second hsecond
  have hrefl : ∀ row ∈ rows, row.created = row.created := fun _ _ => rfl
  exact List.Pairwise.forall_of_forall hrefl hboth hfirst hsecond

namespace OfflineMsgService

theorem rows_resendOfflineMsg (db : MySql) (table : List SiloMsg)
    (publishMessage : Nat → Bool) (topic : String) (start stop : Int) :
    (resendOfflineMsg db table publishMessage topic start stop).rows =
      if topic ≠ "" ∧ start < stop then
        SiloDao.getOfflineMsg db table topic start stop
      else [] := by
  unfold resendOfflineMsg
  split
  · exact rows_publishEach _ _ _
  · rfl

/--
The server may return the rows of the issued statement in any order.  All of
these orders are that of sending exactly when nothing is resent or the rows
were stored at one time.
-/
theorem inOrder_iff (db : MySql) (table : List SiloMsg)
    (publishMessage : Nat → Bool) (topic : String) (start stop : Int) :
    (∀ other, db.Reorders other →
        InOrder (resendOfflineMsg other table publishMessage topic start
          stop).rows) ↔
      topic = "" ∨ stop ≤ start ∨
        ∀ first ∈ db.query (SiloDao.offlineMsgSql topic start stop) table,
          ∀ second ∈ db.query (SiloDao.offlineMsgSql topic start stop) table,
            first.created = second.created := by
  simp only [rows_resendOfflineMsg]
  constructor
  · intro h
    cases decEq topic "" with
    | isTrue hempty => exact Or.inl hempty
    | isFalse hne =>
        cases Int.decLt start stop with
        | isFalse hlate => exact Or.inr (Or.inl (Int.not_lt.mp hlate))
        | isTrue hlt =>
            have hsame := h db fun _ _ => List.Perm.refl _
            have hreversed := h db.reversed db.reorders_reversed
            rw [if_pos ⟨hne, hlt⟩] at hsame hreversed
            exact Or.inr (Or.inr (same_created_of_reverse hsame hreversed))
  · intro h other hother
    split
    · rename_i hsent
      rcases h with hempty | hlate | hsame
      · exact absurd hempty hsent.1
      · exact absurd hsent.2 (Int.not_lt.mpr hlate)
      · have hperm := hother (SiloDao.offlineMsgSql topic start stop) table
        apply List.pairwise_of_forall_mem_list
        intro first hfirst second hsecond
        exact Int.le_of_eq (hsame first (hperm.mem_iff.mp hfirst) second
          (hperm.mem_iff.mp hsecond))
    · exact List.Pairwise.nil

set_option maxRecDepth 20000 in
/-- Nothing keeps the server from returning the newer message first. -/
theorem news_out_of_order :
    (resendOfflineMsg exactMySql.reversed newsTable (fun _ => true) "news" 5000
        8000).rows =
      [⟨4, "news", "second", 7000⟩, ⟨3, "news", "first", 6000⟩] ∧
    ¬ InOrder (resendOfflineMsg exactMySql.reversed newsTable (fun _ => true)
        "news" 5000 8000).rows := by
  have hpasted : SqlText.pasted "news" = some "news" := by decide
  have hquery : exactMySql.query (SiloDao.offlineMsgSql "news" 5000 8000)
      newsTable =
      [⟨3, "news", "first", 6000⟩, ⟨4, "news", "second", 7000⟩] := by
    simp only [exactMySql, SiloDao.parse_offlineMsgSql, hpasted,
      Option.map_some]
    decide
  have hrows : (resendOfflineMsg exactMySql.reversed newsTable
      (fun _ => true) "news" 5000 8000).rows =
      [⟨4, "news", "second", 7000⟩, ⟨3, "news", "first", 6000⟩] := by
    rw [rows_resendOfflineMsg, if_pos (by decide)]
    exact congrArg List.reverse hquery
  rw [hrows]
  constructor
  · rfl
  · simp [InOrder]

end OfflineMsgService

end WebIm.Mqtt
