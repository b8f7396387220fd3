import WebIm.Mqtt.SiloDao

/-!
# The rows that the pasted queries select

Topics and client ids come from MQTT clients and go into the statements as
they are.  The file says for which of them the server reads the statement that
is meant.
-/

namespace WebIm.Mqtt

open WebIm.Foundation

namespace SiloDao

def rowsOf (db : MySql) (table : List SiloMsg) (topic : String) :
    List SiloMsg :=
  table.filter fun row => db.sameTopic row.topic topic

def rowsBetween (db : MySql) (table : List SiloMsg) (topic : String)
    (start stop : Int) : List SiloMsg :=
  table.filter fun row =>
    db.sameTopic row.topic topic && start ≤ row.created && row.created ≤ stop

def IsLatest (rows : List SiloMsg) (ts : Int) : Prop :=
  (rows = [] ∧ ts = 0) ∨
    ∃ row ∈ rows, ts = row.created ∧ ∀ other ∈ rows, other.created ≤ row.created

/-- Whatever the table, the statement has its shape and selects the topic. -/
structure SelectsTopic (topic : String) : Prop where
  shape : ∀ start stop, ∃ value,
    Statement.parse (offlineMsgSql topic start stop) =
      some (.topicBetween value start stop)
  rows : ∀ (db : MySql) table start stop,
    (getOfflineMsg db table topic start stop).Perm
      (rowsBetween db table topic start stop)

structure FindsLastWill (clientId : String) : Prop where
  shape : ∃ value,
    Statement.parse (lastWillSql (topicLastwill ++ clientId)) =
      some (.newestOf value)
  latest : ∀ (db : MySql) table,
    IsLatest (rowsOf db table (topicLastwill ++ clientId))
      (getClientDisconnectTsByLastWill db table (some clientId))

/-! ## Topics -/

theorem pasted_of_selectsTopic {topic : String} (h : SelectsTopic topic) :
    SqlText.pasted topic = some topic := by
  obtain ⟨value, hvalue⟩ := h.shape 0 0
  rw [parse_offlineMsgSql, Option.map_eq_some_iff] at hvalue
  obtain ⟨read, hread, -⟩ := hvalue
  have hrows := h.rows exactMySql [⟨0, topic, "", 0⟩] 0 0
  have hparse : Statement.parse (offlineMsgSql topic 0 0) =
      some (.topicBetween read 0 0) := by
    rw [parse_offlineMsgSql, hread]
    rfl
  have hmem : (⟨0, topic, "", 0⟩ : SiloMsg) ∈
      rowsBetween exactMySql [⟨0, topic, "", 0⟩] topic 0 0 := by
    simp [rowsBetween, exactMySql]
  rw [← hrows.mem_iff, mem_getOfflineMsg exactMySql _ hread] at hmem
  have hsame : topic = read := by
    simpa [exactMySql] using hmem.2.1
  rw [hread, hsame]

theorem selectsTopic_iff (topic : String) :
    SelectsTopic topic ↔ SqlText.Literal topic.toList := by
  rw [← SqlText.pasted_iff]
  constructor
  · exact pasted_of_selectsTopic
  · intro h
    constructor
    · intro start stop
      refine ⟨topic, ?_⟩
      rw [parse_offlineMsgSql, h]
      rfl
    · intro db table start stop
      exact getOfflineMsg_perm db table h start stop

/-! ## Last wills -/

theorem topicLastwill_plain :
    ∀ c ∈ topicLastwill.toList, c ≠ SqlText.quote ∧ c ≠ SqlText.backslash := by
  have hall : topicLastwill.toList.all
      (fun c => c ≠ SqlText.quote && c ≠ SqlText.backslash) := by decide
  simpa using hall

theorem literal_lastwill_iff (clientId : String) :
    SqlText.Literal (topicLastwill ++ clientId).toList ↔
      SqlText.Literal clientId.toList := by
  rw [String.toList_append]
  exact SqlText.Literal.append_iff topicLastwill_plain

theorem getClientDisconnectTs_eq (db : MySql) (table : List SiloMsg)
    {clientId : String} (hne : clientId ≠ "") :
    getClientDisconnectTsByLastWill db table (some clientId) =
      match db.query (lastWillSql (topicLastwill ++ clientId)) table with
      | [] => 0
      | row :: _ => row.created := by
  have hlength : clientId.length > 0 := by
    apply Nat.pos_of_ne_zero
    intro hzero
    exact hne (String.length_eq_zero_iff.mp hzero)
  exact if_pos hlength

theorem isLatest_getClientDisconnectTs (db : MySql) (table : List SiloMsg)
    {clientId : String} (hne : clientId ≠ "")
    (h : SqlText.Literal clientId.toList) :
    IsLatest (rowsOf db table (topicLastwill ++ clientId))
      (getClientDisconnectTsByLastWill db table (some clientId)) := by
  rw [← literal_lastwill_iff, ← SqlText.pasted_iff] at h
  have hparse : Statement.parse (lastWillSql (topicLastwill ++ clientId)) =
      some (.newestOf (topicLastwill ++ clientId)) := by
    rw [parse_lastWillSql, h]
    rfl
  rw [getClientDisconnectTs_eq db table hne]
  cases db.newestOf _ _ table hparse with
  | inl hnone =>
      rw [hnone.2]
      exact Or.inl ⟨hnone.1, rfl⟩
  | inr hsome =>
      obtain ⟨row, hrow, hanswer, hall⟩ := hsome
      rw [hanswer]
      exact Or.inr ⟨row, hrow, rfl, hall⟩

theorem pasted_of_findsLastWill {clientId : String} (hne : clientId ≠ "")
    (h : FindsLastWill clientId) :
    SqlText.pasted (topicLastwill ++ clientId) =
      some (topicLastwill ++ clientId) := by
  obtain ⟨value, hvalue⟩ := h.shape
  have hparse := hvalue
  rw [parse_lastWillSql, Option.map_eq_some_iff] at hvalue
  obtain ⟨read, hread, heq⟩ := hvalue
  obtain rfl := Statement.newestOf.inj heq
  have hlatest := h.latest exactMySql [⟨0, topicLastwill ++ clientId, "", 1⟩]
  rw [getClientDisconnectTs_eq _ _ hne] at hlatest
  cases decEq (topicLastwill ++ clientId) read with
  | isTrue hsame => rw [hread, hsame]
  | isFalse hother =>
      have hquery : exactMySql.query (lastWillSql (topicLastwill ++ clientId))
          [⟨0, topicLastwill ++ clientId, "", 1⟩] = [] := by
        simp [exactMySql, hparse, hother, newestRow]
      rw [hquery] at hlatest
      simp [IsLatest, rowsOf, exactMySql] at hlatest

theorem findsLastWill_iff {clientId : String} (hne : clientId ≠ "") :
    FindsLastWill clientId ↔ SqlText.Literal clientId.toList := by
  constructor
  · intro h
    rw [← literal_lastwill_iff, ← SqlText.pasted_iff]
    exact pasted_of_findsLastWill hne h
  · intro h
    constructor
    · refine ⟨topicLastwill ++ clientId, ?_⟩
      rw [parse_lastWillSql,
        (SqlText.pasted_iff _).mpr ((literal_lastwill_iff clientId).mpr h)]
      rfl
    · intro db table
      exact isLatest_getClientDisconnectTs db table hne h

/-! ## Both queries -/

/--
Both statements ask for what is meant exactly when neither text has a quote,
or a backslash that is not in front of a wildcard.  An empty client id builds
no statement.
-/
theorem queries_exact_iff (topic clientId : String) :
    SelectsTopic topic ∧ (clientId ≠ "" → FindsLastWill clientId) ↔
      SqlText.Literal topic.toList ∧ SqlText.Literal clientId.toList := by
  rw [selectsTopic_iff]
  apply and_congr_right
  intro _
  cases decEq clientId "" with
  | isTrue hempty =>
      subst hempty
      simp [SqlText.Literal.nil]
  | isFalse hne => simp [hne, findsLastWill_iff hne]

/-- A quote in a topic makes another statement of the rest of it. -/
theorem quote_in_topic :
    Statement.parse (offlineMsgSql "x' or '1'='1" 0 10) = none ∧
      ¬ SelectsTopic "x' or '1'='1" := by
  have hparse : Statement.parse (offlineMsgSql "x' or '1'='1" 0 10) = none := by
    rw [parse_offlineMsgSql]
    decide
  refine ⟨hparse, fun h => ?_⟩
  obtain ⟨value, hvalue⟩ := h.shape 0 10
  rw [hparse] at hvalue
  cases hvalue

end SiloDao

end WebIm.Mqtt
