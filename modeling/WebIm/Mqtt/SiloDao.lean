import WebIm.Foundation.SqlText

/-!
# SiloDao over a MySQL server

The two statements are texts with the topic pasted between quotes.  A server
answers a text of either shape as MySQL documents it, rows in any order where
the statement asks for none; what it answers to any other text is its own
affair, so the field `query` is free there.
-/

namespace WebIm.Mqtt

open WebIm.Foundation

structure SiloMsg where
  id : Nat
  topic : String
  message : String
  created : Int
  deriving DecidableEq, Repr

theorem SiloMsg.id_lt_of_mem_append {table : List SiloMsg} {row new : SiloMsg}
    (hbelow : ∀ row ∈ table, row.id < new.id) (hrow : row ∈ table ++ [new]) :
    row.id < new.id + 1 := by
  cases List.mem_append.mp hrow with
  | inl hold => exact Nat.lt_succ_of_lt (hbelow row hold)
  | inr hnew =>
      rw [List.mem_singleton.mp hnew]
      exact Nat.lt_succ_self _

def tbSilo : String := "silo"

def topicLastwill : String := "client/lastwill/"

namespace SiloDao

def offlineMsgSql (topic : String) (start stop : Int) : String :=
  "select * from " ++ tbSilo ++
    (" where topic = '" ++ topic ++ "'") ++
    (" and created >= " ++ toString start) ++
    (" and created <= " ++ toString stop)

def lastWillSql (topic : String) : String :=
  "select * from " ++ tbSilo ++
    (" where topic = '" ++ topic ++ "'") ++
    " order by created desc" ++
    " limit 0,1"

end SiloDao

/-! ## What the server reads -/

inductive Statement where
  | topicBetween (topic : String) (start stop : Int)
  | newestOf (topic : String)
  deriving DecidableEq, Repr

namespace Statement

def head : List Char := "select * from silo where topic = '".toList
def since : List Char := " and created >= ".toList
def upTo : List Char := " and created <= ".toList
def newestFirst : List Char := " order by created desc limit 0,1".toList

def parseBetween (topic : String) (text : List Char) : Option Statement := do
  let text ← SqlText.readWord since text
  let (start, text) ← SqlText.readInt text
  let text ← SqlText.readWord upTo text
  let (stop, text) ← SqlText.readInt text
  if text = [] then some (.topicBetween topic start stop) else none

def parse (text : String) : Option Statement := do
  let text ← SqlText.readWord head text.toList
  let (topic, text) ← SqlText.readLiteral text
  if text = newestFirst then some (.newestOf (String.ofList topic))
  else parseBetween (String.ofList topic) text

theorem parseBetween_of_quote {topic : String} {text : List Char}
    (hquote : SqlText.quote ∈ text) : parseBetween topic text = none := by
  have hsince : SqlText.quote ∉ since := by decide
  have hupTo : SqlText.quote ∉ upTo := by decide
  rw [Option.eq_none_iff_forall_ne_some]
  intro statement h
  simp only [parseBetween, Option.bind_eq_bind, Option.bind_eq_some_iff] at h
  obtain ⟨afterSince, hfirst, ⟨start, middle⟩, hstart, afterUpTo, hsecond,
    ⟨stop, rest⟩, hstop, hend⟩ := h
  rw [SqlText.eq_append_of_readWord hfirst, List.mem_append,
    or_iff_right hsince] at hquote
  have hmiddle := SqlText.quote_mem_of_readInt hstart hquote
  have hsplit : middle = upTo ++ afterUpTo :=
    SqlText.eq_append_of_readWord hsecond
  rw [hsplit, List.mem_append, or_iff_right hupTo] at hmiddle
  have hrest := SqlText.quote_mem_of_readInt hstop hmiddle
  split at hend
  · rename_i hnil
    rw [show rest = [] from hnil] at hrest
    cases hrest
  · cases hend

theorem upTo_head : upTo.head? = some ' ' := rfl

theorem parseBetween_conditions (topic : String) (start stop : Int) :
    parseBetween topic
        (since ++ (start.repr.toList ++ (upTo ++ stop.repr.toList))) =
      some (.topicBetween topic start stop) := by
  have hspace : ∀ c, (upTo ++ stop.repr.toList).head? = some c →
      c.isDigit = false := by
    intro c hc
    rw [List.head?_append, upTo_head, Option.some_or, Option.some.injEq] at hc
    subst hc
    decide
  simp only [parseBetween, SqlText.readWord_append, Option.bind_eq_bind,
    Option.bind_some, SqlText.readInt_repr start hspace,
    SqlText.readInt_repr_whole, if_true]

/--
A statement around a pasted topic: either the literal closes at the pasted
quote, or the text is none of the two statements.
-/
theorem parse_pasted (topic : String) {tail : List Char}
    (htail : SqlText.quote ∉ tail) {text : String}
    (htext : text.toList = head ++ (topic.toList ++ SqlText.quote :: tail)) :
    parse text = (SqlText.pasted topic).bind fun value =>
      if tail = newestFirst then some (.newestOf value)
      else parseBetween value tail := by
  have hnewest : SqlText.quote ∉ newestFirst := by decide
  rw [parse, htext, SqlText.readWord_append]
  simp only [Option.bind_eq_bind, Option.bind_some]
  rw [SqlText.readLiteral_pasted topic.toList htail, SqlText.pasted]
  cases hread : SqlText.readLiteral (topic.toList ++ [SqlText.quote]) with
  | none => rfl
  | some found =>
      obtain ⟨value, rest⟩ := found
      cases rest with
      | nil => rfl
      | cons c rest =>
          -- the literal closed inside the topic, the pasted quote is behind it
          have hquote : SqlText.quote ∈ c :: rest ++ tail :=
            List.mem_append_left _
              (SqlText.quote_mem_of_readLiteral hread (by simp))
          have hne : c :: rest ++ tail ≠ newestFirst := by
            intro heq
            exact hnewest (heq ▸ hquote)
          simp only [Option.map_some, Option.bind_some, hne, if_false,
            Option.bind_none]
          exact parseBetween_of_quote hquote

end Statement

namespace SiloDao

theorem head_eq :
    "select * from ".toList ++ (tbSilo.toList ++ " where topic = '".toList) =
      Statement.head := rfl

theorem newestFirst_eq :
    " order by created desc".toList ++ " limit 0,1".toList =
      Statement.newestFirst := rfl

theorem toList_offlineMsgSql (topic : String) (start stop : Int) :
    (offlineMsgSql topic start stop).toList =
      Statement.head ++ (topic.toList ++ SqlText.quote :: (Statement.since ++
        (start.repr.toList ++ (Statement.upTo ++ stop.repr.toList)))) := by
  have hpieces : ∀ a b c d e f g h i : String,
      (a ++ b ++ (c ++ d ++ e) ++ (f ++ g) ++ (h ++ i)).toList =
        a.toList ++ (b.toList ++ c.toList) ++ (d.toList ++ (e.toList ++
          (f.toList ++ (g.toList ++ (h.toList ++ i.toList))))) := by
    intros
    simp only [String.toList_append, List.append_assoc]
  refine (hpieces _ _ _ _ _ _ _ _ _).trans ?_
  exact congrArg (· ++ _) head_eq

theorem toList_lastWillSql (topic : String) :
    (lastWillSql topic).toList =
      Statement.head ++ (topic.toList ++
        SqlText.quote :: Statement.newestFirst) := by
  have hpieces : ∀ a b c d e f g : String,
      (a ++ b ++ (c ++ d ++ e) ++ f ++ g).toList =
        a.toList ++ (b.toList ++ c.toList) ++ (d.toList ++ (e.toList ++
          (f.toList ++ g.toList))) := by
    intros
    simp only [String.toList_append, List.append_assoc]
  refine (hpieces _ _ _ _ _ _ _).trans ?_
  rw [newestFirst_eq]
  exact congrArg (· ++ _) head_eq

theorem quote_not_mem_repr (n : Int) : SqlText.quote ∉ n.repr.toList := by
  intro hmem
  have hquote := SqlText.quote_mem_of_readInt (SqlText.readInt_repr_whole n) hmem
  cases hquote

theorem parse_offlineMsgSql (topic : String) (start stop : Int) :
    Statement.parse (offlineMsgSql topic start stop) =
      (SqlText.pasted topic).map (.topicBetween · start stop) := by
  have htail : SqlText.quote ∉ Statement.since ++ (start.repr.toList ++
      (Statement.upTo ++ stop.repr.toList)) := by
    have hsince : SqlText.quote ∉ Statement.since := by decide
    have hupTo : SqlText.quote ∉ Statement.upTo := by decide
    simp only [List.mem_append, hsince, hupTo, quote_not_mem_repr, or_self,
      not_false_eq_true]
  have hne : Statement.since ++ (start.repr.toList ++
      (Statement.upTo ++ stop.repr.toList)) ≠ Statement.newestFirst := by
    -- the texts part at their second letter
    intro heq
    have hsecond := congrArg (fun text => text[1]?) heq
    have hfirst : (1 : Nat) < Statement.since.length := by decide
    rw [List.getElem?_append_left hfirst] at hsecond
    exact absurd hsecond (by decide)
  rw [Statement.parse_pasted topic htail (toList_offlineMsgSql topic start stop)]
  cases SqlText.pasted topic with
  | none => rfl
  | some value =>
      rw [Option.bind_some, if_neg hne, Statement.parseBetween_conditions]
      rfl

theorem parse_lastWillSql (topic : String) :
    Statement.parse (lastWillSql topic) =
      (SqlText.pasted topic).map .newestOf := by
  have htail : SqlText.quote ∉ Statement.newestFirst := by decide
  rw [Statement.parse_pasted topic htail (toList_lastWillSql topic)]
  cases SqlText.pasted topic <;> simp only [Option.bind_none, Option.bind_some,
    if_true, Option.map_none, Option.map_some]

end SiloDao

/-! ## The server -/

/-- One newest row, or none where there is none. -/
def IsNewest (rows answer : List SiloMsg) : Prop :=
  (rows = [] ∧ answer = []) ∨
    ∃ row ∈ rows, answer = [row] ∧ ∀ other ∈ rows, other.created ≤ row.created

/-- `sameTopic` is the equality of the column's collation. -/
structure MySql where
  sameTopic : String → String → Bool
  query : String → List SiloMsg → List SiloMsg
  sameTopic_refl : ∀ topic, sameTopic topic topic = true
  topicBetween : ∀ text topic start stop table,
    Statement.parse text = some (.topicBetween topic start stop) →
      (query text table).Perm (table.filter fun row =>
        sameTopic row.topic topic && start ≤ row.created &&
          row.created ≤ stop)
  newestOf : ∀ text topic table,
    Statement.parse text = some (.newestOf topic) →
      IsNewest (table.filter fun row => sameTopic row.topic topic)
        (query text table)

namespace SiloDao

def getOfflineMsg (db : MySql) (table : List SiloMsg) (topic : String)
    (start stop : Int) : List SiloMsg :=
  db.query (offlineMsgSql topic start stop) table

def getClientDisconnectTsByLastWill (db : MySql) (table : List SiloMsg)
    (clientId : Option String) : Int :=
  match clientId with
  | none => 0
  | some clientId =>
      if clientId.length > 0 then
        match db.query (lastWillSql (topicLastwill ++ clientId)) table with
        | [] => 0
        | row :: _ => row.created
      else 0

theorem getOfflineMsg_perm (db : MySql) (table : List SiloMsg)
    {topic value : String} (hvalue : SqlText.pasted topic = some value)
    (start stop : Int) :
    (getOfflineMsg db table topic start stop).Perm
      (table.filter fun row =>
        db.sameTopic row.topic value && start ≤ row.created &&
          row.created ≤ stop) := by
  apply db.topicBetween
  rw [parse_offlineMsgSql, hvalue]
  rfl

theorem mem_getOfflineMsg (db : MySql) (table : List SiloMsg)
    {topic value : String} (hvalue : SqlText.pasted topic = some value)
    (start stop : Int) (row : SiloMsg) :
    row ∈ getOfflineMsg db table topic start stop ↔
      row ∈ table ∧ db.sameTopic row.topic value = true ∧
        start ≤ row.created ∧ row.created ≤ stop := by
  rw [(getOfflineMsg_perm db table hvalue start stop).mem_iff, List.mem_filter]
  simp [and_assoc]

end SiloDao

/-! ## A server that compares topics exactly -/

def newestRow : List SiloMsg → Option SiloMsg
  | [] => none
  | row :: rest =>
      match newestRow rest with
      | none => some row
      | some newest =>
          if newest.created ≤ row.created then some row else some newest

theorem isNewest_newestRow (rows : List SiloMsg) :
    IsNewest rows (newestRow rows).toList := by
  induction rows with
  | nil => exact Or.inl ⟨rfl, rfl⟩
  | cons row rest ih =>
      refine Or.inr ?_
      rcases ih with ⟨rfl, -⟩ | ⟨newest, hmem, hnewest, hall⟩
      · exact ⟨row, by simp, rfl, by simp⟩
      · have hrow : newestRow rest = some newest := by
          cases h : newestRow rest <;> simp_all
        by_cases hle : newest.created ≤ row.created
        · refine ⟨row, by simp, by simp [newestRow, hrow, hle], ?_⟩
          intro other hother
          rcases List.mem_cons.mp hother with rfl | hother
          · exact Int.le_refl _
          · exact Int.le_trans (hall other hother) hle
        · refine ⟨newest, by simp [hmem], by simp [newestRow, hrow, hle], ?_⟩
          intro other hother
          rcases List.mem_cons.mp hother with rfl | hother
          · omega
          · exact hall other hother

/-- Texts of any other shape are errors here and yield no row. -/
def exactMySql : MySql where
  sameTopic stored topic := stored = topic
  query text table :=
    match Statement.parse text with
    | some (.topicBetween topic start stop) =>
        table.filter fun row =>
          decide (row.topic = topic) && start ≤ row.created &&
            row.created ≤ stop
    | some (.newestOf topic) =>
        (newestRow (table.filter fun row => row.topic = topic)).toList
    | none => []
  sameTopic_refl := by simp
  topicBetween := by
    intro text topic start stop table h
    rw [h]
  newestOf := by
    intro text topic table h
    rw [h]
    exact isNewest_newestRow _

end WebIm.Mqtt
