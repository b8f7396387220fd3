import WebIm.Foundation.FormText
import WebIm.Foundation.Uri
import WebIm.SocketIO.Handler

/-!
# makeUpUrl and the handshake the broker reads

The client pastes its namespace, its id and its room into the URL it connects
to; the broker takes them back out of the handshake parameters.
-/

namespace WebIm.Sdk

open WebIm.Foundation
open WebIm.SocketIO

/-- A base URL that a client can connect to, without query or fragment. -/
structure BaseUrl where
  text : String
  uri : Uri
  parsed : Uri.parse text.toList = some uri
  no_query : uri.query = none
  no_fragment : uri.fragment = none

structure UrlConfig where
  url : BaseUrl
  nameSpace : Option String
  channel : Option String

/-- All slashes go when the first character is one. -/
def nsValue (nameSpace : String) : String :=
  if nameSpace.toList.head? = some '/' then
    String.ofList (nameSpace.toList.filter (· ≠ '/'))
  else nameSpace

def makeUpUrl (clientConfig : UrlConfig) (clientId : String) : String :=
  let paramNs := "?" ++ queryParamsNamespace ++ "="
  let paramRoom := "&" ++ queryParamsRoom ++ "="
  let url :=
    if clientConfig.url.text.toList.getLast? = some '/' then
      clientConfig.url.text
    else clientConfig.url.text ++ "/"
  let ns :=
    match clientConfig.nameSpace with
    | none => paramNs
    | some nameSpace =>
        if nameSpace = "" then paramNs
        else nsValue nameSpace ++ paramNs ++ nsValue nameSpace
  let room :=
    match clientConfig.channel with
    | none => paramRoom
    | some channel =>
        if channel = "" then paramRoom else paramRoom ++ channel
  url ++ (ns ++ "&" ++ queryParamsClientid ++ "=" ++ clientId) ++ room

/-! ## The other end -/

structure Connection where
  path : String
  handshakeData : HandshakeData
  deriving DecidableEq, Repr

def connect (url : String) : Option Connection := do
  let uri ← Uri.parse url.toList
  let urlParams ← FormText.parseQuery (uri.query.getD [])
  some ⟨String.ofList uri.path, ⟨urlParams⟩⟩

/-- The namespace a client is configured for, without one leading slash. -/
def configuredNs (nameSpace : Option String) : String :=
  match (nameSpace.getD "").toList with
  | '/' :: ns => String.ofList ns
  | ns => String.ofList ns

/-- The broker reads what the client was configured with. -/
def ReadBack (clientConfig : UrlConfig) (clientId : String) : Prop :=
  ∃ connection, connect (makeUpUrl clientConfig clientId) = some connection ∧
    connection.handshakeData.getSingleUrlParam queryParamsClientid =
      some clientId ∧
    connection.handshakeData.getSingleUrlParam queryParamsRoom =
      some (clientConfig.channel.getD "") ∧
    connection.handshakeData.getSingleUrlParam queryParamsNamespace =
      some (configuredNs clientConfig.nameSpace) ∧
    connection.path = "/" ++ configuredNs clientConfig.nameSpace

/-! ## The text of the URL -/

def slashed (text : List Char) : List Char :=
  if text.getLast? = some '/' then text else text ++ ['/']

def nsText (nameSpace : Option String) : List Char :=
  nameSpace.elim [] fun nameSpace => (nsValue nameSpace).toList

def queryText (ns clientId room : List Char) : List Char :=
  "ns".toList ++ '=' :: (ns ++ '&' ::
    ("clientid".toList ++ '=' :: (clientId ++ '&' ::
      ("room".toList ++ '=' :: room))))

theorem slashed_base {uri : Uri} {text : List Char} (base : Uri.Base uri text) :
    slashed text = uri.front ++ slashed uri.path := by
  have hserver : uri.front.getLast? ≠ some '/' := by
    intro hlast
    have hmem : '/' ∈ uri.authority := by
      rw [Uri.front, List.getLast?_append] at hlast
      cases hauthority : uri.authority with
      | nil => exact absurd hauthority base.server
      | cons c rest =>
          rw [hauthority] at hlast
          apply List.mem_of_getLast?
          simpa [List.getLast?_cons_cons] using hlast
    have hall := List.all_eq_true.mp base.authority '/' hmem
    simp [Uri.inAuthority] at hall
  unfold slashed
  rw [base.whole]
  cases hpath : uri.path with
  | nil => simp [hserver]
  | cons c rest =>
      rw [List.getLast?_append_of_ne_nil _ (List.cons_ne_nil c rest)]
      split <;> simp

theorem toList_makeUpUrl (clientConfig : UrlConfig) (clientId : String) :
    (makeUpUrl clientConfig clientId).toList =
      clientConfig.url.uri.front ++ (slashed clientConfig.url.uri.path ++
        (nsText clientConfig.nameSpace ++ '?' ::
          queryText (nsText clientConfig.nameSpace) clientId.toList
            (clientConfig.channel.getD "").toList)) := by
  have base := Uri.base_of_parse clientConfig.url.parsed
    clientConfig.url.no_query clientConfig.url.no_fragment
  have hurl : (if clientConfig.url.text.toList.getLast? = some '/' then
      clientConfig.url.text else clientConfig.url.text ++ "/").toList =
      clientConfig.url.uri.front ++ slashed clientConfig.url.uri.path := by
    rw [← slashed_base base, slashed]
    split <;> simp
  have hns : (match clientConfig.nameSpace with
      | none => "?" ++ queryParamsNamespace ++ "="
      | some nameSpace =>
          if nameSpace = "" then "?" ++ queryParamsNamespace ++ "="
          else nsValue nameSpace ++ ("?" ++ queryParamsNamespace ++ "=") ++
            nsValue nameSpace).toList =
      nsText clientConfig.nameSpace ++ '?' ::
        ("ns".toList ++ '=' :: nsText clientConfig.nameSpace) := by
    cases clientConfig.nameSpace with
    | none => rfl
    | some nameSpace =>
        simp only [nsText, Option.elim_some]
        split
        · rename_i hempty
          subst hempty
          decide
        · simp [queryParamsNamespace]
  have hroom : (match clientConfig.channel with
      | none => "&" ++ queryParamsRoom ++ "="
      | some channel =>
          if channel = "" then "&" ++ queryParamsRoom ++ "="
          else "&" ++ queryParamsRoom ++ "=" ++ channel).toList =
      '&' :: ("room".toList ++ '=' :: (clientConfig.channel.getD "").toList) := by
    cases clientConfig.channel with
    | none => rfl
    | some channel =>
        simp only [Option.getD_some]
        split
        · rename_i hempty
          subst hempty
          decide
        · simp [queryParamsRoom]
  simp only [makeUpUrl, String.toList_append, hurl, hns, hroom, queryText]
  simp [queryParamsClientid]

/-! ## Reading a parameter at the front -/

theorem getSingleUrlParam_front {name value : String}
    {more : List (String × String)} {read : String}
    (h : HandshakeData.getSingleUrlParam ⟨(name, value) :: more⟩ name =
      some read) : value = read := by
  unfold HandshakeData.getSingleUrlParam at h
  simp only [List.filter_cons, decide_true, if_true] at h
  split at h
  · rename_i heq
    obtain ⟨hfirst, -⟩ := List.cons.inj heq
    rw [← Option.some.inj h, (Prod.mk.inj hfirst).2]
  · cases h

theorem getSingleUrlParam_skip {name other value : String} (h : other ≠ name)
    (more : List (String × String)) :
    HandshakeData.getSingleUrlParam ⟨(other, value) :: more⟩ name =
      HandshakeData.getSingleUrlParam ⟨more⟩ name := by
  simp [HandshakeData.getSingleUrlParam, h]

/-- What a value is made of that survives the way through a query. -/
def carried (c : Char) : Bool := c ≠ '#' && c ≠ '&' && FormText.plain c

structure PlainName (name : List Char) : Prop where
  equals : '=' ∉ name
  ampersand : '&' ∉ name
  hash : '#' ∉ name
  plain : name.all FormText.plain

theorem not_mem_of_carried {text : List Char} (h : text.all carried) :
    '#' ∉ text ∧ '&' ∉ text ∧ text.all FormText.plain := by
  simp only [carried, List.all_eq_true, Bool.and_eq_true,
    decide_eq_true_eq] at h
  exact ⟨fun hmem => (h _ hmem).1.1 rfl, fun hmem => (h _ hmem).1.2 rfl,
    List.all_eq_true.mpr fun c hc => (h c hc).2⟩

theorem carried_of_decode {text : List Char}
    (hvalue : FormText.decode (text.takeWhile fun c => c ≠ '#' && c ≠ '&') =
      some text) : text.all carried := by
  have hwhole := FormText.eq_of_decode_prefix (List.takeWhile_prefix _) hvalue
  rw [hwhole] at hvalue
  have hplain := List.all_eq_true.mp (FormText.plain_of_decode hvalue)
  rw [List.takeWhile_eq_self_iff] at hwhole
  rw [List.all_eq_true]
  intro c hc
  rw [carried, hwhole c hc, hplain c hc, Bool.and_self]

theorem takeWhile_value (text tail : List Char) :
    ((text ++ '&' :: tail).takeWhile (· ≠ '#')).takeWhile (· ≠ '&') =
      text.takeWhile fun c => c ≠ '#' && c ≠ '&' := by
  rw [List.takeWhile_takeWhile, Uri.takeWhile_append_stop (by simp)]
  congr 1
  funext c
  simp [and_comm]

namespace PlainName

variable {name : List Char} (h : PlainName name)

include h

theorem parseQuery {text : List Char} (htext : text.all carried)
    (tail : List Char) :
    FormText.parseQuery (name ++ '=' :: (text ++ '&' :: tail)) =
      (FormText.parseQuery tail).map
        ((String.ofList name, String.ofList text) :: ·) := by
  obtain ⟨-, hand, hplain⟩ := not_mem_of_carried htext
  have hfree : '&' ∉ name ++ '=' :: text := by
    simp [h.ampersand, hand]
  have hassoc : name ++ '=' :: (text ++ '&' :: tail) =
      (name ++ '=' :: text) ++ '&' :: tail := by simp
  rw [hassoc, FormText.parseQuery_append (by simp) hfree,
    FormText.parameter_append h.equals h.plain,
    FormText.decode_of_plain hplain]
  rfl

theorem parseQuery_last {text : List Char} (htext : text.all carried) :
    FormText.parseQuery (name ++ '=' :: text) =
      some [(String.ofList name, String.ofList text)] := by
  obtain ⟨-, hand, hplain⟩ := not_mem_of_carried htext
  have hfree : '&' ∉ name ++ '=' :: text := by
    simp [h.ampersand, hand]
  rw [FormText.parseQuery_single (by simp) hfree,
    FormText.parameter_append h.equals h.plain,
    FormText.decode_of_plain hplain]
  rfl

theorem takeWhile (rest : List Char) :
    (name ++ '=' :: rest).takeWhile (· ≠ '#') =
      name ++ '=' :: rest.takeWhile (· ≠ '#') := by
  rw [FormText.takeWhile_ne_append h.hash]
  simp

theorem decode_of_read {text rest read : List Char}
    (hrest : (rest.takeWhile (· ≠ '#')).takeWhile (· ≠ '&') =
      text.takeWhile fun c => c ≠ '#' && c ≠ '&')
    {params : List (String × String)}
    (hparams : FormText.parseQuery
      ((name ++ '=' :: rest).takeWhile (· ≠ '#')) = some params)
    (hread : HandshakeData.getSingleUrlParam ⟨params⟩ (String.ofList name) =
      some (String.ofList read)) :
    FormText.decode (text.takeWhile fun c => c ≠ '#' && c ≠ '&') =
      some read := by
  rw [h.takeWhile] at hparams
  obtain ⟨value, more, hvalue, rfl⟩ :=
    FormText.first_parameter h.equals h.ampersand h.plain hparams
  have hsame := getSingleUrlParam_front hread
  rw [String.ofList_inj] at hsame
  rw [← hrest, ← hsame]
  exact hvalue

theorem length_le_of_read {text tail read : List Char}
    {params : List (String × String)}
    (hparams : FormText.parseQuery
      ((name ++ '=' :: (text ++ '&' :: tail)).takeWhile (· ≠ '#')) =
        some params)
    (hread : HandshakeData.getSingleUrlParam ⟨params⟩ (String.ofList name) =
      some (String.ofList read)) : read.length ≤ text.length := by
  have hvalue := h.decode_of_read (takeWhile_value text tail) hparams hread
  have hlength := FormText.length_decodeFrom hvalue
  have hle := (List.takeWhile_prefix fun c => c ≠ '#' && c ≠ '&' :
    text.takeWhile (fun c => c ≠ '#' && c ≠ '&') <+: text).length_le
  simp only [Option.isSome_none, Bool.toNat_false] at hlength
  omega

theorem read {text tail : List Char} {params : List (String × String)}
    (hparams : FormText.parseQuery
      ((name ++ '=' :: (text ++ '&' :: tail)).takeWhile (· ≠ '#')) =
        some params)
    (hread : HandshakeData.getSingleUrlParam ⟨params⟩ (String.ofList name) =
      some (String.ofList text)) :
    text.all carried ∧
      ∃ more, FormText.parseQuery (tail.takeWhile (· ≠ '#')) = some more ∧
        params = (String.ofList name, String.ofList text) :: more := by
  have htext := carried_of_decode
    (h.decode_of_read (takeWhile_value text tail) hparams hread)
  refine ⟨htext, ?_⟩
  have hall : (text ++ '&' :: tail).takeWhile (· ≠ '#') =
      text ++ '&' :: tail.takeWhile (· ≠ '#') := by
    rw [FormText.takeWhile_ne_append (not_mem_of_carried htext).1]
    simp
  rw [h.takeWhile, hall, h.parseQuery htext, Option.map_eq_some_iff] at hparams
  obtain ⟨more, hmore, rfl⟩ := hparams
  exact ⟨more, hmore, rfl⟩

theorem read_last {text : List Char} {params : List (String × String)}
    (hparams : FormText.parseQuery
      ((name ++ '=' :: text).takeWhile (· ≠ '#')) = some params)
    (hread : HandshakeData.getSingleUrlParam ⟨params⟩ (String.ofList name) =
      some (String.ofList text)) : text.all carried := by
  apply carried_of_decode
  apply h.decode_of_read _ hparams hread
  rw [List.takeWhile_takeWhile]
  congr 1
  funext c
  simp [and_comm]

end PlainName

theorem plainName_ns : PlainName "ns".toList :=
  ⟨by decide, by decide, by decide, by decide⟩

theorem plainName_clientid : PlainName "clientid".toList :=
  ⟨by decide, by decide, by decide, by decide⟩

theorem plainName_room : PlainName "room".toList :=
  ⟨by decide, by decide, by decide, by decide⟩

/-! ## All three parameters -/

theorem parseQuery_queryText {ns clientId room : List Char}
    (hns : ns.all carried) (hclientId : clientId.all carried)
    (hroom : room.all carried) :
    FormText.parseQuery (queryText ns clientId room) =
      some [("ns", String.ofList ns), ("clientid", String.ofList clientId),
        ("room", String.ofList room)] := by
  rw [queryText, plainName_ns.parseQuery hns,
    plainName_clientid.parseQuery hclientId,
    plainName_room.parseQuery_last hroom]
  rfl

theorem carried_of_queryText {ns clientId room : List Char}
    {params : List (String × String)}
    (hparams : FormText.parseQuery
      ((queryText ns clientId room).takeWhile (· ≠ '#')) = some params)
    (hns : HandshakeData.getSingleUrlParam ⟨params⟩ "ns" =
      some (String.ofList ns))
    (hclientId : HandshakeData.getSingleUrlParam ⟨params⟩ "clientid" =
      some (String.ofList clientId))
    (hroom : HandshakeData.getSingleUrlParam ⟨params⟩ "room" =
      some (String.ofList room)) :
    ns.all carried ∧ clientId.all carried ∧ room.all carried := by
  obtain ⟨hnsText, more, hmore, rfl⟩ := plainName_ns.read hparams hns
  rw [getSingleUrlParam_skip (by decide)] at hclientId hroom
  obtain ⟨hclientIdText, last, hlast, rfl⟩ :=
    plainName_clientid.read hmore hclientId
  rw [getSingleUrlParam_skip (by decide)] at hroom
  exact ⟨hnsText, hclientIdText, plainName_room.read_last hlast hroom⟩

theorem not_mem_queryText {c : Char} (hnames : c ∉ "ns=&clientid=&room=".toList)
    {ns clientId room : List Char} (hns : c ∉ ns) (hclientId : c ∉ clientId)
    (hroom : c ∉ room) : c ∉ queryText ns clientId room := by
  simp only [String.reduceToList, List.mem_cons, List.not_mem_nil, or_false,
    not_or] at hnames
  simp [queryText, hnames, hns, hclientId, hroom]

theorem all_queryText {allowed : Char → Bool}
    (hnames : "ns=&clientid=&room=".toList.all allowed)
    (ns clientId room : List Char) :
    (queryText ns clientId room).all allowed =
      (ns.all allowed && clientId.all allowed && room.all allowed) := by
  simp only [String.reduceToList, List.all_cons, List.all_nil, Bool.and_true,
    Bool.and_eq_true] at hnames
  simp [queryText, hnames, Bool.and_assoc]

/-! ## The path -/

theorem slashed_eq_cons {uri : Uri} {text : List Char}
    (base : Uri.Base uri text) :
    ∃ rest, slashed uri.path = '/' :: rest ∧ ('/' :: rest).all Uri.inPath := by
  have hpath := base.path
  unfold slashed
  cases base.rooted with
  | inl hnil => exact ⟨[], by simp [hnil], by decide⟩
  | inr hroot =>
      cases hsplit : uri.path with
      | nil => simp [hsplit] at hroot
      | cons c rest =>
          rw [hsplit] at hroot hpath
          obtain rfl := Option.some.inj hroot
          split
          · exact ⟨rest, rfl, hpath⟩
          · refine ⟨rest ++ ['/'], rfl, ?_⟩
            rw [← List.cons_append, List.all_append, hpath]
            decide

theorem slashed_eq_root_iff (path : List Char) :
    slashed path = ['/'] ↔ path = [] ∨ path = ['/'] := by
  unfold slashed
  constructor
  · intro h
    split at h
    · exact Or.inr h
    · have hcancel : path ++ ['/'] = [] ++ ['/'] := h
      exact Or.inl (List.append_cancel_right hcancel)
  · rintro (rfl | rfl) <;> decide

theorem parse_makeUpUrl (clientConfig : UrlConfig) (clientId : String) :
    Uri.parse (makeUpUrl clientConfig clientId).toList =
      Uri.hierarchical clientConfig.url.uri.scheme
        clientConfig.url.uri.authority
        (slashed clientConfig.url.uri.path ++
          (nsText clientConfig.nameSpace ++ '?' ::
            queryText (nsText clientConfig.nameSpace) clientId.toList
              (clientConfig.channel.getD "").toList)) := by
  have base := Uri.base_of_parse clientConfig.url.parsed
    clientConfig.url.no_query clientConfig.url.no_fragment
  obtain ⟨rest, hrest, -⟩ := slashed_eq_cons base
  rw [toList_makeUpUrl, hrest, List.cons_append]
  exact Uri.parse_front base _

/-! ## The namespace -/

/-- Slashes inside a namespace stay only when none stands in front. -/
def InnerSlashesKept (nameSpace : Option String) : Prop :=
  (nameSpace.getD "").toList.head? = some '/' →
    '/' ∉ (configuredNs nameSpace).toList

instance (nameSpace : Option String) : Decidable (InnerSlashesKept nameSpace) :=
  inferInstanceAs (Decidable (_ → _))

theorem nsText_eq (nameSpace : Option String) :
    nsText nameSpace =
      if (nameSpace.getD "").toList.head? = some '/' then
        (configuredNs nameSpace).toList.filter (· ≠ '/')
      else (configuredNs nameSpace).toList := by
  cases nameSpace with
  | none => rfl
  | some nameSpace =>
      obtain ⟨text, rfl⟩ : ∃ text, nameSpace = String.ofList text :=
        ⟨nameSpace.toList, String.ofList_toList.symm⟩
      simp only [nsText, Option.elim_some, nsValue, configuredNs,
        Option.getD_some, String.toList_ofList]
      match text with
      | [] => rfl
      | c :: rest =>
          cases decEq c '/' with
          | isTrue hc =>
              subst hc
              simp
          | isFalse hc => simp [hc]

theorem nsText_eq_iff (nameSpace : Option String) :
    nsText nameSpace = (configuredNs nameSpace).toList ↔
      InnerSlashesKept nameSpace := by
  rw [nsText_eq, InnerSlashesKept]
  split
  · rename_i hslash
    simp only [hslash, true_imp_iff, List.filter_eq_self, decide_eq_true_eq]
    constructor
    · intro h hmem
      exact h '/' hmem rfl
    · rintro h c hc rfl
      exact h hc
  · rename_i hslash
    simp [hslash]

/-! ## Which configurations are read back -/

def Spelled (allowed : Char → Bool) (text : String) : Prop :=
  text.toList.all fun c => allowed c && c ≠ '&' && c ≠ '+'

instance (allowed : Char → Bool) (text : String) :
    Decidable (Spelled allowed text) :=
  inferInstanceAs (Decidable (_ = true))

structure PlainConfig (clientConfig : UrlConfig) (clientId : String) :
    Prop where
  root : clientConfig.url.uri.path = [] ∨ clientConfig.url.uri.path = ['/']
  inner : InnerSlashesKept clientConfig.nameSpace
  nameSpace : Spelled Uri.pathChar (configuredNs clientConfig.nameSpace)
  clientId : Spelled Uri.queryChar clientId
  channel : Spelled Uri.queryChar (clientConfig.channel.getD "")

theorem spelled_iff {allowed : Char → Bool} (hpercent : allowed '%' = false)
    (hhash : allowed '#' = false) (text : String) :
    Spelled allowed text ↔
      text.toList.all carried ∧ text.toList.all allowed := by
  simp only [Spelled, carried, FormText.plain, List.all_eq_true,
    Bool.and_eq_true, decide_eq_true_eq]
  constructor
  · intro h
    refine ⟨fun c hc => ⟨⟨?_, (h c hc).1.2⟩, ?_, (h c hc).2⟩,
      fun c hc => (h c hc).1.1⟩
    · rintro rfl
      exact absurd (h _ hc).1.1 (by simp [hhash])
    · rintro rfl
      exact absurd (h _ hc).1.1 (by simp [hpercent])
  · intro h c hc
    exact ⟨⟨h.2 c hc, (h.1 c hc).1.2⟩, (h.1 c hc).2.2⟩

theorem queryChar_of_pathChar {c : Char} (h : Uri.pathChar c) :
    Uri.queryChar c := by
  unfold Uri.pathChar at h
  unfold Uri.queryChar
  simp only [Bool.or_eq_true] at h ⊢
  rcases h with (h | h) | h
  · exact Or.inl (Or.inl h)
  · apply Or.inl
    apply Or.inr
    simp at h ⊢
    grind
  · exact Or.inr h

theorem inPath_of_pathChar {c : Char} (h : Uri.pathChar c) :
    Uri.inPath c := by
  simp only [Uri.inPath, Bool.and_eq_true, decide_eq_true_eq]
  constructor
  · rintro rfl
    exact absurd h (by decide)
  · rintro rfl
    exact absurd h (by decide)

theorem not_percent_of_carried {text : List Char} (h : text.all carried) :
    '%' ∉ text := by
  intro hmem
  exact absurd (List.all_eq_true.mp h _ hmem) (by decide)

theorem dropWhile_ne_hash {text : List Char} (h : '#' ∉ text) :
    text.takeWhile (· ≠ '#') = text ∧ text.dropWhile (· ≠ '#') = [] :=
  ⟨FormText.takeWhile_ne_self h,
    List.dropWhile_eq_nil_iff.mpr (FormText.ne_of_not_mem h)⟩

theorem readBack_of_plainConfig {clientConfig : UrlConfig} {clientId : String}
    (h : PlainConfig clientConfig clientId) :
    ReadBack clientConfig clientId := by
  have hns := (spelled_iff (by decide) (by decide) _).mp h.nameSpace
  have hclientId := (spelled_iff (by decide) (by decide) _).mp h.clientId
  have hroom := (spelled_iff (by decide) (by decide) _).mp h.channel
  have hparse := parse_makeUpUrl clientConfig clientId
  rw [(slashed_eq_root_iff _).mpr h.root, (nsText_eq_iff _).mpr h.inner,
    ← List.append_assoc] at hparse
  unfold ReadBack
  generalize configuredNs clientConfig.nameSpace = ns at *
  generalize clientConfig.channel.getD "" = room at *
  have hpath : (['/'] ++ ns.toList).all Uri.inPath := by
    simp only [List.cons_append, List.nil_append, List.all_cons,
      Bool.and_eq_true]
    refine ⟨by decide, List.all_eq_true.mpr fun c hc => ?_⟩
    exact inPath_of_pathChar (List.all_eq_true.mp hns.2 c hc)
  have hhash : '#' ∉ queryText ns.toList clientId.toList room.toList :=
    not_mem_queryText (by decide) (not_mem_of_carried hns.1).1
      (not_mem_of_carried hclientId.1).1 (not_mem_of_carried hroom.1).1
  have hpercent : '%' ∉ queryText ns.toList clientId.toList room.toList :=
    not_mem_queryText (by decide) (not_percent_of_carried hns.1)
      (not_percent_of_carried hclientId.1) (not_percent_of_carried hroom.1)
  have hlegalPath : Uri.legal Uri.pathChar (['/'] ++ ns.toList) := by
    rw [Uri.legal_eq_all _ (by simpa using not_percent_of_carried hns.1),
      List.all_append, hns.2]
    decide
  have hlegalQuery : Uri.legal Uri.queryChar
      (queryText ns.toList clientId.toList room.toList) := by
    rw [Uri.legal_eq_all _ hpercent, all_queryText (by decide), hclientId.2,
      hroom.2, Bool.and_true, Bool.and_true]
    refine List.all_eq_true.mpr fun c hc => ?_
    exact queryChar_of_pathChar (List.all_eq_true.mp hns.2 c hc)
  rw [Uri.hierarchical_query _ _ hpath, (dropWhile_ne_hash hhash).1,
    (dropWhile_ne_hash hhash).2] at hparse
  simp only [hlegalPath, hlegalQuery, Option.all_none, Bool.and_true,
    if_true] at hparse
  have hquery := parseQuery_queryText hns.1 hclientId.1 hroom.1
  refine ⟨⟨"/" ++ ns, ⟨[("ns", ns), ("clientid", clientId),
    ("room", room)]⟩⟩, ?_, rfl, rfl, rfl, rfl⟩
  simp only [connect, hparse, Option.bind_eq_bind, Option.bind_some,
    Option.getD_some, hquery, String.ofList_toList, Option.some.injEq,
    Connection.mk.injEq, and_true]
  simp

theorem path_eq {path value ns : List Char} (hroot : ∃ rest, path = '/' :: rest)
    (hvalue : ns.length ≤ value.length) (h : path ++ value = '/' :: ns) :
    path = ['/'] ∧ value = ns := by
  obtain ⟨rest, rfl⟩ := hroot
  have hlength := congrArg List.length h
  simp only [List.length_append, List.length_cons] at hlength
  have hrest : rest = [] := List.length_eq_zero_iff.mp (by omega)
  subst hrest
  exact ⟨rfl, (List.cons.inj h).2⟩

theorem all_nsText {p : Char → Bool} {nameSpace : Option String}
    (h : (configuredNs nameSpace).toList.all p) : (nsText nameSpace).all p := by
  rw [nsText_eq]
  split
  · rw [List.all_eq_true]
    intro c hc
    exact List.all_eq_true.mp h c (List.mem_of_mem_filter hc)
  · exact h

theorem inPath_of_hierarchical {scheme authority base tail : List Char}
    {nameSpace : Option String} {uri : Uri} (hbase : base.all Uri.inPath)
    (hparse : Uri.hierarchical scheme authority
      ((base ++ nsText nameSpace) ++ '?' :: tail) = some uri)
    (hroot : '/' :: (configuredNs nameSpace).toList = uri.path) :
    (base ++ nsText nameSpace).all Uri.inPath ∧
      base ++ nsText nameSpace = '/' :: (configuredNs nameSpace).toList := by
  have hcut := Uri.hierarchical_path hparse
  have hroots : ('/' :: (configuredNs nameSpace).toList).all Uri.inPath := by
    rw [hroot, hcut]
    exact List.all_takeWhile
  rw [List.all_cons, Bool.and_eq_true] at hroots
  have hall : (base ++ nsText nameSpace).all Uri.inPath := by
    rw [List.all_append, hbase, all_nsText hroots.2, Bool.and_true]
  rw [Uri.takeWhile_append_stop (by decide),
    List.takeWhile_eq_self_iff.mpr (List.all_eq_true.mp hall), ← hroot] at hcut
  exact ⟨hall, hcut.symm⟩

theorem plainConfig_of_readBack {clientConfig : UrlConfig} {clientId : String}
    (h : ReadBack clientConfig clientId) :
    PlainConfig clientConfig clientId := by
  have base := Uri.base_of_parse clientConfig.url.parsed
    clientConfig.url.no_query clientConfig.url.no_fragment
  obtain ⟨rest, hslashed, hrest⟩ := slashed_eq_cons base
  obtain ⟨connection, hconnect, hclientId, hroom, hns, hpath⟩ := h
  simp only [connect, Option.bind_eq_bind, Option.bind_eq_some_iff,
    Option.some.injEq] at hconnect
  obtain ⟨uri, hparse, params, hparams, rfl⟩ := hconnect
  rw [parse_makeUpUrl] at hparse
  have hroot : ('/' :: (configuredNs clientConfig.nameSpace).toList) =
      uri.path := by
    rw [← String.toList_inj, String.toList_ofList] at hpath
    simpa using hpath.symm
  rw [← List.append_assoc] at hparse
  have hslashedPath : (slashed clientConfig.url.uri.path).all Uri.inPath := by
    rw [hslashed, hrest]
  obtain ⟨hall, hwhole⟩ := inPath_of_hierarchical hslashedPath hparse hroot
  obtain ⟨hquery, hlegalPath, hlegalQuery⟩ :=
    Uri.of_hierarchical_query hall hparse
  rw [hquery, Option.getD_some] at hparams
  -- the namespace is read back, so no slash of it went into the base path
  have hnsRead : HandshakeData.getSingleUrlParam ⟨params⟩ "ns" =
      some (String.ofList (configuredNs clientConfig.nameSpace).toList) := by
    rw [String.ofList_toList]
    exact hns
  have hlength := plainName_ns.length_le_of_read hparams hnsRead
  obtain ⟨hbase, hsame⟩ := path_eq ⟨rest, hslashed⟩ hlength hwhole
  rw [hsame] at hparams hlegalPath hlegalQuery
  rw [hbase] at hlegalPath
  -- the query decides what the three parameters are
  obtain ⟨hnsText, hclientIdText, hroomText⟩ := carried_of_queryText hparams
    hnsRead
    (by rw [String.ofList_toList]; exact hclientId)
    (by rw [String.ofList_toList]; exact hroom)
  have hhash := not_mem_queryText (by decide)
    (not_mem_of_carried hnsText).1 (not_mem_of_carried hclientIdText).1
    (not_mem_of_carried hroomText).1
  have hpercent := not_mem_queryText (by decide)
    (not_percent_of_carried hnsText) (not_percent_of_carried hclientIdText)
    (not_percent_of_carried hroomText)
  rw [(dropWhile_ne_hash hhash).1, Uri.legal_eq_all _ hpercent,
    all_queryText (by decide), Bool.and_eq_true, Bool.and_eq_true]
    at hlegalQuery
  rw [Uri.legal_eq_all _ (by simpa using not_percent_of_carried hnsText),
    List.all_append, Bool.and_eq_true] at hlegalPath
  constructor
  · exact (slashed_eq_root_iff _).mp hbase
  · exact (nsText_eq_iff _).mp hsame
  · exact (spelled_iff (by decide) (by decide) _).mpr ⟨hnsText, hlegalPath.2⟩
  · exact (spelled_iff (by decide) (by decide) _).mpr
      ⟨hclientIdText, hlegalQuery.1.2⟩
  · exact (spelled_iff (by decide) (by decide) _).mpr
      ⟨hroomText, hlegalQuery.2⟩

/--
The broker reads what was configured exactly when the base URL has no path of
its own and no character of the three texts means anything in a URL.
-/
theorem readBack_iff (clientConfig : UrlConfig) (clientId : String) :
    ReadBack clientConfig clientId ↔ PlainConfig clientConfig clientId :=
  ⟨plainConfig_of_readBack, readBack_of_plainConfig⟩

def localBroker : BaseUrl where
  text := "http://localhost:8080"
  uri := ⟨"http".toList, "localhost:8080".toList, [], none, none⟩
  parsed := by decide
  no_query := rfl
  no_fragment := rfl

/-- An id that cuts the rest of the URL off puts its client into a room. -/
theorem clientId_injects_room :
    connect (makeUpUrl ⟨localBroker, some "/ns1", none⟩ "4&room=1#") =
        some ⟨"/ns1", ⟨[("ns", "ns1"), ("clientid", "4"), ("room", "1")]⟩⟩ ∧
      ¬ ReadBack ⟨localBroker, some "/ns1", none⟩ "4&room=1#" := by
  have hconnect :
      connect (makeUpUrl ⟨localBroker, some "/ns1", none⟩ "4&room=1#") =
        some ⟨"/ns1", ⟨[("ns", "ns1"), ("clientid", "4"), ("room", "1")]⟩⟩ := by
    decide
  refine ⟨hconnect, ?_⟩
  rintro ⟨connection, hsame, hclientId, -⟩
  obtain rfl := Option.some.inj (hconnect.symm.trans hsame)
  exact absurd hclientId (by decide)

end WebIm.Sdk
