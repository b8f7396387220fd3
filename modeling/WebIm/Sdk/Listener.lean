import WebIm.SocketIO.Handler

/-!
# The receiving side of the client SDK

`AbstractBaseListener.call` is handed the arguments of an event: the message
in the representation the transport chose, followed by an `Ack` when the broker
asked for one.  The JSON libraries are parameters, and so is the text they
exchange; what is assumed of them is that they round-trip the message at hand.
-/

namespace WebIm.Sdk

open WebIm.Foundation WebIm.SocketIO

/-! ## Objects and JSON libraries -/

structure JsonLibraries where
  FastjsonObject : Type
  OrgJsonObject : Type
  toJSON : MessageInfo → FastjsonObject
  toJavaObject : FastjsonObject → MessageInfo
  decodePacket : MessageInfo → OrgJsonObject
  toString : OrgJsonObject → String
  parseObject : String → MessageInfo

structure JsonLibraries.RoundTrips (lib : JsonLibraries) (m : MessageInfo) :
    Prop where
  fastjson : lib.toJavaObject (lib.toJSON m) = m
  orgJson : lib.parseObject (lib.toString (lib.decodePacket m)) = m

/-- The run-time types that `call` and `ackCallback` ask for. -/
inductive JavaObject (lib : JsonLibraries) where
  | null
  | messageInfo (m : MessageInfo)
  | fastjson (json : lib.FastjsonObject)
  | orgJson (json : lib.OrgJsonObject)
  | ack

inductive Representation where
  | messageInfo
  | fastjson
  | orgJson
  deriving DecidableEq, Repr

def Representation.encode (lib : JsonLibraries) (m : MessageInfo) :
    Representation → JavaObject lib
  | .messageInfo => .messageInfo m
  | .fastjson => .fastjson (lib.toJSON m)
  | .orgJson => .orgJson (lib.decodePacket m)

/-! ## Outcomes of a call -/

structure Outcome (lib : JsonLibraries) where
  business : List MessageInfo
  acked : List (JavaObject lib)
  thrown : Option JavaException

namespace Outcome

variable {lib : JsonLibraries}

def done : Outcome lib := ⟨[], [], none⟩

def doBusiness (m : MessageInfo) : Outcome lib := ⟨[m], [], none⟩

def ackCall (data : JavaObject lib) : Outcome lib := ⟨[], [data], none⟩

def throw (e : JavaException) : Outcome lib := ⟨[], [], some e⟩

/-- An exception ends the call; what was done before it stays done. -/
def andThen (first next : Outcome lib) : Outcome lib :=
  match first.thrown with
  | some _ => first
  | none =>
      ⟨first.business ++ next.business, first.acked ++ next.acked, next.thrown⟩

@[simp] theorem done_andThen (next : Outcome lib) : done.andThen next = next :=
  rfl

@[simp] theorem andThen_done (first : Outcome lib) :
    first.andThen done = first := by
  unfold andThen
  cases h : first.thrown with
  | none => cases first; simp_all [done]
  | some e => rfl

end Outcome

/-! ## AbstractBaseListener -/

namespace AbstractBaseListener

variable {lib : JsonLibraries}

def logFirst : Option (List (JavaObject lib)) → Outcome lib
  | none => .throw .nullPointerException
  | some [] => .throw .arrayIndexOutOfBoundsException
  | some (_ :: _) => .done

def ackCallback (args : Option (List (JavaObject lib))) : Outcome lib :=
  Outcome.andThen
    (match args with
      | some (arg0 :: arg1 :: rest) =>
          match (arg1 :: rest).getLast? with
          | some .ack => .ackCall arg0
          | _ => .done
      | _ => .done)
    (logFirst args)

/-- The first `if` has no `else`, so the second one sees every argument. -/
def call (args : Option (List (JavaObject lib))) : Outcome lib :=
  (ackCallback args).andThen <|
    match args with
    | some (arg0 :: _ :: _) =>
        Outcome.andThen
          (match arg0 with
            | .messageInfo m => .doBusiness m
            | _ => .done)
          (match arg0 with
            | .fastjson json => .doBusiness (lib.toJavaObject json)
            | .orgJson json => .doBusiness (lib.parseObject (lib.toString json))
            -- a cast of `null` succeeds, the call on it does not
            | .null => .throw .nullPointerException
            | _ => .throw .classCastException)
    | _ => .done

end AbstractBaseListener

/-! ## The socket of an SDK client -/

inductive Listener where
  | logging
  | abstractBase
  deriving DecidableEq, Repr

def Listener.call {lib : JsonLibraries} (args : List (JavaObject lib)) :
    Listener → Outcome lib
  | .logging => .done
  | .abstractBase => AbstractBaseListener.call (some args)

/-- A `url` here is one that `IO.socket` can parse. -/
structure SocketIOClientConfig where
  url : Option String
  brokerEndpoint : String

structure Socket where
  registered : List (String × Listener)

def Socket.on (socket : Socket) (endPoint : String) (listener : Listener) :
    Socket :=
  ⟨socket.registered ++ [(endPoint, listener)]⟩

def Socket.callbacks (socket : Socket) (endPoint : String) : List Listener :=
  (socket.registered.filter (·.1 = endPoint)).map Prod.snd

def subscribeEndpoint (socket : Option Socket) (endPoint : String)
    (listener : Option Listener) : Option Socket :=
  match socket, listener with
  | some socket, some listener => some (socket.on endPoint listener)
  | socket, _ => socket

def loggedEvents : List String :=
  ["connect", "connecting", "connect_error", "connect_timeout", "error",
    "reconnecting", "disconnect"]

def initConnect (clientConfig : Option SocketIOClientConfig) : Option Socket :=
  match clientConfig with
  | none => none
  | some clientConfig =>
      if isEmpty clientConfig.url then none
      else
        subscribeEndpoint (some ⟨loggedEvents.map (·, .logging)⟩)
          clientConfig.brokerEndpoint (some .abstractBase)

def fire {lib : JsonLibraries} (args : List (JavaObject lib)) :
    List Listener → Outcome lib
  | [] => .done
  | listener :: rest => (listener.call args).andThen (fire args rest)

/-- The `Ack` is there exactly when the broker sent with an `AckCallback`. -/
def eventArgs (lib : JsonLibraries) (representation : Representation)
    (sent : SentEvent) : List (JavaObject lib) :=
  representation.encode lib sent.data ::
    (if sent.ackCallback then [.ack] else [])

def Socket.receive (lib : JsonLibraries) (socket : Socket)
    (representation : Representation) (sent : SentEvent) : Outcome lib :=
  fire (eventArgs lib representation sent) (socket.callbacks sent.name)

theorem count_callbacks_on (endPoint name : String) :
    ((Socket.on ⟨loggedEvents.map (·, .logging)⟩ endPoint
        .abstractBase).callbacks name).count .abstractBase =
      if endPoint = name then 1 else 0 := by
  have hlogged : List.count Listener.abstractBase
      (((loggedEvents.map (·, Listener.logging)).filter
        (·.1 = name)).map Prod.snd) = 0 := by
    rw [List.count_eq_zero, List.mem_map]
    rintro ⟨entry, hentry, hlistener⟩
    obtain ⟨event, -, rfl⟩ := List.mem_map.mp (List.mem_of_mem_filter hentry)
    cases hlistener
  rw [Socket.callbacks, Socket.on, List.filter_append, List.map_append,
    List.count_append, hlogged, List.filter_singleton]
  split <;> simp_all

theorem initConnect_callbacks {config : SocketIOClientConfig}
    (hurl : isEmpty config.url = false) :
    ∃ socket, initConnect (some config) = some socket ∧
      (socket.callbacks config.brokerEndpoint).count .abstractBase = 1 := by
  refine ⟨_, by simp [initConnect, hurl, subscribeEndpoint]; rfl, ?_⟩
  rw [count_callbacks_on, if_pos rfl]

theorem count_callbacks_initConnect {clientConfig : Option SocketIOClientConfig}
    {socket : Socket} (h : initConnect clientConfig = some socket)
    (name : String) : (socket.callbacks name).count .abstractBase ≤ 1 := by
  unfold initConnect at h
  cases clientConfig with
  | none => cases h
  | some config =>
      simp only [subscribeEndpoint, Option.ite_none_left_eq_some,
        Option.some.injEq] at h
      rw [← h.2, count_callbacks_on]
      split <;> omega

/-! ## What one event does -/

section Receive

variable {lib : JsonLibraries}

theorem fire_of_not_mem (args : List (JavaObject lib))
    {listeners : List Listener} (h : listeners.count .abstractBase = 0) :
    fire args listeners = .done := by
  induction listeners with
  | nil => rfl
  | cons listener rest ih =>
      cases listener with
      | logging => simpa [fire, Listener.call] using ih (by simpa using h)
      | abstractBase => simp at h

theorem fire_once (args : List (JavaObject lib)) {listeners : List Listener}
    (h : listeners.count .abstractBase = 1) :
    fire args listeners = AbstractBaseListener.call (some args) := by
  induction listeners with
  | nil => simp at h
  | cons listener rest ih =>
      cases listener with
      | logging => simpa [fire, Listener.call] using ih (by simpa using h)
      | abstractBase =>
          have hrest : rest.count .abstractBase = 0 := by simpa using h
          simp [fire, Listener.call, fire_of_not_mem args hrest]

theorem call_without_ack (object : JavaObject lib) :
    AbstractBaseListener.call (some [object]) = .done := rfl

theorem call_with_ack {m : MessageInfo} (hjson : lib.RoundTrips m)
    (representation : Representation) :
    AbstractBaseListener.call (some [representation.encode lib m, .ack]) =
      ⟨[m], [representation.encode lib m],
        if representation = .messageInfo then some .classCastException
        else none⟩ := by
  cases representation with
  | messageInfo => rfl
  | fastjson =>
      simp [AbstractBaseListener.call, AbstractBaseListener.ackCallback,
        AbstractBaseListener.logFirst, Representation.encode, Outcome.andThen,
        Outcome.ackCall, Outcome.done, Outcome.doBusiness, hjson.fastjson]
  | orgJson =>
      simp [AbstractBaseListener.call, AbstractBaseListener.ackCallback,
        AbstractBaseListener.logFirst, Representation.encode, Outcome.andThen,
        Outcome.ackCall, Outcome.done, Outcome.doBusiness, hjson.orgJson]

theorem sendEvent_ackCallback (site : EmitSite) (m : MessageInfo) :
    (site.sendEvent m).ackCallback = true ↔ site = .sendMsgByP2p := by
  cases site <;> simp [EmitSite.sendEvent]

theorem sendEvent_data (site : EmitSite) (m : MessageInfo) :
    (site.sendEvent m).data = m := by
  cases site <;> rfl

/--
A subscribed listener does its business once, without an exception, for the
events sent with an `AckCallback` whose data is not a `MessageInfo`, and for
no others.
-/
theorem business_once_iff {m : MessageInfo} (hjson : lib.RoundTrips m)
    (site : EmitSite) (representation : Representation) {socket : Socket}
    (hsubscribed :
      (socket.callbacks (site.sendEvent m).name).count .abstractBase = 1) :
    ((socket.receive lib representation (site.sendEvent m)).business = [m] ∧
        (socket.receive lib representation (site.sendEvent m)).thrown = none) ↔
      site = .sendMsgByP2p ∧ representation ≠ .messageInfo := by
  rw [Socket.receive, fire_once _ hsubscribed, eventArgs, sendEvent_data]
  by_cases hsite : site = .sendMsgByP2p
  · rw [if_pos ((sendEvent_ackCallback site m).mpr hsite),
      call_with_ack hjson]
    simp [hsite]
  · rw [if_neg (mt (sendEvent_ackCallback site m).mp hsite), call_without_ack]
    simp [hsite, Outcome.done]

end Receive

/-! ## JSON libraries for texts without escapes -/

def fieldNames : List String :=
  ["sourceClientId", "targetClientId", "msgType", "msgContent"]

def messageFields (m : MessageInfo) : List (String × Option String) :=
  fieldNames.zip [m.sourceClientId, m.targetClientId, m.msgType, m.msgContent]

def messageOf (fields : List (String × Option String)) : MessageInfo :=
  let get name := (fields.lookup name).join
  ⟨get "sourceClientId", get "targetClientId", get "msgType", get "msgContent"⟩

def writeField : String × Option String → String
  | (name, none) => "\x22" ++ name ++ "\x22:null"
  | (name, some value) => "\x22" ++ name ++ "\x22:\x22" ++ value ++ "\x22"

def writeObject (fields : List (String × Option String)) : String :=
  "\x7b" ++ String.intercalate "," (fields.map writeField) ++ "\x7d"

def splitQuotes (piece : List Char) : List Char → List String
  | [] => [String.ofList piece.reverse]
  | c :: rest =>
      if c.toNat = 34 then String.ofList piece.reverse :: splitQuotes [] rest
      else splitQuotes (c :: piece) rest

def readFields : List String → List (String × Option String)
  | _ :: name :: colon :: value :: rest =>
      if colon = ":" then (name, some value) :: readFields rest
      else (name, none) :: readFields (colon :: value :: rest)
  | _ => []

def plainJson : JsonLibraries where
  FastjsonObject := List (String × Option String)
  OrgJsonObject := List (String × Option String)
  toJSON := messageFields
  toJavaObject := messageOf
  decodePacket := messageFields
  toString := writeObject
  parseObject text := messageOf (readFields (splitQuotes [] text.toList))

def bobsHello : MessageInfo :=
  ⟨some "alice", some "bob", none, some "hello"⟩

theorem plainJson_roundTrips : plainJson.RoundTrips bobsHello :=
  ⟨by decide, by decide⟩

def bobsSocket : Socket :=
  ⟨loggedEvents.map (·, .logging) ++ [(endpointP2p, .abstractBase)]⟩

theorem business_once_for_bob :
    initConnect (some ⟨some "http://broker", endpointP2p⟩) = some bobsSocket ∧
      (bobsSocket.receive plainJson .orgJson
        (EmitSite.sendMsgByP2p.sendEvent bobsHello)).business = [bobsHello] ∧
      (bobsSocket.receive plainJson .orgJson
        (EmitSite.sendMsgByP2p.sendEvent bobsHello)).thrown = none :=
  ⟨rfl, (business_once_iff plainJson_roundTrips .sendMsgByP2p .orgJson
    (by decide)).mpr ⟨rfl, nofun⟩⟩

theorem dispatched_message_dropped :
    plainJson.RoundTrips bobsHello ∧
      (bobsSocket.callbacks
        (EmitSite.onClientDispatch.sendEvent bobsHello).name).count
          .abstractBase = 1 ∧
      (bobsSocket.receive plainJson .orgJson
        (EmitSite.onClientDispatch.sendEvent bobsHello)).business = [] :=
  ⟨plainJson_roundTrips, by decide, by decide⟩

end WebIm.Sdk
