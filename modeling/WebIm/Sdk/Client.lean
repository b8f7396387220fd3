import WebIm.Foundation.ThreadPool
import WebIm.Foundation.Transition
import WebIm.Sdk.Listener

/-!
# AbstractBaseSocketIOClient and MsgSenderAck

A client has one field for its socket and one thread pool for its lifetime.
`sockets` lists what `IO.socket` has returned so far and `acks` the `Ack`
objects made, oldest first; both are referred to by their place in the list.
-/

namespace WebIm.Sdk

open WebIm.Foundation WebIm.SocketIO

/-! ## Acknowledgements -/

/-- `call` looks for objects of `org.json` and passes over everything else. -/
inductive AckArgument (lib : JsonLibraries) where
  | jsonObject (json : lib.OrgJsonObject)
  | other (text : String)

structure MsgSenderAck where
  msg : MessageInfo
  result : FutureTask Bool

namespace MsgSenderAck

def new (msg : MessageInfo) : MsgSenderAck := ⟨msg, .new⟩

/-- `none` is the `RejectedExecutionException` of the pool. -/
def waitAck (executors : ThreadPool Nat) (result : Nat) :
    Option (ThreadPool Nat) :=
  executors.submit result

/-- An exception ends the loop over the arguments. -/
def call {lib : JsonLibraries} (msg : MessageInfo) (result : Nat) :
    List (AckArgument lib) → ThreadPool Nat → Option (ThreadPool Nat)
  | [], executors => some executors
  | .jsonObject json :: args, executors =>
      if msg = lib.parseObject (lib.toString json) then
        (waitAck executors result).bind fun executors =>
          call msg result args executors
      else call msg result args executors
  | .other _ :: args, executors => call msg result args executors

def run (ack : MsgSenderAck) : MsgSenderAck :=
  { ack with result := ack.result.run true }

end MsgSenderAck

/-! ## The client -/

structure OpenedSocket where
  listeners : Socket
  isOpen : Bool

structure Emitted (lib : JsonLibraries) where
  socket : Nat
  endPoint : String
  data : lib.FastjsonObject
  ack : Option Nat

structure AbstractBaseSocketIOClient (lib : JsonLibraries) where
  sockets : List OpenedSocket
  socket : Option Nat
  threadPool : ThreadPool Nat
  acks : List MsgSenderAck
  emitted : List (Emitted lib)

/-- A `Future<Boolean>` that is done, or the `result` of an `Ack`. -/
inductive SendResult where
  | completedFuture (value : Bool)
  | futureTask (ack : Nat)
  deriving DecidableEq, Repr

namespace AbstractBaseSocketIOClient

variable {lib : JsonLibraries}

def new : AbstractBaseSocketIOClient lib := ⟨[], none, .new, [], []⟩

/-- A configuration that gives no socket leaves the field as it was. -/
def assignSocket (this : AbstractBaseSocketIOClient lib) :
    Option Socket → AbstractBaseSocketIOClient lib
  | none => this
  | some socket =>
      { this with
        sockets := this.sockets ++ [⟨socket, false⟩]
        socket := some this.sockets.length }

def setOpen (this : AbstractBaseSocketIOClient lib) (socket : Nat)
    (isOpen : Bool) : AbstractBaseSocketIOClient lib :=
  { this with
    sockets := this.sockets.modify socket fun opened =>
      { opened with isOpen := isOpen } }

def start (this : AbstractBaseSocketIOClient lib)
    (clientConfig : Option SocketIOClientConfig) :
    AbstractBaseSocketIOClient lib × Option JavaException :=
  let this := this.assignSocket (initConnect clientConfig)
  match this.socket with
  | none => (this, some .nullPointerException)
  | some socket => (this.setOpen socket true, none)

theorem start_cases (this : AbstractBaseSocketIOClient lib)
    (clientConfig : Option SocketIOClientConfig) :
    ∃ sockets socket,
      (this.start clientConfig).1 =
        { this with sockets := sockets, socket := socket } ∧
      (socket = none → this.socket = none) ∧
      ((this.start clientConfig).2.isNone = false → socket = none) := by
  unfold start
  cases initConnect clientConfig with
  | none =>
      dsimp only [assignSocket]
      split
      · rename_i hnone
        exact ⟨_, _, rfl, id, fun _ => hnone⟩
      · exact ⟨_, _, rfl, id, nofun⟩
  | some socket => exact ⟨_, _, rfl, nofun, nofun⟩

def stop (this : AbstractBaseSocketIOClient lib) :
    AbstractBaseSocketIOClient lib :=
  let this :=
    match this.socket with
    | none => this
    | some socket => this.setOpen socket false
  if this.threadPool.isShutdown then this
  else { this with threadPool := this.threadPool.shutdown }

theorem stop_eq (this : AbstractBaseSocketIOClient lib) :
    this.stop =
      { this with
        sockets := match this.socket with
          | none => this.sockets
          | some socket => (this.setOpen socket false).sockets
        threadPool := this.threadPool.shutdown } := by
  obtain ⟨sockets, socket, ⟨isShutdown, waiting⟩, acks, emitted⟩ := this
  cases socket with
  | none => cases isShutdown <;> rfl
  | some socket => cases isShutdown <;> rfl

def sendMsg (this : AbstractBaseSocketIOClient lib) (endPoint : String)
    (msg : Option MessageInfo) (isAck : Bool) :
    AbstractBaseSocketIOClient lib × Except JavaException SendResult :=
  match msg with
  | none => (this, .ok (.completedFuture true))
  | some msg =>
      match this.socket with
      | none => (this, .error .nullPointerException)
      | some socket =>
          if isAck then
            let ack := this.acks.length
            ({ this with
                acks := this.acks ++ [.new msg]
                emitted := this.emitted ++
                  [⟨socket, endPoint, lib.toJSON msg, some ack⟩] },
              .ok (.futureTask ack))
          else
            ({ this with
                emitted := this.emitted ++
                  [⟨socket, endPoint, lib.toJSON msg, none⟩] },
              .ok (.completedFuture true))

theorem sendMsg_cases (this : AbstractBaseSocketIOClient lib)
    (endPoint : String) (msg : Option MessageInfo) (isAck : Bool) :
    ∃ acks emitted,
      (this.sendMsg endPoint msg isAck).1 =
        { this with acks := acks, emitted := emitted } ∧
      (acks = this.acks ∨
        this.socket ≠ none ∧ ∃ m, acks = this.acks ++ [.new m]) := by
  unfold sendMsg
  cases msg with
  | none => exact ⟨_, _, rfl, Or.inl rfl⟩
  | some msg =>
      dsimp only
      split
      · exact ⟨_, _, rfl, Or.inl rfl⟩
      · rename_i socket hsocket
        split
        · exact ⟨_, _, rfl, Or.inr ⟨by simp [hsocket], msg, rfl⟩⟩
        · exact ⟨_, _, rfl, Or.inl rfl⟩

def runTask (this : AbstractBaseSocketIOClient lib) (ack : Nat) :
    AbstractBaseSocketIOClient lib :=
  { this with
    threadPool := this.threadPool.take ack
    acks := this.acks.modify ack MsgSenderAck.run }

end AbstractBaseSocketIOClient

/-! ## Runs -/

inductive AckValue (lib : JsonLibraries) where
  | data (m : MessageInfo) (roundTrips : lib.RoundTrips m)
  | json (object : lib.OrgJsonObject)
  | text (s : String)

def AckValue.argument {lib : JsonLibraries} : AckValue lib → AckArgument lib
  | .data m _ => .jsonObject (lib.decodePacket m)
  | .json object => .jsonObject object
  | .text s => .other s

/-- The data equal to the message; foreign objects count as what they read as. -/
def AckValue.carries {lib : JsonLibraries} (msg : MessageInfo) :
    AckValue lib → Bool
  | .data m _ => msg = m
  | .json object => msg = lib.parseObject (lib.toString object)
  | .text _ => false

inductive ClientAction (lib : JsonLibraries) where
  | start
  | stop
  | sendMsg (endPoint : String) (msg : Option MessageInfo) (isAck : Bool)
  | ack (send : Nat) (values : List (AckValue lib))
  | runTask (send : Nat)

/--
Beside the client its history: whether it was started and not stopped since,
the sends that got their message back while it was, and whether handling an
acknowledgement has thrown while it was.
-/
structure ClientState (lib : JsonLibraries) where
  client : AbstractBaseSocketIOClient lib
  started : Bool
  answered : List Nat
  raised : Bool

namespace ClientState

variable {lib : JsonLibraries}

def initial : ClientState lib := ⟨.new, false, [], false⟩

def start (s : ClientState lib) (clientConfig : Option SocketIOClientConfig) :
    ClientState lib :=
  { s with
    client := (s.client.start clientConfig).1
    started := (s.client.start clientConfig).2.isNone }

def stop (s : ClientState lib) : ClientState lib :=
  { s with client := s.client.stop, started := false }

def sendMsg (s : ClientState lib) (endPoint : String)
    (msg : Option MessageInfo) (isAck : Bool) : ClientState lib :=
  { s with client := (s.client.sendMsg endPoint msg isAck).1 }

def deliver (s : ClientState lib) (send : Nat) (ack : MsgSenderAck)
    (values : List (AckValue lib)) : ClientState lib :=
  let s :=
    if s.started && values.any (·.carries ack.msg) then
      { s with answered := s.answered ++ [send] }
    else s
  match MsgSenderAck.call ack.msg send (values.map AckValue.argument)
      s.client.threadPool with
  | some threadPool =>
      { s with client := { s.client with threadPool := threadPool } }
  | none => { s with raised := s.raised || s.started }

def runTask (s : ClientState lib) (send : Nat) : ClientState lib :=
  { s with client := s.client.runTask send }

def step (clientConfig : Option SocketIOClientConfig) (s : ClientState lib) :
    ClientAction lib → Option (ClientState lib)
  | .start => some (s.start clientConfig)
  | .stop => some s.stop
  | .sendMsg endPoint msg isAck => some (s.sendMsg endPoint msg isAck)
  | .ack send values =>
      (s.client.acks[send]?).map fun ack => s.deliver send ack values
  | .runTask send =>
      if send ∈ s.client.threadPool.waiting then some (s.runTask send) else none

def system (lib : JsonLibraries) (clientConfig : Option SocketIOClientConfig) :
    TransitionSystem (ClientState lib) (ClientAction lib) :=
  ⟨initial, step clientConfig⟩

end ClientState

end WebIm.Sdk
