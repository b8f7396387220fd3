import WebIm.Foundation.Java

/-!
# SiloRunner: the client that archives the broker's messages

The classes of the Silo library keep the fields that the service reads.  What
the library itself does on a call is a parameter, and `none` is a call that
throws.
-/

namespace WebIm.Mqtt

open WebIm.Foundation

structure SysConfig where
  mqttUsername : Option String
  mqttPassword : Option String
  deriving DecidableEq, Repr

structure MyMqttClient where
  connected : Bool
  deriving DecidableEq, Repr

structure Worker where
  queueSize : Nat
  deriving DecidableEq, Repr

structure SimpleDispatcher where
  workerPool : Option (List (Option Worker))
  deriving DecidableEq, Repr

/-- `start` assigns the client before the dispatcher. -/
structure SiloRunner where
  sysConfig : Option SysConfig
  client : Option MyMqttClient
  dispatcher : Option SimpleDispatcher
  clientFirst : dispatcher.isSome = true → client.isSome = true

namespace SiloRunner

def new : SiloRunner := ⟨none, none, none, by simp⟩

structure Library where
  sysConfigGetInstance : Option (Option SysConfig)
  databaseWorkerPoolGetInstance : Option SysConfig → Option Unit
  myMqttClientGetInstance : SysConfig → Option (Option MyMqttClient)
  newSimpleDispatcher : SysConfig → Option SimpleDispatcher
  tryConnecting : MyMqttClient → Option MyMqttClient

/-- A `null` configuration or client is dereferenced further down. -/
def start (library : Library) (runner : SiloRunner) : Option SiloRunner :=
  if runner.client.isNone then do
    -- an exception here is only logged
    let sysConfig := library.sysConfigGetInstance.getD none
    library.databaseWorkerPoolGetInstance sysConfig
    let config ← sysConfig
    let client ← library.myMqttClientGetInstance config
    let dispatcher ← library.newSimpleDispatcher config
    let client ← client
    let client ← library.tryConnecting client
    some ⟨some config, some client, some dispatcher, fun _ => rfl⟩
  else some runner

theorem start_complete {library : Library} {runner : SiloRunner}
    (hstart : start library new = some runner) :
    runner.sysConfig.isSome = true ∧ runner.client.isSome = true ∧
      runner.dispatcher.isSome = true := by
  unfold start at hstart
  rw [if_pos (by rfl)] at hstart
  simp only [Option.bind_eq_bind, Option.bind_eq_some_iff] at hstart
  obtain ⟨_, -, _, -, _, -, _, -, _, -, _, -, hrunner⟩ := hstart
  cases hrunner
  exact ⟨rfl, rfl, rfl⟩

end SiloRunner

end WebIm.Mqtt
