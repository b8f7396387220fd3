import WebIm.Mqtt.SiloRunner

/-!
# MqttController: the authentication endpoint

The broker asks `/mqtt/auth` about a client and lets it in on every status but
an error.  The check of the archive's own credentials is the only one made.
-/

namespace WebIm.Mqtt

/-- The parameters as they arrive; the first value of a name counts. -/
structure HttpServletRequest where
  parameters : List (String × String)
  deriving DecidableEq, Repr

def HttpServletRequest.getParameter (request : HttpServletRequest)
    (name : String) : Option String :=
  request.parameters.lookup name

structure HttpServletResponse where
  status : Nat
  deriving DecidableEq, Repr

def scOk : Nat := 200

def scForbidden : Nat := 403

def OfflineMsgService.checkAuthForSilo (siloRunner : SiloRunner)
    (userName pwd : Option String) : Bool :=
  match userName, pwd, siloRunner.sysConfig with
  | some userName, some pwd, some sysConfig =>
      if sysConfig.mqttUsername = some userName then
        if sysConfig.mqttPassword = some pwd then true else false
      else true
  | _, _, _ => true

/-- `access`, `topic` and `ipaddr` are read for the log only. -/
def MqttController.auth4MQTT (siloRunner : SiloRunner)
    (request : HttpServletRequest) (response : HttpServletResponse) :
    String × HttpServletResponse :=
  let userName := request.getParameter "username"
  let pwd := request.getParameter "password"
  let clientid := request.getParameter "clientid"
  let response :=
    match clientid with
    | some _ =>
        match userName with
        | some _ =>
            if OfflineMsgService.checkAuthForSilo siloRunner userName pwd then
              response
            else { response with status := scForbidden }
        | none => { response with status := scForbidden }
    | none => response
  ("", response)

namespace MqttController

/-- The status of a request that the container hands over with status 200. -/
def authStatus (siloRunner : SiloRunner) (request : HttpServletRequest) : Nat :=
  (auth4MQTT siloRunner request ⟨scOk⟩).2.status

/-- Under the archive's name only the archive's password is let in. -/
def ArchiveGuarded (siloRunner : SiloRunner) (username password : String)
    (request : HttpServletRequest) : Prop :=
  request.getParameter "username" = some username →
    authStatus siloRunner request ≠ scForbidden →
    request.getParameter "password" = some password

instance (siloRunner : SiloRunner) (username password : String)
    (request : HttpServletRequest) :
    Decidable (ArchiveGuarded siloRunner username password request) :=
  inferInstanceAs (Decidable (request.getParameter "username" = some username →
    authStatus siloRunner request ≠ scForbidden →
    request.getParameter "password" = some password))

section Guard

variable {siloRunner : SiloRunner} {username password : String}

theorem checkAuthForSilo_eq_false_iff
    (hconfig : siloRunner.sysConfig = some ⟨some username, some password⟩)
    (userName pwd : Option String) :
    OfflineMsgService.checkAuthForSilo siloRunner userName pwd = false ↔
      userName = some username ∧ pwd.isSome = true ∧ pwd ≠ some password := by
  unfold OfflineMsgService.checkAuthForSilo
  rw [hconfig]
  cases userName with
  | none => simp
  | some userName =>
      cases pwd with
      | none => simp
      | some pwd =>
          by_cases huser : username = userName
          · by_cases hpwd : password = pwd
            · simp [huser, hpwd]
            · simp [huser, hpwd, Ne.symm hpwd]
          · simp [huser, Ne.symm huser]

theorem authStatus_eq_forbidden_iff
    (hconfig : siloRunner.sysConfig = some ⟨some username, some password⟩)
    (request : HttpServletRequest) :
    authStatus siloRunner request = scForbidden ↔
      (request.getParameter "clientid").isSome = true ∧
        (request.getParameter "username" = none ∨
          request.getParameter "username" = some username ∧
            (request.getParameter "password").isSome = true ∧
            request.getParameter "password" ≠ some password) := by
  rw [← checkAuthForSilo_eq_false_iff hconfig]
  unfold authStatus auth4MQTT
  cases request.getParameter "clientid" with
  | none => simp [scOk, scForbidden]
  | some clientid =>
      cases request.getParameter "username" with
      | none => simp
      | some userName =>
          cases hcheck : OfflineMsgService.checkAuthForSilo siloRunner
              (some userName) (request.getParameter "password") with
          | true => simp [hcheck, scOk, scForbidden]
          | false => simp [hcheck]

/--
The archive's name is guarded by its password except where the client
identifier or the password is left out.  Whether the request carries an
`access`, which marks the checks without a password, makes no difference.
-/
theorem archive_is_guarded_iff
    (hconfig : siloRunner.sysConfig = some ⟨some username, some password⟩)
    (request : HttpServletRequest) :
    ArchiveGuarded siloRunner username password request ↔
      request.getParameter "username" ≠ some username ∨
        request.getParameter "password" = some password ∨
        (request.getParameter "clientid").isSome = true ∧
          (request.getParameter "password").isSome = true := by
  unfold ArchiveGuarded
  rw [ne_eq (authStatus siloRunner request),
    authStatus_eq_forbidden_iff hconfig]
  by_cases huser : request.getParameter "username" = some username
  · by_cases hpwd : request.getParameter "password" = some password
    · simp [hpwd]
    · simp [huser, hpwd, Option.isSome_iff_ne_none]
  · simp [huser]

end Guard

def siloAsSilo : SiloRunner :=
  { SiloRunner.new with sysConfig := some ⟨some "silo", some "secret"⟩ }

def guessed : HttpServletRequest :=
  ⟨[("clientid", "dev1"), ("username", "silo"), ("password", "guess")]⟩

theorem guessed_is_refused :
    ArchiveGuarded siloAsSilo "silo" "secret" guessed ∧
      authStatus siloAsSilo guessed = scForbidden := by
  have hconfig : siloAsSilo.sysConfig = some ⟨some "silo", some "secret"⟩ := rfl
  have hguarded := (archive_is_guarded_iff hconfig guessed).mpr
    (.inr (.inr (by decide)))
  exact ⟨hguarded, by decide⟩

/--
The name alone is accepted, and without a client identifier so is the name
with a wrong password.
-/
theorem archive_without_password :
    ¬ ArchiveGuarded siloAsSilo "silo" "secret"
        ⟨[("clientid", "dev1"), ("username", "silo")]⟩ ∧
      ¬ ArchiveGuarded siloAsSilo "silo" "secret"
        ⟨[("username", "silo"), ("password", "guess")]⟩ := by
  decide

end MqttController

end WebIm.Mqtt
