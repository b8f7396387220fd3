import WebIm.Foundation.Transition
import WebIm.SocketIO.Handler

/-!
# NettySocketIOClientBuilder under concurrent calls

`buildClient` looks at a static field, creates a client when it finds none,
and returns what the field holds by then.  The field is volatile and nothing is
locked, so the look, the assignment and the last read are steps of their own.
-/

namespace WebIm.Sdk

open WebIm.Foundation WebIm.SocketIO

/-- An `InnerSocketIOClientConfig` has a `clientType`. -/
structure ClientConfig where
  channel : Option String
  clientType : Option ClientTypeEnum
  deriving DecidableEq, Repr

def InnerSocketIOClientConfig.new (clientType : ClientTypeEnum) :
    ClientConfig :=
  ⟨some clientType.getChannelName, some clientType⟩

inductive ClientClass where
  | innerSocketClient
  | baseSocketClient
  deriving DecidableEq, Repr

/-- Clients and listeners are told apart by numbers. -/
structure NettySocketIOClient where
  object : Nat
  clientClass : ClientClass
  clientId : String
  config : ClientConfig
  listener : Nat
  deriving DecidableEq, Repr

namespace ClientBuilder

structure Call where
  id : Nat
  clientId : String
  config : ClientConfig
  listener : Nat
  deriving DecidableEq, Repr

/-- For a target service, or for the open SDK. -/
def Call.create (call : Call) : NettySocketIOClient :=
  ⟨call.id,
    if call.config.clientType.isSome then .innerSocketClient
    else .baseSocketClient,
    call.clientId, call.config, call.listener⟩

/-- `built` and `returned` are history: the clients created and the answers. -/
structure State where
  client : Option NettySocketIOClient
  creating : List Call
  returning : List Nat
  built : List NettySocketIOClient
  returned : List (Nat × Option NettySocketIOClient)
  started : Nat
  deriving DecidableEq, Repr

inductive Action where
  | buildClient (clientId : Option String) (config : Option ClientConfig)
      (listener : Option Nat)
  | create (call : Call)
  | ret (id : Nat)
  deriving DecidableEq, Repr

def buildClient (s : State) (clientId : Option String)
    (config : Option ClientConfig) (listener : Option Nat) : State :=
  match clientId, config, listener with
  | some clientId, some config, some listener =>
      match s.client with
      | none =>
          { s with
            creating := s.creating ++ [⟨s.started, clientId, config, listener⟩]
            started := s.started + 1 }
      | some _ =>
          { s with
            returning := s.returning ++ [s.started]
            started := s.started + 1 }
  | _, _, _ =>
      { s with
        returned := s.returned ++ [(s.started, none)]
        started := s.started + 1 }

def step (s : State) : Action → Option State
  | .buildClient clientId config listener =>
      some (buildClient s clientId config listener)
  | .create call =>
      if call ∈ s.creating then
        some { s with
          client := some call.create
          creating := s.creating.erase call
          returning := s.returning ++ [call.id]
          built := s.built ++ [call.create] }
      else none
  | .ret id =>
      if id ∈ s.returning then
        some { s with
          returning := s.returning.erase id
          returned := s.returned ++ [(id, s.client)] }
      else none

def system : TransitionSystem State Action where
  initial := ⟨none, [], [], [], [], 0⟩
  step := step

/-- No call finds the field empty while another one is about to assign it. -/
def NoOverlap (s : State) : Action → Prop
  | .buildClient (some _) (some _) (some _) =>
      s.client = none → s.creating = []
  | _ => True

instance (s : State) : (a : Action) → Decidable (NoOverlap s a)
  | .buildClient (some _) (some _) (some _) =>
      inferInstanceAs (Decidable (s.client = none → s.creating = []))
  | .buildClient none _ _ => isTrue trivial
  | .buildClient (some _) none _ => isTrue trivial
  | .buildClient (some _) (some _) none => isTrue trivial
  | .create _ => isTrue trivial
  | .ret _ => isTrue trivial

def Action.refused : Action → Bool
  | .buildClient clientId config listener =>
      clientId.isNone || config.isNone || listener.isNone
  | _ => false

/-! ## What one step does -/

theorem buildClient_cases (s : State) (clientId : Option String)
    (config : Option ClientConfig) (listener : Option Nat) :
    ((Action.buildClient clientId config listener).refused = true ∧
        NoOverlap s (.buildClient clientId config listener) ∧
        buildClient s clientId config listener =
          { s with
            returned := s.returned ++ [(s.started, none)]
            started := s.started + 1 }) ∨
      ((Action.buildClient clientId config listener).refused = false ∧
        (NoOverlap s (.buildClient clientId config listener) ↔
          s.creating = []) ∧
        s.client = none ∧
        ∃ call, buildClient s clientId config listener =
          { s with
            creating := s.creating ++ [call]
            started := s.started + 1 }) ∨
      ((Action.buildClient clientId config listener).refused = false ∧
        NoOverlap s (.buildClient clientId config listener) ∧
        s.client ≠ none ∧
        buildClient s clientId config listener =
          { s with
            returning := s.returning ++ [s.started]
            started := s.started + 1 }) := by
  cases clientId with
  | none => exact Or.inl ⟨rfl, trivial, rfl⟩
  | some clientId =>
      cases config with
      | none => exact Or.inl ⟨rfl, trivial, rfl⟩
      | some config =>
          cases listener with
          | none => exact Or.inl ⟨rfl, trivial, rfl⟩
          | some listener =>
              right
              cases hclient : s.client with
              | none =>
                  refine Or.inl ⟨rfl, ?_, rfl, ?_⟩
                  · simp [NoOverlap, hclient]
                  · refine ⟨⟨s.started, clientId, config, listener⟩, ?_⟩
                    simp only [buildClient, hclient]
              | some client =>
                  refine Or.inr ⟨rfl, ?_, nofun, ?_⟩
                  · simp [NoOverlap, hclient]
                  · simp only [buildClient, hclient]

/-! ## Clients built or about to be -/

def total (s : State) : Nat := s.built.length + s.creating.length

/-- The field holds the client built last, and calls that return have seen it. -/
structure Kept (s : State) : Prop where
  client : s.client = s.built.getLast?
  returning : s.returning ≠ [] → s.client ≠ none
  returned : ∀ answer ∈ s.returned, ∀ client,
    answer.2 = some client → client ∈ s.built

theorem kept_initial : Kept system.initial where
  client := rfl
  returning := nofun
  returned := nofun

theorem kept_step (s : State) (a : Action) (s' : State) (hs : Kept s)
    (h : step s a = some s') : Kept s' := by
  cases a with
  | buildClient clientId config listener =>
      cases h
      obtain ⟨-, -, heq⟩ | ⟨-, -, -, call, heq⟩ | ⟨-, -, hclient, heq⟩ :=
        buildClient_cases s clientId config listener
      · rw [heq]
        refine ⟨hs.client, hs.returning, ?_⟩
        intro answer hanswer client hsome
        cases List.mem_append.mp hanswer with
        | inl hold => exact hs.returned answer hold client hsome
        | inr hnew =>
            rw [List.mem_singleton.mp hnew] at hsome
            cases hsome
      · rw [heq]
        exact ⟨hs.client, hs.returning, hs.returned⟩
      · rw [heq]
        exact ⟨hs.client, fun _ => hclient, hs.returned⟩
  | create call =>
      simp only [step, Option.ite_none_right_eq_some] at h
      obtain ⟨-, h⟩ := h
      cases h
      refine ⟨List.getLast?_concat.symm, fun _ => nofun, ?_⟩
      intro answer hanswer client hsome
      exact List.mem_append_left _ (hs.returned answer hanswer client hsome)
  | ret id =>
      simp only [step, Option.ite_none_right_eq_some] at h
      obtain ⟨hmem, h⟩ := h
      cases h
      refine ⟨hs.client, fun _ => hs.returning (List.ne_nil_of_mem hmem), ?_⟩
      intro answer hanswer client hsome
      cases List.mem_append.mp hanswer with
      | inl hold => exact hs.returned answer hold client hsome
      | inr hnew =>
          rw [List.mem_singleton.mp hnew, hs.client] at hsome
          exact List.mem_of_getLast? hsome

theorem total_create {s : State} {call : Call} (hmem : call ∈ s.creating) :
    (s.built ++ [call.create]).length + (s.creating.erase call).length =
      total s := by
  unfold total
  rw [List.length_append, List.length_singleton, List.length_erase_of_mem hmem]
  have hpos := List.length_pos_of_mem hmem
  omega

theorem total_mono (s : State) (a : Action) (s' : State)
    (h : step s a = some s') : total s ≤ total s' := by
  cases a with
  | buildClient clientId config listener =>
      cases h
      obtain ⟨-, -, heq⟩ | ⟨-, -, -, call, heq⟩ | ⟨-, -, -, heq⟩ :=
        buildClient_cases s clientId config listener
      · rw [heq]
        exact Nat.le_refl _
      · rw [heq]
        simp only [total, List.length_append]
        omega
      · rw [heq]
        exact Nat.le_refl _
  | create call =>
      simp only [step, Option.ite_none_right_eq_some] at h
      obtain ⟨hmem, h⟩ := h
      cases h
      exact Nat.le_of_eq (total_create hmem).symm
  | ret id =>
      simp only [step, Option.ite_none_right_eq_some] at h
      obtain ⟨-, h⟩ := h
      cases h
      exact Nat.le_refl _

theorem total_le_one_iff (s : State) (a : Action) (s' : State) (hs : Kept s)
    (htotal : total s ≤ 1) (h : step s a = some s') :
    total s' ≤ 1 ↔ NoOverlap s a := by
  cases a with
  | buildClient clientId config listener =>
      cases h
      obtain ⟨-, hno, heq⟩ | ⟨-, hno, hnone, call, heq⟩ | ⟨-, hno, -, heq⟩ :=
        buildClient_cases s clientId config listener
      · rw [heq]
        exact iff_of_true htotal hno
      · have hbuilt : s.built = [] :=
          List.getLast?_eq_none_iff.mp (hs.client.symm.trans hnone)
        rw [heq, hno, total, hbuilt, List.length_append, List.length_singleton,
          List.length_nil, ← List.length_eq_zero_iff]
        omega
      · rw [heq]
        exact iff_of_true htotal hno
  | create call =>
      simp only [step, Option.ite_none_right_eq_some] at h
      obtain ⟨hmem, h⟩ := h
      cases h
      apply iff_of_true _ trivial
      exact Nat.le_trans (Nat.le_of_eq (total_create hmem)) htotal
  | ret id =>
      simp only [step, Option.ite_none_right_eq_some] at h
      obtain ⟨-, h⟩ := h
      cases h
      exact iff_of_true htotal trivial

/-! ## Answers -/

def nullAnswers (s : State) : Nat := s.returned.countP (·.2.isNone)

theorem nullAnswers_step (s : State) (a : Action) (s' : State) (hs : Kept s)
    (h : step s a = some s') :
    nullAnswers s' ≤ nullAnswers s + if a.refused then 1 else 0 := by
  cases a with
  | buildClient clientId config listener =>
      cases h
      obtain ⟨hrefused, -, heq⟩ | ⟨-, -, -, call, heq⟩ | ⟨-, -, -, heq⟩ :=
        buildClient_cases s clientId config listener
      · rw [heq, hrefused, nullAnswers, List.countP_append]
        exact Nat.le_refl _
      · rw [heq]
        exact Nat.le_add_right _ _
      · rw [heq]
        exact Nat.le_add_right _ _
  | create call =>
      simp only [step, Option.ite_none_right_eq_some] at h
      obtain ⟨-, h⟩ := h
      cases h
      exact Nat.le_refl _
  | ret id =>
      simp only [step, Option.ite_none_right_eq_some] at h
      obtain ⟨hmem, h⟩ := h
      cases h
      have hclient := hs.returning (List.ne_nil_of_mem hmem)
      cases hget : s.client with
      | none => exact absurd hget hclient
      | some client =>
          rw [nullAnswers, List.countP_append]
          exact Nat.le_refl _

/--
Once all calls have created what they were about to create, there is at most
one client exactly when no two of them overlapped on the empty field.  In any
case a call with its three arguments gets one of the clients built.
-/
theorem one_client_iff (as : List Action) {t : State}
    (hrun : system.run as = some t) (hdone : t.creating = []) :
    (t.built.length ≤ 1 ↔ system.EveryStep NoOverlap system.initial as) ∧
      (∀ answer ∈ t.returned, ∀ client,
        answer.2 = some client → client ∈ t.built) ∧
      t.returned.countP (·.2.isNone) ≤ as.countP Action.refused := by
  have hkept : Kept t :=
    TransitionSystem.runFrom_invariant kept_step kept_initial hrun
  refine ⟨?_, hkept.returned, ?_⟩
  · rw [← TransitionSystem.throughout_iff_everyStep kept_step total_le_one_iff
      as kept_initial (Nat.zero_le 1)]
    have htotal : total t = t.built.length := by
      rw [total, hdone, List.length_nil, Nat.add_zero]
    constructor
    · intro hone
      apply TransitionSystem.Throughout.of_last _ hrun
      · exact Nat.le_trans (Nat.le_of_eq htotal) hone
      · intro s a s' hstep hs'
        exact Nat.le_trans (total_mono s a s' hstep) hs'
    · intro hthroughout
      rw [← htotal]
      exact hthroughout.last hrun
  · have hle := TransitionSystem.runFrom_le_countP kept_step nullAnswers_step
      kept_initial hrun
    exact Nat.le_trans hle (Nat.le_of_eq (Nat.zero_add _))

def serviceConfig : ClientConfig := InnerSocketIOClientConfig.new .targetService

def oneAfterTheOther : List Action :=
  [.buildClient (some "4") (some serviceConfig) (some 0),
    .buildClient none (some serviceConfig) (some 1),
    .create ⟨0, "4", serviceConfig, 0⟩,
    .buildClient (some "5") (some ⟨none, none⟩) (some 2), .ret 2, .ret 0]

theorem one_client_oneAfterTheOther :
    ∃ t, system.run oneAfterTheOther = some t ∧ t.built.length ≤ 1 := by
  have hapart : system.EveryStep NoOverlap system.initial oneAfterTheOther := by
    decide
  have hrun : system.run oneAfterTheOther = some _ := rfl
  exact ⟨_, hrun, (one_client_iff oneAfterTheOther hrun rfl).1.mpr hapart⟩

end ClientBuilder

end WebIm.Sdk
