import Mathlib.Data.List.Count
import WebIm.Foundation.Transition
import WebIm.SocketIO.Handler

/-!
# addNs under concurrent connections

`addNs` asks for the namespace, creates it and registers a handler on it in
three calls on the server.  Here connections run it side by side, one call on
the server a step, and each call of `addNs` makes a handler of its own.
-/

namespace WebIm.SocketIO

open WebIm.Foundation

namespace AddNs

/-- A call of `addNs` that found no namespace, before `addListeners`. -/
structure Call where
  id : Nat
  ns : String
  created : Bool
  deriving DecidableEq, Repr

structure Registration where
  ns : String
  handler : Nat
  deriving DecidableEq, Repr

structure State where
  namespaces : List String
  registered : List Registration
  calls : List Call
  started : Nat
  deriving DecidableEq, Repr

inductive Action where
  | getNamespace (client : SocketIOClient)
  | addNamespace (call : Call)
  | addListeners (call : Call)
  deriving DecidableEq, Repr

/-- The namespace that `addNs` asks the server for, when it asks at all. -/
def wantedNs (client : SocketIOClient) : Option String :=
  match client.ns with
  | none => none
  | some ns =>
      if client.namespaceName ≠ ns ∧ ns ≠ "" then some ("/" ++ ns) else none

def missingNs (s : State) (client : SocketIOClient) : Option String :=
  (wantedNs client).filter fun ns => ns ∉ s.namespaces

def step (s : State) : Action → Option State
  | .getNamespace client =>
      some { s with
        calls := s.calls ++
          ((missingNs s client).map fun ns => ⟨s.started, ns, false⟩).toList
        started := s.started + 1 }
  | .addNamespace call =>
      if call ∈ s.calls ∧ call.created = false then
        -- the existing namespace is returned when the name is taken
        some { s with
          namespaces :=
            if call.ns ∈ s.namespaces then s.namespaces
            else s.namespaces ++ [call.ns]
          calls := s.calls.erase call ++ [{ call with created := true }] }
      else none
  | .addListeners call =>
      if call ∈ s.calls ∧ call.created = true then
        some { s with
          registered := s.registered ++ [⟨call.ns, call.id⟩]
          calls := s.calls.erase call }
      else none

def system : TransitionSystem State Action where
  initial := ⟨[defaultName], [], [], 0⟩
  step := step

def handlersOf (s : State) (ns : String) : List Nat :=
  (s.registered.filter (·.ns = ns)).map Registration.handler

def OneHandler (s : State) : Prop := ∀ ns, (handlersOf s ns).length ≤ 1

/-- A call in progress goes on; no further call starts. -/
def Action.finishes : Action → Prop
  | .getNamespace _ => False
  | _ => True

/--
No call finds a namespace missing while another call that found it missing has
yet to create it.
-/
def NoOverlap (s : State) : Action → Prop
  | .getNamespace client =>
      ∀ ns ∈ missingNs s client,
        ∀ call ∈ s.calls, call.ns = ns → call.created = true
  | _ => True

instance (s : State) : (a : Action) → Decidable (NoOverlap s a)
  | .getNamespace client =>
      inferInstanceAs (Decidable (∀ ns ∈ missingNs s client,
        ∀ call ∈ s.calls, call.ns = ns → call.created = true))
  | .addNamespace _ => isTrue trivial
  | .addListeners _ => isTrue trivial

/-! ## Handlers and calls, counted together -/

def total (s : State) (ns : String) : Nat :=
  s.registered.countP (·.ns = ns) + s.calls.countP (·.ns = ns)

theorem length_handlersOf (s : State) (ns : String) :
    (handlersOf s ns).length = s.registered.countP (·.ns = ns) := by
  rw [handlersOf, List.length_map, List.countP_eq_length_filter]

theorem countP_erase {calls : List Call} {call : Call} (h : call ∈ calls)
    (ns : String) :
    calls.countP (·.ns = ns) =
      (calls.erase call).countP (·.ns = ns) +
        if call.ns = ns then 1 else 0 := by
  rw [(List.perm_cons_erase h).countP_eq, List.countP_cons]
  simp

theorem total_getNamespace {s s' : State} {client : SocketIOClient}
    (h : step s (.getNamespace client) = some s') (ns : String) :
    total s' ns =
      total s ns + if missingNs s client = some ns then 1 else 0 := by
  cases h
  unfold total
  cases hmissing : missingNs s client with
  | none => simp
  | some missing =>
      simp only [Option.map_some, Option.toList_some, List.countP_append,
        List.countP_singleton, Option.some.injEq, decide_eq_true_eq]
      omega

theorem total_finishes {s s' : State} {a : Action} (ha : a.finishes)
    (h : step s a = some s') (ns : String) : total s' ns = total s ns := by
  cases a with
  | getNamespace client => exact absurd ha id
  | addNamespace call =>
      simp only [step, Option.ite_none_right_eq_some] at h
      obtain ⟨⟨hcall, -⟩, h⟩ := h
      cases h
      simp only [total, List.countP_append, List.countP_singleton,
        decide_eq_true_eq, countP_erase hcall ns]
  | addListeners call =>
      simp only [step, Option.ite_none_right_eq_some] at h
      obtain ⟨⟨hcall, -⟩, h⟩ := h
      cases h
      simp only [total, List.countP_append, List.countP_singleton,
        decide_eq_true_eq, countP_erase hcall ns]
      omega

theorem total_mono {s s' : State} {a : Action} (h : step s a = some s')
    (ns : String) : total s ns ≤ total s' ns := by
  cases a with
  | getNamespace client =>
      rw [total_getNamespace h]
      omega
  | addNamespace call =>
      exact Nat.le_of_eq
        (total_finishes (a := .addNamespace call) trivial h ns).symm
  | addListeners call =>
      exact Nat.le_of_eq
        (total_finishes (a := .addListeners call) trivial h ns).symm

/-! ## At most one call goes on for each namespace -/

structure Known (s : State) : Prop where
  registered : ∀ r ∈ s.registered, r.ns ∈ s.namespaces
  created : ∀ call ∈ s.calls, call.created = true → call.ns ∈ s.namespaces

theorem known_step {s s' : State} {a : Action} (hs : Known s)
    (h : step s a = some s') : Known s' := by
  cases a with
  | getNamespace client =>
      cases h
      constructor
      · exact hs.registered
      · intro call hcall hcreated
        simp only [List.mem_append, Option.mem_toList,
          Option.map_eq_some_iff] at hcall
        rcases hcall with hcall | ⟨ns, -, rfl⟩
        · exact hs.created call hcall hcreated
        · cases hcreated
  | addNamespace call =>
      simp only [step, Option.ite_none_right_eq_some] at h
      obtain ⟨⟨hcall, -⟩, h⟩ := h
      cases h
      have hgrow : ∀ ns, ns ∈ s.namespaces ∨ ns = call.ns → ns ∈
          if call.ns ∈ s.namespaces then s.namespaces
          else s.namespaces ++ [call.ns] := by
        intro ns hns
        split
        · rename_i htaken
          cases hns with
          | inl hns => exact hns
          | inr heq => exact heq ▸ htaken
        · simpa using hns
      constructor
      · intro r hr
        exact hgrow _ (Or.inl (hs.registered r hr))
      · intro other hother hcreated
        cases List.mem_append.mp hother with
        | inl hold =>
            apply hgrow
            exact Or.inl (hs.created other (List.mem_of_mem_erase hold) hcreated)
        | inr hnew =>
            apply hgrow
            rw [List.mem_singleton.mp hnew]
            exact Or.inr rfl
  | addListeners call =>
      simp only [step, Option.ite_none_right_eq_some] at h
      obtain ⟨⟨hcall, hcreated⟩, h⟩ := h
      cases h
      constructor
      · intro r hr
        cases List.mem_append.mp hr with
        | inl hold => exact hs.registered r hold
        | inr hnew =>
            rw [List.mem_singleton.mp hnew]
            exact hs.created call hcall hcreated
      · intro other hother
        exact hs.created other (List.mem_of_mem_erase hother)

def Single (s : State) : Prop := ∀ ns, total s ns ≤ 1

theorem total_eq_zero_iff {s : State} (hs : Known s) {ns : String}
    (hns : ns ∉ s.namespaces) :
    total s ns = 0 ↔ ∀ call ∈ s.calls, call.ns = ns → call.created = true := by
  rw [total, Nat.add_eq_zero_iff, List.countP_eq_zero, List.countP_eq_zero]
  simp only [decide_eq_true_eq]
  constructor
  · rintro ⟨-, hcalls⟩ call hcall heq
    exact absurd heq (hcalls call hcall)
  · intro hcreated
    constructor
    · rintro r hr rfl
      exact hns (hs.registered r hr)
    · rintro call hcall rfl
      exact hns (hs.created call hcall (hcreated call hcall rfl))

theorem single_step_iff {s s' : State} {a : Action} (hs : Known s)
    (hsingle : Single s) (h : step s a = some s') :
    Single s' ↔ NoOverlap s a := by
  have hkeep : a.finishes → Single s' := by
    intro ha ns
    rw [total_finishes ha h]
    exact hsingle ns
  cases a with
  | addNamespace call => exact iff_of_true (hkeep trivial) trivial
  | addListeners call => exact iff_of_true (hkeep trivial) trivial
  | getNamespace client =>
      constructor
      · intro hs' ns hmissing
        have htotal := hs' ns
        rw [Option.mem_def] at hmissing
        rw [total_getNamespace h, if_pos hmissing] at htotal
        have hfree := (Option.filter_eq_some_iff.mp hmissing).2
        exact (total_eq_zero_iff hs (of_decide_eq_true hfree)).mp (by omega)
      · intro hno ns
        rw [total_getNamespace h]
        split
        · rename_i hmissing
          have hfree := (Option.filter_eq_some_iff.mp hmissing).2
          have hzero := (total_eq_zero_iff hs (of_decide_eq_true hfree)).mpr
            (hno ns hmissing)
          omega
        · exact hsingle ns

theorem throughout_single_iff (as : List Action) :
    system.Throughout Single system.initial as ↔
      system.EveryStep NoOverlap system.initial as := by
  apply TransitionSystem.throughout_iff_everyStep
  · exact fun s a s' hs h => known_step hs h
  · exact fun s a s' hs hsingle h => single_step_iff hs hsingle h
  · constructor <;> simp [system]
  · intro ns
    simp [system, total]

/-! ## Calls run to their end -/

def work (s : State) : Nat :=
  s.calls.length + s.calls.countP (·.created = false)

theorem work_step {s : State} (h : 0 < work s) :
    ∃ a s', Action.finishes a ∧ step s a = some s' ∧ work s' < work s := by
  cases hcalls : s.calls with
  | nil => simp [work, hcalls] at h
  | cons call calls =>
      have hmem : call ∈ s.calls := by simp [hcalls]
      cases hcreated : call.created with
      | false =>
          refine ⟨.addNamespace call, _, trivial,
            if_pos ⟨hmem, hcreated⟩, ?_⟩
          simp [work, hcalls, hcreated, List.countP_append]
      | true =>
          refine ⟨.addListeners call, _, trivial,
            if_pos ⟨hmem, hcreated⟩, ?_⟩
          simp [work, hcalls, hcreated]

theorem total_of_runFrom {s t : State} {as : List Action}
    (has : ∀ a ∈ as, a.finishes) (hrun : system.runFrom s as = some t)
    (ns : String) : total t ns = total s ns := by
  induction as generalizing s with
  | nil =>
      cases hrun
      rfl
  | cons a as ih =>
      obtain ⟨s', ha, hrest⟩ := (system.runFrom_cons).mp hrun
      rw [ih (fun b hb => has b (List.mem_cons_of_mem _ hb)) hrest]
      exact total_finishes (has a List.mem_cons_self) ha ns

theorem throughout_single_of_finishes {s : State} (hs : Single s)
    {rest : List Action} (hrest : ∀ a ∈ rest, a.finishes) :
    system.Throughout Single s rest := by
  induction rest generalizing s with
  | nil => exact hs
  | cons a rest ih =>
      refine ⟨hs, fun s' ha => ?_⟩
      apply ih
      · intro ns
        rw [total_finishes (hrest a List.mem_cons_self) ha]
        exact hs ns
      · exact fun b hb => hrest b (List.mem_cons_of_mem _ hb)

theorem length_handlersOf_le (s : State) (ns : String) :
    (handlersOf s ns).length ≤ total s ns := by
  rw [length_handlersOf, total]
  omega

/--
In a run and everything its calls still lead to, no namespace has two handlers
exactly when no two calls of `addNs` ever overlap on a missing namespace.
-/
theorem oneHandler_iff {as : List Action} {s : State}
    (hrun : system.run as = some s) :
    (∀ rest, (∀ a ∈ rest, Action.finishes a) →
        system.Throughout OneHandler system.initial (as ++ rest)) ↔
      system.EveryStep NoOverlap system.initial as := by
  rw [← throughout_single_iff]
  constructor
  · intro h
    obtain ⟨rest, t, hrest, hfinish, hwork⟩ :=
      system.exists_completion work (fun s hs => work_step hs) s
    have hlast := (TransitionSystem.throughout_append.mp (h rest hrest)).2
      s hrun
    have hhandlers := hlast.last hfinish
    apply TransitionSystem.Throughout.of_last _ hrun
    · intro ns
      have hcalls : t.calls = [] := by
        apply List.length_eq_zero_iff.mp
        unfold work at hwork
        omega
      have hone := hhandlers ns
      rw [length_handlersOf] at hone
      rw [← total_of_runFrom hrest hfinish, total, hcalls]
      simpa using hone
    · intro s a s' hstep hs' ns
      exact Nat.le_trans (total_mono hstep ns) (hs' ns)
  · intro h rest hrest
    have hall : system.Throughout Single system.initial (as ++ rest) := by
      rw [TransitionSystem.throughout_append]
      refine ⟨h, fun t ht => ?_⟩
      exact throughout_single_of_finishes (h.last ht) hrest
    apply hall.imp_of_invariant (fun _ _ _ _ _ => trivial) trivial
    intro s _ hs ns
    exact Nat.le_trans (length_handlersOf_le s ns) (hs ns)

def chatClient (sessionId : UUID) : SocketIOClient :=
  ⟨sessionId, defaultName, ⟨[("ns", "chat")]⟩⟩

def oneAfterTheOther : List Action :=
  [.getNamespace (chatClient 1), .addNamespace ⟨0, "/chat", false⟩,
    .getNamespace (chatClient 2), .addListeners ⟨0, "/chat", true⟩]

theorem oneHandler_oneAfterTheOther :
    system.EveryStep NoOverlap system.initial oneAfterTheOther ∧
      ∀ rest, (∀ a ∈ rest, Action.finishes a) →
        system.Throughout OneHandler system.initial
          (oneAfterTheOther ++ rest) := by
  have hapart : system.EveryStep NoOverlap system.initial oneAfterTheOther := by
    decide
  have hrun : system.run oneAfterTheOther =
      some ⟨["", "/chat"], [⟨"/chat", 0⟩], [], 2⟩ := by decide
  exact ⟨hapart, (oneHandler_iff hrun).mpr hapart⟩

/-! ## One call at a time -/

def Agrees (server : Server) (s : State) : Prop :=
  ∀ name, name ∈ s.namespaces ↔ (server.getNamespace name).isSome

theorem addNs_eq (server : Server) (client : SocketIOClient) :
    BaseAbstractHandler.addNs server client =
      match (wantedNs client).filter fun ns =>
        (server.getNamespace ns).isNone with
      | none => (server, false)
      | some ns => (server.setNamespace ns (.new .new), true) := by
  unfold BaseAbstractHandler.addNs wantedNs
  cases client.ns with
  | none => rfl
  | some ns =>
      by_cases hname : client.namespaceName ≠ ns
      · by_cases hempty : ns ≠ ""
        · simp only [if_pos hname, if_pos hempty,
            if_pos (And.intro hname hempty)]
          cases hget : server.getNamespace ("/" ++ ns) <;>
            simp [Option.filter, hget]
        · simp [hempty]
      · simp [hname]

theorem missingNs_eq {server : Server} {s : State} (h : Agrees server s)
    (client : SocketIOClient) :
    missingNs s client =
      (wantedNs client).filter fun ns => (server.getNamespace ns).isNone := by
  unfold missingNs
  congr 1
  funext ns
  have hns := h ns
  cases hget : server.getNamespace ns <;> simp_all

theorem Agrees.setNamespace {server : Server} {s : State}
    (h : Agrees server s) (ns : String) (namespaces : Namespace)
    {t : State} (ht : t.namespaces = s.namespaces ++ [ns]) :
    Agrees (server.setNamespace ns namespaces) t := by
  intro name
  rw [ht, List.mem_append, List.mem_singleton]
  cases decEq name ns with
  | isTrue heq => simp [heq]
  | isFalse hne => simp [Server.getNamespace_setNamespace_ne _ _ hne, h name, hne]

/-- A call that nothing interrupts does what `addNs` does. -/
theorem addNs_alone {server : Server} {s : State} (hagree : Agrees server s)
    (halone : s.calls = []) (client : SocketIOClient) :
    match missingNs s client with
    | none => BaseAbstractHandler.addNs server client = (server, false)
    | some ns =>
        (BaseAbstractHandler.addNs server client).2 = true ∧
          ∃ t, system.runFrom s [.getNamespace client,
              .addNamespace ⟨s.started, ns, false⟩,
              .addListeners ⟨s.started, ns, true⟩] = some t ∧
            Agrees (BaseAbstractHandler.addNs server client).1 t ∧
            t.registered = s.registered ++ [⟨ns, s.started⟩] ∧
            t.calls = [] := by
  rw [addNs_eq, ← missingNs_eq hagree]
  cases hmissing : missingNs s client with
  | none => rfl
  | some ns =>
      have hfree : ns ∉ s.namespaces :=
        of_decide_eq_true (Option.filter_eq_some_iff.mp hmissing).2
      refine ⟨rfl, ⟨s.namespaces ++ [ns], s.registered ++ [⟨ns, s.started⟩],
        [], s.started + 1⟩, ?_, ?_, rfl, rfl⟩
      · simp [TransitionSystem.runFrom, system, step, hmissing, halone, hfree]
      · exact hagree.setNamespace ns _ rfl

/-! ## Two connections at once -/

def twoAtOnce : List Action :=
  [.getNamespace (chatClient 1), .getNamespace (chatClient 2),
    .addNamespace ⟨0, "/chat", false⟩, .addNamespace ⟨1, "/chat", false⟩,
    .addListeners ⟨0, "/chat", true⟩, .addListeners ⟨1, "/chat", true⟩]

theorem two_handlers_on_chat :
    ∃ s, system.run twoAtOnce = some s ∧ handlersOf s "/chat" = [0, 1] ∧
      ¬ OneHandler s := by
  refine ⟨⟨["", "/chat"], [⟨"/chat", 0⟩, ⟨"/chat", 1⟩], [], 2⟩, by decide,
    by decide, fun hone => ?_⟩
  exact absurd (hone "/chat") (by decide)

end AddNs

end WebIm.SocketIO
