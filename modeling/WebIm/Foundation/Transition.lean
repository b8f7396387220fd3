import Mathlib.Data.List.Basic

/-!
# Deterministic transition systems

A system is an initial state and a partial step function: `step s a` is the
state after the action `a`, and `none` when `a` is not enabled in `s`.  Runs
are lists of actions.  The file gives the two rules the developments over it
use: the invariant rule for reachable states, and the rule that turns a
characterisation of the good steps into a characterisation of the good runs.
-/

namespace WebIm.Foundation

structure TransitionSystem (σ : Type*) (α : Type*) where
  initial : σ
  step : σ → α → Option σ

namespace TransitionSystem

variable {σ α : Type*} (sys : TransitionSystem σ α)

def runFrom : σ → List α → Option σ
  | s, [] => some s
  | s, a :: as => (sys.step s a).bind fun s' => runFrom s' as

def run (as : List α) : Option σ := sys.runFrom sys.initial as

def Reachable (s : σ) : Prop := ∃ as, sys.run as = some s

/-- `P` holds in `s` and in every state that the actions visit from `s`. -/
def Throughout (P : σ → Prop) : σ → List α → Prop
  | s, [] => P s
  | s, a :: as => P s ∧ ∀ s', sys.step s a = some s' → Throughout P s' as

/-- `C` holds of every step taken, as a condition on the state before it. -/
def EveryStep (C : σ → α → Prop) : σ → List α → Prop
  | _, [] => True
  | s, a :: as =>
      ∀ s', sys.step s a = some s' → C s a ∧ EveryStep C s' as

@[simp] theorem runFrom_nil (s : σ) : sys.runFrom s [] = some s := rfl

theorem runFrom_cons {s t : σ} {a : α} {as : List α} :
    sys.runFrom s (a :: as) = some t ↔
      ∃ s', sys.step s a = some s' ∧ sys.runFrom s' as = some t := by
  simp [runFrom, Option.bind_eq_some_iff]

theorem runFrom_append (s : σ) (as bs : List α) :
    sys.runFrom s (as ++ bs) =
      (sys.runFrom s as).bind fun s' => sys.runFrom s' bs := by
  induction as generalizing s with
  | nil => rfl
  | cons a as ih =>
      simp only [List.cons_append, runFrom]
      cases hstep : sys.step s a with
      | none => rfl
      | some s' => simpa using ih s'

variable {sys}

theorem Reachable.initial : sys.Reachable sys.initial := ⟨[], rfl⟩

theorem Reachable.runFrom {s t : σ} {as : List α} (hs : sys.Reachable s)
    (hrun : sys.runFrom s as = some t) : sys.Reachable t := by
  obtain ⟨bs, hbs⟩ := hs
  refine ⟨bs ++ as, ?_⟩
  rw [run, runFrom_append]
  rw [run] at hbs
  rw [hbs]
  exact hrun

theorem Reachable.step {s t : σ} {a : α} (hs : sys.Reachable s)
    (hstep : sys.step s a = some t) : sys.Reachable t := by
  have hrun : sys.runFrom s [a] = some t := by
    simp [TransitionSystem.runFrom, hstep]
  exact hs.runFrom hrun

theorem runFrom_invariant {P : σ → Prop}
    (hstep : ∀ s a s', P s → sys.step s a = some s' → P s')
    {s t : σ} {as : List α} (hs : P s) (hrun : sys.runFrom s as = some t) :
    P t := by
  induction as generalizing s with
  | nil =>
      cases hrun
      exact hs
  | cons a as ih =>
      obtain ⟨s', ha, has⟩ := (sys.runFrom_cons).mp hrun
      exact ih (hstep s a s' hs ha) has

theorem Reachable.invariant {P : σ → Prop} (hinit : P sys.initial)
    (hstep : ∀ s a s', P s → sys.step s a = some s' → P s')
    {s : σ} (hs : sys.Reachable s) : P s := by
  obtain ⟨as, hrun⟩ := hs
  exact runFrom_invariant hstep hinit hrun

/-- A log to which every action adds what the action alone determines. -/
theorem runFrom_log {ω : Type*} {log : σ → List ω} {entry : α → List ω}
    (hlog : ∀ s a s', sys.step s a = some s' → log s' = log s ++ entry a)
    {s t : σ} {as : List α} (hrun : sys.runFrom s as = some t) :
    log t = log s ++ as.flatMap entry := by
  induction as generalizing s with
  | nil =>
      cases hrun
      simp
  | cons a as ih =>
      obtain ⟨s', ha, has⟩ := (sys.runFrom_cons).mp hrun
      rw [ih has, hlog s a s' ha, List.flatMap_cons, List.append_assoc]

theorem runFrom_le_countP {I : σ → Prop} {measure : σ → Nat}
    {counted : α → Bool}
    (hinvariant : ∀ s a s', I s → sys.step s a = some s' → I s')
    (hstep : ∀ s a s', I s → sys.step s a = some s' →
      measure s' ≤ measure s + if counted a then 1 else 0)
    {s t : σ} {as : List α} (hs : I s) (hrun : sys.runFrom s as = some t) :
    measure t ≤ measure s + as.countP counted := by
  induction as generalizing s with
  | nil =>
      cases hrun
      exact Nat.le_add_right _ _
  | cons a as ih =>
      obtain ⟨s', ha, has⟩ := (sys.runFrom_cons).mp hrun
      have hrest := ih (hinvariant s a s' hs ha) has
      have hfirst := hstep s a s' hs ha
      rw [List.countP_cons]
      omega

/-- A rank that no action raises and every counted one lowers. -/
theorem runFrom_countP_le {I : σ → Prop} {rank : σ → Nat} {counted : α → Bool}
    (hinvariant : ∀ s a s', I s → sys.step s a = some s' → I s')
    (hstep : ∀ s a s', I s → sys.step s a = some s' →
      rank s' + (if counted a then 1 else 0) ≤ rank s)
    {s t : σ} {as : List α} (hs : I s) (hrun : sys.runFrom s as = some t) :
    rank t + as.countP counted ≤ rank s := by
  induction as generalizing s with
  | nil =>
      cases hrun
      exact Nat.le_refl _
  | cons a as ih =>
      obtain ⟨s', ha, has⟩ := (sys.runFrom_cons).mp hrun
      have hrest := ih (hinvariant s a s' hs ha) has
      have hfirst := hstep s a s' hs ha
      rw [List.countP_cons]
      omega

theorem Throughout.head {P : σ → Prop} {s : σ} {as : List α}
    (h : sys.Throughout P s as) : P s := by
  cases as with
  | nil => exact h
  | cons a as => exact h.1

theorem Throughout.last {P : σ → Prop} {s t : σ} {as : List α}
    (h : sys.Throughout P s as) (hrun : sys.runFrom s as = some t) : P t := by
  induction as generalizing s with
  | nil =>
      cases hrun
      exact h
  | cons a as ih =>
      obtain ⟨s', ha, has⟩ := (sys.runFrom_cons).mp hrun
      exact ih (h.2 s' ha) has

/--
The invariant rule for a span of a run.  `Q` is carried along by every step
whose two end states satisfy `P`.
-/
theorem Throughout.invariant {P Q : σ → Prop}
    (hstep : ∀ s a s', P s → P s' → Q s → sys.step s a = some s' → Q s')
    {s t : σ} {as : List α} (hP : sys.Throughout P s as) (hQ : Q s)
    (hrun : sys.runFrom s as = some t) : Q t := by
  induction as generalizing s with
  | nil =>
      cases hrun
      exact hQ
  | cons a as ih =>
      obtain ⟨s', ha, has⟩ := (sys.runFrom_cons).mp hrun
      have htail := hP.2 s' ha
      exact ih htail (hstep s a s' hP.1 htail.head hQ ha) has

theorem Throughout.imp_of_invariant {I P Q : σ → Prop}
    (hI : ∀ s a s', I s → sys.step s a = some s' → I s') {s : σ}
    {as : List α} (hP : sys.Throughout P s as) (hIs : I s)
    (himp : ∀ s, I s → P s → Q s) : sys.Throughout Q s as := by
  induction as generalizing s with
  | nil => exact himp s hIs hP
  | cons a as ih =>
      exact ⟨himp s hIs hP.1, fun s' ha => ih (hP.2 s' ha) (hI s a s' hIs ha)⟩

theorem throughout_append {P : σ → Prop} {s : σ} {as bs : List α} :
    sys.Throughout P s (as ++ bs) ↔
      sys.Throughout P s as ∧
        ∀ t, sys.runFrom s as = some t → sys.Throughout P t bs := by
  induction as generalizing s with
  | nil =>
      constructor
      · intro h
        refine ⟨h.head, fun t ht => ?_⟩
        cases ht
        exact h
      · rintro ⟨-, h⟩
        exact h s rfl
  | cons a as ih =>
      constructor
      · rintro ⟨hs, htail⟩
        refine ⟨⟨hs, fun s' ha => (ih.mp (htail s' ha)).1⟩, fun t ht => ?_⟩
        obtain ⟨s', ha, has⟩ := (sys.runFrom_cons).mp ht
        exact (ih.mp (htail s' ha)).2 t has
      · rintro ⟨⟨hs, htail⟩, hrest⟩
        refine ⟨hs, fun s' ha => ih.mpr ⟨htail s' ha, fun t ht => ?_⟩⟩
        exact hrest t ((sys.runFrom_cons).mpr ⟨s', ha, ht⟩)

theorem Throughout.of_last {P : σ → Prop}
    (hback : ∀ s a s', sys.step s a = some s' → P s' → P s) {s t : σ}
    {as : List α} (hrun : sys.runFrom s as = some t) (hP : P t) :
    sys.Throughout P s as := by
  induction as generalizing s with
  | nil =>
      cases hrun
      exact hP
  | cons a as ih =>
      obtain ⟨s', ha, has⟩ := (sys.runFrom_cons).mp hrun
      have htail := ih has
      refine ⟨hback s a s' ha htail.head, fun t ht => ?_⟩
      cases ha.symm.trans ht
      exact htail

theorem exists_completion {F : α → Prop} (work : σ → Nat)
    (hstep : ∀ s, 0 < work s →
      ∃ a s', F a ∧ sys.step s a = some s' ∧ work s' < work s) (s : σ) :
    ∃ as t, (∀ a ∈ as, F a) ∧ sys.runFrom s as = some t ∧ work t = 0 := by
  induction hwork : work s using Nat.strongRecOn generalizing s with
  | ind n ih =>
      cases Nat.eq_zero_or_pos n with
      | inl hzero => exact ⟨[], s, by simp, rfl, hwork.trans hzero⟩
      | inr hpos =>
          obtain ⟨a, s', ha, hs', hless⟩ := hstep s (hwork.symm ▸ hpos)
          obtain ⟨as, t, has, hrun, ht⟩ := ih _ (hwork ▸ hless) s' rfl
          refine ⟨a :: as, t, ?_, (sys.runFrom_cons).mpr ⟨s', hs', hrun⟩, ht⟩
          intro b hb
          cases List.mem_cons.mp hb with
          | inl heq => exact heq ▸ ha
          | inr hmem => exact has b hmem

theorem EveryStep.invariant {C : σ → α → Prop} {Q : σ → Prop}
    (hstep : ∀ s a s', C s a → Q s → sys.step s a = some s' → Q s')
    {s : σ} {as : List α} (hC : sys.EveryStep C s as) (hQ : Q s) :
    sys.Throughout Q s as := by
  induction as generalizing s with
  | nil => exact hQ
  | cons a as ih =>
      refine ⟨hQ, fun s' ha => ?_⟩
      obtain ⟨hCa, hCas⟩ := hC s' ha
      exact ih hCas (hstep s a s' hCa hQ ha)

theorem EveryStep.congr_of_invariant {I : σ → Prop} {C D : σ → α → Prop}
    (hI : ∀ s a s', I s → sys.step s a = some s' → I s')
    (hCD : ∀ s a s', I s → sys.step s a = some s' → (C s a ↔ D s a))
    {s : σ} (as : List α) (hIs : I s) :
    sys.EveryStep C s as ↔ sys.EveryStep D s as := by
  induction as generalizing s with
  | nil => exact Iff.rfl
  | cons a as ih =>
      refine forall_congr' fun s' => forall_congr' fun ha => ?_
      rw [hCD s a s' hIs ha, ih (hI s a s' hIs ha)]

/--
If, under the invariant `I`, a step keeps `P` exactly when it meets `C`, then
a run stays inside `P` exactly when all its steps meet `C`.
-/
theorem throughout_iff_everyStep {I P : σ → Prop} {C : σ → α → Prop}
    (hI : ∀ s a s', I s → sys.step s a = some s' → I s')
    (hPC : ∀ s a s', I s → P s → sys.step s a = some s' → (P s' ↔ C s a))
    {s : σ} (as : List α) (hIs : I s) (hPs : P s) :
    sys.Throughout P s as ↔ sys.EveryStep C s as := by
  induction as generalizing s with
  | nil => exact ⟨fun _ => trivial, fun _ => hPs⟩
  | cons a as ih =>
      constructor
      · rintro ⟨-, htail⟩ s' ha
        have hPs' : P s' := (htail s' ha).head
        exact ⟨(hPC s a s' hIs hPs ha).mp hPs',
          (ih (hI s a s' hIs ha) hPs').mp (htail s' ha)⟩
      · intro hC
        refine ⟨hPs, fun s' ha => ?_⟩
        obtain ⟨hCa, hCas⟩ := hC s' ha
        have hPs' : P s' := (hPC s a s' hIs hPs ha).mpr hCa
        exact (ih (hI s a s' hIs ha) hPs').mpr hCas

instance decidableThroughout {P : σ → Prop} [DecidablePred P] :
    ∀ s as, Decidable (sys.Throughout P s as)
  | s, [] => inferInstanceAs (Decidable (P s))
  | s, a :: as =>
      match h : sys.step s a with
      | none => decidable_of_iff (P s) (by simp [Throughout, h])
      | some s' =>
          have := decidableThroughout (P := P) s' as
          decidable_of_iff (P s ∧ sys.Throughout P s' as)
            (by simp [Throughout, h])

instance decidableEveryStep {C : σ → α → Prop}
    [∀ s a, Decidable (C s a)] : ∀ s as, Decidable (sys.EveryStep C s as)
  | _, [] => isTrue trivial
  | s, a :: as =>
      match h : sys.step s a with
      | none => isTrue fun s' hs' => by simp [h] at hs'
      | some s' =>
          have := decidableEveryStep (C := C) s' as
          decidable_of_iff (C s a ∧ sys.EveryStep C s' as)
            (by simp [EveryStep, h])

end TransitionSystem

end WebIm.Foundation
