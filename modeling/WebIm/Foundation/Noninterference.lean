import Mathlib.Data.List.Forall2
import WebIm.Foundation.Transition

/-!
# Noninterference of runs

An observer sees `out s a` of the step that takes `a` in `s`.  Two lists of
actions are `same`-related when they agree, position by position, up to what
the observer must not learn.  Where related actions lead to equivalent states,
and equivalent states show the same, a run reveals nothing exactly when none of
its steps does.

An observer who sees nothing of some actions learns nothing from their being
there: a run without them ends in an equivalent state.
-/

namespace WebIm.Foundation

namespace TransitionSystem

variable {σ α ω : Type*} (sys : TransitionSystem σ α) (out : σ → α → List ω)

/-- Everything the observer sees of the steps that `as` takes from a state. -/
def observe : σ → List α → List ω
  | _, [] => []
  | s, a :: as => (sys.step s a).elim [] fun s' => out s a ++ observe s' as

theorem observe_cons {s s' : σ} {a : α} (as : List α)
    (hstep : sys.step s a = some s') :
    sys.observe out s (a :: as) = out s a ++ sys.observe out s' as := by
  simp [observe, hstep]

theorem log_eq_observe {log : σ → List ω}
    (hlog : ∀ s a s', sys.step s a = some s' → log s' = log s ++ out s a)
    {s t : σ} {as : List α} (hrun : sys.runFrom s as = some t) :
    log t = log s ++ sys.observe out s as := by
  induction as generalizing s with
  | nil =>
      cases hrun
      simp [observe]
  | cons a as ih =>
      obtain ⟨s', hstep, htail⟩ := (sys.runFrom_cons).mp hrun
      rw [ih htail, hlog s a s' hstep, sys.observe_cons out as hstep,
        List.append_assoc]

variable {same : α → α → Prop} {equiv : σ → σ → Prop}

section Unwinding

variable
  (hrefl : ∀ a, same a a)
  (hstep : ∀ s s' a a' t, equiv s s' → same a a' → sys.step s a = some t →
    ∃ t', sys.step s' a' = some t' ∧ equiv t t')
  (hout : ∀ s s' a, equiv s s' → out s a = out s' a)

include hrefl hstep hout in
theorem observe_congr {s s' t : σ} {as : List α} (hequiv : equiv s s')
    (hrun : sys.runFrom s as = some t) :
    sys.observe out s' as = sys.observe out s as := by
  induction as generalizing s s' with
  | nil => rfl
  | cons a as ih =>
      obtain ⟨u, hu, htail⟩ := (sys.runFrom_cons).mp hrun
      obtain ⟨u', hu', hequiv'⟩ := hstep s s' a a u hequiv (hrefl a) hu
      rw [sys.observe_cons out as hu, sys.observe_cons out as hu',
        ih hequiv' htail, hout s s' a hequiv]

include hstep in
theorem runFrom_of_same {s s' t : σ} {as as' : List α} (hequiv : equiv s s')
    (hsame : List.Forall₂ same as as') (hrun : sys.runFrom s as = some t) :
    ∃ t', sys.runFrom s' as' = some t' := by
  induction hsame generalizing s s' with
  | nil => exact ⟨s', rfl⟩
  | cons ha _ ih =>
      obtain ⟨u, hu, htail⟩ := (sys.runFrom_cons).mp hrun
      obtain ⟨u', hu', hequiv'⟩ := hstep s s' _ _ u hequiv ha hu
      obtain ⟨t', ht'⟩ := ih hequiv' htail
      exact ⟨t', (sys.runFrom_cons).mpr ⟨u', hu', ht'⟩⟩

include hrefl hstep hout in
theorem noninterferent_iff_everyStep (hequiv : ∀ s, equiv s s) {s t : σ}
    {as : List α} (hrun : sys.runFrom s as = some t) :
    (∀ as', List.Forall₂ same as as' →
        sys.observe out s as' = sys.observe out s as) ↔
      sys.EveryStep (fun s a => ∀ a', same a a' → out s a' = out s a) s as := by
  induction as generalizing s with
  | nil =>
      constructor
      · exact fun _ => trivial
      · rintro - as' hsame
        cases hsame
        rfl
  | cons a as ih =>
      obtain ⟨u, hu, htail⟩ := (sys.runFrom_cons).mp hrun
      constructor
      · intro hall s' hs'
        obtain rfl : u = s' := Option.some.inj (hu.symm.trans hs')
        constructor
        · -- vary the first action only
          intro a' ha'
          obtain ⟨u', hu', hequiv'⟩ := hstep s s a a' u (hequiv s) ha' hu
          have hvaried := hall (a' :: as) (.cons ha' (List.forall₂_same.mpr
            fun b _ => hrefl b))
          rw [sys.observe_cons out as hu, sys.observe_cons out as hu',
            sys.observe_congr out hrefl hstep hout hequiv' htail] at hvaried
          exact List.append_cancel_right hvaried
        · -- keep the first action
          refine (ih htail).mp fun as' hsame => ?_
          have hvaried := hall (a :: as') (.cons (hrefl a) hsame)
          rw [sys.observe_cons out as hu, sys.observe_cons out as' hu]
            at hvaried
          exact List.append_cancel_left hvaried
      · intro hevery as' hsame
        obtain ⟨hfirst, hrest⟩ := hevery u hu
        cases hsame with
        | @cons _ a' _ as'' ha hsame =>
            obtain ⟨u', hu', hequiv'⟩ := hstep s s a a' u (hequiv s) ha hu
            obtain ⟨v, hv⟩ :=
              sys.runFrom_of_same hstep (hequiv u) hsame htail
            rw [sys.observe_cons out as hu, sys.observe_cons out as'' hu',
              hfirst a' ha, sys.observe_congr out hrefl hstep hout hequiv' hv,
              (ih htail).mpr hrest as'' hsame]

end Unwinding

/-! ## Actions taken out of a run -/

section Purge

variable {keep : α → Bool}
  (hkept : ∀ s s' a t, equiv s s' → keep a = true → sys.step s a = some t →
    ∃ t', sys.step s' a = some t' ∧ equiv t t')
  (hdropped : ∀ s s' a t, equiv s s' → keep a = false →
    sys.step s a = some t → equiv t s')

include hkept hdropped in
theorem runFrom_filter {s s' t : σ} {as : List α} (hequiv : equiv s s')
    (hrun : sys.runFrom s as = some t) :
    ∃ t', sys.runFrom s' (as.filter keep) = some t' ∧ equiv t t' := by
  induction as generalizing s s' with
  | nil =>
      cases hrun
      exact ⟨s', rfl, hequiv⟩
  | cons a as ih =>
      obtain ⟨u, hu, htail⟩ := (sys.runFrom_cons).mp hrun
      cases hkeep : keep a with
      | true =>
          obtain ⟨u', hu', hequiv'⟩ := hkept s s' a u hequiv hkeep hu
          obtain ⟨t', ht', hend⟩ := ih hequiv' htail
          rw [List.filter_cons_of_pos hkeep]
          exact ⟨t', (sys.runFrom_cons).mpr ⟨u', hu', ht'⟩, hend⟩
      | false =>
          rw [List.filter_cons_of_neg (by simp [hkeep])]
          exact ih (hdropped s s' a u hequiv hkeep hu) htail

end Purge

end TransitionSystem

end WebIm.Foundation
