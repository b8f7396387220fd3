import Mathlib.Data.List.Infix

/-!
# Texts that arrive in segments

A reader of a stream is handed what has been buffered so far: ever longer
prefixes of the whole text.  A reader that settles at the first buffer with
anything in it never sees the later ones.
-/

namespace WebIm.Foundation

variable {α σ : Type}

/-- The buffers of one arrival, in the order in which they are handed over. -/
structure Segmentation (whole : List α) where
  buffers : List (List α)
  prefixes : ∀ buffer ∈ buffers, buffer <+: whole
  growing : buffers.Pairwise fun earlier later => earlier.length < later.length
  complete : buffers.getLast? = some whole

namespace Segmentation

def first {whole : List α} (segmentation : Segmentation whole) : List α :=
  (segmentation.buffers.find? fun buffer => !buffer.isEmpty).getD []

def atOnce (whole : List α) : Segmentation whole where
  buffers := [whole]
  prefixes := by simp
  growing := by simp
  complete := rfl

variable {whole : List α} (segmentation : Segmentation whole)

theorem find?_first (hwhole : whole ≠ []) :
    (segmentation.buffers.find? fun buffer => !buffer.isEmpty) =
      some segmentation.first := by
  cases hfind : segmentation.buffers.find? fun buffer => !buffer.isEmpty with
  | some buffer => simp [first, hfind]
  | none =>
      have hempty := List.find?_eq_none.mp hfind whole
        (List.mem_of_getLast? segmentation.complete)
      simp [hwhole] at hempty

theorem first_ne_nil (hwhole : whole ≠ []) : segmentation.first ≠ [] := by
  have hfound := List.find?_some (segmentation.find?_first hwhole)
  simpa using hfound

theorem first_prefix (hwhole : whole ≠ []) : segmentation.first <+: whole := by
  apply segmentation.prefixes
  exact List.mem_of_find?_eq_some (segmentation.find?_first hwhole)

end Segmentation

/-! ## Readers that settle -/

section Settles

variable {step : σ → List α → σ}

theorem foldl_of_settled {settled : σ → Prop}
    (hkeep : ∀ state buffer, settled state → step state buffer = state)
    {state : σ} (hstate : settled state) (buffers : List (List α)) :
    buffers.foldl step state = state := by
  induction buffers with
  | nil => rfl
  | cons buffer buffers ih => rw [List.foldl_cons, hkeep _ _ hstate, ih]

/-- What a reader of segments ends with is what its first buffer gave. -/
theorem Segmentation.foldl_eq_first (settled : σ → Prop)
    (hkeep : ∀ state buffer, settled state → step state buffer = state)
    (hnil : ∀ state, step state [] = state)
    (hsettle : ∀ state buffer, buffer ≠ [] → settled (step state buffer))
    {whole : List α} (segmentation : Segmentation whole) (hwhole : whole ≠ [])
    (state : σ) :
    segmentation.buffers.foldl step state = step state segmentation.first := by
  have hfirst := segmentation.find?_first hwhole
  generalize segmentation.first = first at hfirst
  generalize segmentation.buffers = buffers at hfirst
  induction buffers with
  | nil => simp at hfirst
  | cons buffer buffers ih =>
      rw [List.foldl_cons]
      cases buffer with
      | nil =>
          rw [hnil]
          apply ih
          simpa using hfirst
      | cons head tail =>
          have hsame : head :: tail = first := by simpa using hfirst
          subst hsame
          apply foldl_of_settled hkeep
          exact hsettle _ _ (by simp)

end Settles

section Wanted

variable {β : Type} {step : σ → α → σ} (out : σ → β) (settled : σ → Prop)

theorem out_of_settled
    (hkeep : ∀ state a, settled state →
      settled (step state a) ∧ out (step state a) = out state)
    {state : σ} (hstate : settled state) (list : List α) :
    out (list.foldl step state) = out state := by
  induction list generalizing state with
  | nil => rfl
  | cons a list ih =>
      obtain ⟨hnext, hout⟩ := hkeep state a hstate
      rw [List.foldl_cons, ih hnext, hout]

theorem out_foldl_find? (wanted : α → Bool)
    (hkeep : ∀ state a, settled state →
      settled (step state a) ∧ out (step state a) = out state)
    {state : σ} (hwait : ∀ a, wanted a = false → step state a = state)
    (hsettle : ∀ a, wanted a = true → settled (step state a)) (list : List α) :
    out (list.foldl step state) =
      (list.find? wanted).elim (out state) fun a => out (step state a) := by
  induction list with
  | nil => rfl
  | cons a list ih =>
      rw [List.foldl_cons]
      cases hwanted : wanted a with
      | true =>
          rw [List.find?_cons_of_pos hwanted, Option.elim_some]
          exact out_of_settled out settled hkeep (hsettle a hwanted) list
      | false =>
          rw [List.find?_cons_of_neg (by simp [hwanted]), hwait a hwanted]
          exact ih

end Wanted

end WebIm.Foundation
