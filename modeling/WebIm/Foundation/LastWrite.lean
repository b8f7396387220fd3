import Mathlib.Data.List.Basic

/-!
# Unconditional writes to a keyed store

An action writes a value to a key, or nothing.  What a sequence of actions
leaves at a key is its last write there, so two orders of the same actions
leave the same store exactly when they end with the same write to each key.
-/

namespace WebIm.Foundation

variable {α K V : Type*} [DecidableEq K] (write : α → Option (K × V))

def applyWrite (store : K → Option V) (a : α) : K → Option V :=
  match write a with
  | none => store
  | some (key, value) => Function.update store key (some value)

def lastWrite (key : K) : List α → Option V
  | [] => none
  | a :: as =>
      (lastWrite key as).or <|
        match write a with
        | none => none
        | some (other, value) => if other = key then some value else none

theorem foldl_applyWrite (store : K → Option V) (as : List α) (key : K) :
    as.foldl (applyWrite write) store key =
      (lastWrite write key as).or (store key) := by
  induction as generalizing store with
  | nil => rfl
  | cons a as ih =>
      rw [List.foldl_cons, ih, lastWrite, Option.or_assoc]
      congr 1
      unfold applyWrite
      cases write a with
      | none => rfl
      | some written =>
          obtain ⟨other, value⟩ := written
          by_cases h : other = key
          · simp [h]
          · simp [h, Ne.symm h]

theorem lastWrite_eq_none_iff (as : List α) (key : K) :
    lastWrite write key as = none ↔
      ∀ a ∈ as, ∀ value, write a ≠ some (key, value) := by
  induction as with
  | nil => simp [lastWrite]
  | cons a as ih =>
      rw [lastWrite, Option.or_eq_none_iff, ih, List.forall_mem_cons, and_comm]
      refine and_congr_left fun _ => ?_
      cases write a with
      | none => simp
      | some written =>
          obtain ⟨other, value⟩ := written
          by_cases h : other = key <;> simp [h]

theorem lastWrite_filter (key : K) (as : List α) :
    lastWrite write key
        (as.filter fun a => (write a).map Prod.fst = some key) =
      lastWrite write key as := by
  induction as with
  | nil => rfl
  | cons a as ih =>
      rw [List.filter_cons, lastWrite]
      by_cases hkey : (write a).map Prod.fst = some key
      · rw [if_pos (decide_eq_true hkey), lastWrite, ih]
      · rw [if_neg (by simpa using hkey), ih]
        cases hwrite : write a with
        | none => exact (Option.or_none).symm
        | some written =>
            obtain ⟨other, value⟩ := written
            have hne : other ≠ key := by
              rintro rfl
              exact hkey (by rw [hwrite]; rfl)
            simp only [if_neg hne, Option.or_none]

theorem isSome_lastWrite_perm {as bs : List α} (h : as.Perm bs) (key : K) :
    (lastWrite write key as).isSome = (lastWrite write key bs).isSome := by
  have hnone : lastWrite write key as = none ↔ lastWrite write key bs = none := by
    rw [lastWrite_eq_none_iff, lastWrite_eq_none_iff]
    exact ⟨fun hall a ha => hall a (h.mem_iff.mpr ha),
      fun hall a ha => hall a (h.mem_iff.mp ha)⟩
  rw [Bool.eq_iff_iff, Option.isSome_iff_ne_none, Option.isSome_iff_ne_none,
    ne_eq, ne_eq, hnone]

/-- Two orders leave the same store exactly when their last writes agree. -/
theorem foldl_applyWrite_perm_iff {as bs : List α} (h : as.Perm bs)
    (store : K → Option V) :
    as.foldl (applyWrite write) store = bs.foldl (applyWrite write) store ↔
      ∀ key, lastWrite write key as = lastWrite write key bs := by
  rw [funext_iff]
  refine forall_congr' fun key => ?_
  rw [foldl_applyWrite, foldl_applyWrite]
  have hsome := isSome_lastWrite_perm write h key
  cases has : lastWrite write key as with
  | none =>
      cases hbs : lastWrite write key bs with
      | none => simp
      | some value => simp [has, hbs] at hsome
  | some value =>
      cases hbs : lastWrite write key bs with
      | none => simp [has, hbs] at hsome
      | some other => simp

end WebIm.Foundation
