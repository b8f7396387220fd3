/-!
# Programs with two ways out

A program of `Except` ends with a value or with an early exit.  `Ends` gives
each way its postcondition; there is one rule for each way to build a program.
-/

namespace WebIm.Foundation

variable {ε α β : Type}

/-- The postconditions of a program: of its value, and of its early exit. -/
def Ends (program : Except ε α) (done : α → Prop) (exit : ε → Prop) : Prop :=
  match program with
  | .ok value => done value
  | .error e => exit e

namespace Ends

variable {done mid : α → Prop} {exit : ε → Prop}

theorem ok {value : α} (h : done value) :
    Ends (.ok value : Except ε α) done exit := h

theorem error {e : ε} (h : exit e) :
    Ends (.error e : Except ε α) done exit := h

theorem bind {program : Except ε α} {next : α → Except ε β} {post : β → Prop}
    (h : Ends program mid exit)
    (hnext : ∀ value, mid value → Ends (next value) post exit) :
    Ends (program >>= next) post exit := by
  cases program with
  | error e => exact h
  | ok value => exact hnext value h

theorem mono {program : Except ε α} {done' : α → Prop}
    (h : Ends program done exit) (hdone : ∀ value, done value → done' value) :
    Ends program done' exit := by
  cases program with
  | error e => exact h
  | ok value => exact hdone value h

theorem mono_exit {program : Except ε α} {exit' : ε → Prop}
    (h : Ends program done exit) (hexit : ∀ e, exit e → exit' e) :
    Ends program done exit' := by
  cases program with
  | error e => exact hexit e h
  | ok value => exact h

theorem ite {condition : Prop} [Decidable condition]
    {program alternative : Except ε α}
    (h : condition → Ends program done exit)
    (halternative : ¬ condition → Ends alternative done exit) :
    Ends (if condition then program else alternative) done exit := by
  split
  · exact h ‹_›
  · exact halternative ‹_›

theorem of_ok {program : Except ε α} {value : α}
    (h : Ends program done exit) (hok : program = .ok value) : done value := by
  rw [hok] at h
  exact h

end Ends

theorem bind_eq_ok {program : Except ε α} {next : α → Except ε β} {result : β} :
    program >>= next = .ok result ↔
      ∃ value, program = .ok value ∧ next value = .ok result := by
  cases program with
  | error e => simp [Bind.bind, Except.bind]
  | ok value => simp [Bind.bind, Except.bind]

end WebIm.Foundation
