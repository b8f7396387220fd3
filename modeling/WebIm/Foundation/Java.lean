import Mathlib.Data.List.Basic

/-!
# Java values the modelled classes share
-/

namespace WebIm.Foundation

/-- `StringUtils.isEmpty`: `null` or the empty string. -/
def isEmpty : Option String → Bool
  | none => true
  | some s => s = ""

inductive JavaException where
  | nullPointerException
  | classCastException
  | arrayIndexOutOfBoundsException
  deriving DecidableEq, Repr

end WebIm.Foundation
