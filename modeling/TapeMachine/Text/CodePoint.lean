/-!
Characters by their code points. Surrogates, and numbers past the last code point, are the codes of
no character.
-/

namespace TapeMachine.Text

/-- The character with a code point. -/
def charOfCode? (n : Nat) : Option Char :=
  if n.isValidChar then some (Char.ofNat n) else none

theorem charOfCode?_isSome_iff {n : Nat} : (charOfCode? n).isSome ↔ n.isValidChar := by
  unfold charOfCode?
  split <;> simp_all

end TapeMachine.Text
