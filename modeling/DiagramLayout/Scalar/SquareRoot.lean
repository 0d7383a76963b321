/-!
# Integer square roots

`isqrt n` is the largest natural number whose square is at most `n`. It is found two bits of `n` at
a time: the root of `n` is twice the root of `n / 4`, or one more.
-/

namespace DiagramLayout

/-- The integer square root. -/
def isqrt (n : Nat) : Nat :=
  if n < 2 then n
  else
    let low := 2 * isqrt (n / 4)
    if (low + 1) * (low + 1) ≤ n then low + 1 else low
termination_by n

/-- The integer square root is the largest number whose square is at most `n`. -/
theorem isqrt_bounds (n : Nat) :
    isqrt n * isqrt n ≤ n ∧ n < (isqrt n + 1) * (isqrt n + 1) := by
  induction n using Nat.strongRecOn with
  | ind n ih =>
    unfold isqrt
    split
    · rename_i small
      have cases : n = 0 ∨ n = 1 := by omega
      rcases cases with rfl | rfl <;> decide
    · rename_i large
      obtain ⟨below, above⟩ := ih (n / 4) (by omega)
      generalize isqrt (n / 4) = r at below above
      have square : 2 * r * (2 * r) = 4 * (r * r) := by grind
      have next : (2 * r + 1 + 1) * (2 * r + 1 + 1) = 4 * ((r + 1) * (r + 1)) := by grind
      dsimp only
      split
      · rename_i fits
        exact ⟨fits, by omega⟩
      · rename_i misses
        exact ⟨by omega, by omega⟩

end DiagramLayout
