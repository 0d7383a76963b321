import Mathlib
import DiagramLayout.Guarded
import DiagramLayout.Scalar.Exact

/-!
# Exact numbers are an ordered field

Over rational numbers nothing is outside the order, so the operations of `Scalar` are those of an
ordered field: `Scalar.max` is `max`, no number is skipped and every number is below infinity. The
folds that search a list are given by what they find: `Scalar.maxFrom` bounds the list from above,
`Scalar.cheapestBy` takes an element that no other undercuts, and `Scalar.leastBy` the first one of
those.

A hypotenuse is never overestimated (`Scalar.hypot_mul_self_le`), and it is exact if its length is
rational (`Scalar.hypot_eq_of_mul_self`), as it is over a leg of length zero. That is all that
axis-parallel lines need.
-/

namespace DiagramLayout

namespace Scalar

/-! ## Numbers -/

/-- Counting numbers are the rational numbers of the same value. -/
@[simp] lemma num_exact (n : ℕ) : (num n : ℚ) = n := rfl

/-- Every rational number is a number. -/
@[simp] lemma isNaN_exact (x : ℚ) : isNaN x = false := by
  simp [isNaN]

/-- A rational number is a zero only if it is the number zero. -/
lemma isZero_exact (x : ℚ) : isZero x = true ↔ x = 0 := by
  have hle : isZero x = true ↔ x ≤ 0 ∧ 0 ≤ x := by
    simp only [isZero, Bool.and_eq_true, decide_eq_true_eq]
  rw [hle]
  exact le_antisymm_iff.symm

/-- Every rational number is finite. -/
@[simp] lemma isFinite_exact (x : ℚ) : isFinite x = true := by
  rw [isFinite, isZero_exact]
  exact sub_self x

/-- Every rational number is below infinity. -/
@[simp] lemma isBelowInfinity_exact (x : ℚ) : isBelowInfinity x = true := by
  simp [isBelowInfinity]

/-- The larger of two rational numbers is their maximum. -/
@[simp] lemma max_exact (a b : ℚ) : Scalar.max a b = max a b := by
  by_cases hab : a < b
  · simp [Scalar.max, hab, max_eq_right hab.le]
  · simp [Scalar.max, hab, max_eq_left (not_lt.mp hab)]

/-- The smaller of two rational numbers is their minimum. -/
@[simp] lemma min_exact (a b : ℚ) : Scalar.min a b = min a b := by
  by_cases hba : b < a
  · simp [Scalar.min, hba, min_eq_right hba.le]
  · simp [Scalar.min, hba, min_eq_left (not_lt.mp hba)]

/-- The distance of a rational number from zero is its absolute value. -/
@[simp] lemma abs_exact (x : ℚ) : Scalar.abs x = |x| := by
  change (if x < 0 then -x else x) = |x|
  split_ifs with hx
  · exact (abs_of_neg hx).symm
  · exact (abs_of_nonneg (not_lt.mp hx)).symm

/-! ## Roots -/

/-- The integer square root is the one of the library. -/
lemma isqrt_eq_sqrt (n : ℕ) : isqrt n = n.sqrt :=
  Nat.eq_sqrt.mpr (isqrt_bounds n)

/-- The root of a number that is not negative is at most its square root. -/
theorem root_mul_self_le {x : ℚ} (hx : 0 ≤ x) : Exact.root x * Exact.root x ≤ x := by
  have hden : (0 : ℚ) < x.den := by exact_mod_cast x.den_pos
  have hproduct : 0 ≤ x.num * x.den := mul_nonneg (Rat.num_nonneg.mpr hx) (Int.natCast_nonneg _)
  have hsquare : (isqrt (x.num * x.den).toNat : ℚ) * isqrt (x.num * x.den).toNat ≤
      x.num * x.den := by
    have hbelow := Nat.cast_le (α := ℤ).mpr (isqrt_bounds (x.num * x.den).toNat).1
    rw [Int.toNat_of_nonneg hproduct] at hbelow
    exact_mod_cast hbelow
  calc Exact.root x * Exact.root x
      = (isqrt (x.num * x.den).toNat : ℚ) * isqrt (x.num * x.den).toNat / (x.den * x.den) :=
        div_mul_div_comm _ _ _ _
    _ ≤ x.num * x.den / (x.den * x.den) := by gcongr
    _ = x.num / x.den := mul_div_mul_right _ _ hden.ne'
    _ = x := Rat.num_div_den x

/-- The root of a square is exact. -/
theorem root_mul_self (y : ℚ) : Exact.root (y * y) = |y| := by
  have hden : (y.den : ℚ) ≠ 0 := by exact_mod_cast y.den_ne_zero
  -- a square is in lowest terms if its root is
  have hproduct : ((y * y).num * (y * y).den).toNat =
      y.num.natAbs * y.den * (y.num.natAbs * y.den) := by
    rw [Rat.mul_self_num, Rat.mul_self_den, ← Int.natAbs_mul_self' y.num]
    norm_cast
    ring
  have hroot : isqrt ((y * y).num * (y * y).den).toNat = y.num.natAbs * y.den := by
    rw [isqrt_eq_sqrt, hproduct, Nat.sqrt_eq]
  calc Exact.root (y * y)
      = (y.num.natAbs * y.den : ℕ) / ((y.den * y.den : ℕ) : ℚ) := by
        rw [Exact.root, hroot, Rat.mul_self_den]
    _ = y.num.natAbs / y.den := by
        push_cast
        exact mul_div_mul_right _ _ hden
    _ = |y| := by
        rw [Rat.abs_def, Rat.divInt_eq_div]
        norm_cast

/-! ## Hypotenuses -/

/-- A hypotenuse is the other leg if a leg has no length, and a root otherwise. -/
lemma hypot_cases (x y : ℚ) :
    y = 0 ∧ hypot x y = |x| ∨ x = 0 ∧ hypot x y = |y| ∨ hypot x y = Exact.root (x * x + y * y) := by
  have hlegs : hypot x y =
      if y = 0 then Exact.abs x else if x = 0 then Exact.abs y else Exact.root (x * x + y * y) :=
    rfl
  rw [hlegs]
  split_ifs with hy hx
  · exact Or.inl ⟨hy, abs_exact x⟩
  · exact Or.inr (Or.inl ⟨hx, abs_exact y⟩)
  · exact Or.inr (Or.inr rfl)

/-- A hypotenuse is not overestimated. -/
theorem hypot_mul_self_le (x y : ℚ) : hypot x y * hypot x y ≤ x * x + y * y := by
  rcases hypot_cases x y with ⟨rfl, h⟩ | ⟨rfl, h⟩ | h
  · simp [h]
  · simp [h]
  · rw [h]
    exact root_mul_self_le (add_nonneg (mul_self_nonneg x) (mul_self_nonneg y))

/-- A hypotenuse of rational length is exact. -/
theorem hypot_eq_of_mul_self {x y z : ℚ} (h : x * x + y * y = z * z) : hypot x y = |z| := by
  rcases hypot_cases x y with ⟨rfl, hlength⟩ | ⟨rfl, hlength⟩ | hlength
  · rw [mul_zero, add_zero] at h
    rw [hlength, abs_eq_abs]
    exact mul_self_eq_mul_self_iff.mp h
  · rw [mul_zero, zero_add] at h
    rw [hlength, abs_eq_abs]
    exact mul_self_eq_mul_self_iff.mp h
  · rw [hlength, h, root_mul_self]

/-- A hypotenuse over no height is as long as its base. -/
lemma hypot_zero_right (x : ℚ) : hypot x (0 : ℚ) = |x| :=
  hypot_eq_of_mul_self (by ring)

/-- A hypotenuse over no base is as long as its height. -/
lemma hypot_zero_left (y : ℚ) : hypot (0 : ℚ) y = |y| :=
  hypot_eq_of_mul_self (by ring)

/-! ## Folds over lists -/

/-- Sums of rational numbers are sums of lists. -/
@[simp] lemma sum_exact (xs : List ℚ) : sum xs = xs.sum := by
  rw [List.sum_eq_foldl]
  rfl

/-- The largest number of a list is at least its lower bound. -/
lemma le_maxFrom (low : ℚ) (xs : List ℚ) : low ≤ maxFrom low xs := by
  induction xs generalizing low with
  | nil => exact le_rfl
  | cons x xs ih =>
    rw [maxFrom_cons, max_exact]
    exact (le_max_left low x).trans (ih (max low x))

/-- No number of a list is above the largest. -/
lemma le_maxFrom_of_mem {low x : ℚ} {xs : List ℚ} (hx : x ∈ xs) : x ≤ maxFrom low xs := by
  induction xs generalizing low with
  | nil => cases hx
  | cons y ys ih =>
    rw [maxFrom_cons, max_exact]
    rcases List.mem_cons.mp hx with rfl | hmem
    · exact (le_max_right low x).trans (le_maxFrom _ ys)
    · exact ih hmem

section Cheapest

variable {β : Type} (cost : β → ℚ)

/-- Comparing with one more element keeps the cheaper one. -/
lemma cheaper_exact (best : Option (β × ℚ)) (x : β) :
    cheaper cost best x =
      match best with
      | none => some (x, cost x)
      | some (y, c) => if cost x < c then some (x, cost x) else some (y, c) := by
  rcases best with _ | ⟨y, c⟩
  · simp [cheaper]
  · rfl

/-- Having started from an element of known cost, the search ends with one that is at most as
expensive as it and as all others. -/
lemma exists_foldl_cheaper (xs : List β) (y : β) :
    ∃ x, xs.foldl (cheaper cost) (some (y, cost y)) = some (x, cost x) ∧
      (x = y ∨ x ∈ xs) ∧ cost x ≤ cost y ∧ ∀ z ∈ xs, cost x ≤ cost z := by
  induction xs generalizing y with
  | nil => exact ⟨y, rfl, Or.inl rfl, le_rfl, by simp⟩
  | cons z zs ih =>
    rw [List.foldl_cons, cheaper_exact]
    by_cases hzy : cost z < cost y
    · obtain ⟨x, hx, hmem, hle, hall⟩ := ih z
      refine ⟨x, by simpa [hzy] using hx, ?_, hle.trans hzy.le, ?_⟩
      · rcases hmem with rfl | hmem
        · exact Or.inr List.mem_cons_self
        · exact Or.inr (List.mem_cons_of_mem _ hmem)
      · simpa using ⟨hle, hall⟩
    · obtain ⟨x, hx, hmem, hle, hall⟩ := ih y
      refine ⟨x, by simpa [hzy] using hx, hmem.imp_right (List.mem_cons_of_mem _), hle, ?_⟩
      simpa using ⟨hle.trans (not_lt.mp hzy), hall⟩

/-- A list that is not empty has a cheapest element, and no element undercuts it. -/
theorem exists_cheapestBy {xs : List β} (hxs : xs ≠ []) :
    ∃ x ∈ xs, cheapestBy cost xs = some x ∧ ∀ z ∈ xs, cost x ≤ cost z := by
  obtain ⟨y, ys, rfl⟩ := List.exists_cons_of_ne_nil hxs
  obtain ⟨x, hx, hmem, hle, hall⟩ := exists_foldl_cheaper cost ys y
  refine ⟨x, by simpa using hmem, ?_, by simpa using ⟨hle, hall⟩⟩
  rw [cheapestBy, List.foldl_cons, cheaper_exact, hx]
  rfl

/-- Whatever is found in a list is in the list. -/
lemma mem_of_cheapestBy {cost : β → ℚ} {xs : List β} {x : β}
    (hx : cheapestBy cost xs = some x) : x ∈ xs := by
  have hxs : xs ≠ [] := by
    rintro rfl
    cases hx
  obtain ⟨y, hmem, hy, -⟩ := exists_cheapestBy cost hxs
  rw [hx, Option.some.injEq] at hy
  exact hy ▸ hmem

end Cheapest

section Least

variable {β : Type} (measure : β → ℚ)

/-- A rational number precedes the greater ones. -/
lemma precedes_exact (a b : ℚ) : precedes a b = decide (a < b) := by
  simp [precedes]

/-- Having started from an element, the search ends with the first one of the least measure. -/
lemma foldl_precedes (x : β) (xs : List β) :
    ∃ before y after, x :: xs = before ++ y :: after ∧
      xs.foldl (fun best z => if precedes (measure z) (measure best) then z else best) x = y ∧
      (∀ z ∈ before, measure y < measure z) ∧ ∀ z ∈ after, measure y ≤ measure z := by
  induction xs using List.reverseRecOn with
  | nil => exact ⟨[], x, [], rfl, rfl, by simp, by simp⟩
  | append_singleton xs z ih =>
    obtain ⟨before, y, after, heq, hy, hbefore, hafter⟩ := ih
    rw [List.foldl_append, List.foldl_cons, List.foldl_nil, hy, precedes_exact, ← List.cons_append,
      heq]
    by_cases hzy : measure z < measure y
    · refine ⟨before ++ y :: after, z, [], rfl, if_pos (decide_eq_true hzy), ?_, by simp⟩
      intro w hw
      rcases List.mem_append.mp hw with hw | hw
      · exact hzy.trans (hbefore w hw)
      · rcases List.mem_cons.mp hw with rfl | hw
        · exact hzy
        · exact hzy.trans_le (hafter w hw)
    · refine ⟨before, y, after ++ [z], by simp, if_neg (by simpa using hzy), hbefore, ?_⟩
      intro w hw
      rcases List.mem_append.mp hw with hw | hw
      · exact hafter w hw
      · rw [List.mem_singleton.mp hw]
        exact not_lt.mp hzy

/-- A list that is not empty has a least element, and the first one is found. -/
theorem exists_leastBy {xs : List β} (hxs : xs ≠ []) :
    ∃ before y after, xs = before ++ y :: after ∧ leastBy measure xs = some y ∧
      (∀ z ∈ before, measure y < measure z) ∧ ∀ z ∈ after, measure y ≤ measure z := by
  obtain ⟨x, xs, rfl⟩ := List.exists_cons_of_ne_nil hxs
  obtain ⟨before, y, after, heq, hy, hbefore, hafter⟩ := foldl_precedes measure x xs
  exact ⟨before, y, after, heq, congrArg some hy, hbefore, hafter⟩

/-- The least element of a list is in the list. -/
lemma mem_of_leastBy {measure : β → ℚ} {xs : List β} {x : β}
    (hx : leastBy measure xs = some x) : x ∈ xs := by
  have hxs : xs ≠ [] := by
    rintro rfl
    cases hx
  obtain ⟨before, y, after, rfl, hy, -, -⟩ := exists_leastBy measure hxs
  rw [hx, Option.some.injEq] at hy
  rw [hy]
  exact List.mem_append_right before List.mem_cons_self

end Least

end Scalar

/-! ## Guarded values -/

namespace Guarded

variable {β γ : Type}

/-- Mapping a guarded function over a list maps its values. -/
@[simp] lemma value_mapM (f : β → Guarded γ) (xs : List β) :
    (xs.mapM f).value = xs.map fun x => (f x).value := by
  induction xs with
  | nil => rfl
  | cons x xs ih => simp [List.mapM_cons, ih]

/-- Mapping a plain function over a guarded value trips no guard. -/
@[simp] lemma defined_map (f : β → γ) (x : Guarded β) : (f <$> x).defined = x.defined :=
  Bool.and_true x.defined

/-- Mapping a guarded function over a list is defined exactly if it is at every element. -/
lemma defined_mapM_eq_all (f : β → Guarded γ) (xs : List β) :
    (xs.mapM f).defined = xs.all fun x => (f x).defined := by
  induction xs with
  | nil => rfl
  | cons x xs ih => simp [List.mapM_cons, ih]

/-- A list mapped by functions that are defined is defined. -/
lemma defined_mapM {f : β → Guarded γ} {xs : List β} (hf : ∀ x ∈ xs, (f x).defined = true) :
    (xs.mapM f).defined = true := by
  rw [defined_mapM_eq_all]
  exact List.all_eq_true.mpr hf

/-- A fold of steps that are always defined is defined. -/
lemma defined_foldlM {step : γ → β → Guarded γ} (hstep : ∀ s x, (step s x).defined = true)
    (start : γ) (xs : List β) : (xs.foldlM step start).defined = true := by
  induction xs generalizing start with
  | nil => rfl
  | cons x xs ih => simp [hstep, ih]

end Guarded

/-! ## Runs of related computations -/

namespace Guarded

variable {β γ : Type}

/-- What follows a guarded computation is applied to nothing but its value. -/
lemma bind_congr_value {x : Guarded β} {f g : β → Guarded γ} (h : f x.value = g x.value) :
    x >>= f = x >>= g :=
  ext_parts (by rw [value_bind, value_bind, h]) (by rw [defined_bind, defined_bind, h])

end Guarded

/-- A run commutes with a map of its states if each of its steps does. -/
lemma foldlM_of_commutes {M : Type → Type} [Monad M] [LawfulMonad M] {σ τ β : Type} {view : σ → τ}
    {step : σ → β → M σ} {step' : τ → β → M τ} (h : ∀ s b, step' (view s) b = view <$> step s b)
    (xs : List β) (s : σ) : xs.foldlM step' (view s) = view <$> xs.foldlM step s := by
  induction xs generalizing s with
  | nil => rw [List.foldlM_nil, List.foldlM_nil, map_pure]
  | cons b xs ih =>
    rw [List.foldlM_cons, List.foldlM_cons, h, map_bind, bind_map_left]
    exact congrArg (step s b >>= ·) (funext ih)

/-- A traversal commutes with a map of its elements if each of its steps does. -/
lemma mapM_map_of_commutes {M : Type → Type} [Monad M] [LawfulMonad M] {β β' γ γ' : Type}
    {view : β → β'} {view' : γ → γ'} {f : β → M γ} {f' : β' → M γ'} {xs : List β}
    (h : ∀ b ∈ xs, f' (view b) = view' <$> f b) :
    (xs.map view).mapM f' = List.map view' <$> xs.mapM f := by
  induction xs with
  | nil => simp
  | cons b xs ih =>
    rw [List.map_cons, List.mapM_cons, List.mapM_cons, h b List.mem_cons_self,
      ih fun c hc => h c (List.mem_cons_of_mem b hc)]
    simp

/-! ## Clamps -/

/-- Pushing a number into an interval whose ends are in order is defined. -/
lemma defined_clamp {low high : ℚ} (h : low ≤ high) (x : ℚ) : (clamp low high x).defined = true :=
  decide_eq_true h

/-- Pushing a number into an interval whose ends are in order ends there. -/
lemma clamp_within {low high : ℚ} (h : low ≤ high) (x : ℚ) :
    low ≤ (clamp low high x).value ∧ (clamp low high x).value ≤ high := by
  unfold clamp
  dsimp only
  split_ifs with hbelow habove
  · exact ⟨le_rfl, h⟩
  · exact ⟨h, le_rfl⟩
  · exact ⟨not_lt.mp hbelow, not_lt.mp habove⟩

/-- A number that is in an interval stays where it is. -/
lemma clamp_of_within {low high x : ℚ} (hlow : low ≤ x) (hhigh : x ≤ high) :
    (clamp low high x).value = x := by
  unfold clamp
  dsimp only
  rw [if_neg (not_lt.mpr hlow), if_neg (not_lt.mpr hhigh)]

end DiagramLayout
