import Mathlib
import DiagramLayout.Nesting

/-!
# A nesting is read off the paths of its edges

Whatever a nesting encloses is another position that is reached along its edges, and whatever is
reached along few enough of them is enclosed: one edge is in the table from the start and each pass
adds one more (`Nesting.encloses_of_path`). A path never has to be longer than there are positions
(`Nesting.Path.exists_lt`), so with as many passes the nesting is reachability itself, whatever the
order of the edges.

A pass writes into the table that it reads. Along a single edge this makes no difference, because
the table is read in the column of the parent and written in the column of the child
(`Nesting.adds_extendAlong`). Nor does it cut off a chain that no position encloses itself: a path
that comes back to where it starts can leave out the way there.
-/

namespace DiagramLayout

namespace Nesting

/-- An edge counts if it joins two different positions of the table. -/
lemma isValidEdge_iff {size p c : ℕ} :
    isValidEdge size (p, c) = true ↔ p < size ∧ c < size ∧ p ≠ c := by
  simp [isValidEdge, and_assoc]

/-! ## Paths -/

/-- A path of so many edges, all of which count. -/
inductive Path (size : ℕ) (edges : List NestingEdge) : ℕ → ℕ → ℕ → Prop
  /-- Every position is reached from itself. -/
  | refl (a : ℕ) : Path size edges 0 a a
  /-- A path goes on along an edge. -/
  | snoc {k a m d : ℕ} (path : Path size edges k a m) (mem : (m, d) ∈ edges)
      (valid : isValidEdge size (m, d) = true) : Path size edges (k + 1) a d

namespace Path

variable {size k a d : ℕ} {edges : List NestingEdge}

/-- A single edge is a path. -/
lemma single (hmem : (a, d) ∈ edges) (hvalid : isValidEdge size (a, d) = true) :
    Path size edges 1 a d :=
  (refl a).snoc hmem hvalid

/-- Other edges make the same paths if they are the same apart from order and repetition. -/
lemma congr {edges' : List NestingEdge} (hedges : ∀ e, e ∈ edges → e ∈ edges')
    (h : Path size edges k a d) : Path size edges' k a d := by
  induction h with
  | refl a => exact refl a
  | snoc _ hmem hvalid ih => exact ih.snoc (hedges _ hmem) hvalid

/-- A path that leads elsewhere starts in the table. -/
lemma start_lt (h : Path size edges k a d) (hne : a ≠ d) : a < size := by
  induction h with
  | refl a => exact absurd rfl hne
  | @snoc k a m d path hmem hvalid ih =>
    rcases eq_or_ne a m with rfl | ham
    · exact (isValidEdge_iff.mp hvalid).1
    · exact ih ham

/-- A path that is as short as any passes one position more than it has edges: there are so many
that are reached by paths that are not longer. -/
lemma exists_passed (ha : a < size) (h : Path size edges k a d)
    (hleast : ∀ j < k, ¬ Path size edges j a d) :
    ∃ passed ⊆ Finset.range size, passed.card = k + 1 ∧
      ∀ x ∈ passed, ∃ j ≤ k, Path size edges j a x := by
  induction h with
  | refl a =>
    refine ⟨{a}, by simpa using ha, rfl, ?_⟩
    intro x hx
    obtain rfl := Finset.mem_singleton.mp hx
    exact ⟨0, le_rfl, refl x⟩
  | @snoc k a m d path hmem hvalid ih =>
    obtain ⟨passed, hsubset, hcard, hreached⟩ := ih ha fun j hj hshort =>
      hleast (j + 1) (by omega) (hshort.snoc hmem hvalid)
    -- the end is not among what the shorter paths reach
    have hnew : d ∉ passed := by
      intro hd
      obtain ⟨j, hj, hshort⟩ := hreached d hd
      exact hleast j (by omega) hshort
    refine ⟨insert d passed, ?_, by rw [Finset.card_insert_of_notMem hnew, hcard], ?_⟩
    · exact Finset.insert_subset (Finset.mem_range.mpr (isValidEdge_iff.mp hvalid).2.1) hsubset
    · intro x hx
      rcases Finset.mem_insert.mp hx with rfl | hx
      · exact ⟨k + 1, le_rfl, path.snoc hmem hvalid⟩
      · obtain ⟨j, hj, hshort⟩ := hreached x hx
        exact ⟨j, by omega, hshort⟩

/-- What is reached from a position of the table is reached along fewer edges than there are
positions. -/
lemma exists_lt (ha : a < size) (h : Path size edges k a d) :
    ∃ j < size, Path size edges j a d := by
  classical
  have hexists : ∃ j, Path size edges j a d := ⟨k, h⟩
  obtain ⟨passed, hsubset, hcard, -⟩ :=
    exists_passed ha (Nat.find_spec hexists) fun j hj => Nat.find_min hexists hj
  refine ⟨Nat.find hexists, ?_, Nat.find_spec hexists⟩
  have hfew := Finset.card_le_card hsubset
  rw [Finset.card_range] at hfew
  omega

end Path

/-! ## Tables -/

/-- What is enclosed is written in its cell. -/
lemma encloses_iff {n : Nesting} {a d : ℕ} :
    n.encloses a d = true ↔
      a < n.size ∧ d < n.size ∧ n.cells.getD (a * n.size + d) false = true := by
  simp only [encloses, Bool.and_eq_true, decide_eq_true_eq, and_assoc]

/-- Every pair of positions has a cell. -/
lemma cell_lt {size a d : ℕ} (ha : a < size) (hd : d < size) : a * size + d < size * size := by
  have hrow : (a + 1) * size ≤ size * size := Nat.mul_le_mul_right size ha
  rw [Nat.add_mul, Nat.one_mul] at hrow
  omega

/-- Every pair of positions has a cell of its own. -/
lemma cell_injective {size a d p c : ℕ} (hd : d < size) (hc : c < size)
    (h : a * size + d = p * size + c) : a = p ∧ d = c := by
  have hpos : 0 < size := by omega
  have hrow := congrArg (· / size) h
  have hcolumn := congrArg (· % size) h
  simp only [Nat.mul_comm _ size, Nat.mul_add_div hpos, Nat.mul_add_mod, Nat.div_eq_of_lt hd,
    Nat.div_eq_of_lt hc, Nat.mod_eq_of_lt hd, Nat.mod_eq_of_lt hc, Nat.add_zero] at hrow hcolumn
  exact ⟨hrow, hcolumn⟩

/-- The table has a cell for every pair of positions and no other. -/
def IsSquare (n : Nesting) : Prop := n.cells.size = n.size * n.size

/-- Square tables of one size in which the same is enclosed are the same. -/
lemma eq_of_encloses_iff {n n' : Nesting} (hn : n.IsSquare) (hn' : n'.IsSquare)
    (hsize : n'.size = n.size)
    (h : ∀ a d, n'.encloses a d = true ↔ n.encloses a d = true) : n' = n := by
  obtain ⟨size, cells⟩ := n
  obtain ⟨size', cells'⟩ := n'
  obtain rfl : size' = size := hsize
  unfold IsSquare at hn hn'
  simp only [mk.injEq, true_and]
  refine Array.ext (hn'.trans hn.symm) fun i hi' hi => ?_
  have hcell : i < size' * size' := hn ▸ hi
  have hpos : 0 < size' := Nat.pos_of_ne_zero fun hzero => by simp [hzero] at hcell
  have hrow : i / size' < size' := Nat.div_lt_of_lt_mul hcell
  have hcolumn : i % size' < size' := Nat.mod_lt i hpos
  have hpair := h (i / size') (i % size')
  simp only [encloses_iff, hrow, hcolumn, true_and, Nat.div_add_mod', Array.getD, hi, hi',
    dif_pos] at hpair
  exact Bool.eq_iff_iff.mpr hpair

/-- The second table encloses besides what the first one does just what is new. -/
structure Adds (isNew : ℕ → ℕ → Prop) (n n' : Nesting) : Prop where
  size_eq : n'.size = n.size
  square : n'.IsSquare
  encloses_iff : ∀ a d, n'.encloses a d = true ↔ n.encloses a d = true ∨ isNew a d

namespace Adds

variable {n n' n'' : Nesting} {isNew isNewer : ℕ → ℕ → Prop}

/-- What is new may be said otherwise. -/
lemma congr (h : n.Adds isNew n') (hsame : ∀ a d, isNew a d ↔ isNewer a d) :
    n.Adds isNewer n' :=
  ⟨h.size_eq, h.square, fun a d => (h.encloses_iff a d).trans (or_congr_right (hsame a d))⟩

/-- One may be added after the other. -/
lemma trans (h : n.Adds isNew n') (h' : n'.Adds isNewer n'') :
    n.Adds (fun a d => isNew a d ∨ isNewer a d) n'' :=
  ⟨h'.size_eq.trans h.size_eq, h'.square, fun a d => by
    rw [h'.encloses_iff, h.encloses_iff, or_assoc]⟩

end Adds

/-- Marking adds one pair. -/
lemma adds_mark {n : Nesting} (hn : n.IsSquare) {p c : ℕ} (hp : p < n.size) (hc : c < n.size) :
    n.Adds (fun a d => a = p ∧ d = c) (n.mark p c) := by
  refine ⟨rfl, by simpa [IsSquare, mark] using hn, fun a d => ?_⟩
  rw [Nesting.encloses_iff, Nesting.encloses_iff]
  change a < n.size ∧ d < n.size ∧
    (n.cells.setIfInBounds (p * n.size + c) true).getD (a * n.size + d) false = true ↔ _
  have hcell : p * n.size + c < n.cells.size := hn ▸ cell_lt hp hc
  rw [Array.getD_eq_getD_getElem?, Array.getElem?_setIfInBounds, Array.getD_eq_getD_getElem?]
  constructor
  · rintro ⟨ha, hd, hmarked⟩
    split_ifs at hmarked with hsame
    · obtain ⟨rfl, rfl⟩ := cell_injective hc hd hsame
      exact Or.inr ⟨rfl, rfl⟩
    · exact Or.inl ⟨ha, hd, hmarked⟩
  · rintro (⟨ha, hd, hknown⟩ | ⟨rfl, rfl⟩)
    · refine ⟨ha, hd, ?_⟩
      split_ifs
      · rfl
      · exact hknown
    · exact ⟨hp, hc, by simp [hcell]⟩

/-- Marking adds the pairs that are marked. -/
lemma adds_foldl_mark {n : Nesting} (hn : n.IsSquare) {marked : List NestingEdge}
    (hvalid : ∀ e ∈ marked, isValidEdge n.size e = true) :
    n.Adds (fun a d => (a, d) ∈ marked)
      (marked.foldl (fun n (parent, child) => n.mark parent child) n) := by
  induction marked generalizing n with
  | nil => exact ⟨rfl, hn, by simp⟩
  | cons e es ih =>
    obtain ⟨p, c⟩ := e
    obtain ⟨hp, hc, -⟩ := isValidEdge_iff.mp (hvalid (p, c) List.mem_cons_self)
    have hmark := adds_mark hn hp hc
    have hrest := ih hmark.square fun e he =>
      hmark.size_eq ▸ hvalid e (List.mem_cons_of_mem _ he)
    exact (hmark.trans hrest).congr fun a d => by simp

/-- If a position encloses the parent of an edge, it comes to enclose the child. -/
lemma adds_mark_of_encloses {n : Nesting} (hn : n.IsSquare) {x p c : ℕ} (hx : x < n.size)
    (hc : c < n.size) :
    n.Adds (fun a d => a = x ∧ d = c ∧ a ≠ c ∧ n.encloses a p = true)
      (if x != c && n.encloses x p then n.mark x c else n) := by
  split_ifs with hmarks
  · obtain ⟨hxc, hxp⟩ : x ≠ c ∧ n.encloses x p = true := by simpa using hmarks
    refine (adds_mark hn hx hc).congr fun a d => ?_
    constructor
    · rintro ⟨rfl, rfl⟩
      exact ⟨rfl, rfl, hxc, hxp⟩
    · rintro ⟨rfl, rfl, -⟩
      exact ⟨rfl, rfl⟩
  · refine ⟨rfl, hn, fun a d => (or_iff_left ?_).symm⟩
    rintro ⟨rfl, rfl, hnew⟩
    exact hmarks (by simpa using hnew)

/-- Along an edge whatever encloses the parent comes to enclose the child. The table is written
while it is read, but in another column. -/
lemma adds_extendAlong {n : Nesting} (hn : n.IsSquare) {p c : ℕ}
    (hvalid : isValidEdge n.size (p, c) = true) :
    n.Adds (fun a d => d = c ∧ a ≠ c ∧ n.encloses a p = true) (n.extendAlong (p, c)) := by
  obtain ⟨-, hc, hpc⟩ := isValidEdge_iff.mp hvalid
  have hrows (xs : List ℕ) (n : Nesting) (hn : n.IsSquare) (hc : c < n.size)
      (hxs : ∀ x ∈ xs, x < n.size) :
      n.Adds (fun a d => a ∈ xs ∧ d = c ∧ a ≠ c ∧ n.encloses a p = true)
        (xs.foldl (fun n ancestor =>
          if ancestor != c && n.encloses ancestor p then n.mark ancestor c else n) n) := by
    induction xs generalizing n with
    | nil => exact ⟨rfl, hn, by simp⟩
    | cons x xs ih =>
      have hrow := adds_mark_of_encloses (p := p) hn (hxs x List.mem_cons_self) hc
      have hrest := ih _ hrow.square (hrow.size_eq ▸ hc) fun y hy =>
        hrow.size_eq ▸ hxs y (List.mem_cons_of_mem x hy)
      refine (hrow.trans hrest).congr fun a d => ?_
      -- the column of the parent is as before
      have hcolumn := (hrow.encloses_iff a p).trans (or_iff_left fun hnew => hpc hnew.2.1)
      rw [hcolumn, List.mem_cons, ← or_and_right]
  refine (hrows (List.range n.size) n hn hc fun x hx => List.mem_range.mp hx).congr fun a d => ?_
  refine and_iff_right_of_imp fun hnew => ?_
  exact List.mem_range.mpr (encloses_iff.mp hnew.2.2).1

/-! ## Passes -/

/-- What a table of a size knows of the paths of some edges: whatever it encloses is another
position that is reached, and whatever else is reached along few enough edges is enclosed. -/
structure Charts (size : ℕ) (edges : List NestingEdge) (reach : ℕ) (n : Nesting) : Prop where
  size_eq : n.size = size
  square : n.IsSquare
  path_of_encloses : ∀ a d, n.encloses a d = true → a ≠ d ∧ ∃ k, Path size edges k a d
  encloses_of_path : ∀ a d, a ≠ d → ∀ k ≤ reach, Path size edges k a d → n.encloses a d = true

variable {size reach : ℕ} {edges : List NestingEdge}

/-- Nothing is enclosed in the flat table. -/
lemma encloses_flat (size a d : ℕ) : (flat size).encloses a d = false := by
  refine Bool.eq_false_iff.mpr fun h => ?_
  obtain ⟨-, -, hcell⟩ := encloses_iff.mp h
  rw [flat, Array.getD_eq_getD_getElem?, Array.getElem?_replicate] at hcell
  split_ifs at hcell <;> cases hcell

/-- The edges themselves are in the table from the start. -/
lemma charts_direct (size : ℕ) (edges : List NestingEdge) :
    (direct size edges).Charts size edges 1 := by
  have hflat : (flat size).IsSquare := by simp [IsSquare, flat]
  have hmarked : (flat size).Adds (fun a d => (a, d) ∈ edges.filter (isValidEdge size))
      (direct size edges) :=
    adds_foldl_mark hflat fun e he => (List.mem_filter.mp he).2
  have hiff (a d : ℕ) : (direct size edges).encloses a d = true ↔
      (a, d) ∈ edges ∧ isValidEdge size (a, d) = true := by
    rw [hmarked.encloses_iff, encloses_flat, List.mem_filter]
    exact or_iff_right Bool.false_ne_true
  refine ⟨hmarked.size_eq, hmarked.square, fun a d h => ?_, fun a d hne k hk hpath => ?_⟩
  · obtain ⟨hmem, hvalid⟩ := (hiff a d).mp h
    exact ⟨(isValidEdge_iff.mp hvalid).2.2, 1, Path.single hmem hvalid⟩
  · cases hpath with
    | refl => exact absurd rfl hne
    | @snoc j _ m _ hstart hmem hvalid =>
      obtain rfl : j = 0 := by omega
      cases hstart
      exact (hiff a d).mpr ⟨hmem, hvalid⟩

/-- What is added along paths leaves a chart a chart. -/
lemma Charts.of_adds {n n' : Nesting} {isNew : ℕ → ℕ → Prop} (h : n.Charts size edges reach)
    (hadds : n.Adds isNew n')
    (hnew : ∀ a d, isNew a d → a ≠ d ∧ ∃ k, Path size edges k a d) :
    n'.Charts size edges reach where
  size_eq := hadds.size_eq.trans h.size_eq
  square := hadds.square
  path_of_encloses a d hknown :=
    ((hadds.encloses_iff a d).mp hknown).elim (h.path_of_encloses a d) (hnew a d)
  encloses_of_path a d hne k hk hpath :=
    (hadds.encloses_iff a d).mpr (Or.inl (h.encloses_of_path a d hne k hk hpath))

/-- Going along some of the edges adds only what is reached, and whatever encloses the parent of one
of them before encloses its child after. -/
lemma Charts.exists_adds_foldl {n : Nesting} (h : n.Charts size edges reach)
    {along : List NestingEdge}
    (halong : ∀ e ∈ along, e ∈ edges ∧ isValidEdge size e = true) :
    ∃ isNew, n.Adds isNew (along.foldl extendAlong n) ∧
      (∀ a d, isNew a d → a ≠ d ∧ ∃ k, Path size edges k a d) ∧
      ∀ a p c, (p, c) ∈ along → a ≠ c → n.encloses a p = true →
        (along.foldl extendAlong n).encloses a c = true := by
  induction along generalizing n with
  | nil => exact ⟨fun _ _ => False, ⟨rfl, h.square, by simp⟩, by simp, by simp⟩
  | cons e es ih =>
    obtain ⟨p, c⟩ := e
    obtain ⟨hmem, hvalid⟩ := halong (p, c) List.mem_cons_self
    have hedge := adds_extendAlong h.square (h.size_eq.symm ▸ hvalid)
    have hreached (a d : ℕ) (hnew : d = c ∧ a ≠ c ∧ n.encloses a p = true) :
        a ≠ d ∧ ∃ k, Path size edges k a d := by
      obtain ⟨rfl, hne, hup⟩ := hnew
      obtain ⟨-, k, hpath⟩ := h.path_of_encloses a p hup
      exact ⟨hne, k + 1, hpath.snoc hmem hvalid⟩
    obtain ⟨isNew, hrest, hnew, hextends⟩ :=
      ih (h.of_adds hedge hreached) fun e he => halong e (List.mem_cons_of_mem _ he)
    refine ⟨_, hedge.trans hrest, fun a d => Or.rec (hreached a d) (hnew a d), ?_⟩
    intro a q b hqb hne hup
    rcases List.mem_cons.mp hqb with hhead | htail
    · obtain ⟨rfl, rfl⟩ := Prod.mk.inj hhead
      have hchild := (hedge.encloses_iff a b).mpr (Or.inr ⟨rfl, hne, hup⟩)
      exact (hrest.encloses_iff a b).mpr (Or.inl hchild)
    · exact hextends a q b htail hne ((hedge.encloses_iff a q).mpr (Or.inl hup))

/-- A pass takes the paths that are known one edge further. -/
lemma Charts.after_pass {n : Nesting} (h : n.Charts size edges reach) (hreach : 1 ≤ reach) :
    (n.pass edges).Charts size edges (reach + 1) := by
  have halong : ∀ e ∈ edges.filter (isValidEdge n.size), e ∈ edges ∧ isValidEdge size e = true :=
    fun e he => h.size_eq ▸ List.mem_filter.mp he
  obtain ⟨isNew, hadds, hnew, hextends⟩ := h.exists_adds_foldl halong
  have hpass : (n.pass edges).Charts size edges reach := h.of_adds hadds hnew
  refine { hpass with encloses_of_path := fun a d hne k hk hpath => ?_ }
  cases hpath with
  | refl => exact absurd rfl hne
  | @snoc j _ m _ hstart hmem hvalid =>
    rcases eq_or_ne a m with rfl | ham
    · -- what comes back to its start is left out
      exact hpass.encloses_of_path a d hne 1 hreach (Path.single hmem hvalid)
    · refine hextends a m d ?_ hne (h.encloses_of_path a m ham j (by omega) hstart)
      exact List.mem_filter.mpr ⟨hmem, h.size_eq.symm ▸ hvalid⟩

/-- A pass that adds nothing may as well be repeated: closing is running all passes. -/
lemma close_eq_iterate (edges : List NestingEdge) (passes : ℕ) (n : Nesting) :
    close edges passes n = (pass edges)^[passes] n := by
  induction passes generalizing n with
  | zero => rfl
  | succ passes ih =>
    rw [close, Function.iterate_succ_apply]
    split_ifs with hsame
    · rw [hsame, Function.iterate_fixed hsame]
    · exact ih (pass edges n)

/-- Running passes takes the paths that are known one edge further each. -/
lemma Charts.after_passes {n : Nesting} (h : n.Charts size edges reach) (hreach : 1 ≤ reach)
    (passes : ℕ) : ((pass edges)^[passes] n).Charts size edges (reach + passes) := by
  induction passes with
  | zero => exact h
  | succ passes ih =>
    rw [Function.iterate_succ_apply']
    exact ih.after_pass (by omega)

/-- The nesting of some edges knows the paths of one edge more than there are passes. -/
theorem charts_ofEdges (size : ℕ) (edges : List NestingEdge) (passes : ℕ) :
    (ofEdges size edges passes).Charts size edges (passes + 1) := by
  rw [ofEdges, close_eq_iterate, Nat.add_comm]
  exact (charts_direct size edges).after_passes le_rfl passes

/-- With enough passes the nesting of some edges is reachability between different positions. -/
theorem encloses_ofEdges_iff {size : ℕ} (edges : List NestingEdge) {passes : ℕ}
    (hpasses : size ≤ passes + 2) {a d : ℕ} :
    (ofEdges size edges passes).encloses a d = true ↔ a ≠ d ∧ ∃ k, Path size edges k a d := by
  have hcharts := charts_ofEdges size edges passes
  refine ⟨hcharts.path_of_encloses a d, ?_⟩
  rintro ⟨hne, k, hpath⟩
  obtain ⟨j, hj, hshort⟩ := hpath.exists_lt (hpath.start_lt hne)
  exact hcharts.encloses_of_path a d hne j (by omega) hshort

/-- With enough passes the nesting does not depend on how many there are, and not on the order or
the repetition of the edges. -/
theorem ofEdges_congr {size : ℕ} {edges edges' : List NestingEdge} {passes passes' : ℕ}
    (hpasses : size ≤ passes + 2) (hpasses' : size ≤ passes' + 2)
    (hedges : ∀ e, e ∈ edges' ↔ e ∈ edges) :
    ofEdges size edges' passes' = ofEdges size edges passes := by
  have hcharts := charts_ofEdges size edges passes
  have hcharts' := charts_ofEdges size edges' passes'
  refine eq_of_encloses_iff hcharts.square hcharts'.square
    (hcharts'.size_eq.trans hcharts.size_eq.symm) fun a d => ?_
  rw [encloses_ofEdges_iff edges' hpasses', encloses_ofEdges_iff edges hpasses]
  refine and_congr_right fun _ => exists_congr fun k => ?_
  exact ⟨Path.congr fun e => (hedges e).mp, Path.congr fun e => (hedges e).mpr⟩

/-- A nesting is reachability along its edges as far as its passes go. Whatever is enclosed is
another position that is reached; whatever else is reached along at most one edge more than there
are passes is enclosed; with as many passes as there are positions but two that is all, whatever the
order and the repetition of the edges; and nothing depends on whether passes that add nothing are
run. -/
theorem ofEdges_reachability (size : ℕ) (edges : List NestingEdge) (passes : ℕ) :
    (∀ a d, (ofEdges size edges passes).encloses a d → a ≠ d ∧ ∃ k, Path size edges k a d) ∧
      (∀ a d, a ≠ d → (∃ k ≤ passes + 1, Path size edges k a d) →
        (ofEdges size edges passes).encloses a d) ∧
      (size ≤ passes + 2 →
        (∀ a d, (ofEdges size edges passes).encloses a d ↔
          a ≠ d ∧ ∃ k, Path size edges k a d) ∧
        ∀ edges' passes', size ≤ passes' + 2 → (∀ e, e ∈ edges' ↔ e ∈ edges) →
          ofEdges size edges' passes' = ofEdges size edges passes) ∧
      ofEdges size edges passes = (pass edges)^[passes] (direct size edges) := by
  have hcharts := charts_ofEdges size edges passes
  refine ⟨hcharts.path_of_encloses, ?_, fun hpasses => ⟨fun a d => ?_, ?_⟩, ?_⟩
  · rintro a d hne ⟨k, hk, hpath⟩
    exact hcharts.encloses_of_path a d hne k hk hpath
  · exact encloses_ofEdges_iff edges hpasses
  · intro edges' passes' hpasses' hedges
    exact ofEdges_congr hpasses hpasses' hedges
  · exact close_eq_iterate edges passes (direct size edges)

/-- A ring of four with an edge that comes twice, one from a position to itself and one that leads
out of the table. The ring is listed against its direction, so each pass takes chains just one edge
further. -/
def ringOfFour : List NestingEdge := [(3, 0), (2, 3), (1, 2), (0, 1), (0, 1), (2, 2), (1, 9)]

/-- Two passes are enough for the ring of four: every position encloses every other and none
encloses itself, and in the other order the edges give the same nesting. -/
theorem ofEdges_reachability_ringOfFour :
    (ofEdges 4 ringOfFour 2).encloses 0 3 ∧ ¬ (ofEdges 4 ringOfFour 2).encloses 0 0 ∧
      (∃ k, Path 4 ringOfFour k 0 3) ∧ ofEdges 4 ringOfFour.reverse 7 = ofEdges 4 ringOfFour 2 := by
  have hknown : (ofEdges 4 ringOfFour 2).encloses 0 3 := by decide +kernel
  obtain ⟨hpath, -, henough, -⟩ := ofEdges_reachability 4 ringOfFour 2
  obtain ⟨hiff, hsame⟩ := henough (by decide)
  refine ⟨hknown, fun h => ((hiff 0 0).mp h).1 rfl, (hpath 0 3 hknown).2, ?_⟩
  exact hsame ringOfFour.reverse 7 (by decide) fun e => List.mem_reverse

/-- One pass is not enough. -/
example : (ofEdges 4 ringOfFour 1).encloses 0 3 = false := by decide +kernel

end Nesting

end DiagramLayout
