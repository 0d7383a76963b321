import DiagramLayout.Proofs.Exact
import DiagramLayout.Features.Compartment

/-!
# The order of compartment entries

The entries of a classifier are listed by compartment, list key and identifier, and those that agree
in all three in the order of the drawing. `Drawing.pairwise_entries` says this as a strict order of
*places*: no two entries have the same one, because sorting is stable and no position is listed
twice.

The statements hold over any coordinates.
-/

namespace DiagramLayout

/-! ## What the order compares -/

/-- What the order of compartments compares, one after the other. -/
def Feature.entryRank (f : Feature) : ℕ ×ₗ ℤ ×ₗ ℤ :=
  toLex (f.kind.compartment, toLex (f.listKey.toInt, f.id.value))

/-- Entries are listed by ascending rank. -/
lemma entryAtMost_iff {f g : Feature} : entryAtMost f g = true ↔ f.entryRank ≤ g.entryRank := by
  simp only [entryAtMost, Feature.entryRank, Prod.Lex.toLex_le_toLex, Bool.or_eq_true,
    Bool.and_eq_true, decide_eq_true_eq, beq_iff_eq, Int32.lt_iff_toInt_lt, ← Int32.toInt_inj]

/-- A feature of lower rank is not in a later compartment. -/
lemma compartment_le_of_entryRank_le {f g : Feature} (h : f.entryRank ≤ g.entryRank) :
    f.kind.compartment ≤ g.kind.compartment := by
  rw [Feature.entryRank, Feature.entryRank, Prod.Lex.toLex_le_toLex] at h
  rcases h with h | ⟨h, -⟩
  · exact h.le
  · exact h.le

/-- Features of the same rank have the same identifier. -/
lemma id_eq_of_entryRank_eq {f g : Feature} (h : f.entryRank = g.entryRank) : f.id = g.id := by
  simp only [Feature.entryRank, toLex_inj, Prod.mk.injEq] at h
  obtain ⟨-, -, hvalue⟩ := h
  exact congrArg RowId.mk hvalue

/-- There are three compartments. -/
lemma compartment_le (kind : FeatureKind) : kind.compartment ≤ 2 := by
  cases kind <;> decide

/-! ## Sorting is stable -/

section Stability

variable {β : Type} {le : β → β → Bool}

/-- In a list without repetition no two elements are before one another. -/
lemma not_sublist_swap {xs : List β} (hxs : xs.Nodup) {a b : β} (hab : [a, b].Sublist xs) :
    ¬ [b, a].Sublist xs := by
  intro hba
  obtain ⟨before, after, rfl, ha, hb⟩ := List.cons_sublist_iff.mp hab
  obtain ⟨before', after', hsplit, hb', ha'⟩ := List.cons_sublist_iff.mp hba
  rw [List.singleton_sublist] at hb ha'
  have hdisjoint := List.disjoint_of_nodup_append hxs
  -- whichever cut is further to the left, one of the two elements would be on both sides of it
  rcases List.append_eq_append_iff.mp hsplit with ⟨between, rfl, rfl⟩ | ⟨between, rfl, rfl⟩
  · exact hdisjoint ha (List.mem_append_right _ ha')
  · exact hdisjoint (List.mem_append_left _ hb') hb

/-- Of two different elements of a list one comes before the other. -/
lemma sublist_or_sublist_swap {xs : List β} {a b : β} (ha : a ∈ xs) (hb : b ∈ xs)
    (hne : a ≠ b) : [a, b].Sublist xs ∨ [b, a].Sublist xs := by
  obtain ⟨before, after, rfl⟩ := List.mem_iff_append.mp ha
  rcases List.mem_append.mp hb with hbefore | hrest
  · exact Or.inr ((List.singleton_sublist.mpr hbefore).append
      (List.singleton_sublist.mpr List.mem_cons_self))
  · have hafter : b ∈ after := (List.mem_cons.mp hrest).resolve_left (Ne.symm hne)
    refine Or.inl (List.Sublist.trans ?_ (List.sublist_append_right before (a :: after)))
    exact (List.singleton_sublist.mpr hafter).cons_cons a

/-- Elements that were in the order of a key stay so if the sorting does not tell them apart. -/
lemma pairwise_mergeSort_stable (htrans : ∀ a b c, le a b = true → le b c = true → le a c = true)
    (htotal : ∀ a b, (le a b || le b a) = true) (key : β → ℕ) {xs : List β}
    (hkey : xs.Pairwise fun a b => key a < key b) :
    (xs.mergeSort le).Pairwise fun a b => le a b = true ∧ (le b a = true → key a < key b) := by
  have hsorted := List.pairwise_mergeSort htrans htotal xs
  have hnodup : (xs.mergeSort le).Nodup :=
    (List.mergeSort_perm xs le).nodup_iff.mpr (hkey.imp fun h => ne_of_apply_ne key h.ne)
  rw [List.pairwise_iff_forall_sublist] at hkey hsorted ⊢
  intro a b hab
  refine ⟨hsorted hab, fun hba => ?_⟩
  have ha : a ∈ xs := List.mem_mergeSort.mp (hab.subset (by simp))
  have hb : b ∈ xs := List.mem_mergeSort.mp (hab.subset (by simp))
  have hne : a ≠ b := by
    rintro rfl
    exact not_sublist_swap hnodup hab hab
  rcases sublist_or_sublist_swap ha hb hne with hbefore | hafter
  · exact hkey hbefore
  · exact absurd (List.pair_sublist_mergeSort htrans htotal hba hafter)
      (not_sublist_swap hnodup hab)

end Stability

/-! ## Entries of a drawing -/

namespace Drawing

variable {α : Type}

/-- What the entries of a classifier are ordered by: their rank, and then their position. -/
def entryPlace (entry : ℕ × Feature) : (ℕ ×ₗ ℤ ×ₗ ℤ) ×ₗ ℕ := toLex (entry.2.entryRank, entry.1)

/-- The entries of a classifier are its features that belong in a compartment. -/
lemma mem_entries {d : Drawing α} {i k : ℕ} {e : Feature} :
    (k, e) ∈ d.entries i ↔ ∃ f, d.features[k]? = some f ∧ f.owner = i ∧
      f.element.kind.isCompartmentEntry = true ∧ f.element = e := by
  simp only [entries, List.mem_mergeSort, List.mem_filterMap, Option.ite_none_right_eq_some,
    Bool.and_eq_true, beq_iff_eq, Option.some.injEq, Prod.mk.injEq, Prod.exists,
    List.mem_zipIdx_iff_getElem?]
  constructor
  · rintro ⟨f, k', hf, ⟨howner, hkind⟩, rfl, helement⟩
    exact ⟨f, hf, howner, hkind, helement⟩
  · rintro ⟨f, hf, howner, hkind, helement⟩
    exact ⟨f, k, hf, ⟨howner, hkind⟩, rfl, helement⟩

/-- The elements of the entries are those of the features that belong in a compartment. -/
lemma perm_entries (d : Drawing α) (i : ℕ) :
    ((d.entries i).map Prod.snd).Perm (d.features.filterMap fun f =>
      if f.owner == i && f.element.kind.isCompartmentEntry then some f.element else none) := by
  refine ((List.mergeSort_perm _ _).map Prod.snd).trans (List.Perm.of_eq ?_)
  rw [List.map_filterMap]
  conv_rhs => rw [← List.zipIdx_map_fst 0 d.features, List.filterMap_map]
  refine List.filterMap_congr fun entry _ => ?_
  simp only [Function.comp_apply]
  split_ifs <;> rfl

/-- Each entry has its place before those that are listed after it. -/
theorem pairwise_entries (d : Drawing α) (i : ℕ) :
    (d.entries i).Pairwise fun a b => entryPlace a < entryPlace b := by
  have hpositions : d.features.zipIdx.Pairwise fun a b => a.2 < b.2 := by
    rw [← List.pairwise_map (f := Prod.snd) (R := fun a b => a < b), List.zipIdx_map_snd]
    exact List.pairwise_lt_range'
  have htrans (a b c : ℕ × Feature) : entryAtMost a.2 b.2 = true → entryAtMost b.2 c.2 = true →
      entryAtMost a.2 c.2 = true := by
    simp only [entryAtMost_iff]
    exact le_trans
  have htotal (a b : ℕ × Feature) : (entryAtMost a.2 b.2 || entryAtMost b.2 a.2) = true := by
    simp only [Bool.or_eq_true, entryAtMost_iff]
    exact le_total _ _
  refine (pairwise_mergeSort_stable htrans htotal Prod.fst ?_).imp ?_
  · refine hpositions.filterMap _ ?_
    rintro ⟨f, j⟩ ⟨g, k⟩ hlt a ha b hb
    simp only [Option.ite_none_right_eq_some, Option.some.injEq] at ha hb
    obtain ⟨-, rfl⟩ := ha
    obtain ⟨-, rfl⟩ := hb
    exact hlt
  · rintro a b ⟨hle, hsame⟩
    simp only [entryAtMost_iff] at hle hsame
    rw [entryPlace, entryPlace, Prod.Lex.toLex_lt_toLex]
    rcases hle.lt_or_eq with hlt | heq
    · exact Or.inl hlt
    · exact Or.inr ⟨heq, hsame heq.ge⟩

/-- The entries are in the order of their ranks. -/
lemma pairwise_entryRank (d : Drawing α) (i : ℕ) :
    (d.entries i).Pairwise fun a b => a.2.entryRank ≤ b.2.entryRank := by
  refine (d.pairwise_entries i).imp fun {a b} hab => ?_
  rw [entryPlace, entryPlace, Prod.Lex.toLex_lt_toLex] at hab
  rcases hab with hlt | ⟨heq, -⟩
  · exact hlt.le
  · exact heq.le

/-- The entries are in the order of their compartments. -/
lemma pairwise_compartment (d : Drawing α) (i : ℕ) :
    (d.entries i).Pairwise fun a b => a.2.kind.compartment ≤ b.2.kind.compartment :=
  (d.pairwise_entryRank i).imp compartment_le_of_entryRank_le

/-- Each feature is listed at most once. -/
lemma nodup_entries (d : Drawing α) (i : ℕ) : ((d.entries i).map Prod.fst).Nodup := by
  rw [List.Nodup, List.pairwise_map]
  refine (d.pairwise_entries i).imp_of_mem fun {a b} ha hb hab hsame => ?_
  obtain ⟨f, hf, -, -, ha⟩ := mem_entries.mp ha
  obtain ⟨g, hg, -, -, hb⟩ := mem_entries.mp hb
  obtain rfl : f = g := Option.some.inj (hf.symm.trans (hsame ▸ hg))
  have heq : a = b := Prod.ext hsame (ha.symm.trans hb)
  exact hab.ne (congrArg entryPlace heq)

end Drawing

end DiagramLayout
