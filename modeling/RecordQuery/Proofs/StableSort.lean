import Mathlib.Data.List.FinRange

/-!
# Stable sorts

A list is arranged into another one by a row of its places in which every place stands once
(`Arranged`). A stable sort goes by a comparison first and by the places of the elements where this
does not tell them apart (`IsStableSort`). All is said about places, so that equal elements at two
places count as two.

* `IsStableSort.unique`: there is only one stable sort;
* `IsStableSort.comp`: sorting by one comparison and then by another one is sorting by the second
  one, and by the first one where the second does not decide;
* `isStableSort_mergeSort_append`: the merge sort of some elements, with the others after them.
-/

namespace RecordQuery

variable {α : Type} {xs ys zs : List α}

/-! ## Arrangements -/

/-- `ys` is `xs` in another order: it is read off a row of the places of `xs` in which every place
stands once, and in which `r` holds of any two places, the one that stands earlier first. -/
def Arranged (xs ys : List α) (r : Fin xs.length → Fin xs.length → Prop) : Prop :=
  ∃ places : List (Fin xs.length),
    places.Perm (List.finRange xs.length) ∧ places.map xs.get = ys ∧ places.Pairwise r

namespace Arranged

variable {r r' : Fin xs.length → Fin xs.length → Prop}

theorem mono (h : Arranged xs ys r) (hr : ∀ i j, r i j → r' i j) : Arranged xs ys r' := by
  obtain ⟨places, hp, hm, hw⟩ := h
  exact ⟨places, hp, hm, hw.imp (hr _ _)⟩

/-- Under a relation that never holds both ways there is one arrangement at most. -/
theorem unique (hr : ∀ i j, r i j → ¬r j i) (h : Arranged xs ys r) (h' : Arranged xs zs r) :
    ys = zs := by
  obtain ⟨places, hp, rfl, hw⟩ := h
  obtain ⟨places', hp', rfl, hw'⟩ := h'
  have h₁ : places = places' :=
    List.Perm.eq_of_pairwise (fun i j _ _ h₂ h₃ => absurd h₃ (hr i j h₂)) hw hw'
      (hp.trans hp'.symm)
  rw [h₁]

/-- A list is arranged as it is. -/
theorem self (hr : ∀ i j, i < j → r i j) : Arranged xs xs r :=
  ⟨List.finRange xs.length, .refl _, List.map_get_finRange xs,
    (List.pairwise_lt_finRange _).imp (hr _ _)⟩

end Arranged

/-! ## Stable sorts -/

/-- An element comes before another one in a stable sort: it is less, or it is not told apart from
the other one and stands at an earlier place. -/
def Precedes (cmp : α → α → Ordering) (xs : List α) (i j : Fin xs.length) : Prop :=
  cmp xs[i] xs[j] = .lt ∨ cmp xs[i] xs[j] = .eq ∧ i < j

/-- `ys` is the stable sort of `xs`. -/
def IsStableSort (cmp : α → α → Ordering) (xs ys : List α) : Prop :=
  Arranged xs ys (Precedes cmp xs)

namespace IsStableSort

variable {cmp cmp' : α → α → Ordering}

/-- There is only one stable sort. -/
theorem unique [hc : Std.OrientedCmp fun i j : Fin xs.length => cmp xs[i] xs[j]]
    (h : IsStableSort cmp xs ys) (h' : IsStableSort cmp xs zs) : ys = zs := by
  refine Arranged.unique (fun i j h₁ h₂ => ?_) h h'
  have h₃ : cmp xs[i] xs[j] = (cmp xs[j] xs[i]).swap := hc.eq_swap
  rcases h₁ with h₁ | ⟨h₁, h₄⟩ <;> rcases h₂ with h₂ | ⟨h₂, h₅⟩ <;> rw [h₁, h₂] at h₃ <;>
    try contradiction
  exact Nat.lt_asymm h₄ h₅

/-- Sorting twice is sorting once, by the last comparison first. -/
theorem comp (h : IsStableSort cmp' xs zs) (h' : IsStableSort cmp zs ys) :
    IsStableSort (fun a b => (cmp a b).then (cmp' a b)) xs ys := by
  obtain ⟨places, hp, rfl, hw⟩ := h
  obtain ⟨places', hp', rfl, hw'⟩ := h'
  -- Where an element of the list that is sorted last was in the first one.
  let back (k : Fin (places.map xs.get).length) : Fin xs.length :=
    places[k.cast (List.length_map _)]
  have hb : (List.finRange (places.map xs.get).length).map back = places :=
    List.ext_getElem (by simp) fun k _ _ => by simp [back]
  refine ⟨places'.map back, ?_, ?_, ?_⟩
  · exact ((hp'.map back).trans (.of_eq hb)).trans hp
  · simp [back]
  · rw [List.pairwise_map]
    refine hw'.imp fun {k l} h => ?_
    have h₁ (k) : (places.map xs.get)[k] = xs[back k] := by simp [back]
    simp only [Precedes, h₁] at h
    simp only [Precedes, Ordering.then_eq_lt, Ordering.then_eq_eq]
    rcases h with h | ⟨h₂, h₃⟩
    · exact .inl (.inl h)
    · have hl := places.length_map (f := xs.get)
      have h₄ := List.pairwise_iff_getElem.1 hw k l (hl ▸ k.2) (hl ▸ l.2) h₃
      exact h₄.imp (fun h₅ => .inr ⟨h₂, h₅⟩) fun h₅ => ⟨⟨h₂, h₅.1⟩, h₅.2⟩

end IsStableSort

/-! ## The merge sort -/

/-- A merge sort keeps what held before between elements that are not told apart. -/
theorem pairwise_mergeSort_of_pairwise {le : α → α → Bool} {r : α → α → Prop}
    (htrans : ∀ a b c, le a b = true → le b c = true → le a c = true)
    (htotal : ∀ a b, (le a b || le b a) = true) (h : xs.Pairwise r) :
    (xs.mergeSort le).Pairwise fun a b => le a b = true ∧ (le b a = true → r a b) := by
  have hs := List.pairwise_mergeSort (List.zipIdxLE_trans htrans) (List.zipIdxLE_total htotal)
    xs.zipIdx
  have hd : ((xs.zipIdx.mergeSort (List.zipIdxLE le)).map Prod.snd).Nodup := by
    rw [((List.mergeSort_perm _ _).map _).nodup_iff, List.zipIdx_map_snd]
    exact List.nodup_range'
  rw [← List.mergeSort_zipIdx, List.pairwise_map]
  refine (hs.and (List.pairwise_map.1 hd)).imp_of_mem fun {a b} ha hb ⟨h₁, h₂⟩ => ?_
  rw [List.mem_mergeSort, List.mem_zipIdx_iff_getElem?] at ha hb
  have h₃ : le a.1 b.1 = true := by
    by_contra hn
    simp [List.zipIdxLE, hn] at h₁
  refine ⟨h₃, fun h₄ => ?_⟩
  have h₅ : a.2 ≤ b.2 := by simpa [List.zipIdxLE, h₃, h₄] using h₁
  obtain ⟨h₆, h₇⟩ := List.getElem?_eq_some_iff.1 ha
  obtain ⟨h₈, h₉⟩ := List.getElem?_eq_some_iff.1 hb
  rw [← h₇, ← h₉]
  exact List.pairwise_iff_getElem.1 h _ _ _ _ (Nat.lt_of_le_of_ne h₅ h₂)

/-- What comes first before all else, and otherwise by the comparison. -/
def dividedBy (first : α → Bool) (cmp : α → α → Ordering) (a b : α) : Ordering :=
  (compare (first b) (first a)).then (cmp a b)

theorem dividedBy_of_eq {first : α → Bool} {a b : α} (h : first a = first b)
    (cmp : α → α → Ordering) : dividedBy first cmp a b = cmp a b := by
  simp [dividedBy, h]

section

variable {cmp : α → α → Ordering} [hc : Std.TransCmp fun i j : Fin xs.length => cmp xs[i] xs[j]]

/-- Places in their order are merged into the order of the elements there. -/
theorem pairwise_mergeSort_precedes {places : List (Fin xs.length)} (h : places.Pairwise (· < ·)) :
    (places.mergeSort fun i j => (cmp xs[i] xs[j]).isLE).Pairwise (Precedes cmp xs) := by
  have hs (i j : Fin xs.length) : cmp xs[i] xs[j] = (cmp xs[j] xs[i]).swap := hc.eq_swap
  let le (i j : Fin xs.length) : Bool := (cmp xs[i] xs[j]).isLE
  have ht (i j : Fin xs.length) : (le i j || le j i) = true := by
    simp only [le, hs i j]
    cases cmp xs[j] xs[i] <;> rfl
  have hm : (places.mergeSort le).Pairwise fun i j => le i j = true ∧ (le j i = true → i < j) :=
    pairwise_mergeSort_of_pairwise (fun _ _ _ => hc.isLE_trans) ht h
  refine hm.imp fun {i j} ⟨h₁, h₂⟩ => ?_
  rcases Ordering.isLE_iff_eq_lt_or_eq_eq.1 h₁ with h₃ | h₃
  · exact .inl h₃
  · refine .inr ⟨h₃, h₂ ?_⟩
    simp only [le, hs j i, h₃]
    rfl

/-- The merge sort of the elements that come first, with the others after them as they are, is the
stable sort that goes by this division and then by the comparison. -/
theorem isStableSort_mergeSort_append {first : α → Bool}
    (hlast : ∀ a b, first a = false → first b = false → cmp a b = .eq) :
    IsStableSort (dividedBy first cmp) xs
      ((xs.filter first).mergeSort (fun a b => (cmp a b).isLE) ++ xs.filter fun a => !first a) := by
  let front := (List.finRange xs.length).filter fun i => first xs[i]
  let back := (List.finRange xs.length).filter fun i => !first xs[i]
  have hfront : ∀ i ∈ front.mergeSort fun i j => (cmp xs[i] xs[j]).isLE, first xs[i] = true :=
    fun i hi => (List.mem_filter.1 (List.mem_mergeSort.1 hi)).2
  have hback : ∀ i ∈ back, first xs[i] = false :=
    fun i hi => Bool.eq_false_of_not_eq_true' (List.mem_filter.1 hi).2
  have hmap (p : α → Bool) : ((List.finRange xs.length).filter fun i => p xs[i]).map xs.get =
      xs.filter p := by
    have h := List.filter_map (f := xs.get) (p := p) (l := List.finRange xs.length)
    rw [List.map_get_finRange] at h
    exact h.symm
  refine ⟨(front.mergeSort fun i j => (cmp xs[i] xs[j]).isLE) ++ back, ?_, ?_, ?_⟩
  · exact ((List.mergeSort_perm _ _).append_right _).trans (List.filter_append_perm _ _)
  · rw [List.map_append, hmap fun a => !first a, ← hmap first]
    congr 1
    exact List.map_mergeSort fun _ _ _ _ => rfl
  · refine List.pairwise_append.2 ⟨?_, ?_, fun i hi j hj => .inl ?_⟩
    · refine (pairwise_mergeSort_precedes ((List.pairwise_lt_finRange _).filter _)).imp_of_mem
        fun {i j} hi hj h => ?_
      rwa [Precedes, dividedBy_of_eq ((hfront i hi).trans (hfront j hj).symm)]
    · refine ((List.pairwise_lt_finRange _).filter _).imp_of_mem fun {i j} hi hj h => .inr ⟨?_, h⟩
      rw [dividedBy_of_eq ((hback i hi).trans (hback j hj).symm)]
      exact hlast _ _ (hback i hi) (hback j hj)
    · rw [dividedBy, hfront i hi, hback j hj]
      rfl

end

end RecordQuery
