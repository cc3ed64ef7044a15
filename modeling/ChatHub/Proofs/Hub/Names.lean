import ChatHub.Hub.Rooms
import Mathlib.Data.Finset.Sort
import Mathlib.Data.String.Basic
/-!
Names in increasing order.  Whatever the order in which names are given, there is one list of them
that is in order, so that it does not matter how a set of them was kept.
-/

namespace ChatHub

/-- An increasing list is its set in order. -/
theorem eq_sort_of_increasing {l : List String} {s : Finset String}
    (hl : l.Pairwise (· < ·)) (hmem : ∀ t, t ∈ l ↔ t ∈ s) : l = s.sort (· ≤ ·) := by
  have hs : l.toFinset = s := Finset.ext fun t => List.mem_toFinset.trans (hmem t)
  have hnodup : l.Nodup := hl.imp fun hlt => String.ne_of_lt hlt
  rw [← hs]
  exact ((List.toFinset_sort (· ≤ ·) hnodup).mpr (hl.imp fun hlt => le_of_lt hlt)).symm

section Distinct

theorem mem_insertName {s t : String} {names : List String} :
    t ∈ insertName s names ↔ t = s ∨ t ∈ names := by
  induction names with
  | nil => simp [insertName]
  | cons u us ih =>
    rw [insertName]
    split
    next => simp only [List.mem_cons]
    next =>
      split
      next heq =>
        rw [beq_iff_eq] at heq
        subst heq
        simp only [List.mem_cons, or_self_left]
      next =>
        simp only [List.mem_cons, ih]
        exact or_left_comm

theorem mem_distinctNames {t : String} {names : List String} :
    t ∈ distinctNames names ↔ t ∈ names := by
  rw [distinctNames]
  induction names with
  | nil => rfl
  | cons u us ih => rw [List.foldr_cons, mem_insertName, ih, List.mem_cons]

theorem insertName_sorted {s : String} {names : List String} (hnames : names.Pairwise (· < ·)) :
    (insertName s names).Pairwise (· < ·) := by
  induction names with
  | nil => simp [insertName]
  | cons u us ih =>
    rw [List.pairwise_cons] at hnames
    rw [insertName]
    split
    next hlt =>
      rw [List.pairwise_cons, List.pairwise_cons]
      refine ⟨?_, hnames⟩
      intro t ht
      rcases List.mem_cons.mp ht with rfl | hrest
      · exact hlt
      · exact String.lt_trans hlt (hnames.1 t hrest)
    next hnlt =>
      split
      next => exact List.pairwise_cons.mpr hnames
      next hne =>
        rw [List.pairwise_cons]
        refine ⟨?_, ih hnames.2⟩
        intro t ht
        rcases mem_insertName.mp ht with rfl | hrest
        · by_contra hge
          exact hne (beq_iff_eq.mpr (String.le_antisymm hge hnlt))
        · exact hnames.1 t hrest

theorem distinctNames_increasing (names : List String) :
    (distinctNames names).Pairwise (· < ·) := by
  induction names with
  | nil => exact .nil
  | cons s names ih => exact insertName_sorted ih

theorem distinctNames_eq_sort {names : List String} {s : Finset String}
    (hmem : ∀ t, t ∈ names ↔ t ∈ s) : distinctNames names = s.sort (· ≤ ·) :=
  eq_sort_of_increasing (distinctNames_increasing names) fun t => mem_distinctNames.trans (hmem t)

end Distinct

section ByName

variable {α : Type} {name : α → String}

theorem insertByName_eq_orderedInsert (a : α) (bs : List α) :
    insertByName name a bs = bs.orderedInsert (fun a b => name a ≤ name b) a := by
  induction bs with
  | nil => rfl
  | cons b bs ih => rw [insertByName, List.orderedInsert_cons, ih]

theorem sortByName_eq_insertionSort (as : List α) :
    sortByName name as = as.insertionSort fun a b => name a ≤ name b := by
  induction as with
  | nil => rfl
  | cons a as ih =>
    rw [List.insertionSort_cons, ← ih, ← insertByName_eq_orderedInsert]
    rfl

theorem sortByName_perm (as : List α) : (sortByName name as).Perm as := by
  rw [sortByName_eq_insertionSort]
  exact List.perm_insertionSort _ as

theorem mem_sortByName {a : α} {as : List α} : a ∈ sortByName name as ↔ a ∈ as :=
  (sortByName_perm as).mem_iff

theorem sortNames_perm (names : List String) : (sortNames names).Perm names :=
  sortByName_perm names

theorem mem_sortNames {t : String} {names : List String} : t ∈ sortNames names ↔ t ∈ names :=
  mem_sortByName

theorem sortNames_increasing {names : List String} (hnames : names.Nodup) :
    (sortNames names).Pairwise (· < ·) := by
  have hle : (sortNames names).Pairwise (· ≤ ·) := by
    rw [sortNames, sortByName_eq_insertionSort]
    exact List.pairwise_insertionSort (fun s t : String => s ≤ t) names
  exact hle.imp₂ (fun s t hst hne => lt_of_le_of_ne hst hne)
    ((sortNames_perm names).nodup_iff.mpr hnames)

theorem sortNames_eq_sort {names : List String} {s : Finset String} (hnames : names.Nodup)
    (hmem : ∀ t, t ∈ names ↔ t ∈ s) : sortNames names = s.sort (· ≤ ·) :=
  eq_sort_of_increasing (sortNames_increasing hnames) fun t => mem_sortNames.trans (hmem t)

/-- What bears its own name is put in order by the names alone. -/
theorem sortByName_map {g : String → α} (hg : ∀ t, name (g t) = t) (names : List String) :
    sortByName name (names.map g) = (sortNames names).map g := by
  rw [sortNames, sortByName_eq_insertionSort, sortByName_eq_insertionSort]
  refine (List.map_insertionSort _ _ g names fun s _ t _ => ?_).symm
  rw [hg, hg]
  rfl

end ByName

end ChatHub
