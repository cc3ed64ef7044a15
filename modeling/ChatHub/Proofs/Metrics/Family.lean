import ChatHub.Metrics.Registry
import Mathlib.Algebra.Order.Ring.Nat
import Mathlib.Data.List.Nodup
/-!
Families of counters and the like.  Each label set has one child, which tells of what was recorded
under it and of nothing else.
-/

namespace ChatHub.Metrics.Family

section Adjust

variable {κ α : Type} [DecidableEq κ]

theorem keys_adjust (f : α → α) (fresh : α) (key : κ) (fam : Family κ α) :
    (adjust f fresh key fam).map Prod.fst =
      if key ∈ fam.map Prod.fst then fam.map Prod.fst else fam.map Prod.fst ++ [key] := by
  induction fam with
  | nil => rfl
  | cons child rest ih =>
    obtain ⟨k, a⟩ := child
    by_cases hhere : k = key
    · simp [adjust, hhere]
    · have hother : key ≠ k := Ne.symm hhere
      simp only [adjust, hhere, if_false, List.map_cons, ih, List.mem_cons, hother, false_or]
      split
      next => rfl
      next => rfl

theorem sum_adjust (key : κ) (fam : Family κ Nat) :
    ((adjust (· + 1) 0 key fam).map Prod.snd).sum = (fam.map Prod.snd).sum + 1 := by
  induction fam with
  | nil => rfl
  | cons child rest ih =>
    obtain ⟨k, n⟩ := child
    by_cases hhere : k = key
    · simp only [adjust, hhere, if_true, List.map_cons, List.sum_cons]
      omega
    · simp only [adjust, hhere, if_false, List.map_cons, List.sum_cons, ih]
      omega

theorem nodup_adjust {f : α → α} {fresh : α} {key : κ} {fam : Family κ α}
    (hfam : (fam.map Prod.fst).Nodup) : ((adjust f fresh key fam).map Prod.fst).Nodup := by
  rw [keys_adjust]
  split
  next => exact hfam
  next hnew => exact List.concat_eq_append ▸ hfam.concat hnew

theorem get?_adjust (f : α → α) (fresh : α) (key k : κ) (fam : Family κ α) :
    get? k (adjust f fresh key fam) =
      if key = k then some (f ((get? k fam).getD fresh)) else get? k fam := by
  induction fam with
  | nil => by_cases heq : key = k <;> simp [adjust, get?, heq]
  | cons child rest ih =>
    obtain ⟨k', a⟩ := child
    by_cases hhere : k' = key
    · by_cases heq : key = k <;> simp [adjust, get?, hhere, heq]
    · by_cases hk : k' = k
      · have hother : key ≠ k := fun heq => hhere (hk.trans heq.symm)
        simp [adjust, get?, hk, hother, Ne.symm hother]
      · simpa [adjust, get?, hhere, hk] using ih

theorem mem_iff_get? {k : κ} {a : α} {fam : Family κ α} (hfam : (fam.map Prod.fst).Nodup) :
    (k, a) ∈ fam ↔ get? k fam = some a := by
  induction fam with
  | nil => simp [get?]
  | cons child rest ih =>
    obtain ⟨k', b⟩ := child
    obtain ⟨hnew, hrest⟩ := List.nodup_cons.mp hfam
    by_cases heq : k' = k
    · subst heq
      have hnone : (k', a) ∉ rest := fun hin => hnew (List.mem_map.mpr ⟨(k', a), hin, rfl⟩)
      simp [get?, hnone, eq_comm]
    · have hother : k ≠ k' := Ne.symm heq
      simpa [get?, heq, hother] using ih hrest

end Adjust

section Collect

variable {ι κ α : Type} [DecidableEq κ]

/-- Lets each item change the child of its label set. -/
def collect (key : ι → κ) (f : ι → α → α) (fresh : α) (xs : List ι) (fam : Family κ α) :
    Family κ α :=
  xs.foldl (fun fam x => adjust (f x) fresh (key x) fam) fam

variable {key : ι → κ} {f : ι → α → α} {fresh a : α} {xs : List ι} {fam : Family κ α} {k : κ}

theorem nodup_collect (hfam : (fam.map Prod.fst).Nodup) :
    ((collect key f fresh xs fam).map Prod.fst).Nodup := by
  induction xs generalizing fam with
  | nil => exact hfam
  | cons x xs ih => exact ih (nodup_adjust hfam)

/-- Which label sets have children, and in which order, does not depend on what the children are. -/
theorem keys_collect_eq {β : Type} {f' : ι → β → β} {fresh' : β} {fam' : Family κ β}
    (hkeys : fam.map Prod.fst = fam'.map Prod.fst) :
    (collect key f fresh xs fam).map Prod.fst = (collect key f' fresh' xs fam').map Prod.fst := by
  induction xs generalizing fam fam' with
  | nil => exact hkeys
  | cons x xs ih =>
    apply ih
    rw [keys_adjust, keys_adjust, hkeys]

/-- The child of a label set has gone through the items of that set, in their order. -/
theorem getD_get?_collect (key : ι → κ) (f : ι → α → α) (fresh : α) (xs : List ι) (k : κ)
    (fam : Family κ α) : (get? k (collect key f fresh xs fam)).getD fresh =
      (xs.filter fun x => key x = k).foldl (fun a x => f x a) ((get? k fam).getD fresh) := by
  induction xs generalizing fam with
  | nil => rfl
  | cons x xs ih =>
    have hrest := ih (adjust (f x) fresh (key x) fam)
    rw [get?_adjust] at hrest
    by_cases hkey : key x = k
    · rw [if_pos hkey, Option.getD_some] at hrest
      rw [List.filter_cons_of_pos (by simpa using hkey)]
      exact hrest
    · rw [if_neg hkey] at hrest
      rw [List.filter_cons_of_neg (by simpa using hkey)]
      exact hrest

theorem isSome_get?_collect (key : ι → κ) (f : ι → α → α) (fresh : α) (xs : List ι) (k : κ)
    (fam : Family κ α) : (get? k (collect key f fresh xs fam)).isSome = true ↔
      (get? k fam).isSome = true ∨ ∃ x ∈ xs, key x = k := by
  induction xs generalizing fam with
  | nil => simp [collect]
  | cons x xs ih =>
    have hrest := ih (adjust (f x) fresh (key x) fam)
    rw [get?_adjust] at hrest
    rw [List.exists_mem_cons_iff, ← or_assoc]
    refine hrest.trans (or_congr_left ?_)
    by_cases hkey : key x = k
    · simp [hkey]
    · simp [hkey]

/-- The children of a family that was empty are those of the label sets of the items. -/
theorem mem_collect : (k, a) ∈ collect key f fresh xs [] ↔
    (∃ x ∈ xs, key x = k) ∧ (xs.filter fun x => key x = k).foldl (fun a x => f x a) fresh = a := by
  have hnodup : (([] : Family κ α).map Prod.fst).Nodup := List.nodup_nil
  have hnone : get? k ([] : Family κ α) = none := rfl
  have hvalue := getD_get?_collect key f fresh xs k []
  have hsome : (get? k (collect key f fresh xs [])).isSome = true ↔ ∃ x ∈ xs, key x = k := by
    rw [isSome_get?_collect, hnone, Option.isSome_none, Bool.false_eq_true, false_or]
  rw [hnone, Option.getD_none] at hvalue
  rw [mem_iff_get? (nodup_collect hnodup), ← hvalue, ← hsome]
  cases get? k (collect key f fresh xs []) with
  | none => simp
  | some b => simp

/-- A counter tells how many items of its label set there were. -/
theorem getD_get?_collect_count (key : ι → κ) (xs : List ι) (k : κ) :
    (get? k (collect key (fun _ => (· + 1)) 0 xs [])).getD 0 = (xs.map key).count k := by
  have hcount (ys : List ι) (m : Nat) : ys.foldl (fun n _ => n + 1) m = m + ys.length := by
    induction ys generalizing m with
    | nil => rfl
    | cons y ys ih => rw [List.foldl_cons, ih, List.length_cons, Nat.add_assoc, Nat.add_comm 1]
  have hfilter : (xs.filter fun x => key x = k).length = (xs.map key).count k := by
    rw [List.count, List.countP_map, List.countP_eq_length_filter]
    rfl
  rw [getD_get?_collect, hcount, hfilter]
  exact Nat.zero_add _

theorem mem_collect_count {n : Nat} :
    (k, n) ∈ collect key (fun _ => (· + 1)) 0 xs [] ↔ 0 < n ∧ (xs.map key).count k = n := by
  have hvalue := getD_get?_collect key (fun _ => (· + 1)) 0 xs k []
  rw [getD_get?_collect_count] at hvalue
  rw [mem_collect, ← List.mem_map, ← List.count_pos_iff, hvalue]
  exact and_congr_left fun hsame => by rw [← hsame]; rfl

/-- Together the counters tell how many items there were. -/
theorem sum_collect (key : ι → κ) (xs : List ι) (fam : Family κ Nat) :
    ((collect key (fun _ => (· + 1)) 0 xs fam).map Prod.snd).sum =
      (fam.map Prod.snd).sum + xs.length := by
  induction xs generalizing fam with
  | nil => rfl
  | cons x xs ih =>
    have hrest := ih (adjust (· + 1) 0 (key x) fam)
    rw [sum_adjust] at hrest
    rw [List.length_cons, Nat.add_comm xs.length, ← Nat.add_assoc]
    exact hrest

theorem forall_mem_collect {P : κ → Prop} :
    (∀ child ∈ collect key f fresh xs [], P child.1) ↔ ∀ x ∈ xs, P (key x) := by
  constructor
  · intro hall x hx
    exact hall (key x, _) (mem_collect.mpr ⟨⟨x, hx, rfl⟩, rfl⟩)
  · rintro hall ⟨k, a⟩ hin
    obtain ⟨⟨x, hx, rfl⟩, -⟩ := mem_collect.mp hin
    exact hall x hx

end Collect

end ChatHub.Metrics.Family
