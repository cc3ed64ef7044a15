import ChatHub.Proofs.Metrics.Records
import ChatHub.Proofs.Text.Bytes
/-!
Requests with the same labels are counted together, and no others.  The labels have the path with
its dynamic segments replaced, so that two paths are told apart just if they differ elsewhere.
-/

namespace ChatHub.Metrics

open Text (joinWith splitAt)

/-- What stands between the slashes of a path. -/
def segments (path : String) : List (List Char) := splitAt '/' path.toList

/-- A number, or 36 bytes with a dash among them. -/
def IsDynamic (segment : List Char) : Prop :=
  segment ≠ [] ∧ (∀ c ∈ segment, c.isDigit = true) ∨
    (segment.flatMap Text.bytesOf).length = 36 ∧ '-' ∈ segment

/-- A segment, and what is left of it. -/
def Normalized (s s' : List Char) : Prop :=
  IsDynamic s ∧ s' = placeholder ∨ ¬ IsDynamic s ∧ s' = s

/-- Two segments that cannot be told apart: those that are replaced, or look as if they had been,
are all alike. -/
def Alike (s s' : List Char) : Prop :=
  s = s' ∨ (IsDynamic s ∨ s = placeholder) ∧ (IsDynamic s' ∨ s' = placeholder)

section Segment

variable {s s' : List Char}

theorem utf8ByteSize_ofList (cs : List Char) :
    (String.ofList cs).utf8ByteSize = (cs.flatMap Text.bytesOf).length := by
  rw [← Text.toUTF8_ofList]
  rfl

theorem isDynamic_iff : isDynamic s = true ↔ IsDynamic s := by
  have hdash : '-' ∈ s → s ≠ [] := List.ne_nil_of_mem
  simp only [isDynamic, utf8ByteSize_ofList, Bool.and_eq_true, Bool.or_eq_true, Bool.not_eq_true',
    decide_eq_true_eq, List.contains_iff_mem, List.all_eq_true, IsDynamic, Bool.eq_false_iff,
    ne_eq, List.isEmpty_iff]
  tauto

theorem not_isDynamic_placeholder : ¬ IsDynamic placeholder := by
  rw [← isDynamic_iff]
  decide +kernel

theorem normalizeSegment_of_isDynamic (h : IsDynamic s) : normalizeSegment s = placeholder :=
  if_pos (isDynamic_iff.mpr h)

theorem normalizeSegment_of_not (h : ¬ IsDynamic s) : normalizeSegment s = s :=
  if_neg fun hdynamic => h (isDynamic_iff.mp hdynamic)

theorem normalized_normalizeSegment (s : List Char) : Normalized s (normalizeSegment s) := by
  by_cases h : IsDynamic s
  · exact Or.inl ⟨h, normalizeSegment_of_isDynamic h⟩
  · exact Or.inr ⟨h, normalizeSegment_of_not h⟩

theorem normalizeSegment_idem (s : List Char) :
    normalizeSegment (normalizeSegment s) = normalizeSegment s := by
  by_cases h : IsDynamic s
  · rw [normalizeSegment_of_isDynamic h, normalizeSegment_of_not not_isDynamic_placeholder]
  · rw [normalizeSegment_of_not h, normalizeSegment_of_not h]

theorem normalizeSegment_eq_placeholder_iff :
    normalizeSegment s = placeholder ↔ IsDynamic s ∨ s = placeholder := by
  by_cases h : IsDynamic s
  · exact iff_of_true (normalizeSegment_of_isDynamic h) (Or.inl h)
  · rw [normalizeSegment_of_not h, or_iff_right h]

theorem normalizeSegment_eq_iff : normalizeSegment s = normalizeSegment s' ↔ Alike s s' := by
  rw [Alike, ← normalizeSegment_eq_placeholder_iff, ← normalizeSegment_eq_placeholder_iff]
  constructor
  · intro heq
    by_cases h : normalizeSegment s = placeholder
    · exact Or.inr ⟨h, heq ▸ h⟩
    · have h' : ¬ normalizeSegment s' = placeholder := heq ▸ h
      rw [normalizeSegment_eq_placeholder_iff, not_or] at h h'
      rw [normalizeSegment_of_not h.1, normalizeSegment_of_not h'.1] at heq
      exact Or.inl heq
  · rintro (rfl | ⟨h, h'⟩)
    · rfl
    · rw [h, h']

theorem slash_not_mem_normalizeSegment (hs : '/' ∉ s) : '/' ∉ normalizeSegment s := by
  rw [normalizeSegment]
  split
  next => decide
  next => exact hs

end Segment

section Path

variable (path other : String)

theorem segments_normalizePath :
    segments (normalizePath path) = (segments path).map normalizeSegment := by
  rw [segments, normalizePath, String.toList_ofList, Text.splitAt_joinWith]
  · rfl
  · rw [ne_eq, List.map_eq_nil_iff]
    exact Text.splitAt_ne_nil '/' path.toList
  · intro part hpart
    obtain ⟨segment, hsegment, rfl⟩ := List.mem_map.mp hpart
    exact slash_not_mem_normalizeSegment (Text.not_mem_of_mem_splitAt hsegment)

theorem segments_injective : Function.Injective segments := by
  intro p q heq
  rw [← String.toList_inj, ← Text.joinWith_splitAt '/' p.toList,
    ← Text.joinWith_splitAt '/' q.toList]
  exact congrArg (joinWith '/') heq

/-- What becomes of a path as a label, and what is no longer seen of it. -/
structure Labelling (path : String) : Prop where
  replaced : List.Forall₂ Normalized (segments path) (segments (normalizePath path))
  idempotent : normalizePath (normalizePath path) = normalizePath path
  alike : ∀ other, normalizePath path = normalizePath other ↔
    List.Forall₂ Alike (segments path) (segments other)

theorem labelling (path : String) : Labelling path where
  replaced := by
    rw [segments_normalizePath, List.forall₂_map_right_iff, List.forall₂_same]
    exact fun s _ => normalized_normalizeSegment s
  idempotent := by
    apply segments_injective
    rw [segments_normalizePath, segments_normalizePath, List.map_map]
    exact List.map_congr_left fun s _ => normalizeSegment_idem s
  alike := by
    intro other
    rw [← segments_injective.eq_iff, segments_normalizePath, segments_normalizePath,
      ← List.forall₂_eq_eq_eq, List.forall₂_map_left_iff, List.forall₂_map_right_iff]
    simp only [normalizeSegment_eq_iff]

end Path

namespace Record

/-- Whether it is a request that is recorded under these labels. -/
def isCall (l : HttpLabels) : Record → Bool
  | request method path status _ => l = ⟨method, normalizePath path, status⟩
  | _ => false

theorem isCall_iff {l : HttpLabels} {e : Record} :
    e.isCall l = true ↔ ∃ seconds, e.request? = some (l, seconds) := by
  cases e with
  | request method path status seconds => simp [isCall, request?, eq_comm]
  | _ => simp [isCall, request?]

end Record

/-- The requests that were recorded, by their labels: how often those of each were counted and
timed. -/
structure Partitioned (es : List Record) (r : Registry) : Prop where
  counted : ∀ l n, (l, n) ∈ r.requests ↔ 0 < n ∧ es.countP (Record.isCall l) = n
  timed : ∀ l n, (∃ times, (l, times) ∈ r.durations ∧ times.count = n) ↔
    0 < n ∧ es.countP (Record.isCall l) = n
  in_step : r.durations.map Prod.fst = r.requests.map Prod.fst
  nodup : (r.requests.map Prod.fst).Nodup
  sum : (r.requests.map Prod.snd).sum = es.countP fun e => e.request?.isSome

section Count

variable {es : List Record} {l : HttpLabels}

theorem count_foldl_observe (xs : List (HttpLabels × Float)) (h : Histogram) :
    (xs.foldl (fun h x => h.observe x.2) h).count = h.count + xs.length := by
  induction xs generalizing h with
  | nil => rfl
  | cons x xs ih =>
    have hobserve : (h.observe x.2).count = h.count + 1 := rfl
    rw [List.foldl_cons, ih, hobserve, List.length_cons]
    omega

theorem countP_isCall (l : HttpLabels) (es : List Record) :
    es.countP (Record.isCall l) = ((es.filterMap Record.request?).map Prod.fst).count l := by
  rw [List.count, List.countP_map, List.countP_filterMap]
  apply List.countP_congr
  intro e _
  rw [Record.isCall_iff]
  cases e.request? with
  | none => simp
  | some x => simp [Prod.ext_iff]

theorem partitioned_recorded (es : List Record) : Partitioned es (Registry.recorded es) := by
  have h := gathered_recorded es
  have hkept := kept_recorded es
  have hkeys : (Registry.recorded es).durations.map Prod.fst =
      (Registry.recorded es).requests.map Prod.fst := by
    rw [h.requests, h.durations]
    exact Family.keys_collect_eq rfl
  constructor
  case counted =>
    intro l n
    rw [hkept.requests, countP_isCall]
  case timed =>
    intro l n
    have hlength : ((es.filterMap Record.request?).filter fun x => x.1 = l).length =
        es.countP (Record.isCall l) := by
      rw [countP_isCall, List.count, List.countP_map, List.countP_eq_length_filter]
      rfl
    have hsome : (∃ x ∈ es.filterMap Record.request?, x.1 = l) ↔
        0 < es.countP (Record.isCall l) := by
      rw [countP_isCall, List.count_pos_iff, List.mem_map]
    have hempty : Histogram.empty.count = 0 := rfl
    simp only [hkept.durations, hsome, and_assoc, exists_and_left, exists_eq_left',
      count_foldl_observe, hlength, hempty, Nat.zero_add]
    exact and_congr_left fun hn => by rw [hn]
  case in_step => exact hkeys
  case nodup =>
    rw [h.requests]
    exact Family.nodup_collect List.nodup_nil
  case sum =>
    rw [h.requests, Family.sum_collect, List.length_filterMap_eq_countP]
    exact Nat.zero_add _

end Count

/-- Requests are parted by method, status and what is left of the path, and each part is counted
and timed by itself. -/
theorem requests_partitioned :
    (∀ path, Labelling path) ∧ ∀ es, Partitioned es (Registry.recorded es) :=
  ⟨labelling, partitioned_recorded⟩

end ChatHub.Metrics
