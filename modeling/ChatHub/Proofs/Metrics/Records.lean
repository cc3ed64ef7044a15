import ChatHub.Proofs.Metrics.Family
import ChatHub.Proofs.Metrics.Scraping
/-!
What a registry tells of all that was recorded in it.
-/

namespace ChatHub.Metrics

/-- What can be recorded. -/
inductive Record where
  | request (method path : String) (status : Nat) (seconds : Float)
  | command (name : String)
  | rejection (reason : String)
  | session
  /-- A request is being answered from now on. -/
  | arrival
  /-- A request has been answered. -/
  | departure
  /-- The numbers of the hub are read. -/
  | look (stats : Hub.Stats)

namespace Record

/-- Whether the labels under which it is recorded are of a kind. -/
def Labels (P : String → Prop) : Record → Prop
  | request method path _ _ => P method ∧ P (normalizePath path)
  | command name => P name
  | rejection reason => P reason
  | _ => True

def request? : Record → Option (HttpLabels × Float)
  | request method path status seconds => some (⟨method, normalizePath path, status⟩, seconds)
  | _ => none

def command? : Record → Option String
  | command name => some name
  | _ => none

def rejection? : Record → Option String
  | rejection reason => some reason
  | _ => none

end Record

namespace Registry

def record (r : Registry) : Record → Registry
  | .request method path status seconds => r.recordRequest method path status seconds
  | .command name => r.recordCommand name
  | .rejection reason => r.recordRejection reason
  | .session => r.recordSession
  | .arrival => { r with inFlight := r.inFlight + 1 }
  | .departure => { r with inFlight := r.inFlight - 1 }
  | .look stats => r.observeHub stats

/-- A registry in which all that was recorded. -/
def recorded (es : List Record) : Registry := es.foldl record .empty

end Registry

open Registry (record recorded)

open Family (collect)

/-- The children of the second registry are those of the first, with what was recorded. -/
structure Gathered (es : List Record) (r r' : Registry) : Prop where
  requests : r'.requests =
    collect Prod.fst (fun _ => (· + 1)) 0 (es.filterMap Record.request?) r.requests
  durations : r'.durations = collect Prod.fst (fun x => Histogram.observe x.2) .empty
    (es.filterMap Record.request?) r.durations
  commands : r'.commands =
    collect id (fun _ => (· + 1)) 0 (es.filterMap Record.command?) r.commands
  rejected : r'.rejected =
    collect id (fun _ => (· + 1)) 0 (es.filterMap Record.rejection?) r.rejected

section Gather

variable {es es' : List Record} {r r' r'' : Registry}

theorem gathered_record (e : Record) (r : Registry) : Gathered [e] r (record r e) := by
  cases e with
  | look stats =>
    obtain ⟨hub, hlook⟩ : ∃ hub, r.observeHub stats = { r with hub } := ⟨_, rfl⟩
    rw [record, hlook]
    exact ⟨rfl, rfl, rfl, rfl⟩
  | _ => exact ⟨rfl, rfl, rfl, rfl⟩

theorem Gathered.append (h : Gathered es r r') (h' : Gathered es' r' r'') :
    Gathered (es ++ es') r r'' := by
  constructor
  · rw [h'.requests, h.requests, List.filterMap_append, collect, collect, collect,
      List.foldl_append]
  · rw [h'.durations, h.durations, List.filterMap_append, collect, collect, collect,
      List.foldl_append]
  · rw [h'.commands, h.commands, List.filterMap_append, collect, collect, collect,
      List.foldl_append]
  · rw [h'.rejected, h.rejected, List.filterMap_append, collect, collect, collect,
      List.foldl_append]

theorem gathered (es : List Record) (r : Registry) : Gathered es r (es.foldl record r) := by
  induction es generalizing r with
  | nil => exact ⟨rfl, rfl, rfl, rfl⟩
  | cons e es ih => exact (gathered_record e r).append (ih (record r e))

end Gather

/-- A registry has one child for each label set that was recorded, and that tells how often, or how
the times fell between the bounds. -/
structure Kept (es : List Record) (r : Registry) : Prop where
  requests : ∀ l n, (l, n) ∈ r.requests ↔
    0 < n ∧ ((es.filterMap Record.request?).map Prod.fst).count l = n
  durations : ∀ l h, (l, h) ∈ r.durations ↔
    (∃ x ∈ es.filterMap Record.request?, x.1 = l) ∧
      ((es.filterMap Record.request?).filter fun x => x.1 = l).foldl
        (fun h x => h.observe x.2) .empty = h
  commands : ∀ name n, (name, n) ∈ r.commands ↔
    0 < n ∧ (es.filterMap Record.command?).count name = n
  rejected : ∀ reason n, (reason, n) ∈ r.rejected ↔
    0 < n ∧ (es.filterMap Record.rejection?).count reason = n

section Recorded

variable {es : List Record} {P : String → Prop}

theorem gathered_recorded (es : List Record) : Gathered es .empty (recorded es) :=
  gathered es .empty

theorem kept_recorded (es : List Record) : Kept es (recorded es) := by
  have h := gathered_recorded es
  have hself (xs : List String) (k : String) (n : Nat) :
      (k, n) ∈ collect id (fun _ => (· + 1)) 0 xs [] ↔ 0 < n ∧ xs.count k = n := by
    have hcount : (k, n) ∈ collect id (fun _ => (· + 1)) 0 xs [] ↔
        0 < n ∧ (xs.map id).count k = n := Family.mem_collect_count
    rwa [List.map_id] at hcount
  constructor
  case requests =>
    intro l n
    rw [h.requests]
    exact Family.mem_collect_count
  case durations =>
    intro l times
    rw [h.durations]
    exact Family.mem_collect
  case commands =>
    intro name n
    rw [h.commands]
    exact hself _ name n
  case rejected =>
    intro reason n
    rw [h.rejected]
    exact hself _ reason n

/-- The labels of a registry are those under which something was recorded. -/
theorem labelled_recorded_iff : (recorded es).Labelled P ↔ ∀ e ∈ es, e.Labels P := by
  have h := gathered_recorded es
  have hrequests : (∀ child ∈ (recorded es).requests, P child.1.method ∧ P child.1.path) ↔
      ∀ e ∈ es, ∀ x, e.request? = some x → P x.1.method ∧ P x.1.path := by
    rw [h.requests, ← List.forall_mem_filterMap]
    exact Family.forall_mem_collect (P := fun l : HttpLabels => P l.method ∧ P l.path)
  have hdurations : (∀ child ∈ (recorded es).durations, P child.1.method ∧ P child.1.path) ↔
      ∀ e ∈ es, ∀ x, e.request? = some x → P x.1.method ∧ P x.1.path := by
    rw [h.durations, ← List.forall_mem_filterMap]
    exact Family.forall_mem_collect (P := fun l : HttpLabels => P l.method ∧ P l.path)
  have hcommands : (∀ child ∈ (recorded es).commands, P child.1) ↔
      ∀ e ∈ es, ∀ x, e.command? = some x → P x := by
    rw [h.commands, ← List.forall_mem_filterMap]
    exact Family.forall_mem_collect
  have hrejected : (∀ child ∈ (recorded es).rejected, P child.1) ↔
      ∀ e ∈ es, ∀ x, e.rejection? = some x → P x := by
    rw [h.rejected, ← List.forall_mem_filterMap]
    exact Family.forall_mem_collect
  constructor
  · intro hall e he
    cases e with
    | request => exact hrequests.mp hall.requests _ he _ rfl
    | command => exact hcommands.mp hall.commands _ he _ rfl
    | rejection => exact hrejected.mp hall.rejected _ he _ rfl
    | _ => trivial
  · intro hall
    have hhttp : ∀ e ∈ es, ∀ x, e.request? = some x → P x.1.method ∧ P x.1.path := by
      rintro (_ | _) he x ⟨⟩
      exact hall _ he
    refine ⟨hrequests.mpr hhttp, hdurations.mpr hhttp, hrejected.mpr ?_, hcommands.mpr ?_⟩
    · rintro (_ | _ | _) he x ⟨⟩
      exact hall _ he
    · rintro (_ | _) he x ⟨⟩
      exact hall _ he

end Recorded

section Path

variable {path : String}

/-- What stands for a dynamic segment is as good as what is left of a path. -/
theorem forall_mem_normalizePath {p : Char → Prop} (hpath : ∀ c ∈ path.toList, p c)
    (hplaceholder : ∀ c ∈ '/' :: placeholder, p c) : ∀ c ∈ (normalizePath path).toList, p c := by
  intro c hc
  rw [normalizePath, String.toList_ofList] at hc
  obtain rfl | ⟨part, hpart, hin⟩ := Text.of_mem_joinWith hc
  · exact hplaceholder _ List.mem_cons_self
  · obtain ⟨segment, hsegment, rfl⟩ := List.mem_map.mp hpart
    rw [normalizeSegment] at hin
    split at hin
    next => exact hplaceholder c (List.mem_cons_of_mem _ hin)
    next => exact hpath c (Text.mem_of_mem_splitAt hsegment hin)

theorem isPlain_normalizePath (hpath : IsPlain path) : IsPlain (normalizePath path) :=
  forall_mem_normalizePath hpath (by simp [placeholder, isSpecial])

theorem line_not_mem_normalizePath (hpath : '\n' ∉ path.toList) :
    '\n' ∉ (normalizePath path).toList := by
  have hchars : ∀ c ∈ path.toList, c ≠ '\n' := fun c hc heq => hpath (heq ▸ hc)
  exact fun hin => forall_mem_normalizePath hchars (by simp [placeholder]) '\n' hin rfl

end Path

end ChatHub.Metrics
