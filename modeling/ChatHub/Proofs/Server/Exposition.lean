import ChatHub.Proofs.Server.Measurements
/-!
How the metrics of a server are read by whoever scrapes it.  The paths of requests become labels as
they are, and a client may send any path; so it takes one with a quote or a backslash in it to make
the whole text useless.
-/

namespace ChatHub

namespace Http

/-- Whether a character may stand in the name of a method. -/
def isTokenChar (c : Char) : Bool := c.isAlphanum || "!#$%&'*+-.^_`|~".toList.contains c

/-- Whether a character is neither a blank nor a control character. -/
def isPathChar (c : Char) : Bool := ' ' < c

/-- What a request must be like to get as far as the server: its method is made of token characters,
and there is no blank and no control character in its path. -/
structure Request.Admissible (r : Request) : Prop where
  method : ∀ c ∈ r.method.toList, isTokenChar c = true
  path : ∀ c ∈ r.target.path.toList, isPathChar c = true

end Http

namespace Server

open Metrics (IsPlain Kept Record Registry normalizePath scrape?)
open Metrics.Registry (record recorded)

/-- The path of a request is recorded with nothing in it that a label would have to escape. -/
def PlainPath : Record → Prop
  | .request _ path _ _ => IsPlain (normalizePath path)
  | _ => True

section Labels

theorem isPlain_of_isTokenChar {method : String}
    (hmethod : ∀ c ∈ method.toList, Http.isTokenChar c = true) : IsPlain method :=
  Metrics.isPlain_of_forall rfl rfl rfl hmethod

theorem isPlain_commandLabel (text : String) : IsPlain (commandLabel text) := by
  have hall : ∀ name ∈ commandLabels, IsPlain name := by decide
  exact hall _ (named text).known

theorem isPlain_reason {refusal : Refusal} {reason : String}
    (hreason : refusal.reason? = some reason) : IsPlain reason := by
  have hall : ∀ name ∈ ["unauthorized", "origin", "capacity"], IsPlain name := by decide
  cases refusal <;> cases hreason <;> exact hall _ (by simp)

variable {e : Record}

theorem Recordable.lines (he : Recordable Http.Request.Admissible e) :
    e.Labels fun v => '\n' ∉ v.toList := by
  cases he with
  | request hr status seconds =>
    refine ⟨Metrics.line_not_mem_of_isPlain (isPlain_of_isTokenChar hr.method), ?_⟩
    apply Metrics.line_not_mem_normalizePath
    exact fun hin => Bool.false_ne_true (hr.path '\n' hin)
  | command text => exact Metrics.line_not_mem_of_isPlain (isPlain_commandLabel text)
  | rejection hreason => exact Metrics.line_not_mem_of_isPlain (isPlain_reason hreason)
  | _ => trivial

/-- Of all labels only paths may have anything to escape. -/
theorem Recordable.labels_iff (he : Recordable Http.Request.Admissible e) :
    e.Labels IsPlain ↔ PlainPath e := by
  cases he with
  | request hr status seconds => exact and_iff_right (isPlain_of_isTokenChar hr.method)
  | command text => exact iff_true_intro (isPlain_commandLabel text)
  | rejection hreason => exact iff_true_intro (isPlain_reason hreason)
  | _ => exact Iff.rfl

end Labels

section Reading

variable {es : List Record} (hes : ∀ e ∈ es, Recordable Http.Request.Admissible e)

include hes

theorem isPlain_recorded_iff : (recorded es).Labelled IsPlain ↔ ∀ e ∈ es, PlainPath e :=
  Metrics.labelled_recorded_iff.trans (forall₂_congr fun e he => (hes e he).labels_iff)

theorem sound_recorded : ∀ m ∈ (recorded es).metrics, m.Sound :=
  Registry.sound (Metrics.labelled_recorded_iff.mpr fun e he => (hes e he).lines)

theorem scrape?_recorded_iff :
    scrape? (recorded es).encode = some (recorded es).samples ↔ ∀ e ∈ es, PlainPath e := by
  rw [Metrics.scrape?_encode_iff (sound_recorded hes), Registry.isPlain_labels_iff,
    isPlain_recorded_iff hes]

end Reading

/-- The metrics can be read again, unless a path spoils them.  Whatever is recorded, a registry has
one value for each label set under which something was recorded, and what is read off its text is
just these values if no path has kept a quote or a backslash, and something else or nothing if one
has.  In the former case no two of them have the same line. -/
theorem metrics_read_back_iff {es : List Record}
    (hes : ∀ e ∈ es, Recordable Http.Request.Admissible e) :
    let r := recorded es
    Kept es r ∧ (scrape? r.encode = some r.samples ↔ ∀ e ∈ es, PlainPath e) ∧
      ((∀ e ∈ es, PlainPath e) → ∀ s ∈ r.samples,
        Metrics.Sample.read? s.write.toList = some s ∧
          ∀ s' ∈ r.samples, s.write = s'.write → s = s') := by
  intro r
  refine ⟨Metrics.kept_recorded es, scrape?_recorded_iff hes, fun hpaths s hs => ?_⟩
  have hplain : r.Labelled IsPlain := (isPlain_recorded_iff hes).mpr hpaths
  refine ⟨Registry.read?_write hplain hs, fun s' hs' hsame => ?_⟩
  have hread := Registry.read?_write hplain hs
  rw [hsame, Registry.read?_write hplain hs'] at hread
  exact (Option.some.inj hread).symm

/-- The values of a request and of a command that could not be read. -/
theorem health_is_read_back :
    let es : List Record := [.request "GET" "/health" 200 0.25, .command (commandLabel "?")]
    scrape? (recorded es).encode = some (recorded es).samples := by
  intro es
  have hr : Http.Request.Admissible ⟨"GET", ⟨"/health", none⟩, []⟩ :=
    ⟨List.all_eq_true.mp (by decide), List.all_eq_true.mp (by decide)⟩
  have hes : ∀ e ∈ es, Recordable Http.Request.Admissible e := List.forall_mem_cons.mpr
    ⟨.request hr 200 0.25, List.forall_mem_singleton.mpr (.command "?")⟩
  have hplain : IsPlain (normalizePath "/health") := by decide +kernel
  have hpaths : ∀ e ∈ es, PlainPath e :=
    List.forall_mem_cons.mpr ⟨hplain, List.forall_mem_singleton.mpr trivial⟩
  exact (metrics_read_back_iff hes).2.1.mpr hpaths

/-- Nobody reads anything any more once somebody has asked for a quote. -/
theorem quote_spoils_metrics :
    let es : List Record := [.request "GET" "/\"" 404 0.25]
    (∀ e ∈ es, Recordable Http.Request.Admissible e) ∧ scrape? (recorded es).encode = none := by
  intro es
  have hr : Http.Request.Admissible ⟨"GET", ⟨"/\"", none⟩, []⟩ :=
    ⟨List.all_eq_true.mp (by decide), List.all_eq_true.mp (by decide)⟩
  have hes : ∀ e ∈ es, Recordable Http.Request.Admissible e :=
    List.forall_mem_singleton.mpr (.request hr 404 0.25)
  refine ⟨hes, ?_⟩
  rw [Metrics.scrape?_encode (sound_recorded hes)]
  let first : Metrics.Sample := ⟨"chirm_http_requests_total",
    [("method", "GET"), ("path", normalizePath "/\""), ("status", toString 404)], toString 1⟩
  have hfirst : ∃ rest, (recorded es).samples = first :: rest := ⟨_, rfl⟩
  let behindPath := "\",status=\"404\"\x7d 1".toList
  let behindMethod := "path=\"/\"".toList ++ behindPath
  let behindName := "method=\"GET\"".toList ++ ',' :: behindMethod
  have hname : Metrics.readName? first.write.toList =
      some ("chirm_http_requests_total", '\x7b' :: behindName) := by decide +kernel
  have hmethod : Metrics.readLabel? behindName = some (("method", "GET"), ',' :: behindMethod) := by
    decide +kernel
  -- the path ends at its own quote, and what comes then is no further label
  have hpath : Metrics.readLabel? behindMethod = some (("path", "/"), behindPath) := by
    decide +kernel
  have hlabels : Metrics.readLabels? behindName = none := by
    rw [Metrics.readLabels?_of_comma hmethod, Metrics.readLabels?_of_other hpath (by decide)]
    rfl
  have hnone : Metrics.Sample.read? first.write.toList = none := by
    rw [Metrics.Sample.read?, hname]
    simp only [hlabels]
  obtain ⟨rest, hrest⟩ := hfirst
  rw [hrest, List.mapM_cons, hnone]
  rfl

/-- All that a server measures is a row of such records.  So whoever can reach it can spoil its
metrics. -/
theorem scrape?_run_iff (config : Config) {actions : List (Moment × Action)}
    (hasked : ∀ r ∈ asked actions, r.Admissible) :
    let m := ((new config).run actions).metrics
    scrape? m.encode = some m.samples ↔
      ∀ r ∈ asked actions, IsPlain (normalizePath r.target.path) := by
  intro m
  obtain ⟨es, htells, hm⟩ := measures_run (new config) actions
  have hrecorded : m = recorded es := hm
  rw [hrecorded, scrape?_recorded_iff fun e he => (htells.recordable e he).mono hasked]
  constructor
  · intro hplain r hr
    obtain ⟨status, seconds, hin⟩ := htells.requests r hr
    exact hplain _ hin
  · intro hplain e he
    cases htells.recordable e he with
    | request hr status seconds => exact hplain _ hr
    | _ => trivial

/-- Nobody spoils them who sends no quote and no backslash in a path. -/
theorem scrape?_run_of_isPlain (config : Config) {actions : List (Moment × Action)}
    (hasked : ∀ r ∈ asked actions, r.Admissible)
    (hplain : ∀ r ∈ asked actions, IsPlain r.target.path) :
    scrape? ((new config).run actions).metrics.encode =
      some ((new config).run actions).metrics.samples :=
  (scrape?_run_iff config hasked).mpr fun r hr => Metrics.isPlain_normalizePath (hplain r hr)

end Server

end ChatHub
