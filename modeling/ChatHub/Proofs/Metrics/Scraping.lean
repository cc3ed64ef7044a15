import ChatHub.Proofs.Metrics.Reading
/-!
How the whole text of the metrics is read: line by line, without those that describe a metric.  What
was written is read again just if no label value has anything to escape.
-/

namespace ChatHub.Metrics

open Text (splitAt)

/-- Whether a line has a value to tell: it is not empty, and no comment. -/
def isValueLine (line : List Char) : Bool := !line.isEmpty && line.head? != some '#'

/-- Reads all samples of a text.  One line that cannot be read spoils everything. -/
def scrape? (text : String) : Option (List Sample) :=
  ((splitAt '\n' text.toList).filter isValueLine).mapM Sample.read?

/-- All values of a registry, in the order in which they are handed out. -/
def Registry.samples (r : Registry) : List Sample := r.metrics.flatMap Metric.samples

/-- Nothing in it breaks a line, and its samples can be read but for what their labels may have to
escape. -/
structure Metric.Sound (m : Metric) : Prop where
  name : '\n' ∉ m.name.toList
  help : '\n' ∉ m.help.toList
  samples : ∀ s ∈ m.samples, s.WellFormed
  labels : ∀ s ∈ m.samples, ∀ l ∈ s.labels, '\n' ∉ l.2.toList

section Lines

variable {s : Sample} {m : Metric} {r : Registry}

theorem line_not_mem_of_isName {cs : List Char} (h : isName cs = true) : '\n' ∉ cs := by
  rw [isName, Bool.and_eq_true] at h
  exact fun hin => Bool.false_ne_true (List.all_eq_true.mp h.2 '\n' hin)

theorem line_not_mem_of_isNumeral {cs : List Char} (h : isNumeral cs = true) : '\n' ∉ cs :=
  fun hin => Bool.false_ne_true (isNumeralChar_of_isNumeral h '\n' hin)

theorem line_not_mem_write (hs : s.WellFormed) (hlabels : ∀ l ∈ s.labels, '\n' ∉ l.2.toList) :
    '\n' ∉ s.write.toList := by
  have hname := line_not_mem_of_isName hs.name
  have hvalue := line_not_mem_of_isNumeral hs.value
  have hall : '\n' ∉ Text.joinWith ',' (s.labels.map fun l => (writeLabel l).toList) := by
    intro hin
    obtain hcomma | ⟨part, hpart, hline⟩ := Text.of_mem_joinWith hin
    · cases hcomma
    · obtain ⟨l, hl, rfl⟩ := List.mem_map.mp hpart
      simp [writeLabel, line_not_mem_of_isName (hs.labels l hl), hlabels l hl] at hline
  rw [Sample.toList_write]
  split
  next => simp [hname, hvalue]
  next => simp [hname, hvalue, hall]

theorem isValueLine_write (hs : s.WellFormed) : isValueLine s.write.toList = true := by
  have hname := hs.name
  rw [isName, Bool.and_eq_true] at hname
  rw [Sample.toList_write]
  cases hcs : s.name.toList with
  | nil =>
    rw [hcs] at hname
    cases hname.1
  | cons c cs =>
    have hne : c ≠ '#' := by
      rintro rfl
      rw [hcs] at hname
      cases hname.2
    simp [isValueLine, hne]

theorem Metric.Sound.lines (hm : m.Sound) : ∀ line ∈ m.lines, '\n' ∉ line.toList := by
  have htype : '\n' ∉ m.type.name.toList := by cases m.type <;> decide
  rw [Metric.lines]
  split
  next => nofun
  next =>
    refine List.forall_mem_cons.mpr ⟨?_, List.forall_mem_cons.mpr ⟨?_, ?_⟩⟩
    · simp [hm.name, hm.help]
    · simp [hm.name, htype]
    · exact List.forall_mem_map.mpr fun s hs =>
        line_not_mem_write (hm.samples s hs) (hm.labels s hs)

theorem Metric.Sound.filter_lines (hm : m.Sound) :
    (m.lines.map String.toList).filter isValueLine = m.samples.map fun s => s.write.toList := by
  have hvalues : ∀ line ∈ m.samples.map fun s => s.write.toList, isValueLine line = true :=
    List.forall_mem_map.mpr fun s hs => isValueLine_write (hm.samples s hs)
  rw [Metric.lines]
  split
  next hnone =>
    rw [List.isEmpty_iff.mp hnone]
    rfl
  next =>
    have hhelp : isValueLine ("# HELP " ++ m.name ++ " " ++ m.help ++ ".").toList = false := by
      simp [isValueLine]
    have htype : isValueLine ("# TYPE " ++ m.name ++ " " ++ m.type.name).toList = false := by
      simp [isValueLine]
    rw [List.map_cons, List.map_cons, List.filter_cons_of_neg (Bool.eq_false_iff.mp hhelp),
      List.filter_cons_of_neg (Bool.eq_false_iff.mp htype), List.map_map]
    exact List.filter_eq_self.mpr hvalues

theorem splitAt_join (lines : List String) (hlines : ∀ line ∈ lines, '\n' ∉ line.toList) :
    splitAt '\n' (String.join (lines.map (· ++ "\n"))).toList =
      lines.map String.toList ++ [[]] := by
  induction lines with
  | nil => rfl
  | cons line lines ih =>
    obtain ⟨hline, hlines⟩ := List.forall_mem_cons.mp hlines
    have hfirst : (String.join ((line :: lines).map (· ++ "\n"))).toList =
        line.toList ++ '\n' :: (String.join (lines.map (· ++ "\n"))).toList := by
      simp [String.toList_join]
    rw [hfirst, Text.splitAt_append hline, ih hlines]
    rfl

theorem scrape?_encode (hr : ∀ m ∈ r.metrics, m.Sound) :
    scrape? r.encode = r.samples.mapM fun s => Sample.read? s.write.toList := by
  have hlines : ∀ line ∈ r.lines, '\n' ∉ line.toList := by
    refine List.forall_mem_append.mpr ⟨fun line hline => ?_, by decide⟩
    obtain ⟨m, hm, hin⟩ := List.mem_flatMap.mp hline
    exact (hr m hm).lines line hin
  have hvalues : (r.lines.map String.toList ++ [[]]).filter isValueLine =
      r.samples.map fun s => s.write.toList := by
    have hend : (["# EOF"].map String.toList ++ [[]]).filter isValueLine = [] := by decide
    rw [Registry.lines, List.map_append, List.append_assoc, List.filter_append, hend,
      List.append_nil, List.map_flatMap, List.filter_flatMap, Registry.samples, List.map_flatMap]
    exact List.flatMap_congr fun m hm => (hr m hm).filter_lines
  rw [scrape?, Registry.encode, splitAt_join r.lines hlines, hvalues, List.mapM_map]
  rfl

theorem mapM_eq_some_self_iff {α : Type} {f : α → Option α} {as : List α} :
    as.mapM f = some as ↔ ∀ a ∈ as, f a = some a := by
  induction as with
  | nil => simp
  | cons a as ih =>
    rw [List.forall_mem_cons, ← ih, List.mapM_cons]
    cases f a <;> cases as.mapM f <;> simp

/-- The text is read as what was written just if no label value has anything to escape. -/
theorem scrape?_encode_iff (hr : ∀ m ∈ r.metrics, m.Sound) :
    scrape? r.encode = some r.samples ↔ ∀ s ∈ r.samples, ∀ l ∈ s.labels, IsPlain l.2 := by
  have hsound : ∀ s ∈ r.samples, s.WellFormed := by
    intro s hs
    obtain ⟨m, hm, hin⟩ := List.mem_flatMap.mp hs
    exact (hr m hm).samples s hin
  rw [scrape?_encode hr, mapM_eq_some_self_iff]
  exact forall₂_congr fun s hs => Sample.read?_write_iff (hsound s hs)

end Lines

section Labels

/-- All labels that are not made of numbers are of a kind. -/
structure Registry.Labelled (P : String → Prop) (r : Registry) : Prop where
  requests : ∀ child ∈ r.requests, P child.1.method ∧ P child.1.path
  durations : ∀ child ∈ r.durations, P child.1.method ∧ P child.1.path
  rejected : ∀ child ∈ r.rejected, P child.1
  commands : ∀ child ∈ r.commands, P child.1

variable {P : String → Prop} {r : Registry}

theorem isName_labels (l : HttpLabels) : ∀ label ∈ l.labels, isName label.1.toList = true := by
  simp only [HttpLabels.labels, List.forall_mem_cons]
  exact ⟨rfl, rfl, rfl, nofun⟩

theorem wellFormed_counterFamily {κ : Type} {name help : String}
    {labels : κ → List (String × String)} {fam : Family κ Nat}
    (hname : isName (name ++ "_total").toList = true)
    (hlabels : ∀ k, ∀ l ∈ labels k, isName l.1.toList = true) :
    ∀ s ∈ (counterFamily name help labels fam).samples, s.WellFormed :=
  List.forall_mem_map.mpr fun child _ => ⟨hname, hlabels child.1, isNumeral_nat child.2⟩

theorem wellFormed_gauge {name help : String} {value : Int} (hname : isName name.toList = true) :
    ∀ s ∈ (gauge name help value).samples, s.WellFormed :=
  List.forall_mem_singleton.mpr ⟨hname, nofun, isNumeral_int value⟩

theorem wellFormed_histogramSamples (l : HttpLabels) (h : Histogram) :
    ∀ s ∈ histogramSamples "chirm_http_request_duration_seconds" l h, s.WellFormed := by
  have hname (ending : String) (hending : ending ∈ ["_sum", "_count", "_bucket"]) :
      isName ("chirm_http_request_duration_seconds" ++ ending).toList = true := by
    revert hending
    revert ending
    decide
  refine List.forall_mem_cons.mpr ⟨?_, List.forall_mem_cons.mpr ⟨?_, ?_⟩⟩
  · exact ⟨hname _ (by simp), isName_labels l, isNumeral_writeFloat h.sum⟩
  · exact ⟨hname _ (by simp), isName_labels l, isNumeral_nat h.count⟩
  · have hbound : isName "le".toList = true := by decide
    refine List.forall_mem_map.mpr fun bound _ => ?_
    exact ⟨hname _ (by simp), List.forall_mem_cons.mpr ⟨hbound, isName_labels l⟩,
      isNumeral_nat bound.2⟩

theorem Registry.wellFormed (r : Registry) : ∀ m ∈ r.metrics, ∀ s ∈ m.samples, s.WellFormed := by
  have hone {name : String} (hname : isName name.toList = true) (k : String) :
      ∀ l ∈ [(name, k)], isName l.1.toList = true := List.forall_mem_singleton.mpr hname
  simp only [metrics, List.forall_mem_cons]
  refine ⟨wellFormed_counterFamily (by decide) isName_labels, ?_, wellFormed_gauge (by decide),
    wellFormed_gauge (by decide), ?_, wellFormed_counterFamily (by decide) (hone (by decide)),
    wellFormed_counterFamily (by decide) (hone (by decide)), wellFormed_gauge (by decide),
    wellFormed_gauge (by decide), wellFormed_gauge (by decide), wellFormed_gauge (by decide), nofun⟩
  · intro s hs
    obtain ⟨child, _, hin⟩ := List.mem_flatMap.mp hs
    exact wellFormed_histogramSamples child.1 child.2 s hin
  · have hname : isName "chirm_websocket_sessions_total".toList = true := by decide
    exact ⟨⟨hname, nofun, isNumeral_nat r.sessions⟩, nofun⟩

/-- The other label values are numbers, so they do not matter where numbers are of the kind. -/
theorem Registry.forall_labels_iff (hnat : ∀ n : Nat, P (toString n))
    (hbounds : ∀ bound ∈ boundTexts, P bound) :
    (∀ s ∈ r.samples, ∀ l ∈ s.labels, P l.2) ↔ r.Labelled P := by
  have hhttp (l : HttpLabels) : (∀ label ∈ l.labels, P label.2) ↔ P l.method ∧ P l.path := by
    simp only [HttpLabels.labels, List.forall_mem_cons, hnat, List.not_mem_nil, false_implies,
      implies_true, and_true]
  have hhistogram (name : String) (l : HttpLabels) (h : Histogram) :
      (∀ s ∈ histogramSamples name l h, ∀ label ∈ s.labels, P label.2) ↔
        P l.method ∧ P l.path := by
    have hbuckets : ∀ pair ∈ boundTexts.zip h.cumulative, P pair.1 :=
      fun pair hpair => hbounds pair.1 (List.of_mem_zip hpair).1
    simp only [histogramSamples, List.forall_mem_cons, List.forall_mem_map, hhttp]
    constructor
    · exact fun hall => hall.1
    · exact fun hl => ⟨hl, hl, fun pair hpair => ⟨hbuckets pair hpair, hl⟩⟩
  simp only [samples, metrics, List.forall_mem_flatMap, List.forall_mem_cons, counterFamily, gauge,
    List.forall_mem_map, hhttp, hhistogram, List.not_mem_nil, false_implies, implies_true, and_true,
    true_and]
  constructor
  · rintro ⟨hrequests, hdurations, hrejected, hcommands⟩
    exact ⟨hrequests, hdurations, hrejected, hcommands⟩
  · rintro ⟨hrequests, hdurations, hrejected, hcommands⟩
    exact ⟨hrequests, hdurations, hrejected, hcommands⟩

theorem isPlain_of_isNumeral {v : String} (hv : isNumeral v.toList = true) : IsPlain v :=
  isPlain_of_forall rfl rfl rfl (isNumeralChar_of_isNumeral hv)

theorem line_not_mem_of_isPlain {v : String} (hv : IsPlain v) : '\n' ∉ v.toList :=
  fun hin => Bool.false_ne_true (hv '\n' hin).symm

theorem isPlain_boundTexts : ∀ bound ∈ boundTexts, IsPlain bound := by
  refine List.forall_mem_append.mpr ⟨List.forall_mem_map.mpr fun x _ => ?_, by decide⟩
  exact isPlain_of_isNumeral (isNumeral_writeFloat x)

theorem Registry.sound (hr : r.Labelled fun v => '\n' ∉ v.toList) : ∀ m ∈ r.metrics, m.Sound := by
  have htexts : ∀ m ∈ r.metrics, '\n' ∉ m.name.toList ∧ '\n' ∉ m.help.toList := by
    simp only [metrics, List.forall_mem_cons, counterFamily, gauge, List.not_mem_nil, false_implies,
      implies_true, and_true]
    refine ⟨?_, ?_, ?_, ?_, ?_, ?_, ?_, ?_, ?_, ?_, ?_⟩ <;> decide
  have hlabels : ∀ s ∈ r.samples, ∀ l ∈ s.labels, '\n' ∉ l.2.toList :=
    (forall_labels_iff (fun n => line_not_mem_of_isNumeral (isNumeral_nat n))
      fun bound hbound => line_not_mem_of_isPlain (isPlain_boundTexts bound hbound)).mpr hr
  intro m hm
  exact ⟨(htexts m hm).1, (htexts m hm).2, r.wellFormed m hm,
    fun s hs => hlabels s (List.mem_flatMap.mpr ⟨m, hm, hs⟩)⟩

theorem Registry.isPlain_labels_iff :
    (∀ s ∈ r.samples, ∀ l ∈ s.labels, IsPlain l.2) ↔ r.Labelled IsPlain :=
  forall_labels_iff (fun n => isPlain_of_isNumeral (isNumeral_nat n)) isPlain_boundTexts

theorem Registry.read?_write {s : Sample} (hr : r.Labelled IsPlain) (hs : s ∈ r.samples) :
    Sample.read? s.write.toList = some s := by
  obtain ⟨m, hm, hin⟩ := List.mem_flatMap.mp hs
  exact (Sample.read?_write_iff (r.wellFormed m hm s hin)).mpr (isPlain_labels_iff.mpr hr s hs)

end Labels

end ChatHub.Metrics
