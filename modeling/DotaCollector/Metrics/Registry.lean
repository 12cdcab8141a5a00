import DotaCollector.Library.JsonTokens
import DotaCollector.Library.OrderedMap
import DotaCollector.Library.Quoted
import Mathlib.Data.List.Sort

/-!
# Metrics

Counters, gauges and histograms keep one row for every set of labels, and are rendered as lines of
text. A scrape of the lines is all that anybody sees of them.
-/

namespace DotaCollector
namespace Metrics

open JsonText (ascii)
open OrderedMap FirstOccurrences

/-- A text of code units. -/
abbrev Text := List UInt16

/-! ## Labels -/

/-- The labels of a row in the order in which they were written; no name comes twice. -/
structure Labels where
  entries : List (Text × Text) := []
  nodup : (entries.map Prod.fst).Nodup := by simp

/-- The labels in the order of their names. -/
def Labels.sorted (labels : Labels) : List (Text × Text) :=
  labels.entries.insertionSort fun first second => first.1 ≤ second.1

def Labels.get? (labels : Labels) (name : Text) : Option Text := OrderedMap.get? labels.entries name

/-- `{ ...labels, name: value }`. -/
def Labels.set (labels : Labels) (name value : Text) : Labels where
  entries := put labels.entries name value
  nodup := by
    rw [keys_put]
    split_ifs with known
    · rw [List.append_nil]
      exact labels.nodup
    · refine List.nodup_append.mpr ⟨labels.nodup, List.nodup_singleton _, ?_⟩
      rintro old there _ new rfl
      exact known (List.mem_singleton.mp new ▸ there)

def nul : UInt16 := 0
def newline : UInt16 := 10
def space : UInt16 := 32
def quote : UInt16 := 34
def comma : UInt16 := 44
def equals : UInt16 := 61
def backslash : UInt16 := 92
def openBrace : UInt16 := 123
def closeBrace : UInt16 := 125

/-- Under which name a row is kept. -/
def labelKey (labels : Labels) : Text :=
  Quoted.join nul (labels.sorted.map fun entry => entry.1 ++ equals :: entry.2)

/-- `replace` of one code unit, wherever it stands. -/
def replaceUnit (unit : UInt16) (replacement text : Text) : Text :=
  text.flatMap fun other => if other = unit then replacement else [other]

def escapeLabelValue (value : Text) : Text :=
  replaceUnit quote (ascii "\\\"")
    (replaceUnit newline (ascii "\\n") (replaceUnit backslash (ascii "\\\\") value))

/-- One label as it is rendered. -/
def formatEntry (entry : Text × Text) : Text :=
  entry.1 ++ equals :: quote :: (escapeLabelValue entry.2 ++ [quote])

def formatEntries : List (Text × Text) → Text
  | [] => []
  | entries => openBrace :: Quoted.join comma (entries.map formatEntry) ++ [closeBrace]

def formatLabels (labels : Labels) : Text := formatEntries labels.sorted

def assertLabelNames (expected : List Text) (labels : Labels) : Except Text Unit :=
  match expected.find? fun name => labels.get? name = none with
  | some name => .error (ascii "metric label " ++ name ++ ascii " is required")
  | none => .ok ()

/-! ## Collectors -/

structure Row (Value : Type) where
  labels : Labels
  value : Value

/-- The rows of a collector under the keys of their labels. -/
abbrev Values (Value : Type) := List (Text × Row Value)

/-- What of a collector never changes. -/
structure Collector where
  name : Text
  help : Text
  labelNames : List Text := []

variable {Number : Type}

def Counter.inc [Add Number] (counter : Collector) (values : Values Number) (labels : Labels)
    (n : Number) : Except Text (Values Number) := do
  assertLabelNames counter.labelNames labels
  let key := labelKey labels
  match OrderedMap.get? values key with
  | some cur => return put values key { cur with value := cur.value + n }
  | none => return put values key { labels, value := n }

def Gauge.set (gauge : Collector) (values : Values Number) (labels : Labels) (value : Number) :
    Except Text (Values Number) := do
  assertLabelNames gauge.labelNames labels
  return put values (labelKey labels) { labels, value }

def Gauge.get [Zero Number] (values : Values Number) (labels : Labels) : Number :=
  (OrderedMap.get? values (labelKey labels)).elim 0 Row.value

def Gauge.inc [Zero Number] [Add Number] (gauge : Collector) (values : Values Number)
    (labels : Labels) (n : Number) : Except Text (Values Number) :=
  Gauge.set gauge values labels (Gauge.get values labels + n)

structure HistogramRow (Number : Type) where
  count : Nat
  sum : Number
  buckets : List Nat

structure Histogram (Number : Type) extends Collector where
  buckets : List Number

def Histogram.ensure [Zero Number] (histogram : Histogram Number)
    (values : Values (HistogramRow Number)) (labels : Labels) :
    Except Text (Values (HistogramRow Number)) := do
  assertLabelNames histogram.labelNames labels
  let key := labelKey labels
  match OrderedMap.get? values key with
  | some _ => return values
  | none =>
      let value := { count := 0, sum := 0, buckets := histogram.buckets.map fun _ => 0 }
      return put values key { labels, value }

/-- One more in each bucket whose bound the observation does not exceed. -/
def observeBuckets [LT Number] [DecidableLT Number] (bounds : List Number) (buckets : List Nat)
    (seconds : Number) : List Nat :=
  bounds.zipWith (fun le n => if le < seconds then n else n + 1) buckets

def Histogram.observe [Zero Number] [Add Number] [LT Number] [DecidableLT Number]
    (histogram : Histogram Number) (values : Values (HistogramRow Number)) (labels : Labels)
    (seconds : Number) : Except Text (Values (HistogramRow Number)) := do
  let values ← histogram.ensure values labels
  let key := labelKey labels
  match OrderedMap.get? values key with
  | none => return values
  | some row =>
      let value :=
        { count := row.value.count + 1
          sum := row.value.sum + seconds
          buckets := observeBuckets histogram.buckets row.value.buckets seconds }
      return put values key { row with value }

/-! ## Rendering -/

/-- A line of a row. -/
structure Sample where
  suffix : Text := []
  labels : Labels
  number : Text

def Sample.line (name : Text) (sample : Sample) : Text :=
  name ++ sample.suffix ++ (formatLabels sample.labels ++ space :: sample.number)

def render (name help kind : Text) (samples : List Sample) : Text :=
  Quoted.join newline
    ((ascii "# HELP " ++ name ++ space :: help) :: (ascii "# TYPE " ++ name ++ space :: kind) ::
      samples.map (Sample.line name))

def Counter.render (text : Number → Text) (counter : Collector) (values : Values Number) : Text :=
  Metrics.render counter.name counter.help (ascii "counter")
    (values.map fun entry => { labels := entry.2.labels, number := text entry.2.value })

def Gauge.render (text : Number → Text) (gauge : Collector) (values : Values Number) : Text :=
  Metrics.render gauge.name gauge.help (ascii "gauge")
    (values.map fun entry => { labels := entry.2.labels, number := text entry.2.value })

def number (n : Nat) : Text := ascii (toString n)

/-- The lines of a row of a histogram. -/
def Histogram.samples (text : Number → Text) (bounds : List Number)
    (row : Row (HistogramRow Number)) : List Sample :=
  (bounds.zip row.value.buckets).map (fun (le, n) =>
      { suffix := ascii "_bucket"
        labels := row.labels.set (ascii "le") (text le)
        number := number n }) ++
    [{ suffix := ascii "_bucket"
       labels := row.labels.set (ascii "le") (ascii "+Inf")
       number := number row.value.count },
     { suffix := ascii "_sum", labels := row.labels, number := text row.value.sum },
     { suffix := ascii "_count", labels := row.labels, number := number row.value.count }]

def Histogram.render (text : Number → Text) (histogram : Histogram Number)
    (values : Values (HistogramRow Number)) : Text :=
  Metrics.render histogram.name histogram.help (ascii "histogram")
    (values.flatMap fun entry => Histogram.samples text histogram.buckets entry.2)

/-! ## What a scrape shows -/

/-- The escapes of the values of labels. -/
def labelEscaping : Quoted.Escaping UInt16 where
  quote := quote
  mark := backslash
  code unit :=
    if unit = quote then some quote
    else if unit = newline then some 110
    else if unit = backslash then some backslash
    else none
  quote_ne_mark := by decide
  quote_coded := by decide
  mark_coded := by decide
  code_inj unit other coded here there := by
    have apart : (110 : UInt16) ≠ quote ∧ (110 : UInt16) ≠ backslash ∧ quote ≠ backslash := by
      decide
    grind

theorem escapeLabelValue_eq (value : Text) : escapeLabelValue value = labelEscaping.text value := by
  have quotes : ascii "\\\"" = [backslash, quote] := by decide
  have newlines : ascii "\\n" = [backslash, 110] := by decide
  have marks : ascii "\\\\" = [backslash, backslash] := by decide
  induction value with
  | nil => rfl
  | cons unit value ih =>
      have step : escapeLabelValue (unit :: value) =
          labelEscaping.symbol unit ++ escapeLabelValue value := by
        simp only [escapeLabelValue, replaceUnit, List.flatMap_cons, List.flatMap_append, quotes,
          newlines, marks]
        congr 1
        unfold Quoted.Escaping.symbol labelEscaping
        dsimp only
        by_cases mark : unit = backslash
        · subst mark
          decide
        · by_cases line : unit = newline
          · subst line
            decide
          · by_cases closing : unit = quote
            · subst closing
              decide
            · simp [mark, line, closing]
      rw [step, ih]
      rfl

/-- An escaped value has no line break. -/
theorem newline_not_mem_escape (value : Text) : newline ∉ escapeLabelValue value := by
  rw [escapeLabelValue_eq, Quoted.Escaping.text, List.mem_flatMap]
  rintro ⟨unit, -, member⟩
  have apart : newline ≠ 110 ∧ newline ≠ quote ∧ newline ≠ backslash := by decide
  simp only [Quoted.Escaping.symbol, labelEscaping] at member
  grind

theorem formatEntry_inj {entry other : Text × Text} {back rest : Text}
    (here : equals ∉ entry.1) (there : equals ∉ other.1)
    (same : formatEntry entry ++ back = formatEntry other ++ rest) :
    entry = other ∧ back = rest := by
  simp only [formatEntry, List.append_assoc, List.cons_append, List.nil_append] at same
  obtain ⟨names, -, values⟩ := Quoted.eq_of_append_cons here there same
  rw [escapeLabelValue_eq, escapeLabelValue_eq] at values
  obtain ⟨shown, backs⟩ :=
    labelEscaping.text_inj (List.tail_eq_of_cons_eq values)
  exact ⟨Prod.ext names shown, backs⟩

/-- The labels behind the first one. -/
theorem formatEntries_inj_behind {entries others : List (Text × Text)} {back rest : Text}
    (here : ∀ entry ∈ entries, equals ∉ entry.1) (there : ∀ entry ∈ others, equals ∉ entry.1)
    (same : Quoted.behind comma (entries.map formatEntry) ++ closeBrace :: back =
      Quoted.behind comma (others.map formatEntry) ++ closeBrace :: rest) :
    entries = others ∧ back = rest := by
  induction entries generalizing others with
  | nil =>
      cases others with
      | nil => exact ⟨rfl, List.tail_eq_of_cons_eq same⟩
      | cons other others =>
          have head : closeBrace = comma := List.head_eq_of_cons_eq same
          exact absurd head (by decide)
  | cons entry entries ih =>
      cases others with
      | nil =>
          have head : comma = closeBrace := List.head_eq_of_cons_eq same
          exact absurd head (by decide)
      | cons other others =>
          simp only [Quoted.behind, List.map_cons, List.flatMap_cons, List.append_assoc,
            List.cons_append] at same
          obtain ⟨first, tail⟩ := formatEntry_inj (here entry List.mem_cons_self)
            (there other List.mem_cons_self) (List.tail_eq_of_cons_eq same)
          obtain ⟨entries_eq, backs⟩ :=
            ih (fun next member => here next (List.mem_cons_of_mem _ member))
              (fun next member => there next (List.mem_cons_of_mem _ member)) tail
          exact ⟨by rw [first, entries_eq], backs⟩

theorem formatEntries_cons (entry : Text × Text) (entries : List (Text × Text)) :
    formatEntries (entry :: entries) = openBrace ::
      (formatEntry entry ++ (Quoted.behind comma (entries.map formatEntry) ++ [closeBrace])) :=
  congrArg (openBrace :: ·) (List.append_assoc ..)

/-- The name, the labels and the number of a line. -/
theorem line_inj {name other : Text} {entries others : List (Text × Text)} {back rest : Text}
    (plain : space ∉ name ∧ openBrace ∉ name) (plainOther : space ∉ other ∧ openBrace ∉ other)
    (here : ∀ entry ∈ entries, equals ∉ entry.1) (there : ∀ entry ∈ others, equals ∉ entry.1)
    (same : name ++ (formatEntries entries ++ space :: back) =
      other ++ (formatEntries others ++ space :: rest)) :
    name = other ∧ entries = others ∧ back = rest := by
  cases entries with
  | nil =>
      cases others with
      | nil =>
          obtain ⟨names, -, backs⟩ := Quoted.eq_of_append_cons plain.1 plainOther.1 same
          exact ⟨names, rfl, backs⟩
      | cons second others =>
          rw [formatEntries_cons] at same
          obtain ⟨-, marks, -⟩ := Quoted.eq_of_append_cons plain.2 plainOther.1 same
          exact absurd marks (by decide)
  | cons entry entries =>
      cases others with
      | nil =>
          rw [formatEntries_cons] at same
          obtain ⟨-, marks, -⟩ := Quoted.eq_of_append_cons plain.1 plainOther.2 same
          exact absurd marks (by decide)
      | cons second others =>
          simp only [formatEntries_cons, List.cons_append, List.append_assoc,
            List.nil_append] at same
          obtain ⟨names, -, bodies⟩ := Quoted.eq_of_append_cons plain.2 plainOther.2 same
          obtain ⟨first, tail⟩ := formatEntry_inj (here entry List.mem_cons_self)
            (there second List.mem_cons_self) bodies
          obtain ⟨entries_eq, backs⟩ := formatEntries_inj_behind
            (fun next member => here next (List.mem_cons_of_mem _ member))
            (fun next member => there next (List.mem_cons_of_mem _ member)) tail
          exact ⟨names, by rw [first, entries_eq], List.tail_eq_of_cons_eq backs⟩

/-- What a line shows: of the labels only the set. -/
def Sample.shown (sample : Sample) : Text × List (Text × Text) × Text :=
  (sample.suffix, sample.labels.sorted, sample.number)

/-- Names without the signs around them; the values of labels may hold anything. -/
structure Sample.Readable (name : Text) (sample : Sample) : Prop where
  name : space ∉ name ++ sample.suffix ∧ openBrace ∉ name ++ sample.suffix ∧
    newline ∉ name ++ sample.suffix
  labels : ∀ entry ∈ sample.labels.entries, equals ∉ entry.1 ∧ newline ∉ entry.1
  number : newline ∉ sample.number

theorem Labels.sorted_perm (labels : Labels) : labels.sorted.Perm labels.entries :=
  List.perm_insertionSort ..

theorem Labels.mem_sorted {labels : Labels} {entry : Text × Text} :
    entry ∈ labels.sorted ↔ entry ∈ labels.entries := labels.sorted_perm.mem_iff

theorem Labels.pairwise_sorted (labels : Labels) :
    labels.sorted.Pairwise fun first second => first.1 ≤ second.1 := by
  have total : Std.Total fun first second : Text × Text => first.1 ≤ second.1 :=
    ⟨fun first second => List.le_total first.1 second.1⟩
  have trans : IsTrans (Text × Text) fun first second => first.1 ≤ second.1 :=
    ⟨fun _ _ _ => List.le_trans⟩
  exact List.pairwise_insertionSort _ labels.entries

/-- The order in which labels are written does not count. -/
theorem Labels.sorted_eq_iff {labels other : Labels} :
    labels.sorted = other.sorted ↔ labels.entries.Perm other.entries := by
  constructor
  · intro same
    exact labels.sorted_perm.symm.trans (same ▸ other.sorted_perm)
  · intro perm
    refine List.Perm.eq_of_pairwise ?_ labels.pairwise_sorted other.pairwise_sorted
      (labels.sorted_perm.trans (perm.trans other.sorted_perm.symm))
    intro entry next here there le ge
    exact List.inj_on_of_nodup_map other.nodup (perm.mem_iff.mp (mem_sorted.mp here))
      (mem_sorted.mp there) (List.le_antisymm le ge)

theorem newline_not_mem_formatEntries {entries : List (Text × Text)}
    (names : ∀ entry ∈ entries, newline ∉ entry.1) : newline ∉ formatEntries entries := by
  have signs : newline ∉ [openBrace, closeBrace, comma, equals, quote] := by decide
  simp only [List.mem_cons, List.not_mem_nil, or_false, not_or] at signs
  have own : ∀ entry ∈ entries, newline ∉ formatEntry entry := by
    intro entry listed member
    simp only [formatEntry, List.mem_append, List.mem_cons, List.not_mem_nil, or_false] at member
    rcases member with name | sign | sign | value | sign
    · exact names entry listed name
    · exact signs.2.2.2.1 sign
    · exact signs.2.2.2.2 sign
    · exact newline_not_mem_escape _ value
    · exact signs.2.2.2.2 sign
  cases entries with
  | nil => exact List.not_mem_nil
  | cons entry entries =>
      rw [formatEntries_cons]
      simp only [List.mem_cons, List.mem_append, List.not_mem_nil, or_false, Quoted.behind,
        List.mem_flatMap, List.mem_map]
      rintro (sign | first | ⟨_, ⟨other, listed, rfl⟩, sign | later⟩ | sign)
      · exact signs.1 sign
      · exact own entry List.mem_cons_self first
      · exact signs.2.2.1 sign
      · exact own other (List.mem_cons_of_mem _ listed) later
      · exact signs.2.1 sign

theorem Sample.Readable.newline_not_mem_line {name : Text} {sample : Sample}
    (readable : sample.Readable name) : newline ∉ sample.line name := by
  intro member
  rcases List.mem_append.mp member with name | shown
  · exact readable.name.2.2 name
  rcases List.mem_append.mp shown with labels | number
  · exact newline_not_mem_formatEntries
      (fun entry listed => (readable.labels entry (Labels.mem_sorted.mp listed)).2) labels
  · rcases List.mem_cons.mp number with sign | digits
    · exact absurd sign (by decide)
    · exact readable.number digits

theorem Sample.shown_of_line {name : Text} {sample other : Sample}
    (readable : sample.Readable name) (otherReadable : other.Readable name)
    (same : sample.line name = other.line name) : sample.shown = other.shown := by
  obtain ⟨names, labels, numbers⟩ := line_inj ⟨readable.name.1, readable.name.2.1⟩
    ⟨otherReadable.name.1, otherReadable.name.2.1⟩
    (fun entry listed => (readable.labels entry (Labels.mem_sorted.mp listed)).1)
    (fun entry listed => (otherReadable.labels entry (Labels.mem_sorted.mp listed)).1) same
  rw [shown, shown, List.append_cancel_left names, labels, numbers]

/-- The text of a collector shows its samples: whatever the values of the labels hold, two lists of
samples with readable names which are rendered alike have the same sets of labels with the same
numbers. -/
theorem render_inj {name help kind : Text} {samples others : List Sample}
    (readable : ∀ sample ∈ samples, sample.Readable name)
    (otherReadable : ∀ sample ∈ others, sample.Readable name)
    (same : render name help kind samples = render name help kind others) :
    samples.map Sample.shown = others.map Sample.shown := by
  have lines : samples.map (Sample.line name) = others.map (Sample.line name) := by
    simp only [render, Quoted.join, Quoted.behind, List.flatMap_cons] at same
    have back := List.append_cancel_left (List.append_cancel_left same)
    refine Quoted.behind_inj ?_ ?_ back
    · intro line listed
      obtain ⟨sample, there, rfl⟩ := List.mem_map.mp listed
      exact (readable sample there).newline_not_mem_line
    · intro line listed
      obtain ⟨sample, there, rfl⟩ := List.mem_map.mp listed
      exact (otherReadable sample there).newline_not_mem_line
  clear same
  induction samples generalizing others with
  | nil =>
      cases others with
      | nil => rfl
      | cons other others => cases lines
  | cons sample samples ih =>
      cases others with
      | nil => cases lines
      | cons other others =>
          obtain ⟨first, rest⟩ := List.cons_eq_cons.mp lines
          rw [List.map_cons, List.map_cons,
            Sample.shown_of_line (readable sample List.mem_cons_self)
              (otherReadable other List.mem_cons_self) first,
            ih (fun next member => readable next (List.mem_cons_of_mem _ member))
              (fun next member => otherReadable next (List.mem_cons_of_mem _ member)) rest]

/-- Labels with all signs which are escaped. -/
def signs : Labels where
  entries := [(ascii "status", ascii "\"\\\n"), (ascii "job", ascii "parse")]
  nodup := by decide

def swapped : Labels where
  entries := signs.entries.reverse
  nodup := by decide

theorem render_inj_swapped :
    [Sample.mk [] signs (number 5)].map Sample.shown =
      [Sample.mk [] swapped (number 5)].map Sample.shown := by
  have readable (labels : Labels)
      (names : ∀ entry ∈ labels.entries, equals ∉ entry.1 ∧ newline ∉ entry.1) :
      (Sample.mk [] labels (number 5)).Readable (ascii "dota_jobs") := by
    refine ⟨?_, names, ?_⟩
    · rw [List.append_nil]
      decide
    · change newline ∉ number 5
      decide
  exact @render_inj (ascii "dota_jobs") [] (ascii "counter") _ _
    (List.forall_mem_singleton.mpr (readable signs (by decide)))
    (List.forall_mem_singleton.mpr (readable swapped (by decide))) (by decide +kernel)

end Metrics
end DotaCollector
