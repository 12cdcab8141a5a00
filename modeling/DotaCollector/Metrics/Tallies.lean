import DotaCollector.Metrics.Registry

/-!
# What the metrics count

A counter and a histogram have one row for every set of labels which has been used since they were
reset, in the order of the first uses, and the row holds exactly the uses of its labels.
-/

namespace DotaCollector
namespace Metrics

open JsonText (ascii)
open OrderedMap FirstOccurrences

/-! ## Keys of labels -/

/-- A name and a value without the signs which a key puts between them. -/
def PlainEntry (entry : Text × Text) : Prop := equals ∉ entry.1 ∧ nul ∉ entry.1 ∧ nul ∉ entry.2

def Labels.Plain (labels : Labels) : Prop := ∀ entry ∈ labels.entries, PlainEntry entry

instance (entry : Text × Text) : Decidable (PlainEntry entry) :=
  inferInstanceAs (Decidable (_ ∧ _ ∧ _))

instance (labels : Labels) : Decidable labels.Plain :=
  inferInstanceAs (Decidable (∀ entry ∈ labels.entries, PlainEntry entry))

theorem PlainEntry.nul_not_mem {entry : Text × Text} (plain : PlainEntry entry) :
    nul ∉ entry.1 ++ equals :: entry.2 := by
  intro member
  rcases List.mem_append.mp member with name | behind
  · exact plain.2.1 name
  · rcases List.mem_cons.mp behind with sign | value
    · exact absurd sign (by decide)
    · exact plain.2.2 value

theorem entries_inj {entries others : List (Text × Text)}
    (plain : ∀ entry ∈ entries, PlainEntry entry) (plainOther : ∀ entry ∈ others, PlainEntry entry)
    (same : (entries.map fun entry => entry.1 ++ equals :: entry.2) =
      others.map fun entry => entry.1 ++ equals :: entry.2) : entries = others := by
  induction entries generalizing others with
  | nil =>
      cases others with
      | nil => rfl
      | cons other others => cases same
  | cons entry entries ih =>
      cases others with
      | nil => cases same
      | cons other others =>
          obtain ⟨first, rest⟩ := List.cons_eq_cons.mp same
          obtain ⟨names, -, values⟩ := Quoted.eq_of_append_cons
            (plain entry List.mem_cons_self).1 (plainOther other List.mem_cons_self).1 first
          rw [Prod.ext names values,
            ih (fun next member => plain next (List.mem_cons_of_mem _ member))
              (fun next member => plainOther next (List.mem_cons_of_mem _ member)) rest]

theorem joined_inj {entries others : List (Text × Text)}
    (plain : ∀ entry ∈ entries, PlainEntry entry) (plainOther : ∀ entry ∈ others, PlainEntry entry)
    (same : (Quoted.join nul (entries.map fun entry => entry.1 ++ equals :: entry.2)) =
      Quoted.join nul (others.map fun entry => entry.1 ++ equals :: entry.2)) :
    entries = others := by
  have filled (entry : Text × Text) (rest : Text) : entry.1 ++ equals :: entry.2 ++ rest ≠ [] := by
    simp
  cases entries with
  | nil =>
      cases others with
      | nil => rfl
      | cons other others => exact absurd same.symm (filled other _)
  | cons entry entries =>
      cases others with
      | nil => exact absurd same (filled entry _)
      | cons other others =>
          refine entries_inj plain plainOther (Quoted.join_inj ?_ ?_ (List.cons_ne_nil _ _)
            (List.cons_ne_nil _ _) same)
          · intro part listed
            obtain ⟨entry, there, rfl⟩ := List.mem_map.mp listed
            exact (plain entry there).nul_not_mem
          · intro part listed
            obtain ⟨entry, there, rfl⟩ := List.mem_map.mp listed
            exact (plainOther entry there).nul_not_mem

/-- Plain labels have the same key if they are the same set. -/
theorem labelKey_eq_iff {labels other : Labels} (plain : labels.Plain) (plainOther : other.Plain) :
    labelKey labels = labelKey other ↔ labels.sorted = other.sorted := by
  constructor
  · exact joined_inj (fun entry listed => plain entry (Labels.mem_sorted.mp listed))
      (fun entry listed => plainOther entry (Labels.mem_sorted.mp listed))
  · intro same
    rw [labelKey, labelKey, same]

/-! ## Uses -/

/-- A call of a method of a collector. -/
inductive Call (Item : Type) where
  | use (labels : Labels) (item : Item)
  | reset

variable {Item Value Number : Type}

def admits (labelNames : List Text) (labels : Labels) : Bool :=
  labelNames.all fun name => labels.get? name ≠ none

theorem assertLabelNames_of_admits {labelNames : List Text} {labels : Labels}
    (admitted : admits labelNames labels = true) : assertLabelNames labelNames labels = .ok () := by
  have none : labelNames.find? (fun name => labels.get? name = none) = none := by
    simpa [admits, List.find?_eq_none] using admitted
  rw [assertLabelNames, none]

theorem assertLabelNames_of_not_admits {labelNames : List Text} {labels : Labels}
    (refused : ¬ admits labelNames labels = true) :
    ∃ error, assertLabelNames labelNames labels = .error error := by
  cases found : labelNames.find? fun name => labels.get? name = none with
  | none =>
      refine absurd ?_ refused
      simpa [admits, List.find?_eq_none] using found
  | some name => exact ⟨_, by rw [assertLabelNames, found]⟩

/-- The uses since the last reset which were not refused. -/
def uses (labelNames : List Text) (calls : List (Call Item)) : List (Labels × Item) :=
  calls.foldl (fun uses call =>
    match call with
    | .use labels item => if admits labelNames labels then uses ++ [(labels, item)] else uses
    | .reset => []) []

theorem mem_uses {labelNames : List Text} {calls : List (Call Item)} {labels : Labels} {item : Item}
    (used : (labels, item) ∈ uses labelNames calls) : .use labels item ∈ calls := by
  induction calls using List.reverseRecOn with
  | nil => cases used
  | append_singleton calls call ih =>
      rw [uses, List.foldl_append] at used
      cases call with
      | reset => cases used
      | use other next =>
          simp only [List.foldl_cons, List.foldl_nil] at used
          split_ifs at used
          · rcases List.mem_append.mp used with early | late
            · exact List.mem_append_left _ (ih early)
            · cases List.mem_singleton.mp late
              exact List.mem_append_right _ List.mem_cons_self
          · exact List.mem_append_left _ (ih used)

/-- What a use makes of the row of its labels. -/
abbrev Change (Item Value : Type) := Option (Row Value) → Labels × Item → Row Value

/-- A method as a change of one row. -/
def noting (labelNames : List Text) (change : Change Item Value) (values : Values Value) :
    Call Item → Values Value
  | .use labels item =>
      if admits labelNames labels then note (fun use => labelKey use.1) change values (labels, item)
      else values
  | .reset => []

theorem noting_calls (labelNames : List Text) (change : Change Item Value)
    (calls : List (Call Item)) : calls.foldl (noting labelNames change) [] =
      (uses labelNames calls).foldl (note (fun use => labelKey use.1) change) [] := by
  induction calls using List.reverseRecOn with
  | nil => rfl
  | append_singleton calls call ih =>
      rw [uses, List.foldl_append, List.foldl_append, ih]
      cases call with
      | reset => rfl
      | use labels item =>
          simp only [List.foldl_cons, List.foldl_nil, noting]
          split_ifs
          · rw [List.foldl_append]
            rfl
          · rfl

/-- A change which leaves the labels of the first use. -/
structure Keeps (change : Change Item Value) : Prop where
  first : ∀ use, (change none use).labels = use.1
  later : ∀ row use, (change (some row) use).labels = row.labels

/-- A row has the labels of its first use, and their key. -/
theorem labels_noted {change : Change Item Value} (keeps : Keeps change)
    (items : List (Labels × Item)) :
    (items.foldl (note (fun use => labelKey use.1) change) []).map
        (fun entry => (entry.1, entry.2.labels)) =
      (firsts (fun use => labelKey use.1) items).map fun use => (labelKey use.1, use.1) := by
  induction items using List.reverseRecOn with
  | nil => rfl
  | append_singleton items item ih =>
      have keys := keys_notes (fun use => labelKey use.1) change items
      rw [List.foldl_append, List.foldl_cons, List.foldl_nil, note, map_put,
        firsts_append_singleton, List.map_append, ← ih]
      generalize items.foldl (note (fun use => labelKey use.1) change) [] = values at keys
      cases found : OrderedMap.get? values (labelKey item.1) with
      | none =>
          have new := get?_eq_none_iff.mp found
          rw [keys, mem_keys_firsts] at new
          rw [if_neg new, keeps.first, put_of_get?_eq_none (by rw [get?_map, found]; rfl)]
          rfl
      | some row =>
          have known : labelKey item.1 ∈ values.map Prod.fst := by
            by_contra absent
            rw [get?_eq_none_iff.mpr absent] at found
            cases found
          rw [keys, mem_keys_firsts] at known
          rw [if_pos known, List.map_nil, List.append_nil, keeps.later]
          exact put_of_get? (by rw [get?_map, found]; rfl)

/-- What a method keeps of plain labels: a row for every set of them in the order of the first uses,
made of the uses of that set. -/
theorem noting_spec (labelNames : List Text) {change : Change Item Value} (keeps : Keeps change)
    (calls : List (Call Item))
    (plain : ∀ labels item, .use labels item ∈ calls → labels.Plain) :
    let values := calls.foldl (noting labelNames change) []
    let used := uses labelNames calls
    (values.map fun entry => entry.2.labels) =
        (firsts (fun use => use.1.sorted) used).map Prod.fst ∧
      ∀ entry ∈ values, some entry.2 =
        (used.filter fun use => use.1.sorted = entry.2.labels.sorted).foldl
          (fun row use => some (change row use)) none := by
  intro values used
  have all : ∀ use ∈ used, use.1.Plain := fun use member => plain use.1 use.2 (mem_uses member)
  have same : firsts (fun use => labelKey use.1) used = firsts (fun use => use.1.sorted) used :=
    firsts_congr fun use here other there => labelKey_eq_iff (all use here) (all other there)
  have rows : values = used.foldl (note (fun use => labelKey use.1) change) [] :=
    noting_calls labelNames change calls
  have labels := labels_noted keeps used
  rw [← rows] at labels
  refine ⟨?_, fun entry listed => ?_⟩
  · rw [← same]
    have shown := congrArg (List.map Prod.snd) labels
    rwa [List.map_map, List.map_map] at shown
  · have shown : (entry.1, entry.2.labels) ∈ values.map fun entry => (entry.1, entry.2.labels) :=
      List.mem_map.mpr ⟨entry, listed, rfl⟩
    rw [labels] at shown
    obtain ⟨use, first, own⟩ := List.mem_map.mp shown
    obtain ⟨key, label⟩ := Prod.mk.inj own
    have member := firsts_subset first
    have nodup := nodup_notes (fun use => labelKey use.1) change used
    rw [← rows] at nodup
    have found := get?_of_mem nodup listed
    rw [rows, get?_notes, ← key] at found
    rw [← found]
    congr 1
    refine List.filter_congr fun other there => ?_
    rw [← label]
    exact decide_eq_decide.mpr (labelKey_eq_iff (all other there) (all use member))

/-! ## Counters -/

/-- A call which throws leaves the rows. -/
def settle (values : Values Value) : Except Text (Values Value) → Values Value
  | .ok after => after
  | .error _ => values

def Counter.call [Add Number] (counter : Collector) (values : Values Number) :
    Call Number → Values Number
  | .use labels n => settle values (Counter.inc counter values labels n)
  | .reset => []

def Counter.change [Add Number] : Change Number Number
  | some cur, use => { cur with value := cur.value + use.2 }
  | none, use => { labels := use.1, value := use.2 }

theorem Counter.call_eq [Add Number] (counter : Collector) (values : Values Number)
    (call : Call Number) :
    Counter.call counter values call = noting counter.labelNames Counter.change values call := by
  cases call with
  | reset => rfl
  | use labels n =>
      rw [Counter.call, Counter.inc, noting]
      split_ifs with admitted
      · rw [assertLabelNames_of_admits admitted, note]
        cases found : OrderedMap.get? values (labelKey labels) with
        | none => simp only [found]; rfl
        | some cur => simp only [found]; rfl
      · obtain ⟨error, refused⟩ := assertLabelNames_of_not_admits admitted
        rw [refused]
        rfl

theorem Counter.foldl_change [Add Number] (first : Labels × Number)
    (rest : List (Labels × Number)) :
    (first :: rest).foldl (fun row use => some (Counter.change row use)) none =
      some { labels := first.1, value := (rest.map Prod.snd).foldl (· + ·) first.2 } := by
  induction rest using List.reverseRecOn with
  | nil => rfl
  | append_singleton rest use ih =>
      rw [← List.cons_append, List.foldl_append, ih, List.map_append, List.foldl_append]
      rfl

/-- Whatever is counted under plain labels: a counter has one row for each set of labels which was
used since the last reset, in the order of the first uses, and the row holds the sum of what was
added under these labels. -/
theorem counter_of_run [Add Number] (counter : Collector) (calls : List (Call Number))
    (plain : ∀ labels n, .use labels n ∈ calls → labels.Plain) :
    let values := calls.foldl (Counter.call counter) []
    let used := uses counter.labelNames calls
    (values.map fun entry => entry.2.labels) =
        (firsts (fun use => use.1.sorted) used).map Prod.fst ∧
      ∀ entry ∈ values, ∃ first rest,
        (used.filter fun use => use.1.sorted = entry.2.labels.sorted).map Prod.snd =
          first :: rest ∧ entry.2.value = rest.foldl (· + ·) first := by
  intro values used
  have keeps : Keeps (@Counter.change Number _) := ⟨fun _ => rfl, fun _ _ => rfl⟩
  have step : Counter.call counter = noting counter.labelNames (@Counter.change Number _) :=
    funext₂ (Counter.call_eq counter)
  have spec := noting_spec counter.labelNames keeps calls plain
  rw [← step] at spec
  refine ⟨spec.1, fun entry listed => ?_⟩
  have own := spec.2 entry listed
  cases mine : used.filter fun use => use.1.sorted = entry.2.labels.sorted with
  | nil =>
      rw [mine] at own
      cases own
  | cons first rest =>
      rw [mine, Counter.foldl_change] at own
      refine ⟨first.2, rest.map Prod.snd, rfl, ?_⟩
      rw [Option.some.inj own]

def jobs : Collector where
  name := ascii "dota_jobs"
  help := []
  labelNames := [ascii "status"]

/-- The same labels in two orders before and behind a reset, and once without the name. -/
def jobCalls {Item : Type} (item : Nat → Item) : List (Call Item) :=
  [.use signs (item 7), .reset, .use {} (item 1), .use signs (item 2), .use swapped (item 3)]

theorem plain_of_jobCalls {Item : Type} {item : Nat → Item} {labels : Labels} {used : Item}
    (call : .use labels used ∈ jobCalls item) : labels.Plain := by
  simp only [jobCalls, List.mem_cons, List.not_mem_nil, Call.use.injEq, reduceCtorEq, false_or,
    or_false] at call
  rcases call with ⟨rfl, -⟩ | ⟨rfl, -⟩ | ⟨rfl, -⟩ | ⟨rfl, -⟩
  all_goals decide

theorem counter_of_run_jobCalls :
    let values := (jobCalls id).foldl (Counter.call jobs) []
    let used := uses jobs.labelNames (jobCalls id)
    (values.map fun entry => entry.2.labels) =
        (firsts (fun use => use.1.sorted) used).map Prod.fst ∧
      ∀ entry ∈ values, ∃ first rest,
        (used.filter fun use => use.1.sorted = entry.2.labels.sorted).map Prod.snd =
          first :: rest ∧ entry.2.value = rest.foldl (· + ·) first :=
  counter_of_run jobs (jobCalls id) fun _ _ => plain_of_jobCalls

/-! ## Histograms -/

section Histograms

variable [Zero Number] [Add Number] [LT Number] [DecidableLT Number]

/-- `none` stands for `ensure`. -/
def Histogram.call (histogram : Histogram Number) (values : Values (HistogramRow Number)) :
    Call (Option Number) → Values (HistogramRow Number)
  | .use labels none => settle values (histogram.ensure values labels)
  | .use labels (some seconds) => settle values (histogram.observe values labels seconds)
  | .reset => []

/-- The row of some observations. -/
def tally (bounds : List Number) (observations : List Number) : HistogramRow Number where
  count := observations.length
  sum := observations.foldl (· + ·) 0
  buckets := bounds.map fun le => observations.countP fun seconds => ¬ le < seconds

def Histogram.change (bounds : List Number) (row : Option (Row (HistogramRow Number)))
    (use : Labels × Option Number) : Row (HistogramRow Number) :=
  let row := row.getD { labels := use.1, value := tally bounds [] }
  match use.2 with
  | none => row
  | some seconds =>
      { row with
        value :=
          { count := row.value.count + 1
            sum := row.value.sum + seconds
            buckets := observeBuckets bounds row.value.buckets seconds } }

theorem Histogram.ensure_eq (histogram : Histogram Number)
    (values : Values (HistogramRow Number)) {labels : Labels}
    (admitted : admits histogram.labelNames labels = true) : histogram.ensure values labels =
      .ok (note (fun use => labelKey use.1) (Histogram.change histogram.buckets) values
        (labels, none)) := by
  rw [Histogram.ensure, assertLabelNames_of_admits admitted, note]
  cases found : OrderedMap.get? values (labelKey labels) with
  | none =>
      simp only [found]
      rfl
  | some row =>
      simp only [found]
      exact congrArg Except.ok (put_of_get? found).symm

theorem Histogram.observe_eq (histogram : Histogram Number)
    (values : Values (HistogramRow Number)) {labels : Labels} (seconds : Number)
    (admitted : admits histogram.labelNames labels = true) :
    histogram.observe values labels seconds =
      .ok (note (fun use => labelKey use.1) (Histogram.change histogram.buckets) values
        (labels, some seconds)) := by
  rw [Histogram.observe, histogram.ensure_eq values admitted]
  simp only [bind, Except.bind, note, get?_put_self]
  exact congrArg Except.ok (put_put _ _ _ _)

theorem Histogram.call_eq (histogram : Histogram Number) (values : Values (HistogramRow Number))
    (call : Call (Option Number)) : histogram.call values call =
      noting histogram.labelNames (Histogram.change histogram.buckets) values call := by
  cases call with
  | reset => rfl
  | use labels item =>
      rw [noting]
      split_ifs with admitted
      · cases item with
        | none =>
            rw [Histogram.call, histogram.ensure_eq values admitted]
            rfl
        | some seconds =>
            rw [Histogram.call, histogram.observe_eq values seconds admitted]
            rfl
      · obtain ⟨error, refused⟩ := assertLabelNames_of_not_admits admitted
        cases item with
        | none =>
            rw [Histogram.call, Histogram.ensure, refused]
            rfl
        | some seconds =>
            rw [Histogram.call, Histogram.observe, Histogram.ensure, refused]
            rfl

omit [Zero Number] [Add Number] in
theorem observeBuckets_map (bounds : List Number) (buckets : Number → Nat) (seconds : Number) :
    observeBuckets bounds (bounds.map buckets) seconds =
      bounds.map fun le => if le < seconds then buckets le else buckets le + 1 := by
  induction bounds with
  | nil => rfl
  | cons le bounds ih => exact congrArg (_ :: ·) ih

/-- One more observation. -/
theorem tally_append_singleton (bounds observations : List Number) (seconds : Number) :
    tally bounds (observations ++ [seconds]) =
      { count := (tally bounds observations).count + 1
        sum := (tally bounds observations).sum + seconds
        buckets := observeBuckets bounds (tally bounds observations).buckets seconds } := by
  have buckets : observeBuckets bounds (tally bounds observations).buckets seconds =
      (tally bounds (observations ++ [seconds])).buckets := by
    unfold tally
    rw [observeBuckets_map]
    refine List.map_congr_left fun le _ => ?_
    rw [List.countP_append, List.countP_singleton]
    by_cases above : le < seconds
    · simp [above]
    · simp [above]
  rw [buckets]
  simp [tally]

theorem Histogram.foldl_change (bounds : List Number) (first : Labels × Option Number)
    (rest : List (Labels × Option Number)) :
    (first :: rest).foldl (fun row use => some (Histogram.change bounds row use)) none =
      some
        { labels := first.1
          value := tally bounds ((first :: rest).filterMap Prod.snd) } := by
  induction rest using List.reverseRecOn with
  | nil =>
      obtain ⟨labels, item⟩ := first
      cases item with
      | none => rfl
      | some seconds =>
          exact congrArg (fun value => some ({ labels, value } : Row (HistogramRow Number)))
            (tally_append_singleton bounds [] seconds).symm
  | append_singleton rest use ih =>
      rw [← List.cons_append, List.foldl_append, ih, List.filterMap_append]
      obtain ⟨labels, item⟩ := use
      cases item with
      | none => simp [Histogram.change]
      | some seconds =>
          have more := tally_append_singleton bounds ((first :: rest).filterMap Prod.snd) seconds
          exact congrArg (fun value => some ({ labels := first.1, value } : Row _)) more.symm

/-- Whatever is observed under plain labels: a histogram has one row for each set of labels which
was used since the last reset, in the order of the first uses, and the row holds the number of
observations under these labels, their sum, and how many of them do not exceed each bound. -/
theorem histogram_of_run (histogram : Histogram Number) (calls : List (Call (Option Number)))
    (plain : ∀ labels item, .use labels item ∈ calls → labels.Plain) :
    let values := calls.foldl histogram.call []
    let used := uses histogram.labelNames calls
    (values.map fun entry => entry.2.labels) =
        (firsts (fun use => use.1.sorted) used).map Prod.fst ∧
      ∀ entry ∈ values, entry.2.value = tally histogram.buckets
        ((used.filter fun use => use.1.sorted = entry.2.labels.sorted).filterMap Prod.snd) := by
  intro values used
  have keeps : Keeps (Histogram.change histogram.buckets) := by
    refine ⟨fun use => ?_, fun row use => ?_⟩
    all_goals
      obtain ⟨labels, item⟩ := use
      cases item <;> rfl
  have step : histogram.call =
      noting histogram.labelNames (Histogram.change histogram.buckets) :=
    funext₂ histogram.call_eq
  have spec := noting_spec histogram.labelNames keeps calls plain
  rw [← step] at spec
  refine ⟨spec.1, fun entry listed => ?_⟩
  have own := spec.2 entry listed
  cases mine : used.filter fun use => use.1.sorted = entry.2.labels.sorted with
  | nil =>
      rw [mine] at own
      cases own
  | cons first rest =>
      rw [mine, Histogram.foldl_change] at own
      rw [Option.some.inj own]

end Histograms

theorem histogram_of_run_jobCalls :
    let histogram : Histogram Nat := { jobs with buckets := [1, 2, 5] }
    let values := (jobCalls some).foldl histogram.call []
    let used := uses histogram.labelNames (jobCalls some)
    (values.map fun entry => entry.2.labels) =
        (firsts (fun use => use.1.sorted) used).map Prod.fst ∧
      ∀ entry ∈ values, entry.2.value = tally histogram.buckets
        ((used.filter fun use => use.1.sorted = entry.2.labels.sorted).filterMap Prod.snd) := by
  intro histogram
  exact histogram_of_run histogram (jobCalls some) fun _ _ => plain_of_jobCalls

end Metrics
end DotaCollector
