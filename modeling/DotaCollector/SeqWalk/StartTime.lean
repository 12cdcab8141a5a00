import DotaCollector.Library.Calendar
import DotaCollector.Library.Rounding
import DotaCollector.Library.TextOrder

/-!
# The latest start time of the sequence walk

The walk stores the latest start time it has seen as a text, and the statement which updates it
keeps the greater one of two texts. Up to the year 9999 the texts are in the order of the times.
-/

namespace DotaCollector
namespace SeqWalk
namespace StartTime

open Calendar TextOrder

/-- A finite number. -/
abbrev Number := {x : ℚ // Double.IsDouble x}

abbrev Text := List Char

/-! ## The functions -/

def pad (n : Nat) : Text := padStart 2 '0' (Nat.toDigits 10 n)

/-- The UTC fields of a date, which is given in milliseconds. -/
def utcText (ms : Nat) : Text :=
  let day := ms / 86400000
  List.flatten
    [Nat.toDigits 10 (1970 + yearFromDay day), ['-'], pad (monthFromDay day + 1), ['-'],
      pad (dateFromDay day), [' '], pad (ms / 3600000 % 24), [':'], pad (ms / 60000 % 60), [':'],
      pad (ms / 1000 % 60), " UTC".toList]

/-- `none` for a number which is not finite. A time beyond the range of a date has no date. -/
def formatSeqWalkStartTime : Option Number → Text
  | none => []
  | some unixSeconds =>
      if unixSeconds.1 ≤ 0 then []
      else
        let time := Double.nearest (unixSeconds.1 * 1000)
        if 8640000000000000 < time then [] else utcText ⌊time⌋.toNat

/-- The value of the setting behind an update. -/
def writeSeqWalkStartTime (value formatted : Text) : Text :=
  if formatted = [] then value else max value formatted

/-! ## Texts -/

/-- The first second of the year 10000. -/
def year10000 : Nat := 253402300800

theorem pad_eq {n : Nat} (small : n < 100) : pad n = fixed 2 n := padStart_toDigits small

theorem toDigits_year {n : Nat} (four : 1000 ≤ n) (small : n < 10000) :
    Nat.toDigits 10 n = fixed 4 n := by
  rw [Nat.toDigits_of_base_le (by decide) (by omega), Nat.toDigits_of_base_le (by decide) (by omega),
    Nat.toDigits_of_base_le (by decide) (by omega), Nat.toDigits_of_lt_base (by omega)]
  rw [fixed, fixed, fixed, fixed, fixed, List.nil_append,
    Nat.mod_eq_of_lt (show n / 10 / 10 / 10 < 10 by omega)]

theorem yearFromDay_lt {ms : Nat} (early : ms < year10000 * 1000) :
    yearFromDay (ms / 86400000) < 8030 := by
  rw [year10000] at early
  by_contra late
  have begins := dayFromYear_yearFromDay (ms / 86400000)
  have order := dayFromYear_mono (Nat.le_of_not_lt late)
  have first : dayFromYear 8030 = 2932897 := by decide
  omega

/-- A field, its separator, and what stands behind it. -/
theorem field_le {width m n : Nat} {sep x y : Text} (le : m ≤ n) (small : n < 10 ^ width)
    (tie : m = n → x ≤ y) : fixed width m ++ (sep ++ x) ≤ fixed width n ++ (sep ++ y) := by
  refine append_le_append (by rw [length_fixed, length_fixed]) (fixed_mono le small) fun same => ?_
  exact append_le_append rfl le_rfl fun _ => tie (fixed_inj (le.trans_lt small) small same)

theorem pad_le {m n : Nat} {sep x y : Text} (le : m ≤ n) (small : n < 100)
    (tie : m = n → x ≤ y) : pad m ++ (sep ++ x) ≤ pad n ++ (sep ++ y) := by
  rw [pad_eq (le.trans_lt small), pad_eq small]
  exact field_le le small tie

theorem year_le {m n : Nat} {sep x y : Text} (four : 1000 ≤ m) (le : m ≤ n) (small : n < 10000)
    (tie : m = n → x ≤ y) :
    Nat.toDigits 10 m ++ (sep ++ x) ≤ Nat.toDigits 10 n ++ (sep ++ y) := by
  rw [toDigits_year four (le.trans_lt small), toDigits_year (four.trans le) small]
  exact field_le le small tie

theorem utcText_mono {ms later : Nat} (le : ms ≤ later) (early : later < year10000 * 1000) :
    utcText ms ≤ utcText later := by
  have days : ms / 86400000 ≤ later / 86400000 := Nat.div_le_div_right le
  have years := yearFromDay_mono days
  have bound := yearFromDay_lt early
  have months := monthFromDay_lt (later / 86400000)
  have dates := dateFromDay_lt (later / 86400000)
  simp only [utcText, List.flatten_cons, List.flatten_nil, List.append_nil]
  -- each field is compared where the ones before it are equal
  refine year_le (by omega) (by omega) (by omega) fun year => ?_
  obtain ⟨monthLe, sameMonth⟩ := date_lex days (by omega)
  refine pad_le (by omega) (by omega) fun month => ?_
  obtain ⟨dateLe, sameDate⟩ := sameMonth (by omega)
  refine pad_le dateLe (by omega) fun date => ?_
  have day := sameDate date
  refine pad_le (by omega) (by omega) fun hour => ?_
  refine pad_le (by omega) (by omega) fun minute => ?_
  have second : ms / 1000 % 60 ≤ later / 1000 % 60 := by omega
  change _ ++ ([] ++ _) ≤ _ ++ ([] ++ _)
  exact pad_le second (by omega) fun _ => le_rfl

/-! ## Times -/

/-- The doubles from 2 ^ 37 on to 2 ^ 38 have steps of 2 ^ -15. -/
theorem le_before_year10000 {t : Number} (late : 2 ^ 37 ≤ t.1) (early : t.1 < year10000) :
    t.1 ≤ year10000 - 1 / 32768 := by
  have positive : 0 < t.1 := (by norm_num : (0 : ℚ) < 2 ^ 37).trans_le late
  have log : Int.log 2 t.1 = 37 := by
    have low : (37 : ℤ) ≤ Int.log 2 t.1 := by
      rw [← Int.zpow_le_iff_le_log (by decide) positive]
      exact_mod_cast late
    have high : Int.log 2 t.1 < 38 := by
      rw [← Int.lt_zpow_iff_log_lt (by decide) positive]
      rw [year10000] at early
      norm_num at early ⊢
      linarith
    omega
  have step : Double.ulp t.1 = 1 / 32768 := by
    rw [Double.ulp, abs_of_pos positive, log]
    norm_num
  have multiple : (Double.roundEven (t.1 / Double.ulp t.1) : ℚ) * Double.ulp t.1 = t.1 := by
    have double : Double.nearest t.1 = t.1 := t.2
    rwa [Double.nearest] at double
  generalize Double.roundEven (t.1 / Double.ulp t.1) = k at multiple
  rw [step] at multiple
  have below : k < year10000 * 32768 := by
    have real : (k : ℚ) < year10000 * 32768 := by linarith
    exact_mod_cast real
  have whole : (k : ℚ) + 1 ≤ year10000 * 32768 := by exact_mod_cast below
  linarith

theorem log_lt {x : ℚ} {k : ℤ} (positive : 0 < x) (small : x < 2 ^ k) : Int.log 2 x < k :=
  (Int.lt_zpow_iff_log_lt (by decide) positive).mp small

/-- A time before the year 10000 in milliseconds is rounded to one before it. -/
theorem product_lt {t : Number} (positive : 0 < t.1) (early : t.1 < year10000) :
    Double.nearest (t.1 * 1000) < year10000 * 1000 := by
  have product : 0 < t.1 * 1000 := by linarith
  rcases lt_or_ge (t.1 * 1000) (2 ^ (47 : ℤ)) with small | large
  · have log : Int.log 2 (t.1 * 1000) + 1 ≤ 47 := log_lt product small
    calc Double.nearest (t.1 * 1000) ≤ 2 ^ (Int.log 2 (t.1 * 1000) + 1) :=
          (Double.nearest_bounds product).2
      _ ≤ 2 ^ (47 : ℤ) := zpow_le_zpow_right₀ (by norm_num) log
      _ < year10000 * 1000 := by norm_num [year10000]
  · have late : 2 ^ 37 ≤ t.1 := by
      norm_num at large ⊢
      linarith
    have bound := le_before_year10000 late early
    have log : Int.log 2 (t.1 * 1000) < 48 := by
      refine log_lt product ?_
      rw [year10000] at early
      norm_num at early ⊢
      linarith
    have step : Double.ulp (t.1 * 1000) ≤ 1 / 32 := by
      rw [Double.ulp, abs_of_pos product]
      calc (2 : ℚ) ^ (Int.log 2 (t.1 * 1000) - 52) ≤ 2 ^ (-5 : ℤ) :=
            zpow_le_zpow_right₀ (by norm_num) (by omega)
        _ = 1 / 32 := by norm_num
    have rounded := Double.nearest_le (t.1 * 1000)
    linarith

/-- The milliseconds of a time. -/
def milliseconds (t : Number) : Nat := ⌊Double.nearest (t.1 * 1000)⌋.toNat

theorem milliseconds_mono {t later : Number} (positive : 0 < t.1) (le : t ≤ later) :
    milliseconds t ≤ milliseconds later := by
  have order : t.1 * 1000 ≤ later.1 * 1000 := mul_le_mul_of_nonneg_right le (by norm_num)
  exact Int.toNat_le_toNat (Int.floor_mono (Double.nearest_mono (by linarith) order))

theorem milliseconds_lt {t : Number} (positive : 0 < t.1) (early : t.1 < year10000) :
    milliseconds t < year10000 * 1000 := by
  have below : ⌊Double.nearest (t.1 * 1000)⌋ < (year10000 * 1000 : ℤ) :=
    Int.floor_lt.mpr (by exact_mod_cast product_lt positive early)
  rw [milliseconds, Int.toNat_lt' (by decide)]
  exact_mod_cast below

theorem formatSeqWalkStartTime_eq {t : Number} (positive : 0 < t.1) (early : t.1 < year10000) :
    formatSeqWalkStartTime (some t) = utcText (milliseconds t) := by
  have within := product_lt positive early
  rw [year10000] at within
  rw [formatSeqWalkStartTime, if_neg positive.not_ge]
  dsimp only
  rw [if_neg (by norm_num at within ⊢; linarith), milliseconds]

theorem formatSeqWalkStartTime_of_le_zero {t : Number} (le : t.1 ≤ 0) :
    formatSeqWalkStartTime (some t) = [] := by
  rw [formatSeqWalkStartTime, if_pos le]

/-- Times before the year 10000 are in the order of their texts. -/
theorem formatSeqWalkStartTime_mono {t later : Number} (le : t ≤ later)
    (early : later.1 < year10000) :
    formatSeqWalkStartTime (some t) ≤ formatSeqWalkStartTime (some later) := by
  rcases le_or_gt t.1 0 with none | positive
  · rw [formatSeqWalkStartTime_of_le_zero none]
    exact not_lt.mp (List.not_lt_nil _)
  · have order : t.1 ≤ later.1 := le
    rw [formatSeqWalkStartTime_eq positive (order.trans_lt early),
      formatSeqWalkStartTime_eq (positive.trans_le order) early]
    exact utcText_mono (milliseconds_mono positive le)
      (milliseconds_lt (positive.trans_le order) early)

/-! ## Updates -/

/-- The latest of some times and of those which are finite among the updates. -/
def latest (start : Number) (updates : List (Option Number)) : Number :=
  updates.foldl (fun latest update => update.elim latest (max latest)) start

theorem utcText_ne_nil (ms : Nat) : utcText ms ≠ [] := by
  rw [utcText, ne_eq, List.flatten_eq_nil_iff]
  exact fun empty => List.cons_ne_nil _ _ (empty ['-'] (List.mem_cons_of_mem _ List.mem_cons_self))

/-- The greater text is that of the later time. -/
theorem write_latest {stored : Number} (nonneg : 0 ≤ stored.1) (early : stored.1 < year10000)
    (update : Option Number) (updateEarly : ∀ t ∈ update, t.1 < year10000) :
    writeSeqWalkStartTime (formatSeqWalkStartTime (some stored)) (formatSeqWalkStartTime update) =
      formatSeqWalkStartTime (some (update.elim stored (max stored))) := by
  cases update with
  | none => rfl
  | some t =>
      have tEarly := updateEarly t rfl
      rw [writeSeqWalkStartTime, Option.elim_some]
      split_ifs with skipped
      · have none : t.1 ≤ 0 := by
          by_contra positive
          rw [formatSeqWalkStartTime_eq (not_le.mp positive) tEarly] at skipped
          exact utcText_ne_nil _ skipped
        rw [max_eq_left (show t ≤ stored from none.trans nonneg)]
      · rcases le_total stored t with le | le
        · rw [max_eq_right le, max_eq_right (formatSeqWalkStartTime_mono le tEarly)]
        · rw [max_eq_left le, max_eq_left (formatSeqWalkStartTime_mono le early)]

theorem latest_bounds {start : Number} (nonneg : 0 ≤ start.1) (early : start.1 < year10000)
    {updates : List (Option Number)} (all : ∀ t : Number, some t ∈ updates → t.1 < year10000) :
    0 ≤ (latest start updates).1 ∧ (latest start updates).1 < year10000 := by
  induction updates generalizing start with
  | nil => exact ⟨nonneg, early⟩
  | cons update updates ih =>
      have rest (t : Number) (listed : some t ∈ updates) := all t (List.mem_cons_of_mem _ listed)
      cases update with
      | none => exact ih nonneg early rest
      | some t =>
          refine ih ?_ ?_ rest
          · exact nonneg.trans (show start ≤ max start t from le_max_left _ _)
          · rcases max_choice start t with same | same
            · exact (congrArg Subtype.val same).trans_lt early
            · exact (congrArg Subtype.val same).trans_lt (all t List.mem_cons_self)

/-- The stored text is that of the latest time, whatever the updates are. -/
theorem stored_latest {start : Number} (nonneg : 0 ≤ start.1) (early : start.1 < year10000)
    {updates : List (Option Number)} (all : ∀ t : Number, some t ∈ updates → t.1 < year10000) :
    (updates.map formatSeqWalkStartTime).foldl writeSeqWalkStartTime
        (formatSeqWalkStartTime (some start)) =
      formatSeqWalkStartTime (some (latest start updates)) := by
  induction updates generalizing start with
  | nil => rfl
  | cons update updates ih =>
      have rest (t : Number) (listed : some t ∈ updates) := all t (List.mem_cons_of_mem _ listed)
      have first : ∀ t ∈ update, t.1 < year10000 := fun t found =>
        all t (found ▸ List.mem_cons_self)
      rw [List.map_cons, List.foldl_cons, write_latest nonneg early update first]
      have bounds : 0 ≤ (latest start [update]).1 ∧ (latest start [update]).1 < year10000 :=
        latest_bounds nonneg early fun t listed => first t (List.mem_singleton.mp listed).symm
      exact ih bounds.1 bounds.2 rest

/-- The stored text behind some updates. -/
def stored (start : Text) (updates : List (Option Number)) : Text :=
  (updates.map formatSeqWalkStartTime).foldl writeSeqWalkStartTime start

theorem le_latest (start : Number) (updates : List (Option Number)) :
    start ≤ latest start updates := by
  induction updates generalizing start with
  | nil => exact le_rfl
  | cons update updates ih =>
      cases update with
      | none => exact ih start
      | some t => exact (le_max_left start t).trans (ih _)

/-- The texts are in the order of the times, an update keeps the later of two times, and over any
updates the setting shows the latest time so far, which never moves back. The empty text stands
for the time 0. -/
theorem start_time_order :
    (∀ t later : Number, 0 < t.1 → t ≤ later → later.1 < year10000 →
      formatSeqWalkStartTime (some t) ≤ formatSeqWalkStartTime (some later)) ∧
    (∀ t other : Number, 0 < t.1 → 0 < other.1 → t.1 < year10000 → other.1 < year10000 →
      writeSeqWalkStartTime (formatSeqWalkStartTime (some t))
        (formatSeqWalkStartTime (some other)) = formatSeqWalkStartTime (some (max t other))) ∧
    ∀ (start : Number) (front back : List (Option Number)), 0 ≤ start.1 → start.1 < year10000 →
      (∀ t : Number, some t ∈ front ++ back → t.1 < year10000) →
      stored (formatSeqWalkStartTime (some start)) front =
          formatSeqWalkStartTime (some (latest start front)) ∧
        latest start front ≤ latest start (front ++ back) ∧
        stored (formatSeqWalkStartTime (some start)) front ≤
          stored (formatSeqWalkStartTime (some start)) (front ++ back) := by
  refine ⟨fun t later _ => formatSeqWalkStartTime_mono, fun t other positive _ early otherEarly => ?_,
    fun start front back nonneg early all => ?_⟩
  · exact write_latest positive.le early (some other) fun t found => by
      rw [← Option.some_inj.mp found]
      exact otherEarly
  · have frontEarly (t : Number) (listed : some t ∈ front) := all t (List.mem_append_left _ listed)
    have shown := stored_latest nonneg early frontEarly
    have order : latest start front ≤ latest start (front ++ back) := by
      rw [latest, latest, List.foldl_append]
      exact le_latest _ back
    refine ⟨shown, order, ?_⟩
    rw [stored, stored, shown, stored_latest nonneg early all]
    exact formatSeqWalkStartTime_mono order (latest_bounds nonneg early all).2

/-- A whole number of seconds. -/
def seconds (n : Nat) (double : Double.IsDouble n) : Number := ⟨n, double⟩

example : formatSeqWalkStartTime (some (seconds 1700000000 (by decide +kernel))) =
    "2023-11-14 22:13:20 UTC".toList := by
  decide +kernel

/-- An earlier time behind a later one leaves the setting as it is. -/
theorem later_time_kept :
    stored (formatSeqWalkStartTime (some (seconds 0 (by decide +kernel))))
        [some (seconds 1700000000 (by decide +kernel)), none,
          some (seconds 1600000000 (by decide +kernel))] =
      "2023-11-14 22:13:20 UTC".toList := by
  obtain ⟨-, -, updates⟩ := start_time_order
  rw [(updates (seconds 0 (by decide +kernel)) _ [] le_rfl (by decide +kernel) ?_).1]
  · decide +kernel
  · intro t listed
    rw [List.append_nil] at listed
    simp only [List.mem_cons, Option.some_inj, reduceCtorEq, List.not_mem_nil, or_false,
      false_or] at listed
    rcases listed with rfl | rfl <;> decide +kernel

end StartTime
end SeqWalk
end DotaCollector
