import DotaCollector.Library.JsonText
import DotaCollector.Steam.Confirmations

/-!
# The replacement of large integers in a text

Integers of sixteen digits and more are put between quotes before a text is parsed. The pattern
which finds them takes the mark in front of the digits and the mark behind them, and it is sought
in the whole text, also within its strings.
-/

namespace DotaCollector
namespace Steam
namespace SteamJson

open JsonText

/-! ## The functions -/

def leadMarks : List Mark := [.colon, .openArray, .comma]

def trailMarks : List Mark := [.comma, .closeObject, .closeArray]

/-- The class `[:[,]`. -/
def leads : Text := leadMarks.map Mark.unit

/-- The class `[,}\]]`. -/
def trails : Text := trailMarks.map Mark.unit

/-- The groups of a match, and the text behind it. -/
structure Match where
  lead : Text
  digits : Text
  trail : Text
  behind : Text

/-- A match of `([:[,]\s*)(\d{16,})(\s*[,}\]])` at the front of a text. -/
def matchAt : Text → Option Match
  | [] => none
  | u :: rest =>
      let number := rest.dropWhile isSpace
      let behind := number.dropWhile isDigit
      if u ∈ leads ∧ 16 ≤ (number.takeWhile isDigit).length then
        match behind.dropWhile isSpace with
        | [] => none
        | v :: more =>
            if v ∈ trails then
              some {
                lead := u :: rest.takeWhile isSpace
                digits := number.takeWhile isDigit
                trail := behind.takeWhile isSpace ++ [v]
                behind := more }
            else none
      else none

/-- The replacement from a place on, with the number of units which a match has taken already. -/
def replaceFrom : Nat → Text → Text
  | _, [] => []
  | taken + 1, _ :: rest => replaceFrom taken rest
  | 0, u :: rest =>
      match matchAt (u :: rest) with
      | none => u :: replaceFrom 0 rest
      | some found =>
          found.lead ++ quote :: (found.digits ++ quote :: (found.trail ++
            replaceFrom ((found.lead ++ (found.digits ++ found.trail)).length - 1) rest))

def replace (text : Text) : Text := replaceFrom 0 text

def parseSteamJson {Number : Type} (number : Text → Number) (text : Text) :
    Option (JsonText.Value Number) :=
  JsonText.parse number (replace text)

/-- A string in which no match begins, as it is written. -/
def Clean (quoted : Quoted) : Prop := ∀ part ∈ quoted.raw.tails, matchAt part = none

instance (quoted : Quoted) : Decidable (Clean quoted) :=
  inferInstanceAs (Decidable (∀ part ∈ quoted.raw.tails, matchAt part = none))

/-! ## Classes of units -/

theorem isWordUnit_ascii {u : UInt16} (unit : isWordUnit u = true) : u < 0x80 := by
  simp only [isWordUnit, isDigit, Bool.or_eq_true, Bool.and_eq_true, decide_eq_true_eq] at unit
  rcases unit with (⟨-, digit⟩ | ⟨-, letter⟩) | sign
  · exact UInt16.lt_of_le_of_lt digit (by decide)
  · exact UInt16.lt_of_le_of_lt letter (by decide)
  · have small : [0x2b, 0x2d, 0x2e, (0x45 : UInt16)].all fun u => u < 0x80 := by decide
    exact of_decide_eq_true (List.all_eq_true.mp small u sign)

/-- The spaces which are not ASCII have no other use. -/
theorem isSpace_ascii {u : UInt16} (space : isSpace u = true) (small : u < 0x80) :
    u ∈ [0x09, 0x0a, 0x0b, 0x0c, 0x0d, (0x20 : UInt16)] := by
  rw [isSpace, Bool.or_eq_true] at space
  rcases space with listed | range
  · have check : [0x09, 0x0a, 0x0b, 0x0c, 0x0d, 0x20, 0xa0, 0x1680, 0x2028, 0x2029, 0x202f, 0x205f,
        0x3000, (0xfeff : UInt16)].all fun u => decide (u < 0x80 →
          u ∈ [0x09, 0x0a, 0x0b, 0x0c, 0x0d, (0x20 : UInt16)]) := by decide
    exact of_decide_eq_true (List.all_eq_true.mp check u (of_decide_eq_true listed)) small
  · rw [Bool.and_eq_true, decide_eq_true_eq, decide_eq_true_eq] at range
    exact absurd (UInt16.lt_of_le_of_lt range.1 small) (by decide)

theorem isWordUnit_of_isSpace {u : UInt16} (space : isSpace u = true) : isWordUnit u = false := by
  by_contra unit
  rw [Bool.not_eq_false] at unit
  have listed := isSpace_ascii space (isWordUnit_ascii unit)
  have other : [0x09, 0x0a, 0x0b, 0x0c, 0x0d, (0x20 : UInt16)].all fun u => !isWordUnit u := by
    decide
  have outside := List.all_eq_true.mp other u listed
  rw [unit] at outside
  cases outside

theorem isDigit_eq_false {u : UInt16} (other : isWordUnit u = false) : isDigit u = false := by
  by_contra digit
  rw [isWordUnit_of_isDigit (Bool.eq_true_of_not_eq_false digit)] at other
  cases other

theorem isSpace_of_isDigit {u : UInt16} (digit : isDigit u = true) : isSpace u = false := by
  by_contra space
  rw [isDigit_eq_false (isWordUnit_of_isSpace (Bool.eq_true_of_not_eq_false space))] at digit
  cases digit

theorem isSpace_unit (mark : Mark) : isSpace mark.unit = false := by
  cases mark <;> decide

theorem quote_ne_of_isSpace {u : UInt16} (space : isSpace u = true) : u ≠ quote := by
  rintro rfl
  cases space

theorem isSpace_of_isWhite {u : UInt16} (white : isWhite u = true) : isSpace u = true := by
  have listed : u ∈ [0x09, 0x0a, 0x0d, (0x20 : UInt16)] := of_decide_eq_true white
  have spaces : [0x09, 0x0a, 0x0d, (0x20 : UInt16)].all isSpace = true := by decide
  exact List.all_eq_true.mp spaces u listed

theorem markUnit_inj {mark other : Mark} (same : mark.unit = other.unit) : mark = other := by
  have known := markOf_unit mark
  rw [same, markOf_unit] at known
  exact (Option.some.inj known).symm

theorem not_mem_leads {u : UInt16} (unmarked : ∀ mark ∈ leadMarks, u ≠ Mark.unit mark) :
    u ∉ leads := by
  intro listed
  obtain ⟨mark, lead, rfl⟩ := List.mem_map.mp listed
  exact unmarked mark lead rfl

/-! ## Matches -/

/-- How a text matches. -/
inductive Matches : Text → Match → Prop
  | mk {lead trail : Mark} {spaces digits more behind : Text} (begins : lead ∈ leadMarks)
      (blank : ∀ u ∈ spaces, isSpace u = true) (digit : ∀ u ∈ digits, isDigit u = true)
      (long : 16 ≤ digits.length) (blank' : ∀ u ∈ more, isSpace u = true)
      (ends : trail ∈ trailMarks) :
      Matches (lead.unit :: (spaces ++ (digits ++ (more ++ trail.unit :: behind))))
        ⟨lead.unit :: spaces, digits, more ++ [trail.unit], behind⟩

/-- A word does not go on into spaces or a mark. -/
theorem word_ends {spaces : Text} (blank : ∀ u ∈ spaces, isSpace u = true) (mark : Mark)
    (behind : Text) : ∀ u ∈ (spaces ++ mark.unit :: behind).head?, isWordUnit u = false := by
  intro u head
  cases spaces with
  | nil =>
      cases head
      exact isWordUnit_unit mark
  | cons v spaces =>
      cases head
      exact isWordUnit_of_isSpace (blank u List.mem_cons_self)

theorem forall_mem_takeWhile (p : UInt16 → Bool) (text : Text) :
    ∀ u ∈ text.takeWhile p, p u = true := fun u member =>
  List.all_eq_true.mp List.all_takeWhile u member

theorem matches_of_matchAt {text : Text} {found : Match} (matched : matchAt text = some found) :
    Matches text found := by
  cases text with
  | nil => cases matched
  | cons u rest =>
      rw [matchAt] at matched
      split_ifs at matched with begins
      split at matched
      · cases matched
      · next v more split =>
        split_ifs at matched with ends
        cases matched
        obtain ⟨lead, front, rfl⟩ := List.mem_map.mp begins.1
        obtain ⟨trail, back, rfl⟩ := List.mem_map.mp ends
        have whole : rest = rest.takeWhile isSpace ++ ((rest.dropWhile isSpace).takeWhile isDigit ++
            (((rest.dropWhile isSpace).dropWhile isDigit).takeWhile isSpace ++
              trail.unit :: more)) := by
          rw [← split, List.takeWhile_append_dropWhile, List.takeWhile_append_dropWhile,
            List.takeWhile_append_dropWhile]
        have made : Matches _ ⟨lead.unit :: _, _, _ ++ [trail.unit], more⟩ :=
          .mk front (forall_mem_takeWhile isSpace rest)
            (forall_mem_takeWhile isDigit (rest.dropWhile isSpace)) begins.2
            (forall_mem_takeWhile isSpace ((rest.dropWhile isSpace).dropWhile isDigit)) back
        rwa [← whole] at made

/-- There is one match at most at a place, and it is found. -/
theorem matchAt_eq_some {text : Text} {found : Match} :
    matchAt text = some found ↔ Matches text found := by
  constructor
  · exact matches_of_matchAt
  · rintro ⟨begins, blank, digit, long, blank', ends⟩
    rename_i lead trail spaces digits more behind
    have number : ∀ u ∈ (digits ++ (more ++ trail.unit :: behind)).head?, isSpace u = false := by
      intro u head
      cases digits with
      | nil => cases long
      | cons v digits =>
          cases head
          exact isSpace_of_isDigit (digit u List.mem_cons_self)
    have rest : ∀ u ∈ (more ++ trail.unit :: behind).head?, isDigit u = false := fun u head =>
      isDigit_eq_false (word_ends blank' trail behind u head)
    have last : ∀ u ∈ (trail.unit :: behind).head?, isSpace u = false := by
      rintro u head
      cases head
      exact isSpace_unit trail
    rw [matchAt, takeWhile_append_stop blank number, dropWhile_append_stop blank number,
      takeWhile_append_stop digit rest, dropWhile_append_stop digit rest,
      takeWhile_append_stop blank' last, dropWhile_append_stop blank' last,
      if_pos ⟨List.mem_map_of_mem begins, long⟩]
    exact if_pos (List.mem_map_of_mem ends)

/-! ## The replacement -/

theorem replaceFrom_append (front rest : Text) :
    replaceFrom front.length (front ++ rest) = replaceFrom 0 rest := by
  induction front with
  | nil => rfl
  | cons u front ih => exact ih

theorem replace_cons {u : UInt16} {rest : Text} (unmatched : matchAt (u :: rest) = none) :
    replace (u :: rest) = u :: replace rest := by
  rw [replace, replaceFrom, unmatched]
  rfl

theorem replace_matches {text : Text} {found : Match} (matched : Matches text found) :
    replace text = found.lead ++ quote :: (found.digits ++ quote :: (found.trail ++
      replace found.behind)) := by
  have located := matchAt_eq_some.mpr matched
  cases matched with
  | @mk lead trail spaces digits more behind =>
      rw [replace, replaceFrom, located]
      dsimp only
      have whole : spaces ++ (digits ++ (more ++ trail.unit :: behind)) =
          (spaces ++ (digits ++ (more ++ [trail.unit]))) ++ behind := by simp
      have size : (lead.unit :: spaces ++ (digits ++ (more ++ [trail.unit]))).length - 1 =
          (spaces ++ (digits ++ (more ++ [trail.unit]))).length := rfl
      rw [size, whole, replaceFrom_append]
      rfl

theorem matchAt_of_not_lead {u : UInt16} (other : u ∉ leads) (rest : Text) :
    matchAt (u :: rest) = none := by
  refine Option.eq_none_iff_forall_ne_some.mpr fun found matched => ?_
  cases matchAt_eq_some.mp matched with
  | mk begins => exact other (List.mem_map_of_mem begins)

theorem replace_append {front : Text} (others : ∀ u ∈ front, u ∉ leads) (rest : Text) :
    replace (front ++ rest) = front ++ replace rest := by
  induction front with
  | nil => rfl
  | cons u front ih =>
      rw [List.forall_mem_cons] at others
      rw [List.cons_append, replace_cons (matchAt_of_not_lead others.1 _), ih others.2]
      rfl

/-- A replacement keeps the first unit. -/
theorem head?_replace (text : Text) : (replace text).head? = text.head? := by
  cases text with
  | nil => rfl
  | cons u rest =>
      cases matched : matchAt (u :: rest) with
      | none => rw [replace_cons matched]; rfl
      | some found =>
          rw [replace_matches (matchAt_eq_some.mp matched)]
          cases matchAt_eq_some.mp matched
          rfl

/-! ## Strings -/

theorem quote_not_mem {lead trail : Mark} {spaces digits more : Text}
    (blank : ∀ u ∈ spaces, isSpace u = true) (digit : ∀ u ∈ digits, isDigit u = true)
    (blank' : ∀ u ∈ more, isSpace u = true) :
    quote ∉ lead.unit :: (spaces ++ (digits ++ (more ++ [trail.unit]))) := by
  intro member
  simp only [List.mem_cons, List.mem_append, List.not_mem_nil, or_false] at member
  rcases member with same | space | number | space | same
  · exact unit_ne_quote lead same.symm
  · exact quote_ne_of_isSpace (blank quote space) rfl
  · cases digit quote number
  · exact quote_ne_of_isSpace (blank' quote space) rfl
  · exact unit_ne_quote trail same.symm

/-- A match does not reach over a quote. -/
theorem Matches.before_quote {part rest : Text} {found : Match}
    (matched : Matches (part ++ quote :: rest) found) :
    ∃ behind, Matches part { found with behind := behind } ∧
      found.behind = behind ++ quote :: rest := by
  generalize same : part ++ quote :: rest = text at matched
  cases matched with
  | @mk lead trail spaces digits more behind begins blank digit long blank' ends =>
      have whole : ∀ behind, lead.unit :: (spaces ++ (digits ++ (more ++ trail.unit :: behind))) =
          (lead.unit :: (spaces ++ (digits ++ (more ++ [trail.unit])))) ++ behind := by simp
      have inner : ∀ behind, Matches
          ((lead.unit :: (spaces ++ (digits ++ (more ++ [trail.unit])))) ++ behind)
          ⟨lead.unit :: spaces, digits, more ++ [trail.unit], behind⟩ := fun behind =>
        whole behind ▸ .mk begins blank digit long blank' ends
      rw [whole] at same
      rcases List.append_eq_append_iff.mp same with ⟨between, front, back⟩ | ⟨between, rfl, back⟩
      · cases between with
        | nil =>
            rw [List.append_nil] at front
            rw [← front, ← List.append_nil (lead.unit :: _)]
            exact ⟨[], inner [], back.symm⟩
        | cons u between =>
            have member : quote ∈ part ++ u :: between := by
              rw [(List.cons.inj back).1]
              exact List.mem_append_right part List.mem_cons_self
            rw [← front] at member
            exact absurd member (quote_not_mem blank digit blank')
      · exact ⟨between, inner between, back⟩

theorem Matches.append {part : Text} {found : Match} (matched : Matches part found) (rest : Text) :
    Matches (part ++ rest) { found with behind := found.behind ++ rest } := by
  cases matched with
  | @mk lead trail spaces digits more behind begins blank digit long blank' ends =>
      have whole : lead.unit :: (spaces ++ (digits ++ (more ++ trail.unit :: behind))) ++ rest =
          lead.unit :: (spaces ++ (digits ++ (more ++ trail.unit :: (behind ++ rest)))) := by simp
      rw [whole]
      exact .mk begins blank digit long blank' ends

/-- A unit of a string at which no match begins. -/
theorem replace_unit {u : UInt16} {raw : Text} (unmatched : matchAt (u :: raw) = none)
    (rest : Text) :
    replace (u :: (raw ++ quote :: rest)) = u :: replace (raw ++ quote :: rest) := by
  refine replace_cons (Option.eq_none_iff_forall_ne_some.mpr fun found matched => ?_)
  have starts : Matches ((u :: raw) ++ quote :: rest) found := matchAt_eq_some.mp matched
  obtain ⟨behind, inner, -⟩ := starts.before_quote
  rw [matchAt_eq_some.mpr inner] at unmatched
  cases unmatched

theorem quote_not_mem_leads : quote ∉ leads := by decide

theorem replace_clean {raw : Text} (clean : ∀ part ∈ raw.tails, matchAt part = none)
    (rest : Text) :
    replace (raw ++ quote :: rest) = raw ++ quote :: replace rest := by
  induction raw with
  | nil => exact replace_cons (matchAt_of_not_lead quote_not_mem_leads rest)
  | cons u raw ih =>
      rw [List.tails_cons, List.forall_mem_cons] at clean
      rw [List.cons_append, replace_unit clean.1, ih clean.2]
      rfl

/-- In any other string the first match begins somewhere, and quotes are put around its digits. -/
theorem replace_unclean {raw : Text} (unclean : ¬ ∀ part ∈ raw.tails, matchAt part = none)
    (rest : Text) :
    ∃ front part found more, raw = front ++ part ∧ Matches part found ∧
      replace (raw ++ quote :: rest) =
        (front ++ found.lead) ++ quote :: (found.digits ++ quote :: more) := by
  induction raw with
  | nil => exact absurd (by decide) unclean
  | cons u raw ih =>
      cases matched : matchAt (u :: raw) with
      | some found =>
          have inner := matchAt_eq_some.mp matched
          have replaced := replace_matches (inner.append (quote :: rest))
          exact ⟨[], u :: raw, found, _, rfl, inner, replaced⟩
      | none =>
          rw [List.tails_cons, List.forall_mem_cons, not_and] at unclean
          obtain ⟨front, part, found, more, rfl, inner, replaced⟩ := ih (unclean matched)
          refine ⟨u :: front, part, found, more, rfl, inner, ?_⟩
          rw [List.cons_append, replace_unit matched, replaced]
          rfl

end SteamJson
end Steam
end DotaCollector
