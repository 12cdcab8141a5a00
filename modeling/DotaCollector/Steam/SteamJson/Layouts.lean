import DotaCollector.Steam.SteamJson.Replace

/-!
# The tokens of a text behind the replacement

Where the strings of a text are free of matches, the replacement turns some of its words into
strings. Where a string has a match, it is broken: a word follows a string, and the text is no
JSON any more.
-/

namespace DotaCollector
namespace Steam
namespace SteamJson

open JsonText

def isLarge (word : Text) : Bool := word.all isDigit && 16 ≤ word.length

/-- The replacement on tokens. The mark behind the digits of a match does not begin another one:
the flag says whether the first token may begin a match. -/
def quoteTokens : Bool → List Token → List Token
  | _, [] => []
  | free, .mark lead :: .scalar word :: .mark trail :: rest =>
      if free = true ∧ lead ∈ leadMarks ∧ isLarge word = true ∧ trail ∈ trailMarks then
        .mark lead :: .string ⟨word, word⟩ :: quoteTokens false (.mark trail :: rest)
      else .mark lead :: quoteTokens true (.scalar word :: .mark trail :: rest)
  | _, token :: rest => token :: quoteTokens true rest

/-- A match in tokens. -/
def Hit (tokens : List Token) : Prop :=
  ∃ lead word trail rest, tokens = .mark lead :: .scalar word :: .mark trail :: rest ∧
    lead ∈ leadMarks ∧ isLarge word = true ∧ trail ∈ trailMarks

theorem quoteTokens_cons {free : Bool} {token : Token} {rest : List Token}
    (pass : free = true → ¬ Hit (token :: rest)) :
    quoteTokens free (token :: rest) = token :: quoteTokens true rest := by
  rw [quoteTokens.eq_def]
  split
  · next same => cases same
  · next free lead word trail more same =>
    cases same
    refine if_neg fun hit => pass hit.1 ?_
    exact ⟨lead, word, trail, more, rfl, hit.2⟩
  · next same =>
    cases same
    rfl

theorem quoteTokens_word (free : Bool) (word : Text) (rest : List Token) :
    quoteTokens free (.scalar word :: rest) = .scalar word :: quoteTokens true rest := by
  refine quoteTokens_cons fun _ => ?_
  rintro ⟨lead, word, trail, more, same, -⟩
  cases same

theorem quoteTokens_string (free : Bool) (quoted : Quoted) (rest : List Token) :
    quoteTokens free (.string quoted :: rest) = .string quoted :: quoteTokens true rest := by
  refine quoteTokens_cons fun _ => ?_
  rintro ⟨lead, word, trail, more, same, -⟩
  cases same

theorem quoteTokens_hit {lead trail : Mark} {word : Text} (begins : lead ∈ leadMarks)
    (long : isLarge word = true) (ends : trail ∈ trailMarks) (rest : List Token) :
    quoteTokens true (.mark lead :: .scalar word :: .mark trail :: rest) =
      .mark lead :: .string ⟨word, word⟩ :: quoteTokens false (.mark trail :: rest) := by
  rw [quoteTokens, if_pos ⟨rfl, begins, long, ends⟩]

/-- A mark in front of a mark or of a string begins no match. -/
theorem quoteTokens_mark (free : Bool) (mark : Mark) {next : Token}
    (other : ∀ word, next ≠ .scalar word) (rest : List Token) :
    quoteTokens free (.mark mark :: next :: rest) =
      .mark mark :: quoteTokens true (next :: rest) := by
  refine quoteTokens_cons fun _ => ?_
  rintro ⟨lead, word, trail, more, same, -⟩
  cases same
  exact other word rfl

theorem quoteTokens_close (free : Bool) {mark : Mark} (closes : mark ∉ leadMarks)
    (rest : List Token) :
    quoteTokens free (.mark mark :: rest) = .mark mark :: quoteTokens true rest := by
  refine quoteTokens_cons fun _ => ?_
  rintro ⟨lead, word, trail, more, same, begins, -⟩
  cases same
  exact closes begins

theorem quoteTokens_false (token : Token) (rest : List Token) :
    quoteTokens false (token :: rest) = token :: quoteTokens true rest :=
  quoteTokens_cons fun free => absurd free Bool.false_ne_true

/-! ## The course of the replacement -/

/-- How the replacement goes over a layout in which its tokens are found. -/
inductive Course : List Token → Text → Prop
  | nil : Course [] []
  | white {u : UInt16} {tokens : List Token} {text : Text} (white : isWhite u = true)
      (rest : Course tokens text) : Course tokens (u :: text)
  | pass {mark : Mark} {tokens : List Token} {text : Text}
      (unmatched : matchAt (mark.unit :: text) = none) (miss : ¬ Hit (.mark mark :: tokens))
      (rest : Course tokens text) : Course (.mark mark :: tokens) (mark.unit :: text)
  | hit {lead trail : Mark} {spaces digits more text : Text} {tokens : List Token}
      (begins : lead ∈ leadMarks) (ends : trail ∈ trailMarks)
      (blank : ∀ u ∈ spaces, isWhite u = true) (blank' : ∀ u ∈ more, isWhite u = true)
      (long : isLarge digits = true) (rest : Course tokens text) :
      Course (.mark lead :: .scalar digits :: .mark trail :: tokens)
        (lead.unit :: (spaces ++ (digits ++ (more ++ trail.unit :: text))))
  | string {raw content : Text} {tokens : List Token} {text : Text} (body : Body raw content)
      (rest : Course tokens text) :
      Course (.string ⟨raw, content⟩ :: tokens) (quote :: (raw ++ quote :: text))
  | scalar {word : Text} {tokens : List Token} {text : Text} (legal : isWord word = true)
      (ends : ∀ u ∈ text.head?, isWordUnit u = false) (rest : Course tokens text) :
      Course (.scalar word :: tokens) (word ++ text)

/-- Between tokens there is no space but white space. -/
theorem of_spaces {spaces text : Text} {tokens : List Token}
    (blank : ∀ u ∈ spaces, isSpace u = true) (layout : Layout tokens (spaces ++ text)) :
    (∀ u ∈ spaces, isWhite u = true) ∧ Layout tokens text := by
  induction spaces with
  | nil => exact ⟨List.forall_mem_nil _, layout⟩
  | cons u spaces ih =>
      rw [List.forall_mem_cons] at blank ⊢
      rcases layout.of_cons with ⟨white, rest⟩ | ⟨mark, _, rfl, -⟩ | ⟨_, _, _, _, rfl, -⟩ |
        ⟨_, _, _, unit, -⟩
      · obtain ⟨whites, rest⟩ := ih blank.2 rest
        exact ⟨⟨white, whites⟩, rest⟩
      · have space := blank.1
        rw [isSpace_unit] at space
        cases space
      · exact absurd rfl (quote_ne_of_isSpace blank.1)
      · rw [isWordUnit_of_isSpace blank.1] at unit
        cases unit

/-- Behind a mark which begins a match the tokens of a layout are those of the match. -/
theorem hit_of_matches {mark : Mark} {text : Text} {tokens : List Token} {found : Match}
    (matched : Matches (mark.unit :: text) found) (layout : Layout tokens text) :
    ∃ trail spaces more rest, mark ∈ leadMarks ∧ trail ∈ trailMarks ∧
      (∀ u ∈ spaces, isWhite u = true) ∧ (∀ u ∈ more, isWhite u = true) ∧
      isLarge found.digits = true ∧
      text = spaces ++ (found.digits ++ (more ++ trail.unit :: found.behind)) ∧
      tokens = .scalar found.digits :: .mark trail :: rest ∧ Layout rest found.behind := by
  generalize same : mark.unit :: text = whole at matched
  cases matched with
  | @mk lead trail spaces digits more behind begins blank digit long blank' ends =>
      obtain ⟨first, rfl⟩ := List.cons.inj same
      obtain rfl := markUnit_inj first
      have nonempty : digits ≠ [] := by
        rintro rfl
        cases long
      obtain ⟨white, number⟩ := of_spaces blank layout
      obtain ⟨rest, rfl, second⟩ := number.of_units nonempty
        (fun u member => isWordUnit_of_isDigit (digit u member)) (word_ends blank' trail behind)
      obtain ⟨white', marked⟩ := of_spaces blank' second
      obtain ⟨rest, rfl, last⟩ := marked.of_mark
      have large : isLarge digits = true := by
        rw [isLarge, Bool.and_eq_true, List.all_eq_true, decide_eq_true_eq]
        exact ⟨digit, long⟩
      exact ⟨trail, spaces, more, rest, begins, ends, white, white', large, rfl, rfl, last⟩

/-- Where tokens match, the text does. -/
theorem matches_of_hit {mark : Mark} {text : Text} {tokens : List Token}
    (hit : Hit (.mark mark :: tokens)) (layout : Layout tokens text) :
    ∃ found, Matches (mark.unit :: text) found := by
  obtain ⟨lead, word, trail, rest, same, begins, large, ends⟩ := hit
  cases same
  obtain ⟨spaces, behind, white, rfl, second⟩ := layout.front
  obtain ⟨more, last, white', rfl, -⟩ := second.front
  rw [isLarge, Bool.and_eq_true, List.all_eq_true, decide_eq_true_eq] at large
  exact ⟨_, .mk begins (fun u member => isSpace_of_isWhite (white u member)) large.1 large.2
    (fun u member => isSpace_of_isWhite (white' u member)) ends⟩

theorem course_of_layout {text : Text} {tokens : List Token} (layout : Layout tokens text) :
    Course tokens text := by
  induction size : text.length using Nat.strong_induction_on generalizing text tokens with
  | _ n ih =>
      subst size
      cases layout with
      | nil => exact .nil
      | @white u _ text white rest => exact .white white (ih _ (by simp) rest rfl)
      | @mark rest text mark layout =>
          cases matched : matchAt (mark.unit :: text) with
          | none =>
              refine .pass matched (fun hit => ?_) (ih _ (by simp) layout rfl)
              obtain ⟨found, inner⟩ := matches_of_hit hit layout
              rw [matchAt_eq_some.mpr inner] at matched
              cases matched
          | some found =>
              obtain ⟨trail, spaces, more, rest, begins, ends, white, white', large, rfl, rfl,
                last⟩ := hit_of_matches (matchAt_eq_some.mp matched) layout
              refine .hit begins ends white white' large (ih _ ?_ last rfl)
              simp only [List.length_cons, List.length_append]
              omega
      | string body rest =>
          refine .string body (ih _ ?_ rest rfl)
          simp only [List.length_cons, List.length_append]
          omega
      | @scalar word _ _ legal ends rest =>
          refine .scalar legal ends (ih _ ?_ rest rfl)
          have positive := List.length_pos_of_ne_nil (ne_nil_of_isWord legal)
          rw [List.length_append]
          omega

/-! ## A text with clean strings -/

theorem not_mem_leads_of_isWhite {u : UInt16} (white : isWhite u = true) : u ∉ leads := by
  refine not_mem_leads fun mark _ same => ?_
  rw [same, isWhite_unit] at white
  cases white

theorem not_mem_leads_of_isWordUnit {u : UInt16} (unit : isWordUnit u = true) : u ∉ leads := by
  refine not_mem_leads fun mark _ same => ?_
  rw [same, isWordUnit_unit] at unit
  cases unit

theorem body_digits {digits : Text} (digit : ∀ u ∈ digits, isDigit u = true) :
    Body digits digits := by
  induction digits with
  | nil => exact .nil
  | cons u digits ih =>
      rw [List.forall_mem_cons] at digit
      have range := digit.1
      rw [isDigit, Bool.and_eq_true, decide_eq_true_eq, decide_eq_true_eq] at range
      refine .plain ?_ ?_ (UInt16.le_trans (by decide) range.1) (ih digit.2)
      · rintro rfl
        cases digit.1
      · rintro rfl
        cases digit.1

/-- What a match is replaced by. -/
theorem replace_hit {lead trail : Mark} {spaces digits more : Text} (begins : lead ∈ leadMarks)
    (ends : trail ∈ trailMarks) (blank : ∀ u ∈ spaces, isWhite u = true)
    (blank' : ∀ u ∈ more, isWhite u = true) (long : isLarge digits = true) (text : Text) :
    replace (lead.unit :: (spaces ++ (digits ++ (more ++ trail.unit :: text)))) =
      lead.unit :: (spaces ++
        quote :: (digits ++ quote :: (more ++ trail.unit :: replace text))) := by
  rw [isLarge, Bool.and_eq_true, List.all_eq_true, decide_eq_true_eq] at long
  have matched : Matches (lead.unit :: (spaces ++ (digits ++ (more ++ trail.unit :: text))))
      ⟨lead.unit :: spaces, digits, more ++ [trail.unit], text⟩ :=
    .mk begins (fun u member => isSpace_of_isWhite (blank u member)) long.1 long.2
      (fun u member => isSpace_of_isWhite (blank' u member)) ends
  rw [replace_matches matched]
  simp

theorem Course.layout {text : Text} {tokens : List Token} (course : Course tokens text)
    (clean : ∀ quoted, .string quoted ∈ tokens → Clean quoted) :
    Layout (quoteTokens true tokens) (replace text) := by
  induction course with
  | nil => exact .nil
  | white white _ ih =>
      rw [replace_cons (matchAt_of_not_lead (not_mem_leads_of_isWhite white) _)]
      exact .white white (ih clean)
  | pass unmatched miss _ ih =>
      rw [replace_cons unmatched, quoteTokens_cons fun _ => miss]
      exact .mark _ (ih fun quoted member => clean quoted (List.mem_cons_of_mem _ member))
  | @hit lead trail spaces digits more text tokens begins ends blank blank' long _ ih =>
      have number := long
      rw [isLarge, Bool.and_eq_true, List.all_eq_true] at number
      rw [replace_hit begins ends blank blank' long, quoteTokens_hit begins long ends,
        quoteTokens_false]
      have rest := ih fun quoted member => clean quoted (by simp [member])
      exact .mark lead (.whites blank (.string (body_digits number.1)
        (.whites blank' (.mark trail rest))))
  | @string raw content tokens text body _ ih =>
      rw [replace_cons (matchAt_of_not_lead quote_not_mem_leads _),
        replace_clean (clean ⟨raw, content⟩ List.mem_cons_self), quoteTokens_string]
      exact .string body (ih fun quoted member => clean quoted (List.mem_cons_of_mem _ member))
  | @scalar word tokens text legal ends _ ih =>
      have units : ∀ u ∈ word, u ∉ leads := fun u member =>
        not_mem_leads_of_isWordUnit (isWordUnit_of_isWord legal member)
      rw [replace_append units, quoteTokens_word]
      refine .scalar legal ?_ (ih fun quoted member => clean quoted (List.mem_cons_of_mem _ member))
      rwa [head?_replace]

/-! ## A text with a broken string -/

/-- A text which has no layout, or one in which a word follows a string. -/
def Broken (text : Text) : Prop := ∀ tokens, Layout tokens text → ¬ tokens.IsChain Separate

theorem Broken.white {u : UInt16} {text : Text} (broken : Broken text) (white : isWhite u = true) :
    Broken (u :: text) := fun tokens layout chain =>
  broken tokens (layout.of_white white) chain

theorem Broken.whites {white text : Text} (broken : Broken text)
    (blank : ∀ u ∈ white, isWhite u = true) : Broken (white ++ text) := fun tokens layout chain =>
  broken tokens (layout.of_whites blank) chain

theorem Broken.mark {text : Text} (broken : Broken text) (mark : Mark) :
    Broken (mark.unit :: text) := by
  intro tokens layout chain
  obtain ⟨rest, rfl, inner⟩ := layout.of_mark
  exact broken rest inner chain.tail

theorem Broken.string {raw content text : Text} (broken : Broken text) (body : Body raw content) :
    Broken (quote :: (raw ++ quote :: text)) := by
  intro tokens layout chain
  obtain ⟨rest, rfl, inner⟩ := layout.of_quote body
  exact broken rest inner chain.tail

theorem Broken.word {word text : Text} (broken : Broken text) (legal : isWord word = true)
    (ends : ∀ u ∈ text.head?, isWordUnit u = false) : Broken (word ++ text) := by
  intro tokens layout chain
  obtain ⟨rest, rfl, inner⟩ := layout.of_units (ne_nil_of_isWord legal)
    (fun u member => isWordUnit_of_isWord legal member) ends
  exact broken rest inner chain.tail

/-- A string which ends in front of digits. -/
theorem broken_of_digits {raw content digits text : Text} (body : Body raw content)
    (digit : ∀ u ∈ digits, isDigit u = true) (nonempty : digits ≠ []) :
    Broken (quote :: (raw ++ quote :: (digits ++ quote :: text))) := by
  intro tokens layout chain
  obtain ⟨rest, rfl, inner⟩ := layout.of_quote body
  obtain ⟨behind, rfl, -⟩ := inner.of_units nonempty
    (fun u member => isWordUnit_of_isDigit (digit u member)) (by
      rintro u head
      cases head
      exact isWordUnit_quote)
  exact (List.isChain_cons.mp chain).1 _ rfl

theorem body_of_spaces {spaces rest content : Text} (blank : ∀ u ∈ spaces, isSpace u = true)
    (body : Body (spaces ++ rest) content) : ∃ content, Body spaces content := by
  induction spaces generalizing content with
  | nil => exact ⟨[], .nil⟩
  | cons u spaces ih =>
      rw [List.forall_mem_cons] at blank
      have unslashed : u ≠ backslash := by
        rintro rfl
        cases blank.1
      obtain ⟨unquoted, control, _, inner⟩ := body.of_cons unslashed
      obtain ⟨content, before⟩ := ih blank.2 inner
      exact ⟨u :: content, .plain unquoted unslashed control before⟩

/-- A string may end in front of the digits of a match. -/
theorem body_of_matches {front part content : Text} {found : Match} (matched : Matches part found)
    (body : Body (front ++ part) content) : ∃ content, Body (front ++ found.lead) content := by
  cases matched with
  | @mk lead trail spaces digits more behind begins blank digit long blank' ends =>
      have letter : escaped lead.unit = none := by cases lead <;> decide
      have number : hexDigit lead.unit = none := by cases lead <;> decide
      have code : lead.unit ≠ 0x75 := by cases lead <;> decide
      have unslashed : lead.unit ≠ backslash := by cases lead <;> decide
      obtain ⟨first, _, before, after⟩ := body.cut letter number code
      obtain ⟨unquoted, control, _, inner⟩ := after.of_cons unslashed
      obtain ⟨second, between⟩ := body_of_spaces blank inner
      exact ⟨_, before.append (.plain unquoted unslashed control between)⟩

theorem Matches.digits_spec {text : Text} {found : Match} (matched : Matches text found) :
    (∀ u ∈ found.digits, isDigit u = true) ∧ found.digits ≠ [] := by
  cases matched with
  | mk begins blank digit long =>
      refine ⟨digit, ?_⟩
      rintro rfl
      cases long

theorem Course.broken {text : Text} {tokens : List Token} (course : Course tokens text)
    {quoted : Quoted} (member : .string quoted ∈ tokens) (unclean : ¬ Clean quoted) :
    Broken (replace text) := by
  induction course with
  | nil => cases member
  | white white _ ih =>
      rw [replace_cons (matchAt_of_not_lead (not_mem_leads_of_isWhite white) _)]
      exact (ih member).white white
  | pass unmatched miss _ ih =>
      rw [replace_cons unmatched]
      exact (ih (by simpa using member)).mark _
  | @hit lead trail spaces digits more text tokens begins ends blank blank' long _ ih =>
      have number := long
      rw [isLarge, Bool.and_eq_true, List.all_eq_true] at number
      rw [replace_hit begins ends blank blank' long]
      have rest := ((ih (by simpa using member)).mark trail).whites blank'
      exact ((rest.string (body_digits number.1)).whites blank).mark lead
  | @string raw content tokens text body _ ih =>
      rw [replace_cons (matchAt_of_not_lead quote_not_mem_leads _)]
      by_cases clean : Clean ⟨raw, content⟩
      · rw [replace_clean clean]
        have later : .string quoted ∈ tokens := by
          rcases List.mem_cons.mp member with same | later
          · cases same
            exact absurd clean unclean
          · exact later
        exact (ih later).string body
      · obtain ⟨front, part, found, more, rfl, matched, replaced⟩ := replace_unclean clean text
        obtain ⟨content, before⟩ := body_of_matches matched body
        rw [replaced]
        exact broken_of_digits before matched.digits_spec.1 matched.digits_spec.2
  | @scalar word tokens text legal ends _ ih =>
      have units : ∀ u ∈ word, u ∉ leads := fun u member =>
        not_mem_leads_of_isWordUnit (isWordUnit_of_isWord legal member)
      rw [replace_append units]
      refine (ih (by simpa using member)).word legal ?_
      rwa [head?_replace]

end SteamJson
end Steam
end DotaCollector
