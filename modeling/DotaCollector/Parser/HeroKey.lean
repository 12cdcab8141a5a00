import DotaCollector.Library.Search
import DotaCollector.Parser.Names

/-!
# The key of a hero

An entity shows a hero by its class, the combat log by the name of its unit. Both become a key: the
prefix goes, then everything from the mark of a copy on, then the underscores. The unit name of a
class is made by setting an underscore before each capital letter, which may show a mark where the
class has none, or tear one apart.
-/

namespace DotaCollector
namespace Parse
namespace HeroKey

open Search

/-! ## The functions -/

def canonHero : Name → Name
  | [] => []
  | c :: name => if c = '_' then canonHero name else lowerChar c :: canonHero name

/-- `unicode.IsSpace`. -/
def isSpace (c : Char) : Bool :=
  c.toNat ∈ [0x09, 0x0a, 0x0b, 0x0c, 0x0d, 0x20, 0x85, 0xa0, 0x1680, 0x2000, 0x2001, 0x2002, 0x2003,
    0x2004, 0x2005, 0x2006, 0x2007, 0x2008, 0x2009, 0x200a, 0x2028, 0x2029, 0x202f, 0x205f, 0x3000]

def trimSpace (name : Name) : Name :=
  ((name.dropWhile isSpace).reverse.dropWhile isSpace).reverse

/-- The loop over the prefixes, which ends at the first one found. -/
def stripPrefixes : List Name → Name → Name
  | [], name => name
  | start :: starts, name =>
      if start <+: name then name.drop start.length else stripPrefixes starts name

def npcPrefix : Name := "npc_dota_hero_".toList

def unitPrefix : Name := "cdota_unit_hero_".toList

def heroPrefixes : List Name := [npcPrefix, unitPrefix, "c_dota_unit_hero_".toList]

def illusion : Name := "_illusion".toList

def heroKey (name : Name) : Name :=
  if name = [] then []
  else
    let lower := stripPrefixes heroPrefixes (toLower name)
    let lower := before illusion lower
    let lower := before ['('] lower
    canonHero (trimSpace lower)

def classPrefix : Name := "CDOTA_Unit_Hero_".toList

/-- The loop of `npcFromClass`; `started` says that the index is not 0. -/
def snake (started : Bool) : Name → Name
  | [] => []
  | c :: suf =>
      if c.isUpper then (if started then ['_'] else []) ++ lowerChar c :: snake true suf
      else c :: snake true suf

def npcFromClass (name : Name) : Name :=
  let suf := if classPrefix <+: name then name.drop classPrefix.length else name
  npcPrefix ++ snake false suf

/-! ## Properties -/

/-- A mark of a copy which shows in the class and in the unit name. -/
def Marked (name : Name) : Prop := "_illusion".toList <+: name ∨ "_Illusion".toList <+: name

/-- A mark which shows in one of them only: a capital letter gets an underscore before it, or one
within the mark tears it apart. -/
def OddlyMarked (started : Prop) (name : Name) : Prop :=
  (started ∧ "Illusion".toList <+: name) ∨ (¬ Marked name ∧ illusion <+: toLower name)

/-- Each odd mark stands behind a mark which shows in both. -/
def MarksAgree (suf : Name) : Prop :=
  ∀ front back, suf = front ++ back → OddlyMarked (front ≠ []) back →
    ∃ earlier later, suf = earlier ++ later ∧ Marked later ∧ earlier.length < front.length

/-! ## Plain names -/

variable {c : Char} {name suf : Name} {started : Bool}

theorem toLower_of_plain (plain : ∀ c ∈ name, Plain c) : toLower name = name :=
  (List.map_congr_left fun c member => (plain c member).lowerChar_eq).trans (List.map_id name)

theorem Plain.not_isSpace (plain : Plain c) : isSpace c = false :=
  of_ascii (P := fun c => Plain c → isSpace c = false) (by decide) plain.ascii plain

theorem trimSpace_of_plain (plain : ∀ c ∈ name, Plain c) : trimSpace name = name := by
  have none : ∀ name : Name, (∀ c ∈ name, Plain c) → name.dropWhile isSpace = name := by
    intro name plain
    cases name with
    | nil => rfl
    | cons c name =>
        have visible := Plain.not_isSpace (plain c List.mem_cons_self)
        rw [List.dropWhile_cons, visible]
        rfl
  rw [trimSpace, none name plain, none name.reverse fun c member => plain c (List.mem_reverse.mp member),
    List.reverse_reverse]

theorem before_prefix_self (pattern name : Name) : before pattern name <+: name := by
  induction name with
  | nil => rw [before_nil]
  | cons c name ih =>
      by_cases here : pattern <+: c :: name
      · rw [before_of_starts here]
        exact List.nil_prefix
      · rw [before_cons here]
        exact List.prefix_cons_inj c |>.mpr ih

/-- The key of a name whose prefix leaves plain characters. -/
theorem heroKey_eq (present : name ≠ []) (plain : ∀ c ∈ suf, Plain c)
    (stripped : stripPrefixes heroPrefixes (toLower name) = suf) :
    heroKey name = canonHero (before illusion suf) := by
  have kept : ∀ c ∈ before illusion suf, Plain c := fun c member =>
    plain c ((before_prefix_self illusion suf).subset member)
  have closed : '(' ∉ before illusion suf := fun member =>
    absurd (kept '(' member) (by decide)
  rw [heroKey, if_neg present, stripped]
  dsimp only
  rw [before_of_not_mem closed, trimSpace_of_plain kept]

theorem snake_upper (upper : c.isUpper = true) (suf : Name) :
    snake true (c :: suf) = '_' :: lowerChar c :: snake true suf := by
  rw [snake, if_pos upper]
  rfl

theorem snake_first (upper : c.isUpper = true) (suf : Name) :
    snake false (c :: suf) = lowerChar c :: snake true suf := by
  rw [snake, if_pos upper]
  rfl

theorem snake_other (other : ¬ c.isUpper = true) (started : Bool) (suf : Name) :
    snake started (c :: suf) = c :: snake true suf := by
  rw [snake, if_neg other]

theorem plain_snake (legal : ∀ c ∈ suf, Legal c) : ∀ c ∈ snake started suf, Plain c := by
  induction suf generalizing started with
  | nil => exact fun c member => by cases member
  | cons c suf ih =>
      obtain ⟨first, rest⟩ := List.forall_mem_cons.mp legal
      rw [snake]
      split_ifs with upper
      · refine List.forall_mem_append.mpr ⟨fun _ member => ?_,
          List.forall_mem_cons.mpr ⟨first.plain_lowerChar, ih rest⟩⟩
        rw [List.mem_singleton.mp member]
        exact .inr (.inr rfl)
      · exact List.forall_mem_cons.mpr ⟨first.plain_lowerChar, ih rest⟩
      · exact List.forall_mem_cons.mpr ⟨first.upper_or_plain.resolve_left upper, ih rest⟩

/-! ## Marks -/

/-- The mark behind its first letter. -/
def llusion : Name := "llusion".toList

theorem illusion_eq : illusion = '_' :: 'i' :: llusion := by decide

theorem marked_cons :
    Marked (c :: suf) ↔ c = '_' ∧ ('i' :: llusion <+: suf ∨ 'I' :: llusion <+: suf) := by
  have capital : "_Illusion".toList = '_' :: 'I' :: llusion := by decide
  change illusion <+: c :: suf ∨ "_Illusion".toList <+: c :: suf ↔ _
  rw [illusion_eq, capital, List.cons_prefix_cons, List.cons_prefix_cons, ← and_or_left, eq_comm]

theorem oddlyMarked_iff {started : Prop} :
    OddlyMarked started name ↔ (started ∧ 'I' :: llusion <+: name) ∨
      (¬ Marked name ∧ illusion <+: toLower name) := by
  have capital : "Illusion".toList = 'I' :: llusion := by decide
  rw [OddlyMarked, capital]

theorem not_isUpper_of_isLower (lower : c.isLower = true) : ¬ c.isUpper = true := by
  intro upper
  rw [isLower_iff] at lower
  rw [isUpper_iff] at upper
  omega

/-- Small letters stand in the unit name exactly where they stand in the class. -/
theorem prefix_snake_iff {word : Name} (small : ∀ c ∈ word, c.isLower = true) :
    word <+: snake true suf ↔ word <+: suf := by
  induction word generalizing suf with
  | nil => exact iff_of_true List.nil_prefix List.nil_prefix
  | cons a word ih =>
      obtain ⟨first, rest⟩ := List.forall_mem_cons.mp small
      cases suf with
      | nil => rfl
      | cons c suf =>
          by_cases upper : c.isUpper = true
          · have score : a ≠ '_' := by
              rintro rfl
              exact absurd first (by decide)
            have letter : a ≠ c := by
              rintro rfl
              exact not_isUpper_of_isLower first upper
            rw [snake_upper upper, List.cons_prefix_cons, List.cons_prefix_cons]
            exact iff_of_false (fun same => score same.1) fun same => letter same.1
          · rw [snake_other upper, List.cons_prefix_cons, List.cons_prefix_cons, ih rest]

theorem small_llusion : ∀ c ∈ llusion, c.isLower = true := forall_of_all (by decide)

/-! ## The two keys -/

/-- The key of the unit name of a suffix. -/
def npcKey (started : Bool) (suf : Name) : Name := canonHero (before illusion (snake started suf))

/-- The key of a class with a suffix. -/
def classKey (suf : Name) : Name := canonHero (before illusion (toLower suf))

/-- Marks agree from here on. -/
def Agree (started : Prop) : Name → Prop
  | [] => True
  | c :: suf => Marked (c :: suf) ∨ (¬ OddlyMarked started (c :: suf) ∧ Agree True suf)

theorem agree_iff {started : Prop} {suf : Name} :
    Agree started suf ↔
      ∀ front back, suf = front ++ back → OddlyMarked (started ∨ front ≠ []) back →
        ∃ earlier later, suf = earlier ++ later ∧ Marked later ∧ earlier.length < front.length := by
  induction suf generalizing started with
  | nil =>
      refine iff_of_true trivial fun front back split odd => ?_
      obtain ⟨rfl, rfl⟩ := List.append_eq_nil_iff.mp split.symm
      rcases oddlyMarked_iff.mp odd with ⟨-, starts⟩ | ⟨-, starts⟩
      · cases List.prefix_nil.mp starts
      · exact absurd (List.prefix_nil.mp starts) (by decide)
  | cons c suf ih =>
      rw [Agree, ih]
      constructor
      · intro agrees front back split odd
        cases front with
        | nil =>
            rw [List.nil_append] at split
            rw [← split] at odd
            simp only [ne_eq, not_true_eq_false, or_false] at odd
            rcases agrees with marked | ⟨even, -⟩
            · rcases oddlyMarked_iff.mp odd with ⟨-, capital⟩ | ⟨unmarked, -⟩
              · have score := (marked_cons.mp marked).1
                rw [score] at capital
                exact absurd (List.cons_prefix_cons.mp capital).1 (by decide)
              · exact (unmarked marked).elim
            · exact (even odd).elim
        | cons d front =>
            rcases agrees with marked | ⟨-, rest⟩
            · exact ⟨[], c :: suf, rfl, marked, Nat.zero_lt_succ _⟩
            · obtain ⟨rfl, tail⟩ := List.cons.inj split
              obtain ⟨earlier, later, same, marked, shorter⟩ := rest front back tail (by
                simpa [OddlyMarked] using odd)
              exact ⟨c :: earlier, later, by rw [same]; rfl, marked, Nat.succ_lt_succ shorter⟩
      · intro agrees
        by_cases marked : Marked (c :: suf)
        · exact .inl marked
        · refine .inr ⟨fun odd => ?_, fun front back split odd => ?_⟩
          · obtain ⟨_, _, _, _, shorter⟩ := agrees [] (c :: suf) rfl (by simpa using odd)
            exact Nat.not_lt_zero _ shorter
          · obtain ⟨earlier, later, same, later_marked, shorter⟩ := agrees (c :: front) back
              (by rw [split]; rfl) (by simpa [OddlyMarked] using odd)
            cases earlier with
            | nil =>
                rw [List.nil_append] at same
                exact (marked (same ▸ later_marked)).elim
            | cons d earlier =>
                exact ⟨earlier, later, (List.cons.inj same).2, later_marked,
                  Nat.lt_of_succ_lt_succ shorter⟩

/-! ## One character -/

theorem lowerChar_ne_score (legal : Legal c) (letter : c ≠ '_') : lowerChar c ≠ '_' := by
  rcases legal.upper_or_plain with upper | plain
  · intro score
    have lower := (lowers_of_isUpper upper).isLower
    rw [score] at lower
    exact absurd lower (by decide)
  · rwa [plain.lowerChar_eq]

theorem canonHero_score (name : Name) : canonHero ('_' :: name) = canonHero name := if_pos rfl

theorem canonHero_letter (letter : c ≠ '_') (name : Name) :
    canonHero (c :: name) = lowerChar c :: canonHero name := if_neg letter

theorem canonHero_lowered (legal : Legal c) (letter : c ≠ '_') (name : Name) :
    canonHero (lowerChar c :: name) = lowerChar c :: canonHero name := by
  rw [canonHero_letter (lowerChar_ne_score legal letter), legal.plain_lowerChar.lowerChar_eq]

theorem before_mark (mark : 'i' :: llusion <+: name) : before illusion ('_' :: name) = [] := by
  refine before_of_starts ?_
  rw [illusion_eq]
  exact List.prefix_cons_inj '_' |>.mpr mark

theorem before_score (none : ¬ 'i' :: llusion <+: name) :
    before illusion ('_' :: name) = '_' :: before illusion name := by
  refine before_cons fun starts => none ?_
  rw [illusion_eq] at starts
  exact List.prefix_cons_inj '_' |>.mp starts

theorem before_letter (letter : c ≠ '_') :
    before illusion (c :: name) = c :: before illusion name := by
  refine before_cons fun starts => letter ?_
  rw [illusion_eq] at starts
  exact (List.cons_prefix_cons.mp starts).1.symm

theorem snake_score (started : Bool) (suf : Name) :
    snake started ('_' :: suf) = '_' :: snake true suf := snake_other (by decide) started suf

theorem mark_snake_iff : 'i' :: llusion <+: snake true suf ↔ 'i' :: llusion <+: suf :=
  prefix_snake_iff (forall_of_all (by decide))

theorem npcKey_mark (mark : 'i' :: llusion <+: suf) : npcKey started ('_' :: suf) = [] := by
  rw [npcKey, snake_score, before_mark (mark_snake_iff.mpr mark)]
  rfl

theorem npcKey_score (none : ¬ 'i' :: llusion <+: suf) :
    npcKey started ('_' :: suf) = npcKey true suf := by
  rw [npcKey, snake_score, before_score (mark_snake_iff.not.mpr none), canonHero_score, npcKey]

/-- What a capital letter behind others makes of the key. -/
theorem npcKey_upper (upper : c.isUpper = true) (suf : Name) :
    npcKey true (c :: suf) =
      if 'I' :: llusion <+: c :: suf then [] else lowerChar c :: npcKey true suf := by
  have legal : Legal c := .inl (isAlphanum_iff.mpr (.inl upper))
  have letter : c ≠ '_' := by
    rintro rfl
    exact absurd upper (by decide)
  have mark : 'i' :: llusion <+: lowerChar c :: snake true suf ↔ 'I' :: llusion <+: c :: suf := by
    rw [List.cons_prefix_cons, List.cons_prefix_cons, prefix_snake_iff small_llusion]
    refine and_congr_left' ⟨fun same => ((lowers_of_isUpper upper).capital same.symm).symm, ?_⟩
    rintro rfl
    rfl
  rw [npcKey, snake_upper upper]
  split_ifs with marked
  · rw [before_mark (mark.mpr marked)]
    rfl
  · rw [before_score (mark.not.mpr marked), canonHero_score,
      before_letter (lowerChar_ne_score legal letter), canonHero_lowered legal letter, npcKey]

/-- A letter or a digit which gets no mark. -/
theorem npcKey_letter (legal : Legal c) (letter : c ≠ '_')
    (none : ¬ (started = true ∧ 'I' :: llusion <+: c :: suf)) :
    npcKey started (c :: suf) = lowerChar c :: npcKey true suf := by
  rcases legal.upper_or_plain with upper | plain
  · cases started with
    | true => rw [npcKey_upper upper, if_neg fun marked => none ⟨rfl, marked⟩]
    | false =>
        rw [npcKey, snake_first upper, before_letter (lowerChar_ne_score legal letter),
          canonHero_lowered legal letter, npcKey]
  · have small : ¬ c.isUpper = true := by
      intro upper
      have lower := (lowers_of_isUpper upper).isLower
      rw [plain.lowerChar_eq] at lower
      exact not_isUpper_of_isLower lower upper
    rw [npcKey, snake_other small, before_letter letter, canonHero_letter letter, npcKey]

theorem classKey_mark (mark : illusion <+: toLower suf) : classKey suf = [] := by
  rw [classKey, before_of_starts mark]
  rfl

theorem classKey_score (none : ¬ illusion <+: toLower ('_' :: suf)) :
    classKey ('_' :: suf) = classKey suf := by
  have lower : toLower ('_' :: suf) = '_' :: toLower suf := rfl
  rw [classKey, lower, before_cons (lower ▸ none), canonHero_score, classKey]

theorem classKey_letter (legal : Legal c) (letter : c ≠ '_') (suf : Name) :
    classKey (c :: suf) = lowerChar c :: classKey suf := by
  have lower : toLower (c :: suf) = lowerChar c :: toLower suf := rfl
  rw [classKey, lower, before_letter (lowerChar_ne_score legal letter),
    canonHero_lowered legal letter, classKey]

/-! ## All names -/

/-- A mark which is torn apart leaves letters in the unit name. -/
theorem npcKey_ne_nil (legal : ∀ c ∈ suf, Legal c) (unmarked : ¬ Marked ('_' :: suf))
    (mark : illusion <+: toLower ('_' :: suf)) : npcKey started ('_' :: suf) ≠ [] := by
  have none : ¬ 'i' :: llusion <+: suf := fun starts => unmarked (marked_cons.mpr ⟨rfl, .inl starts⟩)
  rw [npcKey_score none]
  cases suf with
  | nil => exact absurd mark (by decide)
  | cons c suf =>
      have lower : toLower ('_' :: c :: suf) = '_' :: lowerChar c :: toLower suf := rfl
      rw [illusion_eq, lower, List.cons_prefix_cons, List.cons_prefix_cons] at mark
      have letter : c ≠ '_' := by
        rintro rfl
        exact absurd mark.2.1 (by decide)
      rw [npcKey_letter (legal c List.mem_cons_self) letter fun both =>
        unmarked (marked_cons.mpr ⟨rfl, .inr both.2⟩)]
      exact List.cons_ne_nil _ _

theorem toLower_of_marked (marked : Marked name) : illusion <+: toLower name := by
  have small : toLower "_illusion".toList = illusion := by decide
  have capital : toLower "_Illusion".toList = illusion := by decide
  rcases marked with starts | starts
  · exact small ▸ starts.map lowerChar
  · exact capital ▸ starts.map lowerChar

theorem npcKey_of_marked (marked : Marked (c :: suf)) : npcKey started (c :: suf) = [] := by
  obtain ⟨rfl, small | capital⟩ := marked_cons.mp marked
  · exact npcKey_mark small
  · obtain ⟨back, rfl⟩ := capital
    have other : ¬ 'i' :: llusion <+: 'I' :: llusion ++ back := fun starts =>
      absurd (List.cons_prefix_cons.mp starts).1 (by decide)
    rw [npcKey_score other]
    exact (npcKey_upper (by decide) _).trans (if_pos (List.prefix_append ('I' :: llusion) back))

/-- The two keys are the same exactly when the marks agree. -/
theorem npcKey_eq_iff (legal : ∀ c ∈ suf, Legal c) :
    npcKey started suf = classKey suf ↔ Agree (started = true) suf := by
  induction suf generalizing started with
  | nil => exact iff_of_true rfl trivial
  | cons c suf ih =>
      obtain ⟨first, rest⟩ := List.forall_mem_cons.mp legal
      have onward : npcKey true suf = classKey suf ↔ Agree True suf := by
        rw [ih rest, eq_self]
      by_cases marked : Marked (c :: suf)
      · rw [classKey_mark (toLower_of_marked marked)]
        exact iff_of_true (npcKey_of_marked marked) (.inl marked)
      · -- without a mark here, the keys differ at once or further on
        have agree : Agree (started = true) (c :: suf) ↔
            ¬ (started = true ∧ 'I' :: llusion <+: c :: suf) ∧ ¬ illusion <+: toLower (c :: suf) ∧
              Agree True suf := by
          rw [Agree, or_iff_right marked, oddlyMarked_iff]
          simp only [marked, not_false_eq_true, true_and, not_or, and_assoc]
        rw [agree]
        by_cases score : c = '_'
        · subst score
          by_cases torn : illusion <+: toLower ('_' :: suf)
          · rw [classKey_mark torn]
            exact iff_of_false (npcKey_ne_nil rest marked torn) fun agrees => agrees.2.1 torn
          · have none : ¬ 'i' :: llusion <+: suf := fun starts =>
              marked (marked_cons.mpr ⟨rfl, .inl starts⟩)
            have small : ¬ 'I' :: llusion <+: '_' :: suf := fun starts =>
              absurd (List.cons_prefix_cons.mp starts).1 (by decide)
            rw [npcKey_score none, classKey_score torn, onward]
            exact ⟨fun agrees => ⟨fun both => small both.2, torn, agrees⟩, fun agrees => agrees.2.2⟩
        · have whole : ¬ illusion <+: toLower (c :: suf) := by
            intro starts
            rw [illusion_eq] at starts
            exact lowerChar_ne_score first score (List.cons_prefix_cons.mp starts).1.symm
          rw [classKey_letter first score]
          by_cases capital : started = true ∧ 'I' :: llusion <+: c :: suf
          · obtain ⟨rfl, starts⟩ := capital
            have upper : c.isUpper = true := by
              rw [← (List.cons_prefix_cons.mp starts).1]
              decide
            rw [npcKey_upper upper, if_pos starts]
            exact iff_of_false (List.cons_ne_nil _ _).symm fun agrees => agrees.1 ⟨rfl, starts⟩
          · rw [npcKey_letter first score capital, List.cons_inj_right, onward]
            exact ⟨fun agrees => ⟨capital, whole, agrees⟩, fun agrees => agrees.2.2⟩

/-- The unit name of a class has the key of its suffix. -/
theorem heroKey_npcFromClass (legal : ∀ c ∈ suf, Legal c) :
    heroKey (npcFromClass (classPrefix ++ suf)) = npcKey false suf := by
  have named : npcFromClass (classPrefix ++ suf) = npcPrefix ++ snake false suf := by
    rw [npcFromClass, if_pos (List.prefix_append _ _), List.drop_left]
  have start : ∀ c ∈ npcPrefix, Plain c := forall_of_all (by decide)
  have lower : toLower (npcPrefix ++ snake false suf) = npcPrefix ++ snake false suf :=
    toLower_of_plain (List.forall_mem_append.mpr ⟨start, plain_snake legal⟩)
  have present : npcPrefix ≠ [] := by decide
  rw [named]
  refine heroKey_eq (List.append_ne_nil_of_left_ne_nil present _) (plain_snake legal) ?_
  rw [lower, heroPrefixes, stripPrefixes, if_pos (List.prefix_append _ _), List.drop_left]

theorem heroKey_class (legal : ∀ c ∈ suf, Legal c) :
    heroKey (classPrefix ++ suf) = classKey suf := by
  have plain : ∀ c ∈ toLower suf, Plain c := by
    intro c member
    obtain ⟨c, listed, rfl⟩ := List.mem_map.mp member
    exact (legal c listed).plain_lowerChar
  have start : toLower classPrefix = unitPrefix := by decide
  have lower : toLower (classPrefix ++ suf) = unitPrefix ++ toLower suf := by
    rw [toLower, List.map_append]
    exact congrArg (· ++ toLower suf) start
  have other : ¬ npcPrefix <+: unitPrefix ++ toLower suf := by
    have first : npcPrefix.head? = some 'n' ∧ unitPrefix.head? = some 'c' := by decide
    rintro ⟨back, same⟩
    have heads := congrArg List.head? same
    rw [List.head?_append, List.head?_append, first.1, first.2] at heads
    exact absurd (Option.some.inj heads) (by decide)
  have present : classPrefix ≠ [] := by decide
  refine heroKey_eq (List.append_ne_nil_of_left_ne_nil present _) plain ?_
  rw [lower, heroPrefixes, stripPrefixes, if_neg other, stripPrefixes,
    if_pos (List.prefix_append _ _), List.drop_left]

/-- A class and its unit name have the same key exactly when each mark of a copy which shows in
only one of them stands behind one which shows in both. -/
theorem heroKey_same_iff (suf : Name) (legal : ∀ c ∈ suf, Legal c) :
    heroKey (npcFromClass (classPrefix ++ suf)) = heroKey (classPrefix ++ suf) ↔ MarksAgree suf := by
  rw [heroKey_npcFromClass legal, heroKey_class legal, npcKey_eq_iff legal, agree_iff, MarksAgree]
  simp only [Bool.false_eq_true, false_or]

instance (name : Name) : Decidable (Marked name) := inferInstanceAs (Decidable (_ ∨ _))

instance (started : Prop) [Decidable started] (name : Name) :
    Decidable (OddlyMarked started name) := inferInstanceAs (Decidable (_ ∨ _))

instance decidableAgree (started : Prop) [Decidable started] :
    (suf : Name) → Decidable (Agree started suf)
  | [] => .isTrue trivial
  | c :: suf =>
      have := decidableAgree True suf
      inferInstanceAs (Decidable (Marked (c :: suf) ∨
        (¬ OddlyMarked started (c :: suf) ∧ Agree True suf)))

instance (suf : Name) : Decidable (MarksAgree suf) :=
  decidable_of_iff (Agree False suf) (by
    rw [agree_iff, MarksAgree]
    simp only [false_or])

/-- The mark of a copy behind an underscore shows in both. -/
theorem heroKey_same_marked :
    heroKey (npcFromClass (classPrefix ++ "QueenOfPain_Illusion".toList)) =
      heroKey (classPrefix ++ "QueenOfPain_Illusion".toList) :=
  (heroKey_same_iff "QueenOfPain_Illusion".toList (forall_of_all (by decide))).mpr (by decide)

/-- The class of a copy whose mark begins with a capital letter alone. -/
theorem heroKey_differs :
    (∀ c ∈ "AxeIllusion".toList, Legal c) ∧
      heroKey (npcFromClass (classPrefix ++ "AxeIllusion".toList)) = "axe".toList ∧
      heroKey (classPrefix ++ "AxeIllusion".toList) = "axeillusion".toList := by
  exact ⟨forall_of_all (by decide), by decide +kernel, by decide +kernel⟩

end HeroKey
end Parse
end DotaCollector
