import Mathlib.Data.List.TakeWhile
import Mathlib.Data.UInt

/-!
# The tokens of JSON texts

The lexical grammar of JSON over UTF-16 code units: the layouts of tokens in a text, with white
space between them, and the scanner which finds the tokens. The scanner accepts exactly the texts
which have a layout.
-/

namespace JsonText

/-- A text in UTF-16 code units. -/
abbrev Text := List UInt16

def ascii (text : String) : Text := text.toList.map fun c => c.toNat.toUInt16

/-! ## Code units -/

inductive Mark where
  | openArray
  | closeArray
  | openObject
  | closeObject
  | colon
  | comma
  deriving DecidableEq

def Mark.unit : Mark → UInt16
  | .openArray => 0x5b
  | .closeArray => 0x5d
  | .openObject => 0x7b
  | .closeObject => 0x7d
  | .colon => 0x3a
  | .comma => 0x2c

def Mark.all : List Mark := [.openArray, .closeArray, .openObject, .closeObject, .colon, .comma]

def markOf (u : UInt16) : Option Mark := Mark.all.find? fun mark => mark.unit = u

def quote : UInt16 := 0x22

def backslash : UInt16 := 0x5c

def isWhite (u : UInt16) : Bool := u ∈ [0x09, 0x0a, 0x0d, 0x20]

def isDigit (u : UInt16) : Bool := 0x30 ≤ u && u ≤ 0x39

/-- The units of numbers and of the names of constants. -/
def isWordUnit (u : UInt16) : Bool :=
  isDigit u || (0x61 ≤ u && u ≤ 0x7a) || u ∈ [0x2b, 0x2d, 0x2e, 0x45]

/-! ## Numbers and constants -/

/-- How far a number has been read. -/
inductive NumberState where
  | start
  | minus
  | zero
  | whole
  | point
  | fraction
  | exponent
  | sign
  | power
  deriving DecidableEq

namespace NumberState

/-- The point or the exponent behind an integer. -/
def behindInteger (u : UInt16) : Option NumberState :=
  if u = 0x2e then some point else if u ∈ [0x45, 0x65] then some exponent else none

def step : NumberState → UInt16 → Option NumberState
  | start, u =>
      if u = 0x2d then some minus
      else if u = 0x30 then some zero
      else if isDigit u then some whole else none
  | minus, u => if u = 0x30 then some zero else if isDigit u then some whole else none
  | zero, u => behindInteger u
  | whole, u => if isDigit u then some whole else behindInteger u
  | point, u => if isDigit u then some fraction else none
  | fraction, u =>
      if isDigit u then some fraction else if u ∈ [0x45, 0x65] then some exponent else none
  | exponent, u =>
      if u ∈ [0x2b, 0x2d] then some sign else if isDigit u then some power else none
  | sign, u => if isDigit u then some power else none
  | power, u => if isDigit u then some power else none

def isFinal (state : NumberState) : Bool := state ∈ [zero, whole, fraction, power]

end NumberState

def isNumber (word : Text) : Bool :=
  (word.foldlM NumberState.step .start).any NumberState.isFinal

def constants : List Text := [ascii "true", ascii "false", ascii "null"]

def isWord (word : Text) : Bool := constants.contains word || isNumber word

/-! ## Strings -/

def hexDigit (u : UInt16) : Option UInt16 :=
  if isDigit u then some (u - 0x30)
  else if 0x61 ≤ u && u ≤ 0x66 then some (u - 0x57)
  else if 0x41 ≤ u && u ≤ 0x46 then some (u - 0x37)
  else none

/-- The unit of an escape with four digits. -/
def hexUnit (a b c d : UInt16) : Option UInt16 := do
  let a ← hexDigit a
  let b ← hexDigit b
  let c ← hexDigit c
  let d ← hexDigit d
  some (0x1000 * a + 0x100 * b + 0x10 * c + d)

/-- The unit of an escape with one letter. -/
def escaped (u : UInt16) : Option UInt16 :=
  [(0x22, 0x22), (0x5c, 0x5c), (0x2f, 0x2f), (0x62, 0x08), (0x66, 0x0c), (0x6e, 0x0a),
    (0x72, 0x0d), (0x74, 0x09)].lookup u

/-- The content of a string which is written so between its quotes. -/
inductive Body : Text → Text → Prop
  | nil : Body [] []
  | plain {u : UInt16} {raw content : Text} (quoted : u ≠ quote) (slashed : u ≠ backslash)
      (control : 0x20 ≤ u) (body : Body raw content) : Body (u :: raw) (u :: content)
  | escape {u v : UInt16} {raw content : Text} (letter : escaped u = some v)
      (body : Body raw content) : Body (backslash :: u :: raw) (v :: content)
  | code {a b c d v : UInt16} {raw content : Text} (digits : hexUnit a b c d = some v)
      (body : Body raw content) : Body (backslash :: 0x75 :: a :: b :: c :: d :: raw) (v :: content)

/-- One more unit of a string, as it is written, in front of what has been read. -/
def prepend (written : Text) (u : UInt16) : Text × Text × Text → Text × Text × Text
  | (raw, content, behind) => (written ++ raw, u :: content, behind)

/-- Reads a string behind its first quote: as it is written, its content, and what follows it. -/
def scan : Text → Option (Text × Text × Text)
  | [] => none
  | u :: rest =>
      if u = quote then some ([], [], rest)
      else if u = backslash then
        match rest with
        | [] => none
        | v :: rest =>
            if v = 0x75 then
              match rest with
              | a :: b :: c :: d :: rest =>
                  (hexUnit a b c d).bind fun code =>
                    (scan rest).map (prepend [u, v, a, b, c, d] code)
              | _ => none
            else (escaped v).bind fun letter => (scan rest).map (prepend [u, v] letter)
      else if u < 0x20 then none
      else (scan rest).map (prepend [u] u)

theorem body_of_scan {text raw content behind : Text}
    (found : scan text = some (raw, content, behind)) :
    Body raw content ∧ text = raw ++ quote :: behind := by
  fun_induction scan text generalizing raw content behind with
  | case1 => cases found
  | case2 rest =>
      cases found
      exact ⟨.nil, rfl⟩
  | case3 => cases found
  | case4 rest a b c d unquoted ih =>
      obtain ⟨code, digits, found⟩ := Option.bind_eq_some_iff.mp found
      obtain ⟨⟨raw, content, behind⟩, inner, same⟩ := Option.map_eq_some_iff.mp found
      cases same
      obtain ⟨body, rfl⟩ := ih inner
      exact ⟨.code digits body, rfl⟩
  | case5 => cases found
  | case6 rest v unquoted short ih =>
      obtain ⟨letter, escape, found⟩ := Option.bind_eq_some_iff.mp found
      obtain ⟨⟨raw, content, behind⟩, inner, same⟩ := Option.map_eq_some_iff.mp found
      cases same
      obtain ⟨body, rfl⟩ := ih inner
      exact ⟨.escape escape body, rfl⟩
  | case7 => cases found
  | case8 u rest unquoted unslashed control ih =>
      obtain ⟨⟨raw, content, behind⟩, inner, same⟩ := Option.map_eq_some_iff.mp found
      cases same
      obtain ⟨body, rfl⟩ := ih inner
      exact ⟨.plain unquoted unslashed (UInt16.not_lt.mp control) body, rfl⟩

theorem scan_plain {u : UInt16} (unquoted : u ≠ quote) (unslashed : u ≠ backslash)
    (control : ¬ u < 0x20) (rest : Text) : scan (u :: rest) = (scan rest).map (prepend [u] u) := by
  rw [scan.eq_def]
  dsimp only
  rw [if_neg unquoted, if_neg unslashed, if_neg control]

theorem scan_escape {v : UInt16} (short : v ≠ 0x75) (rest : Text) :
    scan (backslash :: v :: rest) =
      (escaped v).bind fun letter => (scan rest).map (prepend [backslash, v] letter) := by
  rw [scan.eq_def]
  dsimp only
  rw [if_neg (by decide), if_pos rfl, if_neg short]

theorem scan_code (a b c d : UInt16) (rest : Text) :
    scan (backslash :: 0x75 :: a :: b :: c :: d :: rest) =
      (hexUnit a b c d).bind fun code =>
        (scan rest).map (prepend [backslash, 0x75, a, b, c, d] code) := by
  rw [scan.eq_def]
  dsimp only
  rw [if_neg (by decide), if_pos rfl, if_pos rfl]

theorem scan_of_body {raw content : Text} (body : Body raw content) (behind : Text) :
    scan (raw ++ quote :: behind) = some (raw, content, behind) := by
  induction body with
  | nil =>
      rw [List.nil_append, scan.eq_def]
      exact if_pos rfl
  | plain unquoted unslashed control _ ih =>
      rw [List.cons_append, scan_plain unquoted unslashed (UInt16.not_lt.mpr control), ih]
      rfl
  | @escape u v _ _ letter _ ih =>
      have short : u ≠ 0x75 := by
        rintro rfl
        cases letter
      rw [List.cons_append, List.cons_append, scan_escape short, letter, Option.bind_some, ih]
      rfl
  | code digits _ ih =>
      simp only [List.cons_append]
      rw [scan_code, digits, Option.bind_some, ih]
      rfl

/-! ## Parts of strings -/

theorem Body.append {raw content more further : Text} (body : Body raw content)
    (behind : Body more further) : Body (raw ++ more) (content ++ further) := by
  induction body with
  | nil => exact behind
  | plain unquoted unslashed control _ ih => exact .plain unquoted unslashed control ih
  | escape letter _ ih => exact .escape letter ih
  | code digits _ ih => exact .code digits ih

theorem Body.of_cons {u : UInt16} {raw content : Text} (unslashed : u ≠ backslash)
    (body : Body (u :: raw) content) : u ≠ quote ∧ 0x20 ≤ u ∧ ∃ rest, Body raw rest := by
  cases body with
  | plain unquoted _ control body => exact ⟨unquoted, control, _, body⟩
  | escape => exact absurd rfl unslashed
  | code => exact absurd rfl unslashed

theorem hexDigit_of_hexUnit {a b c d v : UInt16} (digits : hexUnit a b c d = some v) :
    ∀ u ∈ [a, b, c, d], hexDigit u ≠ none := by
  obtain ⟨x, first, digits⟩ := Option.bind_eq_some_iff.mp digits
  obtain ⟨y, second, digits⟩ := Option.bind_eq_some_iff.mp digits
  obtain ⟨z, third, digits⟩ := Option.bind_eq_some_iff.mp digits
  obtain ⟨w, fourth, -⟩ := Option.bind_eq_some_iff.mp digits
  simp [first, second, third, fourth]

/-- A string can be cut in front of a unit which does not occur in escapes. -/
theorem Body.cut {u : UInt16} {front rest content : Text} (letter : escaped u = none)
    (digit : hexDigit u = none) (code : u ≠ 0x75) (body : Body (front ++ u :: rest) content) :
    ∃ first second, Body front first ∧ Body (u :: rest) second := by
  generalize same : front ++ u :: rest = raw at body
  induction body generalizing front with
  | nil => exact absurd same (List.append_ne_nil_of_right_ne_nil _ (List.cons_ne_nil _ _))
  | @plain v raw content unquoted unslashed control body ih =>
      cases front with
      | nil =>
          cases same
          exact ⟨[], _, .nil, .plain unquoted unslashed control body⟩
      | cons w front =>
          cases same
          obtain ⟨first, second, before, after⟩ := ih rfl
          exact ⟨_, second, .plain unquoted unslashed control before, after⟩
  | @escape v w raw content known body ih =>
      match front with
      | [] =>
          cases same
          exact ⟨[], _, .nil, .escape known body⟩
      | [_] =>
          cases same
          rw [letter] at known
          cases known
      | _ :: _ :: front =>
          cases same
          obtain ⟨first, second, before, after⟩ := ih rfl
          exact ⟨_, second, .escape known before, after⟩
  | @code a b c d v raw content digits body ih =>
      have numbers := hexDigit_of_hexUnit digits
      match front with
      | [] =>
          cases same
          exact ⟨[], _, .nil, .code digits body⟩
      | [_] =>
          cases same
          exact absurd rfl code
      | [_, _] =>
          cases same
          exact absurd digit (numbers u (by simp))
      | [_, _, _] =>
          cases same
          exact absurd digit (numbers u (by simp))
      | [_, _, _, _] =>
          cases same
          exact absurd digit (numbers u (by simp))
      | [_, _, _, _, _] =>
          cases same
          exact absurd digit (numbers u (by simp))
      | _ :: _ :: _ :: _ :: _ :: _ :: front =>
          cases same
          obtain ⟨first, second, before, after⟩ := ih rfl
          exact ⟨_, second, .code digits before, after⟩

/-! ## Tokens -/

/-- A string as it is written between its quotes, and its content. -/
structure Quoted where
  raw : Text
  content : Text
  deriving DecidableEq

inductive Token where
  | mark (mark : Mark)
  | scalar (word : Text)
  | string (quoted : Quoted)
  deriving DecidableEq

/-- How tokens stand in a text. -/
inductive Layout : List Token → Text → Prop
  | nil : Layout [] []
  | white {u : UInt16} {tokens : List Token} {text : Text} (white : isWhite u = true)
      (rest : Layout tokens text) : Layout tokens (u :: text)
  | mark {tokens : List Token} {text : Text} (mark : Mark) (rest : Layout tokens text) :
      Layout (.mark mark :: tokens) (mark.unit :: text)
  | string {raw content : Text} {tokens : List Token} {text : Text} (body : Body raw content)
      (rest : Layout tokens text) :
      Layout (.string ⟨raw, content⟩ :: tokens) (quote :: (raw ++ quote :: text))
  | scalar {word : Text} {tokens : List Token} {text : Text} (legal : isWord word = true)
      (ends : ∀ u ∈ text.head?, isWordUnit u = false) (rest : Layout tokens text) :
      Layout (.scalar word :: tokens) (word ++ text)

/-- The tokens of a text, read in at most as many steps as the fuel allows. -/
def lex : Nat → Text → Option (List Token)
  | _, [] => some []
  | 0, _ :: _ => none
  | fuel + 1, u :: rest =>
      if isWhite u then lex fuel rest
      else match markOf u with
        | some mark => (lex fuel rest).map (.mark mark :: ·)
        | none =>
            if u = quote then
              (scan rest).bind fun (raw, content, behind) =>
                (lex fuel behind).map (.string ⟨raw, content⟩ :: ·)
            else
              let word := (u :: rest).takeWhile isWordUnit
              if isWord word then
                (lex fuel ((u :: rest).dropWhile isWordUnit)).map (.scalar word :: ·)
              else none

/-! ## Classes of units -/

theorem markOf_unit (mark : Mark) : markOf mark.unit = some mark := by
  cases mark <;> decide

theorem unit_of_markOf {u : UInt16} {mark : Mark} (found : markOf u = some mark) :
    mark.unit = u := by
  have same := List.find?_some found
  exact of_decide_eq_true same

theorem isWhite_unit (mark : Mark) : isWhite mark.unit = false := by
  cases mark <;> decide

theorem unit_ne_quote (mark : Mark) : mark.unit ≠ quote := by
  cases mark <;> decide

theorem isWordUnit_unit (mark : Mark) : isWordUnit mark.unit = false := by
  cases mark <;> decide

theorem isWordUnit_quote : isWordUnit quote = false := by decide

theorem isWordUnit_of_isWhite {u : UInt16} (white : isWhite u = true) : isWordUnit u = false := by
  have listed : u ∈ [0x09, 0x0a, 0x0d, (0x20 : UInt16)] := of_decide_eq_true white
  have outside : [0x09, 0x0a, 0x0d, (0x20 : UInt16)].all fun u => !isWordUnit u := by decide
  have other := List.all_eq_true.mp outside u listed
  rwa [Bool.not_eq_true'] at other

theorem isWordUnit_of_isDigit {u : UInt16} (digit : isDigit u = true) : isWordUnit u = true := by
  rw [isWordUnit, digit]
  rfl

/-- A unit of a word begins nothing else. -/
theorem word_unit_cases {u : UInt16} (unit : isWordUnit u = true) :
    isWhite u = false ∧ markOf u = none ∧ u ≠ quote := by
  refine ⟨?_, ?_, ?_⟩
  · by_contra white
    rw [isWordUnit_of_isWhite (Bool.eq_true_of_not_eq_false white)] at unit
    cases unit
  · cases found : markOf u with
    | none => rfl
    | some mark =>
        rw [← unit_of_markOf found, isWordUnit_unit] at unit
        cases unit
  · rintro rfl
    rw [isWordUnit_quote] at unit
    cases unit

/-! ## Words -/

theorem NumberState.isWordUnit_of_step {state next : NumberState} {u : UInt16}
    (step : state.step u = some next) : isWordUnit u = true := by
  by_contra other
  rw [Bool.not_eq_true] at other
  have digit : isDigit u = false := by
    by_contra digit
    rw [isWordUnit_of_isDigit (Bool.eq_true_of_not_eq_false digit)] at other
    cases other
  have unlisted : ∀ v ∈ [0x2b, 0x2d, 0x2e, 0x30, 0x45, (0x65 : UInt16)], u ≠ v := by
    rintro v listed rfl
    have units : [0x2b, 0x2d, 0x2e, 0x30, 0x45, (0x65 : UInt16)].all isWordUnit = true := by decide
    rw [List.all_eq_true.mp units _ listed] at other
    cases other
  simp only [List.forall_mem_cons] at unlisted
  obtain ⟨plus, minus, point, zero, capital, small, -⟩ := unlisted
  cases state <;>
    simp [NumberState.step, NumberState.behindInteger, digit, plus, minus, point, zero, capital,
      small] at step

theorem isWordUnit_of_foldlM {word : Text} {state final : NumberState}
    (read : word.foldlM NumberState.step state = some final) {u : UInt16} (member : u ∈ word) :
    isWordUnit u = true := by
  induction word generalizing state with
  | nil => cases member
  | cons v word ih =>
      rw [List.foldlM_cons] at read
      obtain ⟨next, step, read⟩ := Option.bind_eq_some_iff.mp read
      rcases List.mem_cons.mp member with rfl | later
      · exact NumberState.isWordUnit_of_step step
      · exact ih read later

theorem isWordUnit_of_isWord {word : Text} (legal : isWord word = true) {u : UInt16}
    (member : u ∈ word) : isWordUnit u = true := by
  rw [isWord, Bool.or_eq_true] at legal
  rcases legal with constant | number
  · have units : constants.all fun word => word.all isWordUnit := by decide
    have unit := List.all_eq_true.mp units word (List.contains_iff_mem.mp constant)
    exact List.all_eq_true.mp unit u member
  · rw [isNumber, Option.any_eq_true] at number
    obtain ⟨final, read, -⟩ := number
    exact isWordUnit_of_foldlM read member

theorem ne_nil_of_isWord {word : Text} (legal : isWord word = true) : word ≠ [] := by
  rintro rfl
  cases legal

/-- A word is not empty. -/
theorem mem_of_isWord {word text rest : Text} {u : UInt16} (legal : isWord word = true)
    (whole : word ++ text = u :: rest) : u ∈ word := by
  cases word with
  | nil => cases legal
  | cons v word =>
      rw [(List.cons.inj whole).1]
      exact List.mem_cons_self

theorem takeWhile_append_stop {p : UInt16 → Bool} {front rest : Text}
    (inside : ∀ u ∈ front, p u = true) (stop : ∀ u ∈ rest.head?, p u = false) :
    (front ++ rest).takeWhile p = front := by
  rw [List.takeWhile_append_of_pos inside]
  cases rest with
  | nil => exact List.append_nil front
  | cons u rest =>
      rw [List.takeWhile_cons_of_neg, List.append_nil]
      rw [stop u rfl]
      exact Bool.false_ne_true

theorem dropWhile_append_stop {p : UInt16 → Bool} {front rest : Text}
    (inside : ∀ u ∈ front, p u = true) (stop : ∀ u ∈ rest.head?, p u = false) :
    (front ++ rest).dropWhile p = rest := by
  rw [List.dropWhile_append_of_pos inside]
  cases rest with
  | nil => rfl
  | cons u rest =>
      rw [List.dropWhile_cons_of_neg]
      rw [stop u rfl]
      exact Bool.false_ne_true

theorem takeWhile_word {word text : Text} (legal : isWord word = true)
    (ends : ∀ u ∈ text.head?, isWordUnit u = false) :
    (word ++ text).takeWhile isWordUnit = word :=
  takeWhile_append_stop (fun _ member => isWordUnit_of_isWord legal member) ends

theorem dropWhile_word {word text : Text} (legal : isWord word = true)
    (ends : ∀ u ∈ text.head?, isWordUnit u = false) :
    (word ++ text).dropWhile isWordUnit = text :=
  dropWhile_append_stop (fun _ member => isWordUnit_of_isWord legal member) ends

/-! ## The scanner -/

theorem layout_of_lex {fuel : Nat} {text : Text} {tokens : List Token}
    (found : lex fuel text = some tokens) : Layout tokens text := by
  induction fuel generalizing text tokens with
  | zero =>
      cases text with
      | nil =>
          cases found
          exact .nil
      | cons u rest => cases found
  | succ fuel ih =>
      cases text with
      | nil =>
          cases found
          exact .nil
      | cons u rest =>
          rw [lex] at found
          split at found
          · next white => exact .white white (ih found)
          split at found
          · next mark known =>
            obtain ⟨tokens, inner, rfl⟩ := Option.map_eq_some_iff.mp found
            rw [← unit_of_markOf known]
            exact .mark mark (ih inner)
          split at found
          · next start =>
            obtain ⟨⟨raw, content, behind⟩, inner, found⟩ := Option.bind_eq_some_iff.mp found
            obtain ⟨tokens, outer, rfl⟩ := Option.map_eq_some_iff.mp found
            obtain ⟨body, rfl⟩ := body_of_scan inner
            rw [start]
            exact .string body (ih outer)
          dsimp only at found
          split at found
          · next legal =>
            obtain ⟨tokens, inner, rfl⟩ := Option.map_eq_some_iff.mp found
            have layout := Layout.scalar legal ?_ (ih inner)
            · rwa [List.takeWhile_append_dropWhile] at layout
            · intro v head
              have stop := List.head?_dropWhile_not isWordUnit (u :: rest)
              rwa [Option.mem_def.mp head] at stop
          · cases found

/-- A step takes one unit of the fuel. -/
theorem exists_fuel {size fuel : Nat} (enough : size + 1 ≤ fuel) :
    ∃ n, fuel = n + 1 ∧ size ≤ n := by
  cases fuel with
  | zero => cases enough
  | succ n => exact ⟨n, rfl, Nat.le_of_succ_le_succ enough⟩

theorem lex_of_layout {tokens : List Token} {text : Text} (layout : Layout tokens text)
    {fuel : Nat} (enough : text.length ≤ fuel) : lex fuel text = some tokens := by
  induction layout generalizing fuel with
  | nil => cases fuel <;> rfl
  | white white _ ih =>
      obtain ⟨fuel, rfl, fewer⟩ := exists_fuel enough
      rw [lex, if_pos white, ih fewer]
  | mark mark _ ih =>
      obtain ⟨fuel, rfl, fewer⟩ := exists_fuel enough
      rw [lex, isWhite_unit, if_neg Bool.false_ne_true, markOf_unit]
      dsimp only
      rw [ih fewer]
      rfl
  | @string raw content tokens text body _ ih =>
      have white : isWhite quote = false := by decide
      have known : markOf quote = none := by decide
      obtain ⟨fuel, rfl, fewer⟩ := exists_fuel enough
      have shorter : text.length ≤ fuel := by
        simp only [List.length_cons, List.length_append] at fewer
        omega
      rw [lex, white, if_neg Bool.false_ne_true, known]
      dsimp only
      rw [if_pos rfl, scan_of_body body, Option.bind_some, ih shorter]
      rfl
  | @scalar word tokens text legal ends _ ih =>
      cases shape : word with
      | nil => exact absurd shape (ne_nil_of_isWord legal)
      | cons u rest =>
          have first : u ∈ word := shape ▸ List.mem_cons_self
          obtain ⟨white, unknown, unquoted⟩ := word_unit_cases (isWordUnit_of_isWord legal first)
          rw [shape, List.cons_append] at enough
          obtain ⟨fuel, rfl, fewer⟩ := exists_fuel enough
          have shorter : text.length ≤ fuel := by
            rw [List.length_append] at fewer
            omega
          rw [List.cons_append, lex, white, if_neg Bool.false_ne_true, unknown]
          dsimp only
          rw [if_neg unquoted, ← List.cons_append, ← shape, takeWhile_word legal ends, if_pos legal,
            dropWhile_word legal ends, ih shorter]
          rfl

/-- The scanner finds the tokens which are laid out in a text. -/
theorem lex_eq_some {text : Text} {tokens : List Token} :
    lex text.length text = some tokens ↔ Layout tokens text :=
  ⟨layout_of_lex, fun layout => lex_of_layout layout le_rfl⟩

theorem Layout.unique {text : Text} {tokens others : List Token} (layout : Layout tokens text)
    (other : Layout others text) : tokens = others :=
  Option.some.inj ((lex_eq_some.mpr layout).symm.trans (lex_eq_some.mpr other))

/-! ## What stands at the front of a text -/

theorem Layout.whites {white text : Text} {tokens : List Token}
    (blank : ∀ u ∈ white, isWhite u = true) (layout : Layout tokens text) :
    Layout tokens (white ++ text) := by
  induction white with
  | nil => exact layout
  | cons u white ih =>
      rw [List.forall_mem_cons] at blank
      exact .white blank.1 (ih blank.2)

/-- A text with a first unit begins with white space, a mark, a string or a word. -/
theorem Layout.of_cons {u : UInt16} {text : Text} {tokens : List Token}
    (layout : Layout tokens (u :: text)) :
    isWhite u = true ∧ Layout tokens text ∨
    (∃ mark rest, u = Mark.unit mark ∧ tokens = .mark mark :: rest ∧ Layout rest text) ∨
    (∃ raw content behind rest, u = quote ∧ Body raw content ∧ text = raw ++ quote :: behind ∧
      tokens = .string ⟨raw, content⟩ :: rest ∧ Layout rest behind) ∨
    ∃ word behind rest, isWordUnit u = true ∧ isWord word = true ∧
      (∀ v ∈ behind.head?, isWordUnit v = false) ∧ u :: text = word ++ behind ∧
      tokens = .scalar word :: rest ∧ Layout rest behind := by
  generalize same : u :: text = whole at layout
  cases layout with
  | nil => cases same
  | white white rest =>
      cases same
      exact .inl ⟨white, rest⟩
  | mark mark rest =>
      cases same
      exact .inr (.inl ⟨mark, _, rfl, rfl, rest⟩)
  | string body rest =>
      cases same
      exact .inr (.inr (.inl ⟨_, _, _, _, rfl, body, rfl, rfl, rest⟩))
  | @scalar word _ _ legal ends rest =>
      have first := mem_of_isWord legal same.symm
      have unit := isWordUnit_of_isWord legal first
      exact .inr (.inr (.inr ⟨_, _, _, unit, legal, ends, rfl, rfl, rest⟩))

theorem Layout.of_white {u : UInt16} {text : Text} {tokens : List Token}
    (white : isWhite u = true) (layout : Layout tokens (u :: text)) : Layout tokens text := by
  rcases layout.of_cons with ⟨-, rest⟩ | ⟨mark, _, rfl, -⟩ | ⟨_, _, _, _, rfl, -⟩ |
    ⟨_, _, _, unit, -⟩
  · exact rest
  · rw [isWhite_unit] at white
    cases white
  · cases white
  · rw [isWordUnit_of_isWhite white] at unit
    cases unit

theorem Layout.of_whites {white text : Text} {tokens : List Token}
    (blank : ∀ u ∈ white, isWhite u = true) (layout : Layout tokens (white ++ text)) :
    Layout tokens text := by
  induction white with
  | nil => exact layout
  | cons u white ih =>
      rw [List.forall_mem_cons] at blank
      exact ih blank.2 (layout.of_white blank.1)

theorem Layout.of_mark {mark : Mark} {text : Text} {tokens : List Token}
    (layout : Layout tokens (mark.unit :: text)) :
    ∃ rest, tokens = .mark mark :: rest ∧ Layout rest text := by
  rcases layout.of_cons with ⟨white, -⟩ | ⟨other, rest, same, rfl, inner⟩ | ⟨_, _, _, _, same, -⟩ |
    ⟨_, _, _, unit, -⟩
  · rw [isWhite_unit] at white
    cases white
  · have known := markOf_unit mark
    rw [same, markOf_unit] at known
    exact ⟨rest, congrArg (fun mark => Token.mark mark :: rest) (Option.some.inj known), inner⟩
  · exact absurd same (unit_ne_quote mark)
  · rw [isWordUnit_unit] at unit
    cases unit

theorem Layout.of_quote {raw content text : Text} {tokens : List Token} (body : Body raw content)
    (layout : Layout tokens (quote :: (raw ++ quote :: text))) :
    ∃ rest, tokens = .string ⟨raw, content⟩ :: rest ∧ Layout rest text := by
  rcases layout.of_cons with ⟨white, -⟩ | ⟨mark, _, same, -⟩ | 
    ⟨_, _, _, rest, -, other, same, rfl, inner⟩ | ⟨_, _, _, unit, -⟩
  · cases white
  · exact absurd same.symm (unit_ne_quote mark)
  · have scanned := scan_of_body body text
    rw [same, scan_of_body other] at scanned
    cases scanned
    exact ⟨rest, rfl, inner⟩
  · rw [isWordUnit_quote] at unit
    cases unit

/-- The units of a word at the front of a text are its first word, if the word ends with them. -/
theorem Layout.of_units {word text : Text} {tokens : List Token} (nonempty : word ≠ [])
    (units : ∀ u ∈ word, isWordUnit u = true) (ends : ∀ u ∈ text.head?, isWordUnit u = false)
    (layout : Layout tokens (word ++ text)) :
    ∃ rest, tokens = .scalar word :: rest ∧ Layout rest text := by
  obtain ⟨u, others, shape⟩ := List.exists_cons_of_ne_nil nonempty
  have first : isWordUnit u = true := units u (shape ▸ List.mem_cons_self)
  obtain ⟨blank, unknown, unquoted⟩ := word_unit_cases first
  have whole : word ++ text = u :: (others ++ text) := by
    rw [shape]
    rfl
  rw [whole] at layout
  rcases layout.of_cons with ⟨white, -⟩ | ⟨mark, _, rfl, -⟩ | ⟨_, _, _, _, rfl, -⟩ |
    ⟨other, behind, rest, -, legal, ends', same, rfl, inner⟩
  · rw [blank] at white
    cases white
  · rw [markOf_unit] at unknown
    cases unknown
  · exact absurd rfl unquoted
  · have read := takeWhile_append_stop units ends
    have left := dropWhile_append_stop units ends
    rw [whole, same, takeWhile_word legal ends'] at read
    rw [whole, same, dropWhile_word legal ends'] at left
    exact ⟨rest, by rw [read], left ▸ inner⟩

/-- How a token is written. -/
def Token.written : Token → Text
  | .mark sign => [sign.unit]
  | .string quoted => quote :: (quoted.raw ++ [quote])
  | .scalar word => word

/-- The first token of a layout stands behind white space. -/
theorem Layout.front {token : Token} {text : Text} {tokens : List Token}
    (layout : Layout (token :: tokens) text) :
    ∃ white behind, (∀ u ∈ white, isWhite u = true) ∧ text = white ++ (token.written ++ behind) ∧
      Layout tokens behind := by
  generalize same : token :: tokens = all at layout
  induction layout with
  | nil => cases same
  | @white u _ _ blank _ ih =>
      obtain ⟨white, behind, blanks, rfl, layout⟩ := ih same
      exact ⟨u :: white, behind, List.forall_mem_cons.mpr ⟨blank, blanks⟩, rfl, layout⟩
  | mark mark rest =>
      cases same
      exact ⟨[], _, List.forall_mem_nil _, rfl, rest⟩
  | string body rest =>
      cases same
      exact ⟨[], _, List.forall_mem_nil _, by simp [Token.written], rest⟩
  | scalar legal ends rest =>
      cases same
      exact ⟨[], _, List.forall_mem_nil _, rfl, rest⟩

end JsonText
