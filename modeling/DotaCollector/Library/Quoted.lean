import Mathlib.Data.List.Basic

/-!
# Separators and quotes

A text is taken apart again when no part contains the separator behind it, or when the parts are
escaped and stand before a quote. Each rule says that two texts which are put together in this way
and come out the same have the same parts.
-/

namespace Quoted

variable {Symbol : Type*}

/-! ## Separators -/

section Separators

/-- The first separator decides. -/
theorem eq_of_append_cons {front other back rest : List Symbol} {separator mark : Symbol}
    (here : mark ∉ front) (there : separator ∉ other)
    (same : front ++ separator :: back = other ++ mark :: rest) :
    front = other ∧ separator = mark ∧ back = rest := by
  induction front generalizing other with
  | nil =>
      cases other with
      | nil => exact ⟨rfl, List.cons_eq_cons.mp same⟩
      | cons symbol other =>
          have head : separator = symbol := List.head_eq_of_cons_eq same
          exact absurd (head ▸ List.mem_cons_self) there
  | cons symbol front ih =>
      cases other with
      | nil =>
          have head : symbol = mark := List.head_eq_of_cons_eq same
          exact absurd (head ▸ List.mem_cons_self) here
      | cons first other =>
          obtain ⟨head, tail⟩ := List.cons_eq_cons.mp same
          obtain ⟨fronts, backs⟩ := ih (fun member => here (List.mem_cons_of_mem _ member))
            (fun member => there (List.mem_cons_of_mem _ member)) tail
          exact ⟨by rw [head, fronts], backs⟩

variable {separator : Symbol}

/-- The parts, each behind a separator. -/
def behind (separator : Symbol) (parts : List (List Symbol)) : List Symbol :=
  parts.flatMap (separator :: ·)

/-- The parts with a separator between them. -/
def join (separator : Symbol) : List (List Symbol) → List Symbol
  | [] => []
  | part :: parts => part ++ behind separator parts

theorem eq_of_append_behind {part other : List Symbol} {parts others : List (List Symbol)}
    (here : separator ∉ part) (there : separator ∉ other)
    (same : part ++ behind separator parts = other ++ behind separator others) :
    part = other ∧ behind separator parts = behind separator others := by
  cases parts with
  | nil =>
      cases others with
      | nil =>
          simp only [behind, List.flatMap_nil, List.append_nil] at same
          exact ⟨same, rfl⟩
      | cons next others =>
          refine absurd ?_ here
          rw [behind, List.flatMap_nil, List.append_nil] at same
          rw [same]
          exact List.mem_append_right _ List.mem_cons_self
  | cons next parts =>
      cases others with
      | nil =>
          refine absurd ?_ there
          rw [behind, behind, List.flatMap_nil, List.append_nil] at same
          rw [← same]
          exact List.mem_append_right _ List.mem_cons_self
      | cons after others =>
          obtain ⟨parts_eq, -, rest⟩ := eq_of_append_cons here there same
          exact ⟨parts_eq, congrArg (separator :: ·) rest⟩

theorem behind_inj {parts others : List (List Symbol)} (here : ∀ part ∈ parts, separator ∉ part)
    (there : ∀ part ∈ others, separator ∉ part)
    (same : behind separator parts = behind separator others) : parts = others := by
  induction parts generalizing others with
  | nil =>
      cases others with
      | nil => rfl
      | cons other others => cases same
  | cons part parts ih =>
      cases others with
      | nil => cases same
      | cons other others =>
          obtain ⟨first, rest⟩ := eq_of_append_behind (here part List.mem_cons_self)
            (there other List.mem_cons_self) (List.tail_eq_of_cons_eq same)
          rw [first, ih (fun next member => here next (List.mem_cons_of_mem _ member))
            (fun next member => there next (List.mem_cons_of_mem _ member)) rest]

/-- A joined text has only one list of parts, when there are any. -/
theorem join_inj {parts others : List (List Symbol)} (here : ∀ part ∈ parts, separator ∉ part)
    (there : ∀ part ∈ others, separator ∉ part) (nonempty : parts ≠ []) (filled : others ≠ [])
    (same : join separator parts = join separator others) : parts = others := by
  cases parts with
  | nil => exact absurd rfl nonempty
  | cons part parts =>
      cases others with
      | nil => exact absurd rfl filled
      | cons other others =>
          obtain ⟨first, rest⟩ := eq_of_append_behind (here part List.mem_cons_self)
            (there other List.mem_cons_self) same
          rw [first, behind_inj (fun next member => here next (List.mem_cons_of_mem _ member))
            (fun next member => there next (List.mem_cons_of_mem _ member)) rest]

end Separators

/-! ## Quotes -/

/-- A quote, and a mark with the codes of symbols which do not stand for themselves. -/
structure Escaping (Symbol : Type*) where
  quote : Symbol
  mark : Symbol
  code : Symbol → Option Symbol
  quote_ne_mark : quote ≠ mark
  quote_coded : code quote ≠ none
  mark_coded : code mark ≠ none
  code_inj : ∀ symbol other coded, code symbol = some coded → code other = some coded →
    symbol = other

namespace Escaping

variable (escaping : Escaping Symbol)

def symbol (plain : Symbol) : List Symbol :=
  match escaping.code plain with
  | none => [plain]
  | some coded => [escaping.mark, coded]

def text (plain : List Symbol) : List Symbol := plain.flatMap escaping.symbol

variable {escaping}

/-- No escaped symbol begins with the quote. -/
theorem symbol_ne_quote {plain : Symbol} {back rest : List Symbol} :
    escaping.symbol plain ++ back ≠ escaping.quote :: rest := by
  intro same
  rw [symbol] at same
  cases coded : escaping.code plain with
  | none =>
      rw [coded] at same
      have head : plain = escaping.quote := List.head_eq_of_cons_eq same
      exact escaping.quote_coded (head ▸ coded)
  | some code =>
      rw [coded] at same
      exact escaping.quote_ne_mark (List.head_eq_of_cons_eq same).symm

theorem symbol_inj {plain other : Symbol} {back rest : List Symbol}
    (same : escaping.symbol plain ++ back = escaping.symbol other ++ rest) :
    plain = other ∧ back = rest := by
  rw [symbol, symbol] at same
  cases coded : escaping.code plain with
  | none =>
      cases otherCoded : escaping.code other with
      | none =>
          rw [coded, otherCoded] at same
          exact List.cons_eq_cons.mp same
      | some code =>
          rw [coded, otherCoded] at same
          have head : plain = escaping.mark := List.head_eq_of_cons_eq same
          exact absurd (head ▸ coded) escaping.mark_coded
  | some code =>
      cases otherCoded : escaping.code other with
      | none =>
          rw [coded, otherCoded] at same
          have head : escaping.mark = other := List.head_eq_of_cons_eq same
          exact absurd (head ▸ otherCoded) escaping.mark_coded
      | some otherCode =>
          rw [coded, otherCoded] at same
          obtain ⟨codes, backs⟩ := List.cons_eq_cons.mp (List.tail_eq_of_cons_eq same)
          exact ⟨escaping.code_inj _ _ code coded (codes ▸ otherCoded), backs⟩

/-- An escaped text ends at the first quote behind it. -/
theorem text_inj (escaping : Escaping Symbol) {plain other back rest : List Symbol}
    (same : escaping.text plain ++ escaping.quote :: back =
      escaping.text other ++ escaping.quote :: rest) : plain = other ∧ back = rest := by
  induction plain generalizing other with
  | nil =>
      cases other with
      | nil => exact ⟨rfl, List.tail_eq_of_cons_eq same⟩
      | cons symbol other =>
          rw [text, text, List.flatMap_nil, List.flatMap_cons, List.append_assoc] at same
          exact absurd same.symm symbol_ne_quote
  | cons symbol plain ih =>
      cases other with
      | nil =>
          rw [text, text, List.flatMap_nil, List.flatMap_cons, List.append_assoc] at same
          exact absurd same symbol_ne_quote
      | cons first other =>
          rw [text, text, List.flatMap_cons, List.flatMap_cons, List.append_assoc,
            List.append_assoc] at same
          obtain ⟨head, tail⟩ := symbol_inj same
          obtain ⟨rfl, backs⟩ := ih tail
          exact ⟨by rw [head], backs⟩

end Escaping

end Quoted
