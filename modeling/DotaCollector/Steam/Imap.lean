import DotaCollector.Library.Search

/-!
# The framing of IMAP lines

A logical line ends at the first line break which is not inside a literal; a text segment which
ends in a number in braces announces a literal of that many bytes behind its line break. The bytes
of the connection are read as Latin-1, so a byte is a character.
-/

namespace DotaCollector
namespace Steam
namespace Imap

abbrev Latin1 := List Char

def crlf : Latin1 := ['\r', '\n']

/-! ## The functions -/

/-- `Number` of some digits. The lengths of buffers are below `2 ^ 53`, where it is exact. -/
def decimal (digits : Latin1) : Nat :=
  digits.foldl (fun n c => 10 * n + (c.toNat - 48)) 0

/-- The number in the braces at the end of a segment: `/\{(\d+)\}$/`. -/
def announced (segment : Latin1) : Option Nat :=
  match segment.reverse with
  | '}' :: back =>
      if (back.dropWhile Char.isDigit).head? = some '{' ∧ back.takeWhile Char.isDigit ≠ [] then
        some (decimal (back.takeWhile Char.isDigit).reverse)
      else none
  | _ => none

def indexOf (raw pattern : Latin1) (start : Nat) : Option Nat :=
  ((raw.drop start).dropInfix? pattern).map fun found => start + found.1.length

theorem le_of_indexOf {raw pattern : Latin1} {start place : Nat}
    (found : indexOf raw pattern start = some place) : start ≤ place := by
  obtain ⟨split, -, rfl⟩ := Option.map_eq_some_iff.mp found
  exact Nat.le_add_right _ _

/-- The loop of `tryParseLogicalLine` from an index on, which finds the end of the line. -/
def lineEnd (raw : Latin1) (i : Nat) : Option Nat :=
  if _ : i < raw.length then
    match found : indexOf raw crlf i with
    | none => none
    | some place =>
        match announced ((raw.take place).drop i) with
        | none => some place
        | some n =>
            if raw.length < place + 2 + n then none
            else
              have := le_of_indexOf found
              lineEnd raw (place + 2 + n)
  else none
termination_by raw.length - i

theorem lineEnd_none {raw : Latin1} {i : Nat} (absent : indexOf raw crlf i = none) :
    lineEnd raw i = none := by
  rw [lineEnd]
  split
  · split
    · rfl
    · next place found => cases absent.symm.trans found
  · rfl

theorem lineEnd_some {raw : Latin1} {i place : Nat} (inside : i < raw.length)
    (found : indexOf raw crlf i = some place) :
    lineEnd raw i = match announced ((raw.take place).drop i) with
      | none => some place
      | some n => if raw.length < place + 2 + n then none else lineEnd raw (place + 2 + n) := by
  rw [lineEnd, dif_pos inside]
  split
  · next absent => cases absent.symm.trans found
  · next other same =>
      cases same.symm.trans found
      rfl

/-- A line, and the rest of the buffer. -/
def tryParseLogicalLine (buf : Latin1) : Option (Latin1 × Latin1) :=
  (lineEnd buf 0).map fun place => (buf.take place, buf.drop (place + 2))

/-- A word, in capitals, at the front of a text of any case. -/
def stripWord (word text : Latin1) : Option Latin1 :=
  if (text.take word.length).map Char.toUpper = word then some (text.drop word.length) else none

/-- The digits in ` {(\d+)}` at the front of a text, and what stands behind it. -/
def number : Latin1 → Option (Latin1 × Latin1)
  | ' ' :: '{' :: text =>
      match text.dropWhile Char.isDigit with
      | '}' :: behind =>
          if text.takeWhile Char.isDigit = [] then none
          else some (text.takeWhile Char.isDigit, behind)
      | _ => none
  | _ => none

/-- The header of a literal at the front of a text: its digits, and what stands behind it. -/
def headerAt (text : Latin1) : Option (Latin1 × Latin1) := do
  let text ← stripWord "BODY".toList text
  let text := (stripWord ".PEEK".toList text).getD text
  let text ← (stripWord "[]".toList text).or (stripWord "[TEXT]".toList text)
  number text

/-- The first match of the header. -/
def exec : Latin1 → Option (Latin1 × Latin1)
  | [] => none
  | c :: raw => (headerAt (c :: raw)).or (exec raw)

def extractImapLiteral (raw : Latin1) : Option Latin1 :=
  (exec raw).map fun (digits, behind) =>
    let start := if crlf <+: behind then behind.drop 2
      else if ['\n'] <+: behind then behind.drop 1
      else behind
    start.take (decimal digits)

/-- The buffer of a client, and the lines which it has returned. -/
structure Client where
  buf : Latin1 := []
  lines : List Latin1 := []

/-- A chunk arrives, or the buffer is parsed. -/
inductive Event where
  | chunk (bytes : Latin1)
  | parse

def Client.step (client : Client) : Event → Client
  | .chunk bytes => { client with buf := client.buf ++ bytes }
  | .parse =>
      match tryParseLogicalLine client.buf with
      | none => client
      | some (line, rest) => { buf := rest, lines := client.lines ++ [line] }

def run (events : List Event) : Client := events.foldl Client.step {}

/-- The bytes which have arrived. -/
def received (events : List Event) : Latin1 :=
  events.flatMap fun
    | .chunk bytes => bytes
    | .parse => []

/-! ## Lines -/

/-- A literal, and the segment which announces it. -/
structure Literal where
  text : Latin1
  digits : Latin1
  bytes : Latin1
  free : ¬ crlf <:+: text ++ '{' :: (digits ++ ['}'])
  nonempty : digits ≠ []
  number : ∀ c ∈ digits, c.isDigit = true
  size : decimal digits = bytes.length

def Literal.segment (literal : Literal) : Latin1 :=
  literal.text ++ '{' :: (literal.digits ++ ['}'])

def Literal.encode (literal : Literal) : Latin1 := literal.segment ++ (crlf ++ literal.bytes)

/-- A logical line: segments which announce literals, and a last segment which announces none. -/
structure LogicalLine where
  literals : List Literal
  last : Latin1
  free : ¬ crlf <:+: last
  plain : announced last = none

def LogicalLine.text (line : LogicalLine) : Latin1 :=
  line.literals.flatMap Literal.encode ++ line.last

def LogicalLine.encode (line : LogicalLine) : Latin1 := line.text ++ crlf

def encodeAll (lines : List LogicalLine) : Latin1 := lines.flatMap LogicalLine.encode

/-- The first header in a line is the one of a literal of the line. -/
def HeaderOf (line : LogicalLine) (literal : Literal) : Prop :=
  ∃ front back digits, line.literals = front ++ literal :: back ∧
    exec line.text = some (digits,
      crlf ++ (literal.bytes ++ (back.flatMap Literal.encode ++ line.last)))

/-! ## The end of a line -/

theorem announced_segment (literal : Literal) :
    announced literal.segment = some literal.bytes.length := by
  have digit : ∀ c ∈ literal.digits.reverse, c.isDigit = true := fun c member =>
    literal.number c (List.mem_reverse.mp member)
  have brace : Char.isDigit '{' = false := by decide
  have back : literal.segment.reverse =
      '}' :: (literal.digits.reverse ++ '{' :: literal.text.reverse) := by
    simp [Literal.segment]
  have nonempty : literal.digits.reverse ≠ [] := by
    rw [ne_eq, List.reverse_eq_nil_iff]
    exact literal.nonempty
  rw [announced, back]
  simp only
  rw [List.takeWhile_append_of_pos digit, List.dropWhile_append_of_pos digit,
    List.takeWhile_cons_of_neg (by rw [brace]; exact Bool.false_ne_true),
    List.dropWhile_cons_of_neg (by rw [brace]; exact Bool.false_ne_true), List.append_nil,
    if_pos ⟨rfl, nonempty⟩, List.reverse_reverse, literal.size]

/-- A line break behind a segment is the first one. -/
theorem dropInfix?_segment {segment : Latin1} (free : ¬ crlf <:+: segment) (back : Latin1) :
    (segment ++ (crlf ++ back)).dropInfix? crlf = some (segment, back) := by
  refine Search.dropInfix?_eq_some.mpr ⟨(List.append_assoc ..).symm, fun before after split => ?_⟩
  rw [List.append_assoc] at split
  rcases List.append_eq_append_iff.mp split with ⟨more, rfl, -⟩ | ⟨more, rfl, rest⟩
  · rw [List.length_append]
    exact Nat.le_add_right _ _
  · match more with
    | [] => simp
    | [c] => exact absurd (List.cons.inj (List.cons.inj rest).2).1 (by decide)
    | c :: d :: more =>
        obtain ⟨first, behind⟩ := List.cons.inj rest
        obtain ⟨second, -⟩ := List.cons.inj behind
        rw [← first, ← second] at free
        exact absurd ⟨before, more, by simp [crlf]⟩ free

theorem indexOf_segment {segment : Latin1} (free : ¬ crlf <:+: segment) (front back : Latin1) :
    indexOf (front ++ (segment ++ (crlf ++ back))) crlf front.length =
      some (front.length + segment.length) := by
  rw [indexOf, List.drop_left, dropInfix?_segment free]
  rfl

theorem indexOf_none {segment : Latin1} (free : ¬ crlf <:+: segment) (front : Latin1) :
    indexOf (front ++ segment) crlf front.length = none := by
  rw [indexOf, List.drop_left, Search.dropInfix?_eq_none free]
  rfl

theorem Literal.free_segment (literal : Literal) : ¬ crlf <:+: literal.segment := literal.free

/-- The step of the loop at a segment which announces a literal. -/
theorem lineEnd_segment (front : Latin1) (literal : Literal) (back : Latin1) :
    lineEnd (front ++ (literal.segment ++ (crlf ++ back))) front.length =
      if back.length < literal.bytes.length then none
      else lineEnd (front ++ (literal.segment ++ (crlf ++ back)))
        (front.length + literal.segment.length + 2 + literal.bytes.length) := by
  have segment : ((front ++ (literal.segment ++ (crlf ++ back))).take
      (front.length + literal.segment.length)).drop front.length = literal.segment := by
    rw [← List.append_assoc, List.take_left' (List.length_append ..), List.drop_left]
  have whole : (front ++ (literal.segment ++ (crlf ++ back))).length =
      front.length + literal.segment.length + 2 + back.length := by
    simp only [List.length_append, crlf, List.length_cons, List.length_nil]
    omega
  rw [lineEnd_some (by omega) (indexOf_segment literal.free_segment front back), segment,
    announced_segment]
  dsimp only
  rw [whole]
  simp only [Nat.add_lt_add_iff_left]

/-- A literal is passed over. -/
theorem lineEnd_literal (front : Latin1) (literal : Literal) (back : Latin1) :
    lineEnd (front ++ (literal.encode ++ back)) front.length =
      lineEnd (front ++ (literal.encode ++ back)) (front ++ literal.encode).length := by
  have raw : literal.encode ++ back = literal.segment ++ (crlf ++ (literal.bytes ++ back)) := by
    simp [Literal.encode]
  have size : (front ++ literal.encode).length =
      front.length + literal.segment.length + 2 + literal.bytes.length := by
    simp only [Literal.encode, List.length_append, crlf, List.length_cons, List.length_nil]
    omega
  rw [size, raw, lineEnd_segment, if_neg]
  rw [List.length_append]
  omega

theorem lineEnd_last (front : Latin1) {last : Latin1} (free : ¬ crlf <:+: last)
    (plain : announced last = none) (back : Latin1) :
    lineEnd (front ++ (last ++ (crlf ++ back))) front.length =
      some (front.length + last.length) := by
  have segment : ((front ++ (last ++ (crlf ++ back))).take
      (front.length + last.length)).drop front.length = last := by
    rw [← List.append_assoc, List.take_left' (List.length_append ..), List.drop_left]
  have inside : front.length < (front ++ (last ++ (crlf ++ back))).length := by
    simp only [List.length_append, crlf, List.length_cons]
    omega
  rw [lineEnd_some inside (indexOf_segment free front back), segment, plain]

/-- The end of a line is found behind all its literals. -/
theorem lineEnd_line (front : Latin1) (literals : List Literal) {last : Latin1}
    (free : ¬ crlf <:+: last) (plain : announced last = none) (back : Latin1) :
    lineEnd (front ++ (literals.flatMap Literal.encode ++ (last ++ (crlf ++ back)))) front.length =
      some (front.length + (literals.flatMap Literal.encode ++ last).length) := by
  induction literals generalizing front with
  | nil => exact lineEnd_last front free plain back
  | cons literal literals ih =>
      rw [List.flatMap_cons, List.append_assoc, lineEnd_literal, ← List.append_assoc, ih]
      simp [Nat.add_assoc]

theorem tryParseLogicalLine_line (line : LogicalLine) (back : Latin1) :
    tryParseLogicalLine (line.encode ++ back) = some (line.text, back) := by
  have found : lineEnd (line.encode ++ back) 0 = some line.text.length := by
    have behind := lineEnd_line [] line.literals line.free line.plain back
    simpa [LogicalLine.encode, LogicalLine.text] using behind
  have rest : (line.encode ++ back).drop (line.text.length + 2) = back :=
    List.drop_left' (by simp [LogicalLine.encode, crlf])
  rw [tryParseLogicalLine, found, Option.map_some, rest, LogicalLine.encode, List.append_assoc,
    List.take_left]

/-! ## Incomplete lines -/

/-- What has been read of a segment and of its line break has no line break. -/
theorem free_of_short {segment part back : Latin1} (free : ¬ crlf <:+: segment)
    (starts : part <+: segment ++ (crlf ++ back)) (short : part.length < segment.length + 2) :
    ¬ crlf <:+: part := by
  rintro ⟨before, after, rfl⟩
  obtain ⟨rest, split⟩ := starts
  rw [List.append_assoc] at split
  have least := (Search.dropInfix?_eq_some.mp (dropInfix?_segment free back)).2 _ _ split.symm
  simp only [List.length_append, crlf, List.length_cons] at short
  omega

/-- The line break behind the last segment has not been read. -/
theorem lineEnd_incomplete (front : Latin1) (literals : List Literal) {last part : Latin1}
    (free : ¬ crlf <:+: last)
    (starts : part <+: literals.flatMap Literal.encode ++ (last ++ crlf))
    (short : part.length < (literals.flatMap Literal.encode ++ (last ++ crlf)).length) :
    lineEnd (front ++ part) front.length = none := by
  induction literals generalizing front part with
  | nil =>
      rw [List.flatMap_nil, List.nil_append] at starts short
      rw [← List.append_nil crlf] at starts
      rw [List.length_append] at short
      exact lineEnd_none (indexOf_none (free_of_short free starts short) front)
  | cons literal literals ih =>
      rw [List.flatMap_cons, List.append_assoc] at starts short
      rw [Literal.encode, List.append_assoc, List.append_assoc] at starts
      rcases Nat.lt_or_ge part.length (literal.segment.length + 2) with early | late
      · exact lineEnd_none (indexOf_none (free_of_short literal.free_segment starts early) front)
      · rw [← List.append_assoc literal.segment] at starts
        obtain ⟨read, rfl⟩ : literal.segment ++ crlf <+: part :=
          List.prefix_of_prefix_length_le (List.prefix_append _ _) starts
            (by simpa [crlf] using late)
        rw [List.prefix_append_right_inj] at starts
        rcases Nat.lt_or_ge read.length literal.bytes.length with cut | whole
        · rw [List.append_assoc, lineEnd_segment, if_pos cut]
        · obtain ⟨more, rfl⟩ : literal.bytes <+: read :=
            List.prefix_of_prefix_length_le (List.prefix_append _ _) starts whole
          rw [List.prefix_append_right_inj] at starts
          have raw : literal.segment ++ crlf ++ (literal.bytes ++ more) =
              literal.encode ++ more := by
            simp [Literal.encode]
          rw [raw, List.length_append, List.length_append, Nat.add_lt_add_iff_left] at short
          rw [raw, lineEnd_literal, ← List.append_assoc]
          exact ih _ starts short

/-! ## Any chunks -/

/-- What a buffer gives which begins with some lines, or with a part of the first one. -/
theorem tryParseLogicalLine_of_starts {buf : Latin1} {lines : List LogicalLine}
    (starts : buf <+: encodeAll lines) :
    tryParseLogicalLine buf = lines.head?.bind fun next =>
      if next.encode <+: buf then some (next.text, buf.drop next.encode.length) else none := by
  cases lines with
  | nil =>
      rw [List.prefix_nil.mp starts, tryParseLogicalLine, lineEnd]
      rfl
  | cons next lines =>
      rw [List.head?_cons, Option.bind_some]
      split_ifs with whole
      · obtain ⟨rest, rfl⟩ := whole
        rw [tryParseLogicalLine_line, List.drop_left]
      · have short : buf.length < next.encode.length := by
          by_contra long
          exact whole (List.prefix_of_prefix_length_le (List.prefix_append _ _) starts
            (Nat.le_of_not_lt long))
        have part : buf <+: next.encode := List.prefix_of_prefix_length_le starts
          (List.prefix_append _ _) short.le
        rw [LogicalLine.encode, LogicalLine.text, List.append_assoc] at part short
        have none := lineEnd_incomplete [] next.literals next.free part short
        rw [tryParseLogicalLine]
        exact Option.map_eq_none_iff.mpr none

theorem run_append_singleton (events : List Event) (event : Event) :
    run (events ++ [event]) = (run events).step event := by
  rw [run, run, List.foldl_append]
  rfl

theorem received_append (events more : List Event) :
    received (events ++ more) = received events ++ received more := List.flatMap_append

theorem encodeAll_take_append (lines : List LogicalLine) (k : Nat) :
    encodeAll (lines.take k) ++ encodeAll (lines.drop k) = encodeAll lines := by
  rw [encodeAll, encodeAll, ← List.flatMap_append, List.take_append_drop, encodeAll]

/-- The lines which have been returned, and the buffer, are what has arrived. -/
def Framed (lines : List LogicalLine) (client : Client) (arrived : Latin1) (k : Nat) : Prop :=
  k ≤ lines.length ∧ client.lines = (lines.take k).map LogicalLine.text ∧
    encodeAll (lines.take k) ++ client.buf = arrived

/-- The buffer begins with the next lines. -/
theorem Framed.starts {lines : List LogicalLine} {client : Client} {arrived : Latin1} {k : Nat}
    (framed : Framed lines client arrived k) (arrive : arrived <+: encodeAll lines) :
    client.buf <+: encodeAll (lines.drop k) := by
  rw [← framed.2.2, ← encodeAll_take_append lines k] at arrive
  exact (List.prefix_append_right_inj _).mp arrive

/-- What a parse returns is the next line, once it is whole. -/
theorem Framed.parse {lines : List LogicalLine} {client : Client} {arrived : Latin1} {k : Nat}
    (framed : Framed lines client arrived k) (arrive : arrived <+: encodeAll lines) :
    tryParseLogicalLine client.buf = lines[k]?.bind fun next =>
      if next.encode <+: client.buf then some (next.text, client.buf.drop next.encode.length)
      else none := by
  rw [tryParseLogicalLine_of_starts (framed.starts arrive), List.head?_drop]

/-- A parse returns a whole line. -/
theorem Framed.next {lines : List LogicalLine} {client : Client} {arrived : Latin1} {k : Nat}
    (framed : Framed lines client arrived k) (arrive : arrived <+: encodeAll lines)
    {line : LogicalLine} (next : lines[k]? = some line) (whole : line.encode <+: client.buf) :
    Framed lines (client.step .parse) arrived (k + 1) := by
  obtain ⟨rest, split⟩ := whole
  have parsed := framed.parse arrive
  rw [next, Option.bind_some, if_pos ⟨rest, split⟩, ← split, List.drop_left] at parsed
  have taken : lines.take (k + 1) = lines.take k ++ [line] := by
    rw [List.take_add_one, next, Option.toList_some]
  rw [Client.step, ← split, parsed]
  refine ⟨(List.getElem?_eq_some_iff.mp next).1, ?_, ?_⟩
  · rw [taken, List.map_append, ← framed.2.1]
    rfl
  · rw [taken, ← framed.2.2, ← split, encodeAll, List.flatMap_append]
    simp [encodeAll]

theorem Framed.step {lines : List LogicalLine} {client : Client} {arrived : Latin1} {k : Nat}
    (framed : Framed lines client arrived k) (event : Event)
    (arrive : arrived ++ received [event] <+: encodeAll lines) :
    ∃ k, Framed lines (client.step event) (arrived ++ received [event]) k := by
  cases event with
  | chunk more =>
      refine ⟨k, framed.1, framed.2.1, ?_⟩
      rw [← framed.2.2, Client.step, List.append_assoc]
      simp [received]
  | parse =>
      have same : arrived ++ received [Event.parse] = arrived := List.append_nil arrived
      rw [same] at arrive ⊢
      by_cases ready : ∃ line, lines[k]? = some line ∧ line.encode <+: client.buf
      · obtain ⟨line, next, whole⟩ := ready
        exact ⟨k + 1, framed.next arrive next whole⟩
      · have parsed : tryParseLogicalLine client.buf = none := by
          rw [framed.parse arrive, Option.bind_eq_none_iff]
          intro line next
          exact if_neg fun whole => ready ⟨line, next, whole⟩
        rw [Client.step, parsed]
        exact ⟨k, framed⟩

theorem framed_run {lines : List LogicalLine} {events : List Event}
    (arrive : received events <+: encodeAll lines) :
    ∃ k, Framed lines (run events) (received events) k := by
  induction events using List.reverseRecOn with
  | nil => exact ⟨0, Nat.zero_le _, rfl, rfl⟩
  | append_singleton events event ih =>
      rw [received_append] at arrive ⊢
      obtain ⟨k, framed⟩ := ih ((List.prefix_append _ _).trans arrive)
      rw [run_append_singleton]
      exact framed.step event arrive

/-- Once all the bytes have arrived, each parse returns a line until none is left. -/
theorem Framed.drain {lines : List LogicalLine} {client : Client} {k : Nat}
    (framed : Framed lines client (encodeAll lines) k) {n : Nat} (enough : lines.length ≤ k + n) :
    (List.replicate n Event.parse).foldl Client.step client =
      { buf := [], lines := lines.map LogicalLine.text } := by
  have bytes := framed.2.2
  rw [← encodeAll_take_append lines k, List.append_cancel_left_eq] at bytes
  induction n generalizing client k with
  | zero =>
      have all : lines.length ≤ k := enough
      rw [List.drop_of_length_le all] at bytes
      have returned := framed.2.1
      rw [List.take_of_length_le all] at returned
      exact congrArg₂ Client.mk bytes returned
  | succ n ih =>
      rw [List.replicate_succ, List.foldl_cons]
      cases next : lines[k]? with
      | none =>
          have idle : client.step .parse = client := by
            rw [Client.step, framed.parse List.prefix_rfl, next]
            rfl
          rw [idle]
          exact ih framed (by have := List.getElem?_eq_none_iff.mp next; omega) bytes
      | some line =>
          have whole : line.encode <+: client.buf := by
            rw [bytes, List.drop_eq_getElem?_toList_append, next]
            exact List.prefix_append _ _
          have returned := framed.next List.prefix_rfl next whole
          have rest := returned.2.2
          rw [← encodeAll_take_append lines (k + 1), List.append_cancel_left_eq] at rest
          exact ih returned (by omega) rest

/-! ## The literal of a line -/

theorem stripWord_suffix {word text rest : Latin1} (strips : stripWord word text = some rest) :
    rest <:+ text := by
  rw [stripWord] at strips
  split_ifs at strips
  cases strips
  exact List.drop_suffix _ _

/-- The braces of a header stand behind its words. -/
theorem number_suffix {text digits behind : Latin1}
    (matched : number text = some (digits, behind)) :
    '{' :: (digits ++ '}' :: behind) <:+ text ∧ ∀ c ∈ digits, c.isDigit = true := by
  unfold number at matched
  split at matched
  · next text =>
    split at matched
    · next behind rest =>
      split_ifs at matched
      cases matched
      refine ⟨⟨[' '], ?_⟩, fun c member => List.all_eq_true.mp List.all_takeWhile c member⟩
      rw [← rest, List.takeWhile_append_dropWhile]
      rfl
    · cases matched
  · cases matched

theorem headerAt_suffix {text digits behind : Latin1}
    (matched : headerAt text = some (digits, behind)) :
    '{' :: (digits ++ '}' :: behind) <:+ text ∧ ∀ c ∈ digits, c.isDigit = true := by
  obtain ⟨behindBody, body, matched⟩ := Option.bind_eq_some_iff.mp matched
  obtain ⟨behindPart, part, matched⟩ := Option.bind_eq_some_iff.mp matched
  obtain ⟨suffix, numeric⟩ := number_suffix matched
  have behindPeek : (stripWord ".PEEK".toList behindBody).getD behindBody <:+ behindBody := by
    cases peek : stripWord ".PEEK".toList behindBody with
    | none => exact List.suffix_rfl
    | some rest => exact stripWord_suffix peek
  have afterPart : behindPart <:+ (stripWord ".PEEK".toList behindBody).getD behindBody := by
    rcases Option.or_eq_some_iff.mp part with whole | ⟨-, text⟩
    · exact stripWord_suffix whole
    · exact stripWord_suffix text
  exact ⟨suffix.trans (afterPart.trans (behindPeek.trans (stripWord_suffix body))), numeric⟩

theorem exec_suffix {raw digits behind : Latin1} (matched : exec raw = some (digits, behind)) :
    '{' :: (digits ++ '}' :: behind) <:+ raw ∧ ∀ c ∈ digits, c.isDigit = true := by
  induction raw with
  | nil => cases matched
  | cons c raw ih =>
      rw [exec] at matched
      rcases Option.or_eq_some_iff.mp matched with here | ⟨-, later⟩
      · exact headerAt_suffix here
      · exact ⟨(ih later).1.trans (List.suffix_cons c raw), (ih later).2⟩

/-- There is no brace among digits. -/
theorem eq_of_brace {digits between more : Latin1} (numeric : ∀ c ∈ digits, c.isDigit = true)
    (split : '{' :: digits = between ++ '{' :: more) : digits = more := by
  cases between with
  | nil => exact (List.cons.inj split).2
  | cons first between =>
      have member : '{' ∈ digits := by
        rw [(List.cons.inj split).2]
        exact List.mem_append_right between List.mem_cons_self
      exact absurd (numeric '{' member) (by decide)

/-- The digits behind the last brace of a text. -/
theorem digits_unique {front other digits more : Latin1}
    (numeric : ∀ c ∈ digits, c.isDigit = true) (numerals : ∀ c ∈ more, c.isDigit = true)
    (same : front ++ '{' :: digits = other ++ '{' :: more) : digits = more := by
  rcases List.append_eq_append_iff.mp same with ⟨between, -, split⟩ | ⟨between, -, split⟩
  · exact eq_of_brace numeric split
  · exact (eq_of_brace numerals split).symm

theorem extractImapLiteral_header {line : LogicalLine} {literal : Literal}
    (header : HeaderOf line literal) : extractImapLiteral line.text = some literal.bytes := by
  obtain ⟨front, back, digits, literals, matched⟩ := header
  obtain ⟨⟨before, split⟩, numeric⟩ := exec_suffix matched
  have text : line.text = (front.flatMap Literal.encode ++ literal.text) ++ '{' :: literal.digits ++
      '}' :: (crlf ++ (literal.bytes ++ (back.flatMap Literal.encode ++ line.last))) := by
    simp [LogicalLine.text, literals, Literal.encode, Literal.segment]
  have whole : before ++ '{' :: digits ++
      '}' :: (crlf ++ (literal.bytes ++ (back.flatMap Literal.encode ++ line.last))) =
      line.text := by
    rw [← split, List.append_assoc]
    rfl
  have same : before ++ '{' :: digits =
      (front.flatMap Literal.encode ++ literal.text) ++ '{' :: literal.digits :=
    List.append_cancel_right (whole.trans text)
  rw [extractImapLiteral, matched, Option.map_some]
  dsimp only
  rw [if_pos (List.prefix_append _ _), digits_unique numeric literal.number same, literal.size]
  exact congrArg some (List.take_left)

/-! ## Any lines and reads -/

/-- However the bytes of some lines arrive, the parses return the lines in their order, each as
soon as it is whole, and leave the bytes behind them; the literal of a header is found. -/
theorem imap_framing (lines : List LogicalLine) :
    (∀ events, received events <+: encodeAll lines →
      ∃ k ≤ lines.length, (run events).lines = (lines.take k).map LogicalLine.text ∧
        encodeAll (lines.take k) ++ (run events).buf = received events ∧
        tryParseLogicalLine (run events).buf = lines[k]?.bind fun next =>
          if next.encode <+: (run events).buf then
            some (next.text, (run events).buf.drop next.encode.length)
          else none) ∧
    (∀ events n, received events = encodeAll lines → lines.length ≤ n →
      run (events ++ List.replicate n .parse) =
        { buf := [], lines := lines.map LogicalLine.text }) ∧
    ∀ line ∈ lines, ∀ literal, HeaderOf line literal →
      extractImapLiteral line.text = some literal.bytes := by
  refine ⟨fun events arrive => ?_, fun events n all enough => ?_, fun line _ literal header =>
    extractImapLiteral_header header⟩
  · obtain ⟨k, framed⟩ := framed_run arrive
    exact ⟨k, framed.1, framed.2.1, framed.2.2, framed.parse arrive⟩
  · obtain ⟨k, framed⟩ := framed_run (all ▸ List.prefix_rfl : received events <+: encodeAll lines)
    rw [all] at framed
    rw [run, List.foldl_append]
    exact framed.drain (by omega)

/-- A literal with a line break and braces, announced with a leading zero. -/
def bodyLiteral : Literal where
  text := "* 1 FETCH (BODY[] ".toList
  digits := "05".toList
  bytes := "\r\n\x7b3\x7d".toList
  free := by decide
  nonempty := by decide
  number := List.all_eq_true.mp (by decide)
  size := by decide

def fetchLine : LogicalLine := ⟨[bodyLiteral], ")".toList, by decide, by decide⟩

def okLine : LogicalLine := ⟨[], "a1 OK".toList, by decide, by decide⟩

/-- Reads which split the braces, the line break and the literal. -/
def reads : List Event :=
  [.chunk "* 1 FETCH (BODY[] \x7b0".toList, .parse, .chunk "5\x7d\r".toList, .parse,
    .chunk "\n\r\n".toList, .parse, .chunk "\x7b3\x7d)\r\na1".toList, .parse,
    .chunk " OK\r\n".toList]

theorem received_reads : received reads = encodeAll [fetchLine, okLine] := by decide

theorem headerOf_bodyLiteral : HeaderOf fetchLine bodyLiteral :=
  ⟨[], [], "05".toList, rfl, by decide⟩

/-- Some of the lines are returned behind the fourth read, and both in the end. -/
theorem split_reads :
    (∃ k ≤ 2, (run (reads.take 8)).lines = ([fetchLine, okLine].take k).map LogicalLine.text) ∧
    run (reads ++ [.parse, .parse]) = { buf := [], lines := [fetchLine.text, okLine.text] } ∧
    extractImapLiteral fetchLine.text = some "\r\n\x7b3\x7d".toList := by
  obtain ⟨anytime, drained, literals⟩ := imap_framing [fetchLine, okLine]
  obtain ⟨k, few, returned, -⟩ := anytime (reads.take 8) (by decide)
  exact ⟨⟨k, few, returned⟩, drained reads 2 received_reads le_rfl,
    literals fetchLine List.mem_cons_self bodyLiteral headerOf_bodyLiteral⟩

end Imap
end Steam
end DotaCollector
