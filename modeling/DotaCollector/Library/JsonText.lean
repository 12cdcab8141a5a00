import DotaCollector.Library.JsonTokens
import Mathlib.Data.List.Chain

/-!
# JSON texts and their trees

The trees of the JSON grammar, the tokens of a tree, and a reader of tokens. The reader accepts a
text exactly if the tokens of a tree are laid out in it, and returns this tree. The value of a tree
is what JavaScript makes of it.
-/

namespace JsonText

inductive Tree where
  | scalar (word : Text)
  | string (quoted : Quoted)
  | array (items : List Tree)
  | object (members : List (Quoted × Tree))

namespace Tree

@[elab_as_elim, induction_eliminator]
theorem induction {P : Tree → Prop} (scalar : ∀ word, P (.scalar word))
    (string : ∀ quoted, P (.string quoted))
    (array : ∀ items, (∀ item ∈ items, P item) → P (.array items))
    (object : ∀ members, (∀ member ∈ members, P member.2) → P (.object members)) :
    ∀ tree, P tree := by
  intro tree
  refine @Tree.rec P (fun items => ∀ item ∈ items, P item)
    (fun members => ∀ member ∈ members, P member.2) (fun member => P member.2)
    scalar string array object ?_ ?_ ?_ ?_ (fun _ _ value => value) tree
  · exact List.forall_mem_nil P
  · exact fun item items first rest => List.forall_mem_cons.mpr ⟨first, rest⟩
  · exact List.forall_mem_nil _
  · exact fun member members first rest => List.forall_mem_cons.mpr ⟨first, rest⟩

end Tree

/-! ## The tokens of a tree -/

mutual

def Tree.tokens : Tree → List Token
  | .scalar word => [.scalar word]
  | .string quoted => [.string quoted]
  | .array [] => [.mark .openArray, .mark .closeArray]
  | .array (item :: items) => .mark .openArray :: (item.tokens ++ itemTokens items)
  | .object [] => [.mark .openObject, .mark .closeObject]
  | .object ((key, value) :: members) =>
      .mark .openObject :: .string key :: .mark .colon :: (value.tokens ++ memberTokens members)

/-- The tokens behind the first item of an array. -/
def itemTokens : List Tree → List Token
  | [] => [.mark .closeArray]
  | item :: items => .mark .comma :: (item.tokens ++ itemTokens items)

/-- The tokens behind the first member of an object. -/
def memberTokens : List (Quoted × Tree) → List Token
  | [] => [.mark .closeObject]
  | (key, value) :: members =>
      .mark .comma :: .string key :: .mark .colon :: (value.tokens ++ memberTokens members)

end

/-- The strings among some tokens. -/
def strings (tokens : List Token) : List Quoted :=
  tokens.filterMap fun
    | .string quoted => some quoted
    | _ => none

theorem mem_strings {quoted : Quoted} {tokens : List Token} :
    quoted ∈ strings tokens ↔ .string quoted ∈ tokens := by
  rw [strings, List.mem_filterMap]
  constructor
  · rintro ⟨token, member, same⟩
    cases token with
    | mark mark => cases same
    | scalar word => cases same
    | string other =>
        cases same
        exact member
  · exact fun member => ⟨.string quoted, member, rfl⟩

/-- A word does not follow a string. -/
def Separate : Token → Token → Prop
  | .string _, .scalar _ => False
  | _, _ => True

theorem isChain_mark (mark : Mark) {rest : List Token} (chain : rest.IsChain Separate) :
    (.mark mark :: rest : List Token).IsChain Separate :=
  List.isChain_cons.mpr ⟨fun _ _ => trivial, chain⟩

theorem isChain_string {quoted : Quoted} {rest : List Token}
    (marked : ∀ word, rest.head? ≠ some (.scalar word)) (chain : rest.IsChain Separate) :
    (.string quoted :: rest : List Token).IsChain Separate := by
  refine List.isChain_cons.mpr ⟨fun next head => ?_, chain⟩
  cases next with
  | mark mark => trivial
  | string other => trivial
  | scalar word => exact absurd head (marked word)

/-- In front of what is no word the tokens of a tree keep words from following strings. -/
def Keeps (tree : Tree) : Prop :=
  ∀ rest : List Token, (∀ word, rest.head? ≠ some (.scalar word)) → rest.IsChain Separate →
    (tree.tokens ++ rest).IsChain Separate

theorem itemTokens_marked (items : List Tree) (rest : List Token) (word : Text) :
    (itemTokens items ++ rest).head? ≠ some (.scalar word) := by
  cases items <;> simp [itemTokens]

theorem memberTokens_marked (members : List (Quoted × Tree)) (rest : List Token) (word : Text) :
    (memberTokens members ++ rest).head? ≠ some (.scalar word) := by
  cases members <;> simp [memberTokens]

theorem isChain_itemTokens {items : List Tree} {rest : List Token}
    (keeps : ∀ item ∈ items, Keeps item) (behind : rest.IsChain Separate) :
    (itemTokens items ++ rest).IsChain Separate := by
  induction items with
  | nil => exact isChain_mark _ behind
  | cons item items ih =>
      rw [List.forall_mem_cons] at keeps
      rw [itemTokens, List.cons_append, List.append_assoc]
      exact isChain_mark _ (keeps.1 _ (itemTokens_marked items rest) (ih keeps.2))

theorem isChain_memberTokens {members : List (Quoted × Tree)} {rest : List Token}
    (keeps : ∀ member ∈ members, Keeps member.2) (behind : rest.IsChain Separate) :
    (memberTokens members ++ rest).IsChain Separate := by
  induction members with
  | nil => exact isChain_mark _ behind
  | cons member members ih =>
      rw [List.forall_mem_cons] at keeps
      have value := isChain_mark .colon (keeps.1 _ (memberTokens_marked members rest) (ih keeps.2))
      rw [memberTokens]
      simp only [List.cons_append, List.append_assoc]
      exact isChain_mark _ (isChain_string (by simp) value)

theorem keeps (tree : Tree) : Keeps tree := by
  intro rest marked behind
  induction tree generalizing rest with
  | scalar word => exact List.isChain_cons.mpr ⟨fun _ _ => trivial, behind⟩
  | string quoted => exact isChain_string marked behind
  | array items ih =>
      cases items with
      | nil => exact isChain_mark _ (isChain_mark _ behind)
      | cons item items =>
          rw [List.forall_mem_cons] at ih
          rw [Tree.tokens, List.cons_append, List.append_assoc]
          exact isChain_mark _
            (ih.1 _ (itemTokens_marked items rest) (isChain_itemTokens ih.2 behind))
  | object members ih =>
      cases members with
      | nil => exact isChain_mark _ (isChain_mark _ behind)
      | cons member members =>
          rw [List.forall_mem_cons] at ih
          have value := isChain_mark .colon
            (ih.1 _ (memberTokens_marked members rest) (isChain_memberTokens ih.2 behind))
          rw [Tree.tokens]
          simp only [List.cons_append, List.append_assoc]
          exact isChain_mark _ (isChain_string (by simp) value)

/-- In the tokens of a tree no word follows a string. -/
theorem isChain_tokens (tree : Tree) : tree.tokens.IsChain Separate := by
  have chain := keeps tree [] (by simp) .nil
  rwa [List.append_nil] at chain

/-! ## The reader -/

mutual

/-- Reads a value, and what follows it. -/
def readValue : Nat → List Token → Option (Tree × List Token)
  | 0, _ => none
  | fuel + 1, tokens =>
      match tokens with
      | .scalar word :: rest => some (.scalar word, rest)
      | .string quoted :: rest => some (.string quoted, rest)
      | .mark .openArray :: .mark .closeArray :: rest => some (.array [], rest)
      | .mark .openArray :: rest => do
          let (item, rest) ← readValue fuel rest
          let (items, rest) ← readItems fuel rest
          some (.array (item :: items), rest)
      | .mark .openObject :: .mark .closeObject :: rest => some (.object [], rest)
      | .mark .openObject :: .string key :: .mark .colon :: rest => do
          let (value, rest) ← readValue fuel rest
          let (members, rest) ← readMembers fuel rest
          some (.object ((key, value) :: members), rest)
      | _ => none

def readItems : Nat → List Token → Option (List Tree × List Token)
  | 0, _ => none
  | fuel + 1, tokens =>
      match tokens with
      | .mark .closeArray :: rest => some ([], rest)
      | .mark .comma :: rest => do
          let (item, rest) ← readValue fuel rest
          let (items, rest) ← readItems fuel rest
          some (item :: items, rest)
      | _ => none

def readMembers : Nat → List Token → Option (List (Quoted × Tree) × List Token)
  | 0, _ => none
  | fuel + 1, tokens =>
      match tokens with
      | .mark .closeObject :: rest => some ([], rest)
      | .mark .comma :: .string key :: .mark .colon :: rest => do
          let (value, rest) ← readValue fuel rest
          let (members, rest) ← readMembers fuel rest
          some ((key, value) :: members, rest)
      | _ => none

end

/-- The tree of a text which is JSON. -/
def read (text : Text) : Option Tree := do
  let tokens ← lex text.length text
  let (tree, rest) ← readValue tokens.length tokens
  if rest = [] then some tree else none

/-! ## What is read -/

/-- What is read with some fuel are the tokens of what is returned. -/
structure Reads (fuel : Nat) : Prop where
  value {tokens rest : List Token} {tree : Tree}
    (found : readValue fuel tokens = some (tree, rest)) : tokens = tree.tokens ++ rest
  items {tokens rest : List Token} {items : List Tree}
    (found : readItems fuel tokens = some (items, rest)) : tokens = itemTokens items ++ rest
  members {tokens rest : List Token} {members : List (Quoted × Tree)}
    (found : readMembers fuel tokens = some (members, rest)) : tokens = memberTokens members ++ rest

theorem Reads.value_succ {fuel : Nat} (reads : Reads fuel) {tokens rest : List Token} {tree : Tree}
    (found : readValue (fuel + 1) tokens = some (tree, rest)) : tokens = tree.tokens ++ rest := by
  unfold readValue at found
  split at found
  · cases found
    rfl
  · cases found
    rfl
  · cases found
    rfl
  · obtain ⟨⟨item, behind⟩, first, found⟩ := Option.bind_eq_some_iff.mp found
    obtain ⟨⟨others, last⟩, more, found⟩ := Option.bind_eq_some_iff.mp found
    cases found
    rw [reads.value first, reads.items more]
    simp [Tree.tokens]
  · cases found
    rfl
  · obtain ⟨⟨value, behind⟩, first, found⟩ := Option.bind_eq_some_iff.mp found
    obtain ⟨⟨others, last⟩, more, found⟩ := Option.bind_eq_some_iff.mp found
    cases found
    rw [reads.value first, reads.members more]
    simp [Tree.tokens]
  · cases found

theorem Reads.items_succ {fuel : Nat} (reads : Reads fuel) {tokens rest : List Token}
    {items : List Tree} (found : readItems (fuel + 1) tokens = some (items, rest)) :
    tokens = itemTokens items ++ rest := by
  unfold readItems at found
  split at found
  · cases found
    rfl
  · obtain ⟨⟨item, behind⟩, first, found⟩ := Option.bind_eq_some_iff.mp found
    obtain ⟨⟨others, last⟩, more, found⟩ := Option.bind_eq_some_iff.mp found
    cases found
    rw [reads.value first, reads.items more]
    simp [itemTokens]
  · cases found

theorem Reads.members_succ {fuel : Nat} (reads : Reads fuel) {tokens rest : List Token}
    {members : List (Quoted × Tree)}
    (found : readMembers (fuel + 1) tokens = some (members, rest)) :
    tokens = memberTokens members ++ rest := by
  unfold readMembers at found
  split at found
  · cases found
    rfl
  · obtain ⟨⟨value, behind⟩, first, found⟩ := Option.bind_eq_some_iff.mp found
    obtain ⟨⟨others, last⟩, more, found⟩ := Option.bind_eq_some_iff.mp found
    cases found
    rw [reads.value first, reads.members more]
    simp [memberTokens]
  · cases found

theorem reads (fuel : Nat) : Reads fuel := by
  induction fuel with
  | zero => exact ⟨nofun, nofun, nofun⟩
  | succ fuel ih => exact ⟨ih.value_succ, ih.items_succ, ih.members_succ⟩

/-! ## What can be read -/

/-- A value does not begin with the end of an array. -/
theorem tokens_ne_closeArray (tree : Tree) (more rest : List Token) :
    tree.tokens ++ more ≠ .mark .closeArray :: rest := by
  rcases tree with word | quoted | (_ | ⟨item, items⟩) | (_ | ⟨⟨key, value⟩, members⟩) <;>
    simp [Tree.tokens]

theorem readValue_openArray {tokens : List Token}
    (first : ∀ rest, tokens ≠ .mark .closeArray :: rest) (fuel : Nat) :
    readValue (fuel + 1) (.mark .openArray :: tokens) =
      (readValue fuel tokens).bind fun (item, rest) =>
        (readItems fuel rest).bind fun (items, rest) => some (.array (item :: items), rest) := by
  conv_lhs => unfold readValue
  split
  · next same => cases same
  · next same => cases same
  · next same => exact absurd (List.cons.inj same).2 (first _)
  · next same =>
    cases same
    rfl
  · next same => cases same
  · next same => cases same
  · next other _ _ => exact absurd rfl (other tokens)

/-- A value is read off the front of its tokens. -/
def Readable (tree : Tree) : Prop :=
  ∀ {fuel : Nat} (rest : List Token), tree.tokens.length ≤ fuel →
    readValue fuel (tree.tokens ++ rest) = some (tree, rest)

theorem readItems_tokens {items : List Tree} (readable : ∀ item ∈ items, Readable item)
    {fuel : Nat} (rest : List Token) (enough : (itemTokens items).length ≤ fuel) :
    readItems fuel (itemTokens items ++ rest) = some (items, rest) := by
  induction items generalizing fuel with
  | nil =>
      obtain ⟨fuel, rfl, -⟩ := exists_fuel enough
      rfl
  | cons item items ih =>
      rw [itemTokens, List.length_cons, List.length_append] at enough
      obtain ⟨fuel, rfl, fewer⟩ := exists_fuel enough
      rw [List.forall_mem_cons] at readable
      have value := readable.1 (itemTokens items ++ rest) (Nat.le_of_add_right_le fewer)
      have others := ih readable.2 (Nat.le_of_add_left_le fewer)
      simp [itemTokens, readItems, value, others]

theorem readMembers_tokens {members : List (Quoted × Tree)}
    (readable : ∀ member ∈ members, Readable member.2) {fuel : Nat} (rest : List Token)
    (enough : (memberTokens members).length ≤ fuel) :
    readMembers fuel (memberTokens members ++ rest) = some (members, rest) := by
  induction members generalizing fuel with
  | nil =>
      obtain ⟨fuel, rfl, -⟩ := exists_fuel enough
      rfl
  | cons member members ih =>
      simp only [memberTokens, List.length_cons, List.length_append] at enough
      obtain ⟨fuel, rfl, fewer⟩ := exists_fuel enough
      rw [List.forall_mem_cons] at readable
      have value := readable.1 (memberTokens members ++ rest) (by omega : _ ≤ fuel)
      have others := ih readable.2 (by omega : _ ≤ fuel)
      simp [memberTokens, readMembers, value, others]

theorem readable (tree : Tree) : Readable tree := by
  intro fuel rest enough
  induction tree generalizing fuel rest with
  | scalar word =>
      obtain ⟨fuel, rfl, -⟩ := exists_fuel enough
      rfl
  | string quoted =>
      obtain ⟨fuel, rfl, -⟩ := exists_fuel enough
      rfl
  | array items ih =>
      cases items with
      | nil =>
          obtain ⟨fuel, rfl, -⟩ := exists_fuel enough
          rfl
      | cons item items =>
          simp only [Tree.tokens, List.length_cons, List.length_append] at enough
          obtain ⟨fuel, rfl, fewer⟩ := exists_fuel enough
          rw [List.forall_mem_cons] at ih
          have value := ih.1 (itemTokens items ++ rest) (Nat.le_of_add_right_le fewer)
          have others := readItems_tokens (fun item member => ih.2 item member) rest
            (Nat.le_of_add_left_le fewer)
          rw [Tree.tokens, List.cons_append, List.append_assoc,
            readValue_openArray (tokens_ne_closeArray item _), value, Option.bind_some]
          dsimp only
          rw [others, Option.bind_some]
  | object members ih =>
      cases members with
      | nil =>
          obtain ⟨fuel, rfl, -⟩ := exists_fuel enough
          rfl
      | cons member members =>
          simp only [Tree.tokens, List.length_cons, List.length_append] at enough
          obtain ⟨fuel, rfl, fewer⟩ := exists_fuel enough
          rw [List.forall_mem_cons] at ih
          have value := ih.1 (memberTokens members ++ rest) (by omega : _ ≤ fuel)
          have others := readMembers_tokens (fun member inside => ih.2 member inside) rest
            (by omega : _ ≤ fuel)
          simp [Tree.tokens, readValue, value, others]

theorem readValue_eq_some {tokens : List Token} {tree : Tree} :
    readValue tokens.length tokens = some (tree, []) ↔ tokens = tree.tokens := by
  constructor
  · intro found
    rw [(reads _).value found, List.append_nil]
  · rintro rfl
    have found := readable tree [] le_rfl
    rwa [List.append_nil] at found

/-- A text is JSON if and only if the tokens of a tree are laid out in it. -/
theorem read_eq_some {text : Text} {tree : Tree} :
    read text = some tree ↔ Layout tree.tokens text := by
  rw [← lex_eq_some]
  constructor
  · intro found
    obtain ⟨tokens, scanned, found⟩ := Option.bind_eq_some_iff.mp found
    obtain ⟨⟨same, rest⟩, value, found⟩ := Option.bind_eq_some_iff.mp found
    dsimp only at found
    split_ifs at found with whole
    cases found
    rw [whole, readValue_eq_some] at value
    rw [scanned, value]
  · intro scanned
    rw [read, scanned]
    simp [readValue_eq_some.mpr rfl]

/-! ## Values -/

/-- A value over a type of numbers. The order in which JavaScript lists properties is left out:
they stand in the order of their last definitions. -/
inductive Value (Number : Type) where
  | null
  | bool (value : Bool)
  | number (value : Number)
  | string (content : Text)
  | array (items : List (Value Number))
  | object (properties : List (Text × Value Number))

section Values

variable {Number : Type} (number : Text → Number)

def scalarValue (word : Text) : Value Number :=
  if word = ascii "true" then .bool true
  else if word = ascii "false" then .bool false
  else if word = ascii "null" then .null
  else .number (number word)

mutual

def Tree.value : Tree → Value Number
  | .scalar word => scalarValue number word
  | .string quoted => .string quoted.content
  | .array items => .array (itemValues items)
  | .object members => .object (properties members)

def itemValues : List Tree → List (Value Number)
  | [] => []
  | item :: items => item.value :: itemValues items

/-- The last member of each name. -/
def properties : List (Quoted × Tree) → List (Text × Value Number)
  | [] => []
  | (key, value) :: members =>
      if (members.map (·.1.content)).contains key.content then properties members
      else (key.content, value.value) :: properties members

end

/-- `JSON.parse`. -/
def parse (text : Text) : Option (Value Number) := (read text).map (Tree.value number)

end Values

end JsonText
