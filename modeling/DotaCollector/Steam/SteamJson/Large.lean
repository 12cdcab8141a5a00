import DotaCollector.Steam.SteamJson.Layouts

/-!
# Large integers in JSON values

A parsed text is to have its large integers as strings wherever they are elements of arrays or
values of members, and to be the same elsewhere. The replacement does this except where two such
integers are neighbours in an array, and except where a string is written like a match.
-/

namespace DotaCollector
namespace Steam
namespace SteamJson

open JsonText

/-! ## What is asked for -/

/-- The digits of a large integer. -/
def large : Tree → Option Text
  | .scalar word => if isLarge word then some word else none
  | _ => none

mutual

/-- A tree with every large integer in an array or an object as a string. -/
def safe : Tree → Tree
  | .scalar word => .scalar word
  | .string quoted => .string quoted
  | .array items => .array (safeItems items)
  | .object members => .object (safeMembers members)

def safeItems : List Tree → List Tree
  | [] => []
  | item :: items =>
      (match large item with
        | some digits => .string ⟨digits, digits⟩
        | none => safe item) :: safeItems items

def safeMembers : List (Quoted × Tree) → List (Quoted × Tree)
  | [] => []
  | (key, value) :: members =>
      (key, match large value with
        | some digits => .string ⟨digits, digits⟩
        | none => safe value) :: safeMembers members

end

mutual

/-- No array which the value keeps has two large integers next to each other. -/
def Apart : Tree → Prop
  | .scalar _ => True
  | .string _ => True
  | .array items => ItemsApart items
  | .object members => MembersApart members

def ItemsApart : List Tree → Prop
  | [] => True
  | item :: items =>
      Apart item ∧ ((large item).isSome → ∀ next ∈ items.head?, large next = none) ∧
        ItemsApart items

def MembersApart : List (Quoted × Tree) → Prop
  | [] => True
  | (key, value) :: members =>
      (key.content ∉ members.map (·.1.content) → Apart value) ∧ MembersApart members

end

/-! ## The replacement on trees -/

mutual

/-- The tree of a text behind the replacement. -/
def rewritten : Tree → Tree
  | .scalar word => .scalar word
  | .string quoted => .string quoted
  | .array items => .array (rewrittenItems true items)
  | .object members => .object (rewrittenMembers members)

/-- The flag says whether the mark in front of the first item may begin a match. -/
def rewrittenItems : Bool → List Tree → List Tree
  | _, [] => []
  | free, item :: items =>
      match large item, free with
      | some digits, true => .string ⟨digits, digits⟩ :: rewrittenItems false items
      | _, _ => rewritten item :: rewrittenItems true items

def rewrittenMembers : List (Quoted × Tree) → List (Quoted × Tree)
  | [] => []
  | (key, value) :: members =>
      (key, match large value with
        | some digits => .string ⟨digits, digits⟩
        | none => rewritten value) :: rewrittenMembers members

end

theorem large_eq_some {tree : Tree} {digits : Text} (big : large tree = some digits) :
    tree = .scalar digits ∧ isLarge digits = true := by
  cases tree with
  | scalar word =>
      rw [large] at big
      split_ifs at big with long
      cases big
      exact ⟨rfl, long⟩
  | string quoted => cases big
  | array items => cases big
  | object members => cases big

/-- What stands in front of the tokens of a tree which is no large integer begins no match. -/
theorem not_hit {tree : Tree} (small : large tree = none) (mark : Mark) (rest : List Token) :
    ¬ Hit (.mark mark :: (tree.tokens ++ rest)) := by
  rintro ⟨lead, word, trail, more, same, -, long, -⟩
  rcases tree with other | quoted | (_ | ⟨item, items⟩) | (_ | ⟨⟨key, value⟩, members⟩)
  · cases same
    rw [large, if_pos long] at small
    cases small
  all_goals cases same

theorem quoteTokens_large {lead trail : Mark} {digits : Text} {tree : Tree}
    (begins : lead ∈ leadMarks) (big : large tree = some digits) (ends : trail ∈ trailMarks) (rest : List Token) :
    quoteTokens true (.mark lead :: (tree.tokens ++ .mark trail :: rest)) =
      .mark lead :: .string ⟨digits, digits⟩ :: quoteTokens false (.mark trail :: rest) := by
  obtain ⟨rfl, long⟩ := large_eq_some big
  exact quoteTokens_hit begins long ends rest

/-- The tokens of a tree are replaced by those of the rewritten one. -/
def Rewrites (tree : Tree) : Prop :=
  ∀ rest, quoteTokens true (tree.tokens ++ rest) = (rewritten tree).tokens ++ quoteTokens true rest

theorem quoteTokens_small {tree : Tree} (rewrites : Rewrites tree) {free : Bool}
    (small : free = true → large tree = none) (mark : Mark) (rest : List Token) :
    quoteTokens free (.mark mark :: (tree.tokens ++ rest)) =
      .mark mark :: ((rewritten tree).tokens ++ quoteTokens true rest) := by
  rw [quoteTokens_cons fun starts => not_hit (small starts) mark rest, rewrites rest]

theorem rewrittenItems_large {item : Tree} {digits : Text} (big : large item = some digits)
    (items : List Tree) :
    rewrittenItems true (item :: items) =
      .string ⟨digits, digits⟩ :: rewrittenItems false items := by
  simp [rewrittenItems, big]

theorem rewrittenItems_small {item : Tree} {free : Bool} (small : free = true → large item = none)
    (items : List Tree) :
    rewrittenItems free (item :: items) = rewritten item :: rewrittenItems true items := by
  cases free with
  | true => simp [rewrittenItems, small rfl]
  | false => cases big : large item <;> simp [rewrittenItems]

/-- The tokens of the items of an array and of its end. -/
def elementTokens : List Tree → List Token
  | [] => [.mark .closeArray]
  | item :: items => item.tokens ++ itemTokens items

theorem itemTokens_cons (item : Tree) (items : List Tree) :
    itemTokens (item :: items) = .mark .comma :: elementTokens (item :: items) := by
  rw [itemTokens, elementTokens]

theorem arrayTokens_cons (item : Tree) (items : List Tree) :
    (Tree.array (item :: items)).tokens = .mark .openArray :: elementTokens (item :: items) := by
  rw [Tree.tokens, elementTokens]

theorem rewrittenItems_ne_nil (free : Bool) (item : Tree) (items : List Tree) :
    rewrittenItems free (item :: items) ≠ [] := by
  cases free <;> cases big : large item <;> simp [rewrittenItems, big]

theorem itemTokens_front (items : List Tree) (rest : List Token) :
    ∃ mark more, itemTokens items ++ rest = .mark mark :: more ∧ mark ∈ trailMarks := by
  cases items with
  | nil => exact ⟨.closeArray, rest, rfl, by decide⟩
  | cons item items => exact ⟨.comma, _, by rw [itemTokens, List.cons_append], by decide⟩

theorem quoteTokens_elements {lead : Mark} (begins : lead ∈ leadMarks) {item : Tree}
    {items : List Tree} {rest : List Token} (rewrites : Rewrites item)
    (others : ∀ free, quoteTokens free (itemTokens items ++ rest) =
      itemTokens (rewrittenItems free items) ++ quoteTokens true rest) (free : Bool) :
    quoteTokens free (.mark lead :: (elementTokens (item :: items) ++ rest)) =
      .mark lead :: (elementTokens (rewrittenItems free (item :: items)) ++
        quoteTokens true rest) := by
  rw [elementTokens, List.append_assoc]
  by_cases small : free = true → large item = none
  · rw [quoteTokens_small rewrites small, others, rewrittenItems_small small, elementTokens,
      List.append_assoc]
  · obtain ⟨rfl, some⟩ := Classical.not_imp.mp small
    obtain ⟨digits, big⟩ := Option.ne_none_iff_exists'.mp some
    obtain ⟨mark, more, front, ends⟩ := itemTokens_front items rest
    have tail := others false
    rw [front] at tail ⊢
    rw [quoteTokens_large begins big ends, tail, rewrittenItems_large big]
    rfl

theorem quoteTokens_items {items : List Tree} (rewrites : ∀ item ∈ items, Rewrites item)
    (rest : List Token) (free : Bool) :
    quoteTokens free (itemTokens items ++ rest) =
      itemTokens (rewrittenItems free items) ++ quoteTokens true rest := by
  induction items generalizing free with
  | nil => exact quoteTokens_close free (by decide) rest
  | cons item items ih =>
      rw [List.forall_mem_cons] at rewrites
      have elements := quoteTokens_elements (by decide : Mark.comma ∈ leadMarks) rewrites.1
        (ih rewrites.2) free
      rw [itemTokens_cons, List.cons_append, elements]
      obtain ⟨first, others, same⟩ :=
        List.exists_cons_of_ne_nil (rewrittenItems_ne_nil free item items)
      rw [same, itemTokens_cons]
      rfl

theorem memberTokens_front (members : List (Quoted × Tree)) (rest : List Token) :
    ∃ mark more, memberTokens members ++ rest = .mark mark :: more ∧ mark ∈ trailMarks := by
  cases members with
  | nil => exact ⟨.closeObject, rest, rfl, by decide⟩
  | cons member members => exact ⟨.comma, _, by rw [memberTokens, List.cons_append], by decide⟩

/-- The value of a member, behind its colon. -/
def rewrittenValue (value : Tree) : Tree :=
  match large value with
  | some digits => .string ⟨digits, digits⟩
  | none => rewritten value

theorem rewrittenMembers_cons (key : Quoted) (value : Tree) (members : List (Quoted × Tree)) :
    rewrittenMembers ((key, value) :: members) =
      (key, rewrittenValue value) :: rewrittenMembers members := by
  rw [rewrittenMembers, rewrittenValue]

theorem quoteTokens_key (free : Bool) (mark : Mark) (key : Quoted) (rest : List Token) :
    quoteTokens free (.mark mark :: .string key :: rest) =
      .mark mark :: .string key :: quoteTokens true rest := by
  rw [quoteTokens_mark free mark (by simp), quoteTokens_string]

theorem quoteTokens_value {value : Tree} {members : List (Quoted × Tree)} {rest : List Token}
    (rewrites : Rewrites value)
    (others : ∀ free, quoteTokens free (memberTokens members ++ rest) =
      memberTokens (rewrittenMembers members) ++ quoteTokens true rest) :
    quoteTokens true (.mark .colon :: (value.tokens ++ (memberTokens members ++ rest))) =
      .mark .colon :: ((rewrittenValue value).tokens ++
        (memberTokens (rewrittenMembers members) ++ quoteTokens true rest)) := by
  cases big : large value with
  | none =>
      rw [quoteTokens_small rewrites fun _ => big, others, rewrittenValue, big]
  | some digits =>
      obtain ⟨mark, more, front, ends⟩ := memberTokens_front members rest
      have tail := others false
      rw [front] at tail ⊢
      rw [quoteTokens_large (by decide) big ends, tail, rewrittenValue, big]
      rfl

theorem quoteTokens_members {members : List (Quoted × Tree)}
    (rewrites : ∀ member ∈ members, Rewrites member.2) (rest : List Token) (free : Bool) :
    quoteTokens free (memberTokens members ++ rest) =
      memberTokens (rewrittenMembers members) ++ quoteTokens true rest := by
  induction members generalizing free with
  | nil => exact quoteTokens_close free (by decide) rest
  | cons member members ih =>
      obtain ⟨key, value⟩ := member
      rw [List.forall_mem_cons] at rewrites
      rw [rewrittenMembers_cons, memberTokens, memberTokens]
      simp only [List.cons_append, List.append_assoc]
      rw [quoteTokens_key, quoteTokens_value rewrites.1 (ih rewrites.2)]

theorem rewrites (tree : Tree) : Rewrites tree := by
  intro rest
  induction tree generalizing rest with
  | scalar word => exact quoteTokens_word true word rest
  | string quoted => exact quoteTokens_string true quoted rest
  | array items ih =>
      cases items with
      | nil =>
          have closed := quoteTokens_close true (by decide : Mark.closeArray ∉ leadMarks) rest
          rw [Tree.tokens, List.cons_append, List.cons_append, List.nil_append,
            quoteTokens_mark true .openArray (by simp), closed]
          rfl
      | cons item items =>
          rw [List.forall_mem_cons] at ih
          have elements := quoteTokens_elements (by decide : Mark.openArray ∈ leadMarks)
            (fun rest => ih.1 rest)
            (quoteTokens_items (fun item member rest => ih.2 item member rest) rest) true
          rw [arrayTokens_cons, List.cons_append, elements, rewritten]
          obtain ⟨first, others, same⟩ :=
            List.exists_cons_of_ne_nil (rewrittenItems_ne_nil true item items)
          rw [same, arrayTokens_cons]
          rfl
  | object members ih =>
      cases members with
      | nil =>
          have closed := quoteTokens_close true (by decide : Mark.closeObject ∉ leadMarks) rest
          rw [Tree.tokens, List.cons_append, List.cons_append, List.nil_append,
            quoteTokens_mark true .openObject (by simp), closed]
          rfl
      | cons member members =>
          obtain ⟨key, value⟩ := member
          rw [List.forall_mem_cons] at ih
          rw [rewritten, rewrittenMembers_cons, Tree.tokens, Tree.tokens]
          simp only [List.cons_append, List.append_assoc]
          rw [quoteTokens_key, quoteTokens_value (fun rest => ih.1 rest)
            (quoteTokens_members (fun member inside rest => ih.2 member inside rest) rest)]

/-- Where all strings are clean, the replacement rewrites the tree. -/
theorem read_replace {text : Text} {tree : Tree} (valid : read text = some tree)
    (clean : ∀ quoted, .string quoted ∈ tree.tokens → Clean quoted) :
    read (replace text) = some (rewritten tree) := by
  have layout := (course_of_layout (read_eq_some.mp valid)).layout clean
  have tokens := rewrites tree []
  rw [List.append_nil, quoteTokens, List.append_nil] at tokens
  rw [tokens] at layout
  exact read_eq_some.mpr layout

/-- Where a string is not clean, the text cannot be parsed any more. -/
theorem read_replace_broken {text : Text} {tree : Tree} (valid : read text = some tree)
    {quoted : Quoted} (member : .string quoted ∈ tree.tokens) (unclean : ¬ Clean quoted) :
    read (replace text) = none := by
  have broken := (course_of_layout (read_eq_some.mp valid)).broken member unclean
  refine Option.eq_none_iff_forall_ne_some.mpr fun other found => ?_
  exact broken _ (read_eq_some.mp found) (isChain_tokens other)

/-! ## Values -/

section Values

variable {Number : Type} (number : Text → Number)

theorem scalarValue_ne_string (word content : Text) :
    scalarValue number word ≠ .string content := by
  rw [scalarValue]
  split_ifs <;> exact nofun

/-- The rewritten tree has the value which is asked for. -/
def Meets (tree : Tree) : Prop :=
  (rewritten tree).value number = (safe tree).value number ↔ Apart tree

theorem safeItems_cons (item : Tree) (items : List Tree) :
    safeItems (item :: items) = (match large item with
      | some digits => .string ⟨digits, digits⟩
      | none => safe item) :: safeItems items := by
  rw [safeItems]

theorem itemValues_rewritten {items : List Tree} (meets : ∀ item ∈ items, Meets number item)
    (free : Bool) :
    itemValues number (rewrittenItems free items) = itemValues number (safeItems items) ↔
      ItemsApart items ∧ (free = false → ∀ item ∈ items.head?, large item = none) := by
  induction items generalizing free with
  | nil =>
      cases free <;> simp [rewrittenItems, safeItems, ItemsApart]
  | cons item items ih =>
      rw [List.forall_mem_cons] at meets
      have tail := ih meets.2
      cases big : large item with
      | none =>
          have first : (rewritten item).value number = (safe item).value number ↔ Apart item :=
            meets.1
          rw [rewrittenItems_small (fun _ => big), safeItems_cons, big, itemValues, itemValues,
            List.cons.injEq, first, tail true]
          simp [ItemsApart, big]
      | some digits =>
          obtain ⟨rfl, -⟩ := large_eq_some big
          cases free with
          | true =>
              rw [rewrittenItems_large big, safeItems_cons, big, itemValues, itemValues,
                List.cons.injEq, tail false]
              simp [ItemsApart, Apart, big, and_comm]
          | false =>
              rw [rewrittenItems_small (fun free => absurd free Bool.false_ne_true), safeItems_cons,
                big, itemValues, itemValues, List.cons.injEq, rewritten, Tree.value, Tree.value]
              simp [scalarValue_ne_string, big]

theorem keys_rewrittenMembers (members : List (Quoted × Tree)) :
    (rewrittenMembers members).map (·.1.content) = members.map (·.1.content) := by
  induction members with
  | nil => rfl
  | cons member members ih =>
      rw [rewrittenMembers_cons, List.map_cons, List.map_cons, ih]

theorem safeMembers_cons (key : Quoted) (value : Tree) (members : List (Quoted × Tree)) :
    safeMembers ((key, value) :: members) = (key, match large value with
      | some digits => .string ⟨digits, digits⟩
      | none => safe value) :: safeMembers members := by
  rw [safeMembers]

theorem keys_safeMembers (members : List (Quoted × Tree)) :
    (safeMembers members).map (·.1.content) = members.map (·.1.content) := by
  induction members with
  | nil => rfl
  | cons member members ih =>
      rw [safeMembers_cons, List.map_cons, List.map_cons, ih]

theorem properties_rewritten {members : List (Quoted × Tree)}
    (meets : ∀ member ∈ members, Meets number member.2) :
    properties number (rewrittenMembers members) = properties number (safeMembers members) ↔
      MembersApart members := by
  induction members with
  | nil => simp [rewrittenMembers, safeMembers, MembersApart]
  | cons member members ih =>
      obtain ⟨key, value⟩ := member
      rw [List.forall_mem_cons] at meets
      have tail := ih meets.2
      rw [rewrittenMembers_cons, safeMembers_cons, properties, properties, keys_rewrittenMembers,
        keys_safeMembers, MembersApart]
      by_cases later : key.content ∈ members.map (·.1.content)
      · have known := List.contains_iff_mem.mpr later
        rw [if_pos known, if_pos known, tail]
        simp [later]
      · have unknown := mt List.contains_iff_mem.mp later
        rw [if_neg unknown, if_neg unknown, List.cons.injEq, tail]
        cases big : large value with
        | none =>
            have first : (rewritten value).value number = (safe value).value number ↔ Apart value :=
              meets.1
            rw [rewrittenValue, big, Prod.mk.injEq]
            dsimp only
            rw [first]
            simp [later]
        | some digits =>
            obtain ⟨rfl, -⟩ := large_eq_some big
            rw [rewrittenValue, big]
            simp [Apart]

theorem meets (tree : Tree) : Meets number tree := by
  induction tree with
  | scalar word => exact ⟨fun _ => trivial, fun _ => rfl⟩
  | string quoted => exact ⟨fun _ => trivial, fun _ => rfl⟩
  | array items ih =>
      have items := itemValues_rewritten number ih true
      rw [Meets, rewritten, safe, Tree.value, Tree.value, JsonText.Value.array.injEq, items, Apart]
      simp
  | object members ih =>
      rw [Meets, rewritten, safe, Tree.value, Tree.value, JsonText.Value.object.injEq,
        properties_rewritten number ih, Apart]

end Values

/-! ## When the text is parsed as asked for -/

/-- A JSON text is parsed as asked for if and only if no string in it is written like a match, and
no array in its value has two large integers next to each other. -/
theorem parseSteamJson_eq_iff {Number : Type} (number : Text → Number) {text : Text} {tree : Tree}
    (valid : read text = some tree) :
    parseSteamJson number text = some ((safe tree).value number) ↔
      (∀ quoted ∈ strings tree.tokens, Clean quoted) ∧ Apart tree := by
  by_cases clean : ∀ quoted ∈ strings tree.tokens, Clean quoted
  · have read := read_replace valid fun quoted member => clean quoted (mem_strings.mpr member)
    have values : (rewritten tree).value number = (safe tree).value number ↔ Apart tree :=
      meets number tree
    rw [parseSteamJson, JsonText.parse, read, Option.map_some, Option.some.injEq, values]
    exact ⟨fun apart => ⟨clean, apart⟩, fun both => both.2⟩
  · obtain ⟨quoted, unclean⟩ := not_forall.mp clean
    obtain ⟨member, unclean⟩ := Classical.not_imp.mp unclean
    rw [parseSteamJson, JsonText.parse, read_replace_broken valid (mem_strings.mp member) unclean]
    exact ⟨fun same => (nomatch same), fun both => absurd (both.1 quoted member) unclean⟩

/-- Large integers in an object and in an array, a negative one and a fraction. -/
def account : Text :=
  ascii "\x7b\"id\": 76561198000000000, \"n\": [1234567890123456 , -1234567890123456, 0.5e3]\x7d"

def accountTree : Tree :=
  .object [
    (⟨ascii "id", ascii "id"⟩, .scalar (ascii "76561198000000000")),
    (⟨ascii "n", ascii "n"⟩, .array [.scalar (ascii "1234567890123456"),
      .scalar (ascii "-1234567890123456"), .scalar (ascii "0.5e3")])]

theorem read_account : read account = some accountTree :=
  read_eq_some.mpr (lex_eq_some.mp (by decide +kernel))

theorem account_parsed :
    parseSteamJson (fun word => word) account =
      some ((safe accountTree).value fun word => word) := by
  have apart : Apart accountTree :=
    ⟨fun _ => trivial, fun _ =>
      ⟨trivial, fun _ next head => by cases head; decide,
        trivial, fun big => absurd big (by decide),
        trivial, fun big => absurd big (by decide), trivial⟩, trivial⟩
  exact (parseSteamJson_eq_iff _ read_account).mpr ⟨by decide +kernel, apart⟩

/-- Two large integers next to each other. -/
def neighbours : Text := ascii "[1234567890123456,1234567890123457]"

def neighboursTree : Tree :=
  .array [.scalar (ascii "1234567890123456"), .scalar (ascii "1234567890123457")]

/-- A string which is written like a match. -/
def shout : Text := ascii "[\"go: 1234567890123456,\"]"

def shoutTree : Tree :=
  .array [.string ⟨ascii "go: 1234567890123456,", ascii "go: 1234567890123456,"⟩]

theorem read_neighbours : read neighbours = some neighboursTree :=
  read_eq_some.mpr (lex_eq_some.mp (by decide +kernel))

theorem read_shout : read shout = some shoutTree :=
  read_eq_some.mpr (lex_eq_some.mp (by decide +kernel))

/-- The second neighbour stays a number, and the string is broken. -/
theorem neighbours_and_shout :
    (read neighbours = some neighboursTree ∧
      parseSteamJson (fun word => word) neighbours ≠
        some ((safe neighboursTree).value fun word => word)) ∧
    read shout = some shoutTree ∧ parseSteamJson (fun word => word) shout = none := by
  refine ⟨⟨read_neighbours, ?_⟩, read_shout, ?_⟩
  · have rewrites : read (replace neighbours) = some (.array
        [.string ⟨ascii "1234567890123456", ascii "1234567890123456"⟩,
          .scalar (ascii "1234567890123457")]) :=
      read_eq_some.mpr (lex_eq_some.mp (by decide +kernel))
    have number : scalarValue (fun word => word) (ascii "1234567890123457") =
        .number (ascii "1234567890123457") := by
      rw [scalarValue, if_neg (by decide), if_neg (by decide), if_neg (by decide)]
    rw [parseSteamJson, JsonText.parse, rewrites, Option.map_some, Tree.value, itemValues,
      itemValues, Tree.value, number]
    intro same
    cases same
  · have broken := read_replace_broken read_shout
      (mem_strings.mp (by decide +kernel : (⟨ascii "go: 1234567890123456,",
        ascii "go: 1234567890123456,"⟩ : Quoted) ∈ strings shoutTree.tokens)) (by decide +kernel)
    rw [parseSteamJson, JsonText.parse, broken]
    rfl

end SteamJson
end Steam
end DotaCollector
