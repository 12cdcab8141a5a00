import DotaCollector.Library.PositionalDiff
import Mathlib.Data.List.FinRange

/-!
# The timeline of the draft

During the hero selection each tick reads the heroes which the game rules show as banned and as
picked, bans first, and compares them position by position with the heroes it has last seen there.
A hero which is new at its position goes to the timeline.
-/

namespace DotaCollector
namespace Parse
namespace DraftTimeline

structure PickBan where
  hero : Int32
  isPick : Bool
  deriving DecidableEq

/-- The fields of the game rules which `pollDraft` reads. -/
structure GameRules where
  bannedHeroes : Fin 24 → Int32 := fun _ => 0
  selectedHeroes : Fin 24 → Int32 := fun _ => 0
  vecDraftHeroes : Fin 24 → Int32 := fun _ => 0
  activeTeam : Int32 := 0
  extraTimeRadiant : Int32 := 0
  extraTimeDire : Int32 := 0

/-- A row of `replay_draft`, without the columns of the job. -/
structure Draft where
  time : Int32
  tick : UInt32
  slot : Int
  accountId : UInt32
  isPick : Bool
  heroId : Int32
  team : Nat
  ord : UInt16
  clock : Int32
  extraTimeRadiant : Int32
  extraTimeDire : Int32
  deriving DecidableEq

def Draft.entry (row : Draft) : PickBan := ⟨row.heroId, row.isPick⟩

/-- What a tick finds in the session. -/
structure Poll where
  gamerules : Option GameRules
  gameState : Int32 := 2
  clock : Int32
  tick : UInt32 := 0

/-- The state of the session which `pollDraft` changes. -/
structure Session where
  draftSeen : Nat → Int32 := fun _ => 0
  draftOrd : UInt16 := 0
  draft : List Draft := []

def unzigzag32 (raw : UInt32) : Int32 := (raw >>> 1).toInt32 ^^^ -(raw &&& 1).toInt32

/-- The positive entries of an array, in its order. -/
def positive (slots : Fin 24 → Int32) (entry : Fin 24 → Int32 → PickBan) : List PickBan :=
  (List.finRange 24).filterMap fun slot =>
    if 0 < slots slot then some (entry slot (slots slot)) else none

namespace GameRules

def bans (rules : GameRules) : List PickBan :=
  positive rules.bannedHeroes fun _ hero => { hero, isPick := false }

def picks (rules : GameRules) : List PickBan :=
  positive rules.selectedHeroes fun _ hero => { hero, isPick := true }

/-- The arrays on newer patches. -/
def captainsMode (rules : GameRules) : List PickBan :=
  positive rules.vecDraftHeroes fun slot hero =>
    { hero := unzigzag32 hero.toUInt32, isPick := 7 ≤ slot.val }

def seen (rules : GameRules) : List PickBan :=
  if (rules.bans ++ rules.picks).isEmpty then rules.captainsMode else rules.bans ++ rules.picks

end GameRules

def Poll.row (poll : Poll) (rules : GameRules) (ord : UInt16) (entry : PickBan) : Draft where
  time := poll.clock
  tick := poll.tick
  slot := -1
  accountId := 0
  isPick := entry.isPick
  heroId := entry.hero
  team := if rules.activeTeam = 3 then 1 else 0
  ord
  clock := poll.clock
  extraTimeRadiant := rules.extraTimeRadiant
  extraTimeDire := rules.extraTimeDire

def Session.note (session : Session) (poll : Poll) (rules : GameRules) (place : Nat)
    (entry : PickBan) : Session where
  draftSeen := Function.update session.draftSeen place entry.hero
  draftOrd := session.draftOrd + 1
  draft := session.draft ++ [poll.row rules session.draftOrd entry]

/-- The loop over what is seen, from a position on. -/
def noteSeen (poll : Poll) (rules : GameRules) : Nat → List PickBan → Session → Session
  | _, [], session => session
  | place, entry :: seen, session =>
      if 48 ≤ place then session
      else if session.draftSeen place = entry.hero then noteSeen poll rules (place + 1) seen session
      else if entry.hero = 0 then noteSeen poll rules (place + 1) seen session
      else noteSeen poll rules (place + 1) seen (session.note poll rules place entry)

/-- The game rules which are read: those of the hero selection. -/
def Poll.read (poll : Poll) : Option GameRules :=
  if poll.gameState = 2 then poll.gamerules else none

def pollDraft (session : Session) (poll : Poll) : Session :=
  match poll.read with
  | none => session
  | some rules => noteSeen poll rules 0 rules.seen session

/-- The timeline which the ticks leave. -/
def timeline (polls : List Poll) : List Draft := (polls.foldl pollDraft {}).draft

/-! ## Properties -/

/-- The entries which the ticks read. -/
def listings (polls : List Poll) : List (List PickBan) :=
  (polls.filterMap Poll.read).map GameRules.seen

def Poll.shows (poll : Poll) (entry : PickBan) : Bool :=
  poll.read.any fun rules => entry ∈ rules.seen

/-- The arrays keep their entries, and a draft is not read from the other ones later on. -/
structure Fills (earlier later : GameRules) : Prop where
  bans : ∀ slot, 0 < earlier.bannedHeroes slot →
    later.bannedHeroes slot = earlier.bannedHeroes slot
  picks : ∀ slot, 0 < earlier.selectedHeroes slot →
    later.selectedHeroes slot = earlier.selectedHeroes slot
  captainsMode : ∀ slot, 0 < earlier.vecDraftHeroes slot →
    later.vecDraftHeroes slot = earlier.vecDraftHeroes slot
  apart : earlier.bans ++ earlier.picks = [] → earlier.captainsMode ≠ [] →
    later.bans ++ later.picks = []

/-- The timeline has one row for each entry which is shown, of the clock at which it was shown
first, and its order numbers increase. -/
structure OncePerEntry (polls : List Poll) : Prop where
  once : ∀ entry, (∃ poll ∈ polls, poll.shows entry = true) →
    ∃ row, (timeline polls).filter (·.entry = entry) = [row] ∧
      (polls.find? (·.shows entry)).map Poll.clock = some row.clock
  only : ∀ row ∈ timeline polls, ∃ poll ∈ polls, poll.shows row.entry = true
  ordered : ((timeline polls).map Draft.ord).Pairwise (· < ·)

/-! ## What is seen -/

theorem unzigzag32_ne_zero {raw : UInt32} (nonzero : raw ≠ 0) : unzigzag32 raw ≠ 0 := by
  intro zero
  rw [unzigzag32, Int32.xor_eq_zero_iff, ← UInt32.toInt32_neg] at zero
  have numbers := congrArg (fun word => word.toUInt32.toNat) zero
  simp only [UInt32.toUInt32_toInt32, UInt32.toNat_shiftRight, UInt32.toNat_neg, UInt32.toNat_and,
    UInt32.toNat_one, UInt32.size, Nat.and_one_is_mod, Nat.shiftRight_eq_div_pow, Nat.one_mod,
    Nat.pow_one] at numbers
  have bound := raw.toNat_lt
  have positive : raw.toNat ≠ 0 := fun zero => nonzero (UInt32.toNat_inj.mp zero)
  omega

theorem length_positive (slots : Fin 24 → Int32) (entry : Fin 24 → Int32 → PickBan) :
    (positive slots entry).length ≤ 24 := by
  have bound := List.length_filterMap_le
    (fun slot => if 0 < slots slot then some (entry slot (slots slot)) else none)
    (List.finRange 24)
  rwa [List.length_finRange] at bound

theorem exists_slot {slots : Fin 24 → Int32} {entry : Fin 24 → Int32 → PickBan} {found : PickBan}
    (member : found ∈ positive slots entry) :
    ∃ slot, 0 < slots slot ∧ entry slot (slots slot) = found := by
  obtain ⟨slot, -, shown⟩ := List.mem_filterMap.mp member
  split at shown
  · exact ⟨slot, ‹_›, Option.some.inj shown⟩
  · cases shown

theorem positive_sublist {earlier later : Fin 24 → Int32} (entry : Fin 24 → Int32 → PickBan)
    (kept : ∀ slot, 0 < earlier slot → later slot = earlier slot) :
    (positive earlier entry).Sublist (positive later entry) := by
  unfold positive
  induction List.finRange 24 with
  | nil => exact List.Sublist.refl []
  | cons slot slots ih =>
      by_cases shown : 0 < earlier slot
      · simp only [List.filterMap_cons, if_pos shown, kept slot shown]
        exact ih.cons_cons _
      · simp only [List.filterMap_cons, if_neg shown]
        split
        · exact ih
        · exact ih.cons _

namespace GameRules

theorem hero_ne_zero {rules : GameRules} {entry : PickBan} (member : entry ∈ rules.seen) :
    entry.hero ≠ 0 := by
  have nonzero : ∀ {hero : Int32}, 0 < hero → hero ≠ 0 := by
    rintro hero positive rfl
    exact absurd positive (by decide)
  rw [seen] at member
  split at member
  · obtain ⟨slot, shown, rfl⟩ := exists_slot member
    exact unzigzag32_ne_zero fun zero => nonzero shown (by
      simpa using congrArg UInt32.toInt32 zero)
  · rcases List.mem_append.mp member with member | member <;>
      obtain ⟨slot, shown, rfl⟩ := exists_slot member
    · exact nonzero shown
    · exact nonzero shown

theorem length_seen (rules : GameRules) : rules.seen.length ≤ 48 := by
  rw [seen]
  split
  · exact (length_positive _ _).trans (by decide)
  · rw [List.length_append]
    exact Nat.add_le_add (length_positive _ _) (length_positive _ _)

end GameRules

/-- While the arrays fill, what is seen only gains entries. -/
theorem Fills.seen_sublist {earlier later : GameRules} (fills : Fills earlier later) :
    earlier.seen.Sublist later.seen := by
  have older : (earlier.bans ++ earlier.picks).Sublist (later.bans ++ later.picks) :=
    (positive_sublist _ fills.bans).append (positive_sublist _ fills.picks)
  have newer : earlier.captainsMode.Sublist later.captainsMode :=
    positive_sublist _ fills.captainsMode
  unfold GameRules.seen
  by_cases none : earlier.bans ++ earlier.picks = []
  · rw [if_pos (List.isEmpty_iff.mpr none)]
    rcases eq_or_ne earlier.captainsMode [] with empty | shown
    · rw [empty]
      exact List.nil_sublist _
    · rw [if_pos (List.isEmpty_iff.mpr (fills.apart none shown))]
      exact newer
  · have some : later.bans ++ later.picks ≠ [] := fun empty =>
      none (List.sublist_nil.mp (empty ▸ older))
    rw [if_neg (by simpa using none), if_neg (by simpa using some)]
    exact older

/-! ## One tick -/

open PositionalDiff

variable {session : Session} {poll : Poll} {rules : GameRules} {old : List PickBan}

/-- The session has last seen these entries. -/
def Session.Shows (session : Session) (old : List PickBan) : Prop :=
  ∀ place, session.draftSeen place = (old[place]?.map PickBan.hero).getD 0

/-- The rows of entries, with order numbers from a first one on. -/
def Poll.rows (poll : Poll) (rules : GameRules) : UInt16 → List PickBan → List Draft
  | _, [] => []
  | ord, entry :: entries => poll.row rules ord entry :: poll.rows rules (ord + 1) entries

theorem succ_add_ofNat (ord : UInt16) (n : Nat) :
    ord + 1 + UInt16.ofNat n = ord + UInt16.ofNat (n + 1) := by
  rw [UInt16.ofNat_add, UInt16.add_assoc, UInt16.add_comm (UInt16.ofNat n)]
  rfl

theorem noteSeen_cons (place : Nat) (entry : PickBan) (seen : List PickBan) (session : Session)
    (room : place < 48) (nonzero : entry.hero ≠ 0) :
    noteSeen poll rules place (entry :: seen) session =
      noteSeen poll rules (place + 1) seen
        (if session.draftSeen place = entry.hero then session
          else session.note poll rules place entry) := by
  rw [noteSeen, if_neg (Nat.not_le.mpr room), if_neg nonzero]
  split_ifs <;> rfl

/-- Behind the loop each position holds the hero which was seen there. -/
theorem noteSeen_draftSeen {seen : List PickBan} (nonzero : ∀ entry ∈ seen, entry.hero ≠ 0)
    {place : Nat} (fits : place + seen.length ≤ 48) (session : Session) (spot : Nat) :
    (noteSeen poll rules place seen session).draftSeen spot =
      if place ≤ spot then (seen[spot - place]?.map PickBan.hero).getD (session.draftSeen spot)
      else session.draftSeen spot := by
  induction seen generalizing place session with
  | nil => simp [noteSeen]
  | cons entry seen ih =>
      obtain ⟨first, rest⟩ := List.forall_mem_cons.mp nonzero
      rw [List.length_cons] at fits
      rw [noteSeen_cons place entry seen session (by omega) first, ih rest (by omega)]
      have noted : (if session.draftSeen place = entry.hero then session
          else session.note poll rules place entry).draftSeen =
            Function.update session.draftSeen place entry.hero := by
        split_ifs with same
        · rw [← same, Function.update_eq_self]
        · rfl
      rw [noted]
      rcases Nat.lt_trichotomy spot place with before | rfl | behind
      · rw [if_neg (by omega), if_neg (by omega), Function.update_of_ne (Nat.ne_of_lt before)]
      · simp
      · obtain ⟨offset, rfl⟩ := Nat.exists_eq_add_of_lt behind
        rw [if_pos (by omega), if_pos (by omega), Function.update_of_ne (by omega)]
        have step : place + offset + 1 - place = place + offset + 1 - (place + 1) + 1 := by omega
        rw [step, List.getElem?_cons_succ]

/-- The loop appends a row for each change. -/
theorem noteSeen_draft {seen : List PickBan} (nonzero : ∀ entry ∈ seen, entry.hero ≠ 0)
    {place : Nat} (fits : place + seen.length ≤ 48) {session : Session}
    (shows : ∀ offset, session.draftSeen (place + offset) =
      (old[offset]?.map PickBan.hero).getD 0) :
    (noteSeen poll rules place seen session).draft = session.draft ++
        poll.rows rules session.draftOrd (changes PickBan.hero old seen) ∧
      (noteSeen poll rules place seen session).draftOrd =
        session.draftOrd + UInt16.ofNat (changes PickBan.hero old seen).length := by
  induction seen generalizing place old session with
  | nil =>
      cases old <;> simp [noteSeen, changes, Poll.rows]
  | cons entry seen ih =>
      obtain ⟨first, rest⟩ := List.forall_mem_cons.mp nonzero
      rw [List.length_cons] at fits
      have same : session.draftSeen place = entry.hero ↔
          old.head?.map PickBan.hero = some entry.hero := by
        rw [← Nat.add_zero place, shows 0, ← List.head?_eq_getElem?]
        cases old.head? with
        | none => simpa using first.symm
        | some was => simp
      have onward : ∀ offset, session.draftSeen (place + 1 + offset) =
          (old.tail[offset]?.map PickBan.hero).getD 0 := by
        intro offset
        rw [Nat.add_assoc, Nat.add_comm 1, shows, List.getElem?_tail]
      rw [noteSeen_cons place entry seen session (by omega) first, changes_cons]
      by_cases known : old.head?.map PickBan.hero = some entry.hero
      · rw [if_pos (same.mpr known), if_pos known]
        exact ih rest (by omega) onward
      · rw [if_neg (same.not.mpr known), if_neg known]
        have noted : ∀ offset, (session.note poll rules place entry).draftSeen
            (place + 1 + offset) = (old.tail[offset]?.map PickBan.hero).getD 0 := by
          intro offset
          change Function.update session.draftSeen place entry.hero (place + 1 + offset) = _
          rw [Function.update_of_ne (by omega)]
          exact onward offset
        obtain ⟨draft, ord⟩ := ih rest (by omega) noted
        refine ⟨?_, ?_⟩
        · rw [draft, Session.note, List.append_assoc]
          rfl
        · rw [ord, List.length_cons, ← succ_add_ofNat]
          rfl

/-- A tick of the hero selection reports the changes of what is seen. -/
theorem pollDraft_of_read (read : poll.read = some rules) (shows : session.Shows old)
    (longer : old.length ≤ rules.seen.length) :
    (pollDraft session poll).Shows rules.seen ∧
      (pollDraft session poll).draft = session.draft ++
        poll.rows rules session.draftOrd (changes PickBan.hero old rules.seen) ∧
      (pollDraft session poll).draftOrd =
        session.draftOrd + UInt16.ofNat (changes PickBan.hero old rules.seen).length := by
  have nonzero : ∀ entry ∈ rules.seen, entry.hero ≠ 0 := fun _ => GameRules.hero_ne_zero
  have fits : 0 + rules.seen.length ≤ 48 := (Nat.zero_add _).trans_le rules.length_seen
  have noted : pollDraft session poll = noteSeen poll rules 0 rules.seen session := by
    rw [pollDraft, read]
  rw [noted]
  refine ⟨fun place => ?_, noteSeen_draft nonzero fits fun offset => ?_⟩
  · rw [noteSeen_draftSeen nonzero fits, if_pos (Nat.zero_le place), Nat.sub_zero, shows]
    cases inside : rules.seen[place]? with
    | some entry => rfl
    | none =>
        have beyond := List.getElem?_eq_none_iff.mp inside
        rw [List.getElem?_eq_none (longer.trans beyond)]
        rfl
  · rw [Nat.zero_add, shows]

/-! ## All ticks -/

variable {polls : List Poll}

/-- The rows which the ticks append behind what was last seen. -/
def rowsFrom : UInt16 → List PickBan → List Poll → List Draft
  | _, _, [] => []
  | ord, old, poll :: polls =>
      match poll.read with
      | none => rowsFrom ord old polls
      | some rules =>
          let fresh := changes PickBan.hero old rules.seen
          poll.rows rules ord fresh ++
            rowsFrom (ord + UInt16.ofNat fresh.length) rules.seen polls

theorem listings_cons_of_none (read : poll.read = none) (polls : List Poll) :
    listings (poll :: polls) = listings polls := by
  rw [listings, List.filterMap_cons_none read]
  rfl

theorem listings_cons_of_some (read : poll.read = some rules) (polls : List Poll) :
    listings (poll :: polls) = rules.seen :: listings polls := by
  rw [listings, List.filterMap_cons_some read]
  rfl

theorem draft_foldl (grows : (old :: listings polls).IsChain List.Sublist)
    (shows : session.Shows old) :
    (polls.foldl pollDraft session).draft =
      session.draft ++ rowsFrom session.draftOrd old polls := by
  induction polls generalizing old session with
  | nil => simp [rowsFrom]
  | cons poll polls ih =>
      rw [List.foldl_cons, rowsFrom]
      cases read : poll.read with
      | none =>
          rw [listings_cons_of_none read] at grows
          have idle : pollDraft session poll = session := by rw [pollDraft, read]
          rw [idle]
          exact ih grows shows
      | some rules =>
          rw [listings_cons_of_some read] at grows
          obtain ⟨first, rest⟩ := List.isChain_cons_cons.mp grows
          obtain ⟨showsNow, draft, ord⟩ := pollDraft_of_read read shows first.length_le
          rw [ih rest showsNow, draft, ord, List.append_assoc]

theorem entry_rows (ord : UInt16) (entries : List PickBan) :
    (poll.rows rules ord entries).map Draft.entry = entries := by
  induction entries generalizing ord with
  | nil => rfl
  | cons entry entries ih =>
      rw [Poll.rows, List.map_cons, ih]
      rfl

/-- The rows are about what the comparison of the listings reports. -/
theorem entry_rowsFrom (ord : UInt16) (old : List PickBan) (polls : List Poll) :
    (rowsFrom ord old polls).map Draft.entry = reports PickBan.hero old (listings polls) := by
  induction polls generalizing ord old with
  | nil => rfl
  | cons poll polls ih =>
      rw [rowsFrom]
      cases read : poll.read with
      | none =>
          rw [listings_cons_of_none read]
          exact ih ord old
      | some rules =>
          rw [listings_cons_of_some read, reports, List.map_append, entry_rows, ih]

/-! ## The order numbers -/

def ordsFrom : UInt16 → Nat → List UInt16
  | _, 0 => []
  | ord, n + 1 => ord :: ordsFrom (ord + 1) n

theorem ordsFrom_add (ord : UInt16) (m n : Nat) :
    ordsFrom ord (m + n) = ordsFrom ord m ++ ordsFrom (ord + UInt16.ofNat m) n := by
  induction m generalizing ord with
  | zero => simp [ordsFrom]
  | succ m ih =>
      rw [Nat.add_right_comm, ordsFrom, ih, succ_add_ofNat, ordsFrom, List.cons_append]

theorem ord_rows (ord : UInt16) (entries : List PickBan) :
    (poll.rows rules ord entries).map Draft.ord = ordsFrom ord entries.length := by
  induction entries generalizing ord with
  | nil => rfl
  | cons entry entries ih =>
      rw [Poll.rows, List.map_cons, ih]
      rfl

theorem ord_rowsFrom (ord : UInt16) (old : List PickBan) (polls : List Poll) :
    (rowsFrom ord old polls).map Draft.ord =
      ordsFrom ord (reports PickBan.hero old (listings polls)).length := by
  induction polls generalizing ord old with
  | nil => rfl
  | cons poll polls ih =>
      rw [rowsFrom]
      cases read : poll.read with
      | none =>
          rw [listings_cons_of_none read]
          exact ih ord old
      | some rules =>
          rw [listings_cons_of_some read, reports, List.length_append, ordsFrom_add,
            List.map_append, ord_rows, ih]

/-- Order numbers increase until they no longer fit their word. -/
theorem pairwise_ordsFrom {ord : UInt16} {n : Nat} (fits : ord.toNat + n ≤ 65536) :
    (ordsFrom ord n).Pairwise (· < ·) ∧ ∀ later ∈ ordsFrom ord n, ord.toNat ≤ later.toNat := by
  induction n generalizing ord with
  | zero => simp [ordsFrom]
  | succ n ih =>
      rw [ordsFrom]
      rcases Nat.eq_zero_or_pos n with rfl | some
      · simp [ordsFrom]
      · have next : (ord + 1).toNat = ord.toNat + 1 := by
          rw [UInt16.toNat_add, UInt16.toNat_one]
          exact Nat.mod_eq_of_lt (by omega)
        have room : (ord + 1).toNat + n ≤ 65536 := by omega
        obtain ⟨increasing, above⟩ := ih room
        refine ⟨List.pairwise_cons.mpr ⟨fun later member => ?_, increasing⟩, ?_⟩
        · have bound := above later member
          exact UInt16.lt_iff_toNat_lt.mpr (by omega)
        · rintro later member
          rcases List.mem_cons.mp member with rfl | member
          · exact Nat.le_refl _
          · have bound := above later member
            omega

/-! ## The first clock -/

theorem clock_of_mem_rows {ord : UInt16} {entries : List PickBan} {row : Draft}
    (member : row ∈ poll.rows rules ord entries) : row.clock = poll.clock := by
  induction entries generalizing ord with
  | nil => cases member
  | cons entry entries ih =>
      rcases List.mem_cons.mp member with rfl | member
      · rfl
      · exact ih member

/-- When entries appear at the end only, each row has the clock at which its entry was shown
first. -/
theorem first_clock (ord : UInt16) (grows : (old :: listings polls).IsChain (· <+: ·))
    (distinct : ((listings polls).getLastD old).Nodup) {row : Draft}
    (member : row ∈ rowsFrom ord old polls) :
    (polls.find? (·.shows row.entry)).map Poll.clock = some row.clock := by
  induction polls generalizing ord old with
  | nil => cases member
  | cons poll polls ih =>
      rw [rowsFrom] at member
      cases read : poll.read with
      | none =>
          rw [listings_cons_of_none read] at grows distinct
          rw [read] at member
          have hidden : poll.shows row.entry = false := by rw [Poll.shows, read]; rfl
          simp only [List.find?_cons, hidden]
          exact ih ord grows distinct member
      | some rules =>
          rw [listings_cons_of_some read] at grows distinct
          rw [List.getLastD_cons] at distinct
          rw [read] at member
          obtain ⟨-, rest⟩ := List.isChain_cons_cons.mp grows
          rcases List.mem_append.mp member with now | later
          · have entry := List.mem_map_of_mem (f := Draft.entry) now
            rw [entry_rows] at entry
            have shown : poll.shows row.entry = true := by
              rw [Poll.shows, read]
              exact decide_eq_true ((changes_sublist old rules.seen).subset entry)
            simp only [List.find?_cons, shown, clock_of_mem_rows now, Option.map_some]
          · have entry := List.mem_map_of_mem (f := Draft.entry) later
            rw [entry_rowsFrom] at entry
            rw [← append_reports PickBan.hero rest] at distinct
            have hidden : poll.shows row.entry = false := by
              rw [Poll.shows, read]
              exact decide_eq_false fun shown =>
                (List.nodup_append.mp distinct).2.2 _ shown _ entry rfl
            simp only [List.find?_cons, hidden]
            exact ih _ rest (append_reports PickBan.hero rest ▸ distinct) later

/-! ## The timeline -/

theorem shown_iff {entry : PickBan} : (∃ poll ∈ polls, poll.shows entry = true) ↔
    ∃ entries ∈ listings polls, entry ∈ entries := by
  simp only [listings, List.mem_map, List.mem_filterMap, Poll.shows, Option.any_eq_true,
    decide_eq_true_eq]
  constructor
  · rintro ⟨poll, member, rules, read, shown⟩
    exact ⟨_, ⟨rules, ⟨poll, member, read⟩, rfl⟩, shown⟩
  · rintro ⟨_, ⟨rules, ⟨poll, member, read⟩, rfl⟩, shown⟩
    exact ⟨poll, member, rules, read, shown⟩

theorem listings_grow (fills : (polls.filterMap Poll.read).IsChain Fills) :
    ([] :: listings polls).IsChain List.Sublist := by
  refine List.isChain_cons.mpr ⟨fun first _ => List.nil_sublist first, ?_⟩
  exact List.isChain_map_of_isChain GameRules.seen (fun _ _ => Fills.seen_sublist) fills

theorem timeline_eq (fills : (polls.filterMap Poll.read).IsChain Fills) :
    timeline polls = rowsFrom 0 [] polls :=
  draft_foldl (listings_grow fills) fun _ => rfl

theorem count_timeline (fills : (polls.filterMap Poll.read).IsChain Fills) (entry : PickBan) :
    (reports PickBan.hero [] (listings polls)).count entry =
      ((timeline polls).filter (·.entry = entry)).length := by
  rw [timeline_eq fills, ← entry_rowsFrom 0 [] polls, List.count, List.countP_map,
    List.countP_eq_length_filter]
  congr 2

theorem last_listing (polls : List Poll) :
    (listings polls).getLastD [] = [] ∨ (listings polls).getLastD [] ∈ listings polls :=
  List.mem_cons.mp List.getLastD_mem_cons

theorem shown_of_mem_last {entry : PickBan} (member : entry ∈ (listings polls).getLastD []) :
    ∃ poll ∈ polls, poll.shows entry = true := by
  refine shown_iff.mpr ⟨_, ?_, member⟩
  refine (last_listing polls).resolve_left fun empty => ?_
  rw [empty] at member
  cases member

theorem mem_last_of_shown {entry : PickBan}
    (fills : (polls.filterMap Poll.read).IsChain Fills)
    (shown : ∃ poll ∈ polls, poll.shows entry = true) : entry ∈ (listings polls).getLastD [] := by
  obtain ⟨entries, listed, member⟩ := shown_iff.mp shown
  exact (sublist_getLastD_of_mem (listings_grow fills) listed).subset member

theorem length_last (polls : List Poll) : ((listings polls).getLastD []).length ≤ 48 := by
  rcases last_listing polls with empty | listed
  · rw [empty]
    exact Nat.zero_le 48
  · obtain ⟨rules, -, seen⟩ := List.mem_map.mp listed
    rw [← seen]
    exact rules.length_seen

/-- Where each shown entry has one row, each is reported once. -/
theorem OncePerEntry.reported_once (holds : OncePerEntry polls)
    (fills : (polls.filterMap Poll.read).IsChain Fills) :
    (reports PickBan.hero [] (listings polls)).Nodup ∧
      ∀ entry ∈ (listings polls).getLastD [],
        entry ∈ reports PickBan.hero [] (listings polls) := by
  refine ⟨List.nodup_iff_count_le_one.mpr fun entry => ?_, fun entry member => ?_⟩
  · rw [count_timeline fills]
    by_cases shown : ∃ poll ∈ polls, poll.shows entry = true
    · obtain ⟨row, only, -⟩ := holds.once entry shown
      rw [only]
      exact Nat.le_refl 1
    · have none : (timeline polls).filter (·.entry = entry) = [] := by
        refine List.filter_eq_nil_iff.mpr fun row member same => shown ?_
        rw [← of_decide_eq_true same]
        exact holds.only row member
      rw [none]
      exact Nat.zero_le 1
  · obtain ⟨row, only, -⟩ := holds.once entry (shown_of_mem_last member)
    refine List.count_pos_iff.mp ?_
    rw [count_timeline fills, only]
    exact Nat.zero_lt_one

/-- Where each entry is reported once and all appear at the end, each shown entry has one row. -/
theorem oncePerEntry_of_reports (fills : (polls.filterMap Poll.read).IsChain Fills)
    (behind : ([] :: listings polls).IsChain (· <+: ·))
    (distinct : ((listings polls).getLastD []).Nodup)
    (once : (reports PickBan.hero [] (listings polls)).Nodup)
    (all : ∀ entry ∈ (listings polls).getLastD [],
      entry ∈ reports PickBan.hero [] (listings polls)) : OncePerEntry polls := by
  have rows := timeline_eq fills
  refine ⟨fun entry shown => ?_, fun row member => ?_, ?_⟩
  · have one := List.count_eq_one_of_mem once (all entry (mem_last_of_shown fills shown))
    rw [count_timeline fills, List.length_eq_one_iff] at one
    obtain ⟨row, only⟩ := one
    obtain ⟨member, same⟩ := List.mem_filter.mp (only ▸ List.mem_singleton_self row)
    rw [← of_decide_eq_true same] at only ⊢
    rw [rows] at member
    exact ⟨row, only, first_clock 0 behind distinct member⟩
  · have reported := List.mem_map_of_mem (f := Draft.entry) member
    rw [rows, entry_rowsFrom] at reported
    exact shown_of_mem_last (mem_getLastD_of_mem_reports (listings_grow fills) reported)
  · have whole := append_reports PickBan.hero behind
    rw [rows, ord_rowsFrom, ← List.nil_append (reports _ _ _), whole]
    have short : 0 + ((listings polls).getLastD []).length ≤ 65536 := by
      have most := length_last polls
      omega
    exact (pairwise_ordsFrom short).1

/-- While the arrays fill, the timeline has exactly one row for each entry which is shown, of the
clock at which it was shown first, exactly when no entry is listed twice and each one that appears
is listed behind all which were there before: no ban appears when a pick is shown, and no slot is
filled before an earlier one. -/
theorem timeline_once_iff (fills : (polls.filterMap Poll.read).IsChain Fills) :
    OncePerEntry polls ↔
      ((listings polls).getLastD []).Nodup ∧ (listings polls).IsChain (· <+: ·) := by
  have behind : ([] :: listings polls).IsChain (· <+: ·) ↔ (listings polls).IsChain (· <+: ·) :=
    List.isChain_cons.trans (and_iff_right fun first _ => List.nil_prefix)
  have exactly := once_iff PickBan.hero (listings_grow fills)
  rw [List.nil_append, behind] at exactly
  constructor
  · intro holds
    exact exactly.mp (holds.reported_once fills)
  · rintro ⟨distinct, atEnd⟩
    obtain ⟨once, all⟩ := exactly.mpr ⟨distinct, atEnd⟩
    exact oncePerEntry_of_reports fills (behind.mpr atEnd) distinct once all

/-- The heroes 1 and 2 are banned and 5 is picked, in this order or with the pick in between. -/
def drafting (banned : Int32) (picked : Int32) (clock : Int32) : Poll where
  gamerules := some
    { bannedHeroes := fun slot => if slot = 0 then 1 else if slot = 1 then banned else 0
      selectedHeroes := fun slot => if slot = 0 then picked else 0 }
  clock

/-- All bans come before the pick. -/
theorem timeline_once_bans_first :
    OncePerEntry [drafting 0 0 10, drafting 2 0 20, drafting 2 5 30] := by
  refine (timeline_once_iff ?_).mpr (by decide)
  refine List.isChain_cons_cons.mpr ⟨⟨?_, ?_, ?_, ?_⟩, List.isChain_cons_cons.mpr
    ⟨⟨?_, ?_, ?_, ?_⟩, List.isChain_singleton _⟩⟩ <;> decide

/-- The second ban moves the pick to the next position, where it is reported again. -/
theorem pick_reported_twice :
    let polls := [drafting 0 0 10, drafting 0 5 20, drafting 2 5 30]
    (polls.filterMap Poll.read).IsChain Fills ∧
      (timeline polls).map (fun row => (row.heroId, row.isPick, row.clock)) =
        [(1, false, 10), (5, true, 20), (2, false, 30), (5, true, 30)] ∧
      ¬ OncePerEntry polls := by
  intro polls
  refine ⟨?_, by decide, fun holds => ?_⟩
  · refine List.isChain_cons_cons.mpr ⟨⟨?_, ?_, ?_, ?_⟩, List.isChain_cons_cons.mpr
      ⟨⟨?_, ?_, ?_, ?_⟩, List.isChain_singleton _⟩⟩ <;> decide
  · obtain ⟨row, only, -⟩ := holds.once ⟨5, true⟩ ⟨drafting 0 5 20, by simp [polls], by decide⟩
    have twice : ((timeline polls).filter (·.entry = ⟨5, true⟩)).length = 2 := by decide
    rw [only] at twice
    cases twice

end DraftTimeline
end Parse
end DotaCollector
