import DotaCollector.Library.FirstOccurrences
import DotaCollector.Parser.Session
import Mathlib.Data.List.Range

/-!
# Publishing the objectives of a match

The parser publishes the objectives of a replay, the worker those of a match record. Both go
through their list with the same statements: an objective which is stored already is passed over,
so is a first blood where there is one, and any other is inserted behind the greatest number.
-/

namespace DotaCollector
namespace Persist
namespace Objectives

open FirstOccurrences

/-! ## Rows -/

/-- A row of `match_objectives` of the match. -/
structure Stored where
  seq : Int
  time : Int
  kind : String
  team : Option Int
  slot : Option Int
  key : Option String
  value : Option Int
  accountId : Option Int
  playerId : Option Int
  teamId : Option Int
deriving DecidableEq

/-- The parameters of the statements. -/
structure Incoming where
  time : Int
  kind : String
  team : Option Int
  slot : Option Int
  key : Option String
  value : Option Int

/-- A row which the worker publishes. Its number is not read. -/
structure WorkerRow extends Incoming where
  seq : Int

structure PlayerLinks where
  accountId : Option Int
  playerId : Option Int
  teamId : Option Int

/-- What the `INSERT` joins: the teams of the match, and its players by `player_slot`. -/
structure Links where
  radiantTeamId : Option Int
  direTeamId : Option Int
  player : Int → Option PlayerLinks

/-- `COALESCE(max(seq), -1) + 1`. -/
def nextSeq (rows : List Stored) : Int := (rows.map Stored.seq).max?.getD (-1) + 1

def playerSlot (slot : Int) : Int :=
  if 0 ≤ slot ∧ slot ≤ 4 then slot else if 5 ≤ slot ∧ slot ≤ 9 then slot + 123 else slot

def sideTeamId (links : Links) (team : Option Int) : Option Int :=
  if team = some 0 then links.radiantTeamId
  else if team = some 1 then links.direTeamId
  else none

/-- The inserted row. -/
def inserted (links : Links) (seq : Int) (o : Incoming) : Stored :=
  let player := o.slot.bind fun slot => links.player (playerSlot slot)
  { seq, time := o.time, kind := o.kind, team := o.team, slot := o.slot, key := o.key
    value := o.value
    accountId := player.bind PlayerLinks.accountId
    playerId := player.bind PlayerLinks.playerId
    teamId := (player.bind PlayerLinks.teamId).or (sideTeamId links o.team) }

def firstBlood : String := "first_blood"

/-- The body of both loops. -/
def publishOne (links : Links) (rows : List Stored) (o : Incoming) : List Stored :=
  if rows.any fun row => row.kind = o.kind && row.time = o.time && row.key.getD "" = o.key.getD ""
  then rows
  else if o.kind = firstBlood && rows.any (·.kind = firstBlood) then rows
  else rows ++ [inserted links (nextSeq rows) o]

def nullStr (s : String) : Option String := if s = "" then none else some s

/-- What the parser's statements are given for an objective. -/
def ofObjective (o : Parse.Objective) : Incoming where
  time := o.time
  kind := o.kind
  team := o.team
  slot := o.slot
  key := nullStr o.key
  value := o.value

/-- Both sides, with the lists they publish. -/
inductive Publication where
  | parser (objectives : List Parse.Objective)
  | worker (rows : List WorkerRow)

def Publication.incoming : Publication → List Incoming
  | .parser objectives => objectives.map ofObjective
  | .worker rows => rows.map WorkerRow.toIncoming

def publishObjectives (links : Links) (rows : List Stored) (objectives : List Parse.Objective) :
    List Stored :=
  (objectives.map ofObjective).foldl (publishOne links) rows

def replaceObjectives (links : Links) (rows : List Stored) (news : List WorkerRow) : List Stored :=
  (news.map WorkerRow.toIncoming).foldl (publishOne links) rows

def Publication.run (links : Links) (rows : List Stored) : Publication → List Stored
  | .parser objectives => publishObjectives links rows objectives
  | .worker news => replaceObjectives links rows news

/-! ## Properties -/

/-- The key by which objectives are told apart. -/
abbrev Key := String × Int × String

def Stored.name (row : Stored) : Key := (row.kind, row.time, row.key.getD "")

def Incoming.name (o : Incoming) : Key := (o.kind, o.time, o.key.getD "")

/-- The numbers of the rows are 0 … n - 1. -/
def Consecutive (rows : List Stored) : Prop :=
  (rows.map Stored.seq).Perm ((List.range rows.length).map Nat.cast)

def KeysUnique (rows : List Stored) : Prop := (rows.map Stored.name).Nodup

def OneFirstBlood (rows : List Stored) : Prop := rows.countP (·.kind = firstBlood) ≤ 1

/-! ## The loops -/

/-- What the statements look for: the key, or only the kind of a first blood. -/
def ident (name : Key) : Option Key := if name.1 = firstBlood then none else some name

theorem ident_eq_iff {name other : Key} :
    ident name = ident other ↔ name = other ∨ (name.1 = firstBlood ∧ other.1 = firstBlood) := by
  rw [ident, ident]
  split_ifs with first second second
  · exact iff_of_true rfl (.inr ⟨first, second⟩)
  · refine iff_of_false (fun eq => nomatch eq) ?_
    rintro (rfl | ⟨-, both⟩)
    · exact second first
    · exact second both
  · refine iff_of_false (fun eq => nomatch eq) ?_
    rintro (rfl | ⟨both, -⟩)
    · exact first second
    · exact first both
  · rw [Option.some_inj]
    exact ⟨.inl, fun either => either.resolve_right fun both => first both.1⟩

theorem publishOne_eq (links : Links) (rows : List Stored) (o : Incoming) :
    publishOne links rows o =
      if ident o.name ∈ rows.map (ident ∘ Stored.name) then rows
      else rows ++ [inserted links (nextSeq rows) o] := by
  have same : (rows.any fun row =>
      row.kind = o.kind && row.time = o.time && row.key.getD "" = o.key.getD "") = true ↔
      ∃ row ∈ rows, row.name = o.name := by
    simp only [List.any_eq_true, Bool.and_eq_true, decide_eq_true_eq, Stored.name, Incoming.name,
      Prod.mk.injEq, and_assoc]
  have blood : (o.kind = firstBlood && rows.any (·.kind = firstBlood)) = true ↔
      o.kind = firstBlood ∧ ∃ row ∈ rows, row.kind = firstBlood := by
    simp only [Bool.and_eq_true, List.any_eq_true, decide_eq_true_eq]
  have known : ident o.name ∈ rows.map (ident ∘ Stored.name) ↔
      (∃ row ∈ rows, row.name = o.name) ∨
        (o.kind = firstBlood ∧ ∃ row ∈ rows, row.kind = firstBlood) := by
    rw [List.mem_map]
    constructor
    · rintro ⟨row, member, eq⟩
      obtain equal | ⟨rowFirst, first⟩ := ident_eq_iff.mp eq
      · exact .inl ⟨row, member, equal⟩
      · exact .inr ⟨first, row, member, rowFirst⟩
    · rintro (⟨row, member, equal⟩ | ⟨first, row, member, rowFirst⟩)
      · exact ⟨row, member, ident_eq_iff.mpr (.inl equal)⟩
      · exact ⟨row, member, ident_eq_iff.mpr (.inr ⟨rowFirst, first⟩)⟩
  by_cases duplicate : ∃ row ∈ rows, row.name = o.name
  · rw [publishOne, if_pos (same.mpr duplicate), if_pos (known.mpr (.inl duplicate))]
  · by_cases bled : o.kind = firstBlood ∧ ∃ row ∈ rows, row.kind = firstBlood
    · rw [publishOne, if_neg (mt same.mp duplicate), if_pos (blood.mpr bled),
        if_pos (known.mpr (.inr bled))]
    · rw [publishOne, if_neg (mt same.mp duplicate), if_neg (mt blood.mp bled),
        if_neg fun found => (known.mp found).elim duplicate bled]

/-- Either side adds the objectives whose identity is new. -/
theorem Publication.run_eq (links : Links) (rows : List Stored) (publication : Publication) :
    publication.run links rows =
      addNew (ident ∘ Stored.name) (ident ∘ Incoming.name)
        (fun rows o => inserted links (nextSeq rows) o) rows publication.incoming := by
  have loop (news : List Incoming) (rows : List Stored) : news.foldl (publishOne links) rows =
      addNew (ident ∘ Stored.name) (ident ∘ Incoming.name)
        (fun rows o => inserted links (nextSeq rows) o) rows news := by
    induction news generalizing rows with
    | nil => rfl
    | cons o news ih =>
        rw [List.foldl_cons, publishOne_eq, addNew, Function.comp_apply]
        split_ifs
        · exact ih rows
        · exact ih _
  cases publication with
  | parser objectives => exact loop _ rows
  | worker news => exact loop _ rows

/-! ## What an insertion keeps -/

variable {links : Links} {rows : List Stored} {o : Incoming}

theorem nextSeq_eq_length (consecutive : Consecutive rows) : nextSeq rows = rows.length := by
  rw [nextSeq]
  cases count : rows.length with
  | zero => rw [List.eq_nil_of_length_eq_zero count]; rfl
  | succ n =>
      have greatest : (rows.map Stored.seq).max? = some (n : Int) := by
        rw [List.max?_eq_some_iff]
        refine ⟨consecutive.symm.subset ?_, fun seq listed => ?_⟩
        · rw [count]
          exact List.mem_map_of_mem List.self_mem_range_succ
        · obtain ⟨k, below, rfl⟩ := List.mem_map.mp (consecutive.subset listed)
          rw [count, List.mem_range] at below
          exact Int.ofNat_le.mpr (Nat.le_of_lt_succ below)
      rw [greatest, Option.getD_some, Nat.cast_succ]

theorem consecutive_insert (consecutive : Consecutive rows) :
    Consecutive (rows ++ [inserted links (nextSeq rows) o]) := by
  rw [Consecutive, List.length_append, List.length_singleton, List.range_succ, List.map_append,
    List.map_append, nextSeq_eq_length consecutive]
  exact consecutive.append_right _

theorem keysUnique_insert (fresh : ident o.name ∉ rows.map (ident ∘ Stored.name))
    (unique : KeysUnique rows) (seq : Int) : KeysUnique (rows ++ [inserted links seq o]) := by
  rw [KeysUnique, List.map_append, List.map_singleton, List.nodup_append]
  refine ⟨unique, List.nodup_singleton _, ?_⟩
  rintro name early _ late rfl
  rw [List.mem_singleton.mp late] at early
  obtain ⟨row, member, same⟩ := List.mem_map.mp early
  exact fresh (List.mem_map.mpr ⟨row, member, congrArg ident same⟩)

theorem oneFirstBlood_insert (fresh : ident o.name ∉ rows.map (ident ∘ Stored.name))
    (one : OneFirstBlood rows) (seq : Int) : OneFirstBlood (rows ++ [inserted links seq o]) := by
  rw [OneFirstBlood, List.countP_append, List.countP_singleton]
  split_ifs with first
  · have blood : o.kind = firstBlood := of_decide_eq_true first
    have none : rows.countP (·.kind = firstBlood) = 0 := by
      refine List.countP_eq_zero.mpr fun row member bled => ?_
      have same : ident row.name = ident o.name :=
        ident_eq_iff.mpr (.inr ⟨of_decide_eq_true bled, blood⟩)
      exact fresh (List.mem_map.mpr ⟨row, member, same⟩)
    rw [none]
  · exact one

/-- Publishing a list of objectives, by either side. -/
theorem publication_adds_each_once (links : Links) (rows : List Stored)
    (publication : Publication) :
    let after := publication.run links rows
    rows <+: after ∧
      (∀ row ∈ after, row ∈ rows ∨
        ∃ o ∈ publication.incoming, ∃ seq, row = inserted links seq o) ∧
      (Consecutive rows → Consecutive after) ∧
      (KeysUnique rows → KeysUnique after) ∧
      (OneFirstBlood rows → OneFirstBlood after) ∧
      (∀ o ∈ publication.incoming, o.name ∈ after.map Stored.name ∨
        (o.kind = firstBlood ∧ ∃ row ∈ after, row.kind = firstBlood)) ∧
      ∀ (again : Publication) (links : Links),
        again.incoming.map Incoming.name = publication.incoming.map Incoming.name →
        again.run links after = after := by
  have listed : ∀ o ∈ publication.incoming,
      ident o.name ∈ (publication.run links rows).map (ident ∘ Stored.name) := by
    intro o member
    rw [publication.run_eq]
    refine name_mem_addNew (ident ∘ Incoming.name) ?_ member
    exact fun _ _ => rfl
  refine ⟨?_, ?_, fun consecutive => ?_, fun unique => ?_, fun one => ?_, fun o member => ?_,
    fun again links same => ?_⟩
  · rw [publication.run_eq]
    exact prefix_addNew
  · intro row found
    rw [publication.run_eq] at found
    obtain early | ⟨o, member, before, made⟩ := mem_addNew found
    · exact .inl early
    · exact .inr ⟨o, member, nextSeq before, made⟩
  · rw [publication.run_eq]
    exact addNew_induction consecutive fun _ _ _ _ => consecutive_insert
  · rw [publication.run_eq]
    exact addNew_induction unique fun _ _ _ fresh early => keysUnique_insert fresh early _
  · rw [publication.run_eq]
    exact addNew_induction one fun _ _ _ fresh early => oneFirstBlood_insert fresh early _
  · obtain ⟨row, stored, eq⟩ := List.mem_map.mp (listed o member)
    obtain equal | ⟨rowFirst, first⟩ := ident_eq_iff.mp eq
    · exact .inl (List.mem_map.mpr ⟨row, stored, equal⟩)
    · exact .inr ⟨first, row, stored, rowFirst⟩
  · rw [again.run_eq]
    refine addNew_eq_self fun o member => ?_
    obtain ⟨other, first, equal⟩ := List.mem_map.mp (same ▸ List.mem_map_of_mem member)
    rw [Function.comp_apply, ← equal]
    exact listed other first

/-- A replay with a second first blood, published where the worker has stored one. -/
theorem publication_adds_each_once_beside_worker :
    let links : Links := { radiantTeamId := some 7, direTeamId := none, player := fun _ => none }
    let stored := [inserted links 0
      { time := 95, kind := firstBlood, team := none, slot := none, key := none, value := none }]
    let replay := Publication.parser
      [{ time := 96, kind := firstBlood }, { time := 300, kind := "roshan", team := some 0 }]
    Consecutive (replay.run links stored) ∧ KeysUnique (replay.run links stored) ∧
      OneFirstBlood (replay.run links stored) := by
  intro links stored replay
  obtain ⟨-, -, consecutive, unique, one, -⟩ := publication_adds_each_once links stored replay
  exact ⟨consecutive (List.Perm.refl _), unique (List.nodup_singleton _), one le_rfl⟩

end Objectives
end Persist
end DotaCollector
