import DotaCollector.Library.Schedule
import DotaCollector.Persist.DraftPersistence
import DotaCollector.Persist.PublishDraft
import Mathlib.Data.List.Induction

/-!
# What becomes of the clocks of a draft

The worker and the parser write the draft of one match, each in transactions of its own. A source
which keeps the stored rows loses nothing. One which replaces them keeps a known clock only if its
own rows bring one: the worker carries the stored clocks over to rows without a clock, the parser
carries none.
-/

namespace DotaCollector
namespace Persist

open Nullable Script
open Parse.DraftTimeline (Draft)

/-- A source of drafts. -/
inductive DraftSource where
  | worker (picks : List DraftPick) (fillOnly : Bool)
  | parser (pickBans timeline : List Draft)

namespace DraftSource

def script : DraftSource → Writer Unit
  | .worker picks fillOnly => replaceMatchDraft picks fillOnly
  | .parser pickBans timeline => publishDraft pickBans timeline

/-- A transaction of a source which is committed. -/
def next (matchId : MatchId) (view : MatchView) (source : DraftSource) : Option MatchView :=
  (transaction matchId source.script view).map Prod.snd

end DraftSource

/-! ## Properties -/

/-- The rows list the entry of a hero. -/
def Lists (rows : List DraftRow) (heroId : Int) (isPick : Bool) : Prop :=
  ∃ row ∈ rows, row.heroId = heroId ∧ row.isPick = isPick

/-- The rows have a clock for the entry of a hero. -/
def Known (rows : List DraftRow) (heroId : Int) (isPick : Bool) : Prop :=
  ∃ row ∈ rows, row.heroId = heroId ∧ row.isPick = isPick ∧ row.hasClock = true

def complete (rows : List DraftRow) : Bool :=
  draftLooksComplete (countDraft rows).n (countDraft rows).picks

/-- No known clock of an entry which is still listed is gone, and a complete draft has not got
shorter. -/
structure DraftKept (before after : List DraftRow) : Prop where
  clocks : ∀ heroId isPick, Known before heroId isPick → Lists after heroId isPick →
    Known after heroId isPick
  entries : complete before = true → before.length ≤ after.length

/-- In no part of a run a draft is lost. -/
def NeverLost (matchId : MatchId) (start : MatchView) (sources : List DraftSource) : Prop :=
  ∀ front mid first last, front ++ mid <+: sources →
    Schedule.run (DraftSource.next matchId) start front = some first →
    Schedule.run (DraftSource.next matchId) first mid = some last →
    DraftKept first.draft last.draft

namespace DraftSource

/-- The source replaces the stored rows. -/
def Replaces (source : DraftSource) (stored : List DraftRow) : Prop :=
  match source with
  | .worker picks fillOnly =>
      picks ≠ [] ∧ fillOnly = false ∧ ¬ (complete stored = true ∧ 0 < (countDraft stored).clocks)
  | .parser pickBans timeline =>
      complete stored = false ∧ publishedSequence pickBans timeline ≠ []

/-- What the source would store keeps an earlier draft. For each listed entry whose clock was
known, the worker has a clock, or no opinion where the stored rows know one; the parser has a
clock of its timeline. -/
def Covers (source : DraftSource) (earlier stored : List DraftRow) : Prop :=
  match source with
  | .worker picks _ =>
      (∀ pick ∈ picks, Known earlier pick.heroId pick.isPick → ∃ other ∈ picks,
        other.heroId = pick.heroId ∧ other.isPick = pick.isPick ∧
          (other.clock.any (· ≠ 0) = true ∨
            (other.clock = none ∧ Known stored pick.heroId pick.isPick))) ∧
        (complete earlier = true → earlier.length ≤ picks.length)
  | .parser pickBans timeline =>
      (∀ row ∈ publishedSequence pickBans timeline, Known earlier row.heroId.toInt row.isPick →
        firstClock timeline row.heroId row.isPick ≠ 0) ∧
        (complete earlier = true →
          earlier.length ≤ (publishedSequence pickBans timeline).length)

end DraftSource

/-! ## Cells -/

/-- The entry of a row, and its clock. -/
def DraftRow.cell (row : DraftRow) : Int × Bool × Option Int := (row.heroId, row.isPick, row.clock)

variable {rows stored earlier after : List DraftRow} {heroId : Int} {isPick : Bool}

theorem lists_iff : Lists rows heroId isPick ↔
    ∃ cell ∈ rows.map DraftRow.cell, cell.1 = heroId ∧ cell.2.1 = isPick := by
  simp [Lists, DraftRow.cell]

theorem known_iff : Known rows heroId isPick ↔
    ∃ cell ∈ rows.map DraftRow.cell, cell.1 = heroId ∧ cell.2.1 = isPick ∧
      cell.2.2.any (· ≠ 0) = true := by
  simp [Known, DraftRow.cell, DraftRow.hasClock]

@[simp] theorem DraftRow.cell_fillSlot (players : Nat → Option PlayerRow) (row : DraftRow) :
    (row.fillSlot players).cell = row.cell := by
  rw [DraftRow.fillSlot]
  split <;> rfl

@[simp] theorem DraftRow.cell_fillLinks (players : Nat → Option PlayerRow) (row : DraftRow) :
    (row.fillLinks players).cell = row.cell := by
  rw [DraftRow.fillLinks]
  split <;> rfl

@[simp] theorem DraftRow.cell_fillTeam (sides : Option Int × Option Int) (row : DraftRow) :
    (row.fillTeam sides).cell = row.cell := rfl

/-- A stored clock is carried over exactly where one is known. -/
theorem previousClock_any_iff : (previousClock stored heroId isPick).any (· ≠ 0) = true ↔
    Known stored heroId isPick := by
  let wanted : DraftRow → Bool := fun row =>
    row.hasClock && row.heroId = heroId && row.isPick = isPick
  have meets : ∀ {row : DraftRow}, wanted row = true ↔
      row.heroId = heroId ∧ row.isPick = isPick ∧ row.hasClock = true := by
    intro row
    simp only [wanted, Bool.and_eq_true, decide_eq_true_eq]
    tauto
  change ((stored.reverse.find? wanted).bind DraftRow.clock).any (· ≠ 0) = true ↔ _
  cases found : stored.reverse.find? wanted with
  | none =>
      refine iff_of_false (by simp) ?_
      rintro ⟨row, member, entry⟩
      exact List.find?_eq_none.mp found row (List.mem_reverse.mpr member) (meets.mpr entry)
  | some row =>
      have entry := meets.mp (List.find?_some found)
      exact iff_of_true entry.2.2
        ⟨row, List.mem_reverse.mp (List.mem_of_find?_eq_some found), entry⟩

/-! ## Statements which keep the rows -/

/-- The row is about the same entry, and has a clock if it had one. -/
structure RowStays (old new : DraftRow) : Prop where
  heroId : new.heroId = old.heroId
  isPick : new.isPick = old.isPick
  clock : old.hasClock = true → new.hasClock = true

theorem RowStays.refl (row : DraftRow) : RowStays row row := ⟨rfl, rfl, id⟩

theorem RowStays.trans {first second third : DraftRow} (left : RowStays first second)
    (right : RowStays second third) : RowStays first third :=
  ⟨right.heroId.trans left.heroId, right.isPick.trans left.isPick,
    fun known => right.clock (left.clock known)⟩

theorem RowStays.of_cell {old new : DraftRow} (same : new.cell = old.cell) :
    RowStays old new := by
  obtain ⟨heroId, isPick, clock⟩ := by simpa [DraftRow.cell] using same
  exact ⟨heroId, isPick, fun known => by rwa [DraftRow.hasClock, clock]⟩

theorem rowStays_stamp (pick : DraftPick) (row : DraftRow) : RowStays row (pick.stamp row) := by
  rw [DraftPick.stamp]
  split
  · refine ⟨rfl, rfl, fun known => ?_⟩
    have unknown : row.hasClock = false := by tauto
    rw [unknown] at known
    cases known
  · exact RowStays.refl row

/-- The rows are those from before, with all their clocks. -/
def Stays (before after : List DraftRow) : Prop := List.Forall₂ RowStays before after

theorem Stays.map {f : DraftRow → DraftRow} (stays : Stays stored after)
    (each : ∀ row, RowStays row (f row)) : Stays stored (after.map f) := by
  rw [Stays, List.forall₂_map_right_iff]
  exact stays.imp fun old new kept => kept.trans (each new)

theorem stays_refl (rows : List DraftRow) : Stays rows rows :=
  List.forall₂_same.mpr fun row _ => RowStays.refl row

theorem Stays.lists (stays : Stays stored after) (lists : Lists after heroId isPick) :
    Lists stored heroId isPick := by
  obtain ⟨new, member, entry⟩ := lists
  induction stays with
  | nil => cases member
  | @cons old _ _ _ head _ ih =>
      rcases List.mem_cons.mp member with rfl | member
      · exact ⟨old, List.mem_cons_self, head.heroId ▸ entry.1, head.isPick ▸ entry.2⟩
      · obtain ⟨row, listed, same⟩ := ih member
        exact ⟨row, List.mem_cons_of_mem _ listed, same⟩

theorem Stays.known (stays : Stays stored after) (known : Known stored heroId isPick) :
    Known after heroId isPick := by
  obtain ⟨old, member, same, side, clock⟩ := known
  induction stays with
  | nil => cases member
  | @cons _ new _ _ head _ ih =>
      rcases List.mem_cons.mp member with rfl | member
      · exact ⟨new, List.mem_cons_self, head.heroId.trans same, head.isPick.trans side,
          head.clock clock⟩
      · obtain ⟨row, listed, entry⟩ := ih member
        exact ⟨row, List.mem_cons_of_mem _ listed, entry⟩

/-- Behind a draft which stays, nothing more is lost. -/
theorem DraftKept.stays (kept : DraftKept earlier stored) (stays : Stays stored after) :
    DraftKept earlier after where
  clocks heroId isPick known lists :=
    stays.known (kept.clocks heroId isPick known (stays.lists lists))
  entries whole := (kept.entries whole).trans_eq stays.length_eq

/-! ## Transactions -/

variable {matchId : MatchId} {view : MatchView}

theorem fillDraftPlayerSlots_issues {allowed : Statement → Prop} (slots : allowed .fillDraftSlots)
    (links : allowed .fillDraftLinks) (teams : allowed .fillDraftTeams) :
    fillDraftPlayerSlots.Issues allowed :=
  issues_bind (issues_issue slots) fun _ =>
    issues_bind (issues_issue links) fun _ => issues_issue teams

/-- The statements on the links keep the cells. -/
theorem fillDraftPlayerSlots_cells (cells : List (Int × Bool × Option Int))
    (start : view.draft.map DraftRow.cell = cells) :
    fillDraftPlayerSlots.Ensures (single matchId)
      (fun _ after => after.draft.map DraftRow.cell = cells) view := by
  refine ensures_of_keeps (fillDraftPlayerSlots_issues ?_ ?_ ?_) start
  all_goals
    rintro before after same ⟨⟩
    simpa [Function.comp_def] using same

theorem keeps_stays_of_map {statement : Statement} {f : MatchView → DraftRow → DraftRow}
    (moves : ∀ view, statement.execute matchId view =
      some { view with draft := view.draft.map (f view) })
    (each : ∀ view row, RowStays row (f view row)) :
    statement.Keeps matchId fun view => Stays stored view.draft := by
  intro before after stays executed
  rw [moves] at executed
  cases executed
  exact stays.map (each before)

theorem fillDraftPlayerSlots_stays (start : Stays stored view.draft) :
    fillDraftPlayerSlots.Ensures (single matchId)
      (fun _ after => Stays stored after.draft) view := by
  refine ensures_of_keeps (fillDraftPlayerSlots_issues ?_ ?_ ?_) start
  · exact keeps_stays_of_map (f := fun view => DraftRow.fillSlot view.players) (fun _ => rfl)
      fun view row => .of_cell (DraftRow.cell_fillSlot _ row)
  · exact keeps_stays_of_map (f := fun view => DraftRow.fillLinks view.players) (fun _ => rfl)
      fun view row => .of_cell (DraftRow.cell_fillLinks _ row)
  · exact keeps_stays_of_map (f := fun view => DraftRow.fillTeam view.sides) (fun _ => rfl)
      fun view row => .of_cell (DraftRow.cell_fillTeam _ row)

theorem keeps_stays_stampDraftClock (pick : DraftPick) :
    (Statement.stampDraftClock pick).Keeps matchId fun view => Stays stored view.draft :=
  keeps_stays_of_map (f := fun _ => pick.stamp) (fun _ => rfl) fun _ => rowStays_stamp pick

theorem keepDraft_stays (picks : List DraftPick) (start : Stays stored view.draft) :
    (keepDraft picks).Ensures (single matchId) (fun _ after => Stays stored after.draft) view := by
  have stamps : (forEach stampDraftClock picks).Issues
      (Statement.Keeps matchId fun view => Stays stored view.draft) := by
    refine issues_forEach fun pick _ => ?_
    rw [stampDraftClock]
    split
    · trivial
    · exact issues_issue (keeps_stays_stampDraftClock pick)
  exact ensures_bind.mpr ((ensures_of_keeps stamps start).mono fun _ _ stamped =>
    fillDraftPlayerSlots_stays stamped)

theorem publishClocks_stays (seq : List Draft) (start : Stays stored view.draft) :
    (forEach publishClock seq).Ensures (single matchId)
      (fun _ after => Stays stored after.draft) view := by
  refine ensures_of_keeps (issues_forEach fun row _ => ?_) start
  rw [publishClock]
  split
  · trivial
  · exact issues_issue (keeps_stays_stampDraftClock (pickOf row))

/-- The cells of the rows which the worker inserts. -/
theorem rewriteDraft_cells (picks : List DraftPick) :
    (rewriteDraft picks).Ensures (single matchId)
      (fun _ after => after.draft.map DraftRow.cell = picks.map fun pick =>
        (pick.heroId, pick.isPick,
          coalesce pick.clock (previousClock view.draft pick.heroId pick.isPick))) view := by
  refine ensures_query_bind.mpr (ensures_issue_bind.mpr fun cleared deleted => ?_)
  cases deleted
  refine ensures_query_bind.mpr (ensures_issue_bind.mpr fun inserted executed => ?_)
  obtain ⟨-, ⟨⟩⟩ := Option.ite_none_right_eq_some.mp executed
  refine fillDraftPlayerSlots_cells _ ?_
  rw [List.nil_append, List.map_map]
  rfl

/-- The cells of the rows which the parser inserts. -/
theorem publishRows_cells (seq : List Draft) (cells : List (Int × Bool × Option Int))
    (start : view.draft.map DraftRow.cell = cells) :
    (forEach publishRow seq).Ensures (single matchId)
      (fun _ after => after.draft.map DraftRow.cell =
        cells ++ seq.map fun row => (row.heroId.toInt, row.isPick, some row.clock.toInt)) view := by
  induction seq generalizing view cells with
  | nil => exact start.trans (List.append_nil cells).symm
  | cons row seq ih =>
      refine ensures_bind.mpr (ensures_query_bind.mpr fun inserted executed => ?_)
      obtain ⟨-, ⟨⟩⟩ := Option.ite_none_right_eq_some.mp executed
      rw [List.map_cons, List.append_cons]
      refine ih _ ?_
      rw [List.map_append, start]
      rfl

namespace DraftSource

/-- The cells of the rows which a source stores in place of others. -/
def cells (source : DraftSource) (stored : List DraftRow) : List (Int × Bool × Option Int) :=
  match source with
  | .worker picks _ => picks.map fun pick =>
      (pick.heroId, pick.isPick,
        coalesce pick.clock (previousClock stored pick.heroId pick.isPick))
  | .parser pickBans timeline => (publishedSequence pickBans timeline).map fun row =>
      (row.heroId.toInt, row.isPick, some row.clock.toInt)

/-- What a source does to the stored rows. -/
def Moves (source : DraftSource) (stored after : List DraftRow) : Prop :=
  (source.Replaces stored ∧ after.map DraftRow.cell = source.cells stored) ∨
    (¬ source.Replaces stored ∧ Stays stored after)

theorem worker_moves (picks : List DraftPick) (fillOnly : Bool) (view : MatchView) :
    (replaceMatchDraft picks fillOnly).Ensures (single matchId)
      (fun _ after => (worker picks fillOnly).Moves view.draft after.draft) view := by
  cases picks with
  | nil => exact .inr ⟨fun replaces => replaces.1 rfl, stays_refl _⟩
  | cons pick picks =>
      refine ensures_query_bind.mpr ?_
      split
      · rename_i kept
        refine (keepDraft_stays _ (stays_refl _)).mono fun _ _ stays => .inr ⟨?_, stays⟩
        rintro ⟨-, rfl, replaced⟩
        simp only [Bool.false_or, Bool.and_eq_true, decide_eq_true_eq] at kept
        exact replaced kept
      · rename_i replaced
        refine (rewriteDraft_cells _).mono fun _ _ stored => .inl ⟨?_, stored⟩
        simp only [Bool.or_eq_true, Bool.and_eq_true, decide_eq_true_eq, not_or] at replaced
        exact ⟨List.cons_ne_nil _ _, Bool.eq_false_of_not_eq_true replaced.1, replaced.2⟩

theorem parser_moves (pickBans timeline : List Draft) (view : MatchView) :
    (publishDraft pickBans timeline).Ensures (single matchId)
      (fun _ after => (parser pickBans timeline).Moves view.draft after.draft) view := by
  refine ensures_query_bind.mpr ?_
  split
  · rename_i whole
    refine ensures_bind.mpr ((publishClocks_stays _ (stays_refl _)).mono fun _ _ stamped => ?_)
    refine (fillDraftPlayerSlots_stays stamped).mono fun _ _ stays => .inr ⟨?_, stays⟩
    rintro ⟨partly, -⟩
    exact Bool.false_ne_true (partly.symm.trans whole)
  · rename_i partly
    split
    · rename_i empty
      refine .inr ⟨?_, stays_refl _⟩
      rintro ⟨-, some⟩
      exact some (List.isEmpty_iff.mp empty)
    · rename_i some
      refine ensures_issue_bind.mpr fun cleared deleted => ?_
      cases deleted
      refine ensures_bind.mpr ((publishRows_cells _ [] rfl).mono fun _ _ inserted => ?_)
      refine (fillDraftPlayerSlots_cells _ inserted).mono fun _ _ stored => .inl ⟨⟨?_, ?_⟩, stored⟩
      · exact Bool.eq_false_of_not_eq_true partly
      · exact fun empty => some (List.isEmpty_iff.mpr empty)

variable {source : DraftSource} {last : MatchView}

theorem moves_of_next (step : next matchId view source = some last) :
    source.Moves view.draft last.draft := by
  obtain ⟨⟨_, after⟩, committed, rfl⟩ := Option.map_eq_some_iff.mp step
  cases source with
  | worker picks fillOnly => exact (worker_moves picks fillOnly view).exec committed
  | parser pickBans timeline => exact (parser_moves pickBans timeline view).exec committed

theorem any_coalesce_iff {left right : Option Int} : (coalesce left right).any (· ≠ 0) = true ↔
    left.any (· ≠ 0) = true ∨ (left = none ∧ right.any (· ≠ 0) = true) := by
  cases left <;> simp

theorem any_clock_iff {clock : Int32} :
    (some clock.toInt).any (· ≠ 0) = true ↔ clock ≠ 0 := by
  rw [Option.any_some, decide_eq_true_eq, ← Int32.toInt_zero, Int32.toInt_inj.ne]

/-- Replaced rows keep an earlier draft exactly when the source covers it. -/
theorem kept_iff_covers (same : after.map DraftRow.cell = source.cells stored) :
    DraftKept earlier after ↔ source.Covers earlier stored := by
  have length : after.length = (source.cells stored).length := by
    rw [← same, List.length_map]
  have swapped : DraftKept earlier after ↔
      (∀ heroId isPick, Lists after heroId isPick → Known earlier heroId isPick →
        Known after heroId isPick) ∧ (complete earlier = true → earlier.length ≤ after.length) :=
    ⟨fun kept => ⟨fun heroId isPick lists known => kept.clocks heroId isPick known lists,
      kept.entries⟩, fun kept => ⟨fun heroId isPick known lists =>
        kept.1 heroId isPick lists known, kept.2⟩⟩
  rw [swapped, length]
  simp only [@lists_iff after, @known_iff after, same]
  cases source with
  | worker picks fillOnly =>
      simp only [cells, Covers, List.length_map, List.mem_map, exists_exists_and_eq_and,
        any_coalesce_iff, previousClock_any_iff]
      refine and_congr_left' ⟨fun kept pick member known => ?_, fun covers => ?_⟩
      · obtain ⟨other, listed, hero, side, clock⟩ :=
          kept pick.heroId pick.isPick ⟨pick, member, rfl, rfl⟩ known
        rw [hero, side] at clock
        exact ⟨other, listed, hero, side, clock⟩
      · rintro _ _ ⟨pick, member, rfl, rfl⟩ known
        obtain ⟨other, listed, hero, side, clock⟩ := covers pick member known
        rw [← hero, ← side] at clock
        exact ⟨other, listed, hero, side, clock⟩
  | parser pickBans timeline =>
      simp only [cells, Covers, List.length_map, List.mem_map, exists_exists_and_eq_and,
        any_clock_iff]
      refine and_congr_left' ⟨fun kept row member known => ?_, fun covers => ?_⟩
      · obtain ⟨other, listed, hero, side, clock⟩ :=
          kept row.heroId.toInt row.isPick ⟨row, member, rfl, rfl⟩ known
        rw [clock_publishedSequence listed, Int32.toInt_inj.mp hero, side] at clock
        exact clock
      · rintro _ _ ⟨row, member, rfl, rfl⟩ known
        refine ⟨row, member, rfl, rfl, ?_⟩
        rw [clock_publishedSequence member]
        exact covers row member known

end DraftSource

/-! ## Every run -/

theorem draftKept_refl (rows : List DraftRow) : DraftKept rows rows :=
  ⟨fun _ _ known _ => known, fun _ => Nat.le_refl _⟩

/-- In a run of committed transactions of the worker and the parser, in any order, nothing is lost
exactly when each source which replaces the stored rows covers the drafts that were stored before:
those it finds and those of all earlier states. -/
theorem draft_never_lost_iff (matchId : MatchId) (start : MatchView)
    (sources : List DraftSource) : NeverLost matchId start sources ↔
      ∀ front mid source first view last, front ++ (mid ++ [source]) <+: sources →
        Schedule.run (DraftSource.next matchId) start front = some first →
        Schedule.run (DraftSource.next matchId) first mid = some view →
        DraftSource.next matchId view source = some last →
        source.Replaces view.draft → source.Covers first.draft view.draft := by
  constructor
  · intro kept front mid source first view last within reached onward step replaces
    have moved := DraftSource.moves_of_next step
    have whole := kept front (mid ++ [source]) first last within reached
      (Schedule.run_snoc onward step)
    rcases moved with ⟨-, stored⟩ | ⟨stays, -⟩
    · exact (DraftSource.kept_iff_covers stored).mp whole
    · exact (stays replaces).elim
  · intro covers front mid first last within reached onward
    induction mid using List.reverseRecOn generalizing last with
    | nil =>
        cases onward
        exact draftKept_refl _
    | append_singleton mid source ih =>
        obtain ⟨view, before, step⟩ := Schedule.run_snoc_eq_some.mp onward
        have shorter : front ++ mid <+: sources := by
          rw [← List.append_assoc] at within
          exact (List.prefix_append _ _).trans within
        have kept := ih view shorter before
        rcases DraftSource.moves_of_next step with ⟨replaces, stored⟩ | ⟨-, stays⟩
        · exact (DraftSource.kept_iff_covers stored).mpr
            (covers front mid source first view last within reached before step replaces)
        · exact kept.stays stays

/-- A ban and a pick, each with the clock which an earlier parse has stamped. -/
def stampedDraft : MatchView where
  matchRow := some {}
  draft :=
    [{ ord := 0, isPick := false, heroId := 63, team := 0, clock := some 26 },
      { ord := 1, isPick := true, heroId := 87, team := 1, clock := some 63 }]

/-- The same ban and pick as a record lists them. -/
def listedPicks : List DraftPick :=
  [{ ord := 0, isPick := false, heroId := 63, team := 0, playerSlot := none, clock := none },
    { ord := 1, isPick := true, heroId := 87, team := 1, playerSlot := none, clock := none }]

/-- A row of a demo whose game rules have shown no draft: it has no clock of its own. -/
def fileInfoRow : Draft where
  time := 900
  tick := 0
  slot := -1
  accountId := 0
  isPick := false
  heroId := 63
  team := 0
  ord := 0
  clock := 0
  extraTimeRadiant := 0
  extraTimeDire := 0

/-- A complete draft without clocks. -/
def unstampedDraft : MatchView where
  matchRow := some {}
  draft := (List.range 20).map fun place =>
    { ord := place, isPick := 10 ≤ place, heroId := place + 1, team := 0 }

/-- The parser replaces a stamped draft by a row with the clock 0, and the worker a complete draft
by a shorter one. -/
theorem draft_lost :
    (Schedule.run (DraftSource.next 7) stampedDraft
        [.worker listedPicks false, .parser [fileInfoRow] [fileInfoRow]]).map
          (fun view => view.draft.map DraftRow.cell) = some [(63, false, some 0)] ∧
      ¬ NeverLost 7 stampedDraft
        [.worker listedPicks false, .parser [fileInfoRow] [fileInfoRow]] ∧
      complete unstampedDraft.draft = true ∧
      (Schedule.run (DraftSource.next 7) unstampedDraft
        [.worker listedPicks false, .parser [] []]).map
          (fun view => view.draft.map DraftRow.cell) =
            some [(63, false, none), (87, true, none)] ∧
      ¬ NeverLost 7 unstampedDraft [.worker listedPicks false, .parser [] []] := by
  refine ⟨rfl, fun kept => ?_, rfl, rfl, fun kept => ?_⟩
  · have whole := kept [] [.worker listedPicks false, .parser [fileInfoRow] [fileInfoRow]]
      stampedDraft _ (List.prefix_refl _) rfl rfl
    obtain ⟨row, member, -, -, clock⟩ := whole.clocks 63 false
      ⟨_, List.mem_cons_self, rfl, rfl, rfl⟩ ⟨_, List.mem_cons_self, rfl, rfl⟩
    cases List.mem_singleton.mp member
    cases clock
  · have whole := kept [] [.worker listedPicks false, .parser [] []] unstampedDraft _
      (List.prefix_refl _) rfl rfl
    exact absurd (whole.entries rfl) (by decide)

end Persist
end DotaCollector
