import DotaCollector.Persist.Stamps

/-!
# When the draft of a record is stored

`persistMatchRecord` asks whether a post-game record has been written before it writes its own,
but after it may have inserted the match together with that very stamp. The draft is followed
through the transaction: a match which existed without a stamp receives it, and every other
match without draft rows ends without draft rows.
-/

namespace DotaCollector
namespace Persist

open Script

/-! ## Statements which keep an invariant -/

/-- The statement keeps an invariant of what the transaction sees. -/
def Statement.Keeps (matchId : MatchId) (inv : MatchView → Prop) (statement : Statement) : Prop :=
  ∀ view after, inv view → statement.execute matchId view = some after → inv after

theorem ensures_of_keeps {Value : Type} {matchId : MatchId} {inv : MatchView → Prop}
    {script : Writer Value} {view : MatchView}
    (issues : script.Issues (Statement.Keeps matchId inv)) (start : inv view) :
    script.Ensures (single matchId) (fun _ => inv) view := by
  refine issues.ensures (fun _ state after keeps => keeps state after) ?_
    (fun _ _ _ => trivial) start
  rintro question answer state after held ⟨-, rfl⟩
  exact held

section Issued

variable {allowed : Statement → Prop}

theorem upsertTeam_issues (touches : ∀ row, allowed (.touch row)) (teamId : Option Int) :
    (upsertTeam teamId).Issues allowed := by
  cases teamId with
  | none => trivial
  | some teamId =>
      simp only [upsertTeam]
      split
      · trivial
      · exact issues_issue (touches _)

theorem upsertPlayer_issues (touches : ∀ row, allowed (.touch row)) (player : PlayerFacts) :
    (upsertPlayer player).Issues allowed := by
  rw [upsertPlayer]
  split
  · trivial
  · exact issues_issue (touches _)

theorem upsertSeriesForMatch_issues (touches : ∀ row, allowed (.touch row))
    (seriesId : Option Int) : (upsertSeriesForMatch seriesId).Issues allowed := by
  cases seriesId with
  | none => trivial
  | some seriesId => exact issues_issue (touches _)

theorem linkSeries_issues {matchId : MatchId}
    (links : ∀ seriesId, allowed (.operation (.linkSeries matchId seriesId)))
    (seriesId : Option Int) : (linkSeries matchId seriesId).Issues allowed := by
  cases seriesId with
  | none => trivial
  | some seriesId => exact issues_issue (links seriesId)

end Issued

/-! ## Entries -/

/-- What the stored draft says. -/
def MatchView.entries (view : MatchView) : List DraftEntry := view.draft.map DraftRow.entry

/-- The statements which neither replace the draft nor insert the match. -/
def Statement.calm (matchId : MatchId) : Statement → Bool
  | .operation change => (change.insertedRow matchId).isNone
  | .deleteDraft | .insertDraft _ => false
  | _ => true

theorem entries_execute {matchId : MatchId} {statement : Statement} {view after : MatchView}
    (calm : statement.calm matchId) (executed : statement.execute matchId view = some after) :
    after.entries = view.entries := by
  cases statement with
  | insertMatchPlayers rows fillOnly =>
      obtain ⟨-, ⟨⟩⟩ := Option.ite_none_right_eq_some.mp executed
      rfl
  | deleteDraft | insertDraft rows => cases calm
  | stampDraftClock pick | fillDraftSlots | fillDraftLinks | fillDraftTeams =>
      cases executed
      simp [MatchView.entries, Function.comp_def]
  | operation change | touch row | fillPlayerIds | fillTeamIds =>
      cases executed
      rfl

theorem absent_execute {matchId : MatchId} {statement : Statement} {view after : MatchView}
    (calm : statement.calm matchId) (executed : statement.execute matchId view = some after)
    (absent : view.matchRow = none) : after.matchRow = none := by
  rw [matchRow_of_execute executed, absent]
  cases statement with
  | operation change => exact onMatch_none (Option.isNone_iff_eq_none.mp calm)
  | _ => rfl

/-- The draft has these entries, and a match which was absent still is. -/
structure Shows (entries : List DraftEntry) (present : Bool) (view : MatchView) : Prop where
  entries : view.entries = entries
  absent : present = false → view.matchRow = none

variable {matchId : MatchId} {entries : List DraftEntry} {present : Bool} {view : MatchView}

theorem keeps_shows {statement : Statement} (calm : statement.calm matchId) :
    statement.Keeps matchId (Shows entries present) := by
  rintro view after shows executed
  exact
    { entries := (entries_execute calm executed).trans shows.entries
      absent := fun gone => absent_execute calm executed (shows.absent gone) }

/-! ## The parts of the transaction -/

theorem fillDraftPlayerSlots_shows (shows : Shows entries present view) :
    fillDraftPlayerSlots.Ensures (single matchId) (fun _ => Shows entries present) view := by
  refine ensures_of_keeps ?_ shows
  exact issues_bind (issues_issue (keeps_shows rfl)) fun _ =>
    issues_bind (issues_issue (keeps_shows rfl)) fun _ => issues_issue (keeps_shows rfl)

theorem upsertMatchPlayers_shows (players : List PlayerFacts) (fillOnly : Bool)
    (shows : Shows entries present view) :
    (upsertMatchPlayers players fillOnly).Ensures (single matchId)
      (fun _ => Shows entries present) view := by
  rw [upsertMatchPlayers]
  split
  · exact shows
  · refine ensures_query_bind.mpr (ensures_query_bind.mpr ?_)
    rw [insertResolved]
    split
    · exact shows
    · refine ensures_issue_bind.mpr fun inserted executed => ?_
      exact fillDraftPlayerSlots_shows (keeps_shows rfl _ _ shows executed)

theorem keepDraft_shows (picks : List DraftPick) (shows : Shows entries present view) :
    (keepDraft picks).Ensures (single matchId) (fun _ => Shows entries present) view := by
  have stamps : (forEach stampDraftClock picks).Issues
      (Statement.Keeps matchId (Shows entries present)) := by
    refine issues_forEach fun pick _ => ?_
    rw [stampDraftClock]
    split
    · trivial
    · exact issues_issue (keeps_shows rfl)
  exact ensures_bind.mpr ((ensures_of_keeps stamps shows).mono fun _ _ stamped =>
    fillDraftPlayerSlots_shows stamped)

/-- Replaced rows say what the picks say, and their match exists. -/
theorem rewriteDraft_shows (picks : List DraftPick) (shows : Shows entries present view) :
    (rewriteDraft picks).Ensures (single matchId)
      (fun _ after => Shows (picks.map DraftPick.entry) present after ∧ present = true) view := by
  refine ensures_query_bind.mpr (ensures_issue_bind.mpr fun cleared deleted => ?_)
  cases deleted
  refine ensures_query_bind.mpr (ensures_issue_bind.mpr fun inserted executed => ?_)
  obtain ⟨checked, ⟨⟩⟩ := Option.ite_none_right_eq_some.mp executed
  obtain ⟨row, found⟩ := Option.isSome_iff_exists.mp (Bool.and_eq_true_iff.mp checked).1
  have there : present = true := by
    cases present with
    | true => rfl
    | false => cases found.symm.trans (shows.absent rfl)
  have stored : Shows (picks.map DraftPick.entry) present
      { view with draft := [] ++ picks.map fun pick => pick.row view.draft view.sides } :=
    { entries := by simp [MatchView.entries, Function.comp_def]
      absent := shows.absent }
  exact (fillDraftPlayerSlots_shows stored).mono fun _ _ held => ⟨held, there⟩

/-- On a match without draft rows, a writer which only fills leaves it so. -/
theorem replaceMatchDraft_shows (picks : List DraftPick) (fillOnly : Bool)
    (shows : Shows [] present view) :
    (replaceMatchDraft picks fillOnly).Ensures (single matchId)
      (fun _ after =>
        Shows (if fillOnly then [] else picks.map DraftPick.entry) present after ∧
          (fillOnly = false → picks ≠ [] → present = true)) view := by
  cases picks with
  | nil => exact ⟨by simpa using shows, fun _ nonempty => absurd rfl nonempty⟩
  | cons pick picks =>
      have noRows : view.draft = [] := List.map_eq_nil_iff.mp shows.entries
      refine ensures_query_bind.mpr ?_
      simp only [Query.answer, noRows]
      cases fillOnly with
      | true => exact (keepDraft_shows _ shows).mono fun _ _ held => ⟨held, by simp⟩
      | false =>
          exact (rewriteDraft_shows _ shows).mono fun _ _ held => ⟨held.1, fun _ _ => held.2⟩

theorem fillMatchPlayerLinks_shows (shows : Shows entries present view) :
    fillMatchPlayerLinks.Ensures (single matchId) (fun _ => Shows entries present) view := by
  refine ensures_of_keeps ?_ shows
  exact issues_bind (issues_issue (keeps_shows rfl)) fun _ => issues_issue (keeps_shows rfl)

theorem persistFacts_shows (now : Time) (record : PostgameRecord) (fetched : Fetched)
    (fillOnly : Bool) (shows : Shows [] present view) :
    (persistFacts now record fetched fillOnly).Ensures (single matchId)
      (fun _ after =>
        Shows (if fillOnly then [] else (extractDraft record.picksBans).map DraftPick.entry)
            present after ∧
          (fillOnly = false → extractDraft record.picksBans ≠ [] → present = true)) view := by
  refine ensures_issue_bind.mpr fun saved executed => ?_
  have savedShows : Shows [] present saved := keeps_shows rfl _ _ shows executed
  have accounts : (forEach upsertPlayer record.players).Issues
      (Statement.Keeps matchId (Shows [] present)) :=
    issues_forEach fun player _ => upsertPlayer_issues (fun _ => keeps_shows rfl) player
  refine ensures_bind.mpr ((ensures_of_keeps accounts savedShows).mono fun _ _ touched => ?_)
  refine ensures_bind.mpr ((upsertMatchPlayers_shows _ _ touched).mono fun _ _ played => ?_)
  refine ensures_bind.mpr ((replaceMatchDraft_shows _ _ played).mono fun _ _ drafted => ?_)
  exact (fillMatchPlayerLinks_shows drafted.1).mono fun _ _ held => ⟨held, drafted.2⟩

/-! ## Before the question -/

/-- Before `matchPostgameWritten`: no draft rows, and the stamps the match shows now are those it
shows at the question; `ready` says that it existed without them. -/
structure Undecided (ready : Bool) (view : MatchView) : Prop where
  entries : view.entries = []
  present : ready = true → view.matchRow.isSome
  stamps : ∀ row, view.matchRow = some row → postgameWritten row = !ready

variable {ready : Bool}

theorem keeps_undecided_touch (row : OtherRow) :
    (Statement.touch row).Keeps matchId (Undecided ready) := by
  rintro view after undecided ⟨⟩
  exact undecided

theorem keeps_undecided_linkSeries (linked : MatchId) (seriesId : Int) :
    (Statement.operation (.linkSeries linked seriesId)).Keeps matchId (Undecided ready) := by
  rintro view after undecided ⟨⟩
  cases found : view.matchRow with
  | none =>
      have stays : onMatch matchId none (.linkSeries linked seriesId) = none := onMatch_none rfl
      exact
        { entries := undecided.entries
          present := fun isReady => by simpa [found] using undecided.present isReady
          stamps := by simp [stays] }
  | some row =>
      have stamped := undecided.stamps row found
      refine ⟨undecided.entries, fun _ => by simp [onMatch_some], ?_⟩
      rintro after same
      rw [onMatch_some] at same
      cases same
      simp only [Operation.onRow]
      split
      · exact (postgameWritten_linkSeries seriesId row).trans stamped
      · exact stamped

/-- A match inserted by this transaction already carries its stamp. -/
theorem keeps_undecided_insertUndiscoveredMatch (now : Time) (facts : MatchFacts)
    (fetched : Fetched) :
    (Statement.operation (.insertUndiscoveredMatch now facts fetched)).Keeps facts.matchId
      (Undecided ready) := by
  rintro view after undecided ⟨⟩
  refine ⟨undecided.entries, fun _ => by simp [onMatch_insertUndiscoveredMatch], ?_⟩
  rintro after same
  rw [onMatch_insertUndiscoveredMatch] at same
  cases found : view.matchRow with
  | none =>
      have notReady : ready = false := by
        cases ready with
        | false => rfl
        | true => simpa [found] using undecided.present rfl
      rw [found] at same
      cases same
      rw [notReady]
      exact postgameWritten_undiscovered now facts fetched
  | some row =>
      rw [found] at same
      cases same
      exact undecided.stamps row found

theorem upsertTeam_undecided (teamId : Option Int) (undecided : Undecided ready view) :
    (upsertTeam teamId).Ensures (single matchId) (fun _ => Undecided ready) view :=
  ensures_of_keeps (upsertTeam_issues keeps_undecided_touch teamId) undecided

theorem insertUndiscoveredMatch_undecided (now : Time) (facts : MatchFacts) (fetched : Fetched)
    (inserts : Bool) (undecided : Undecided ready view) :
    (runIf inserts (issue (.operation (.insertUndiscoveredMatch now facts fetched)))).Ensures
      (single facts.matchId) (fun _ => Undecided ready) view :=
  ensures_of_keeps (issues_runIf (issues_issue
    (keeps_undecided_insertUndiscoveredMatch now facts fetched))) undecided

theorem upsertSeriesForMatch_undecided (seriesId : Option Int)
    (undecided : Undecided ready view) :
    (upsertSeriesForMatch seriesId).Ensures (single matchId) (fun _ => Undecided ready) view :=
  ensures_of_keeps (upsertSeriesForMatch_issues keeps_undecided_touch seriesId) undecided

theorem linkSeries_undecided (linked : MatchId) (seriesId : Option Int)
    (undecided : Undecided ready view) :
    (linkSeries linked seriesId).Ensures (single matchId) (fun _ => Undecided ready) view :=
  ensures_of_keeps (linkSeries_issues (keeps_undecided_linkSeries linked) seriesId) undecided

/-- The draft rows a transaction leaves are those of its record exactly when it found the match
ready for them. -/
theorem persistMatchRecord_entries (now : Time) (record : PostgameRecord) (mustExist : Bool)
    (fetched : Fetched) (nonempty : extractDraft record.picksBans ≠ [])
    (undecided : Undecided ready view) :
    (persistMatchRecord now record mustExist fetched).Ensures (single record.facts.matchId)
      (fun _ after => after.entries =
        if ready then (extractDraft record.picksBans).map DraftPick.entry else []) view := by
  refine ensures_bind.mpr ((upsertTeam_undecided _ undecided).mono fun _ _ radiant => ?_)
  refine ensures_bind.mpr ((upsertTeam_undecided _ radiant).mono fun _ _ dire => ?_)
  have inserts := insertUndiscoveredMatch_undecided now record.facts fetched (!mustExist) dire
  refine ensures_bind.mpr (inserts.mono fun _ _ inserted => ?_)
  refine ensures_bind.mpr ((upsertSeriesForMatch_undecided _ inserted).mono fun _ _ found => ?_)
  refine ensures_bind.mpr ((linkSeries_undecided _ _ found).mono fun _ asked settled => ?_)
  refine ensures_query_bind.mpr ?_
  have shows : Shows [] asked.matchRow.isSome asked :=
    ⟨settled.entries, fun gone => Option.isNone_iff_eq_none.mp (by simpa using gone)⟩
  refine (persistFacts_shows now record fetched _ shows).mono fun _ after stored => ?_
  cases row : asked.matchRow with
  | none =>
      have there := stored.2 (by simp [Query.answer, row]) nonempty
      simp [row] at there
  | some row' =>
      have chosen : asked.matchRow.any postgameWritten = !ready := by
        simpa [row] using settled.stamps row' row
      rw [stored.1.entries]
      change (if asked.matchRow.any postgameWritten then _ else _) = _
      rw [chosen]
      cases ready <;> rfl

/-- Where no draft rows are stored, a committed record's draft is stored exactly when the match
existed before the call and no post-game record of it had been written. -/
theorem draft_persisted_iff (now : Time) (record : PostgameRecord) (mustExist : Bool)
    (fetched : Fetched) (view after : MatchView) (noRows : view.draft = [])
    (nonempty : extractDraft record.picksBans ≠ [])
    (committed : transaction record.facts.matchId
      (persistMatchRecord now record mustExist fetched) view = some ((), after)) :
    after.draft.map DraftRow.entry = (extractDraft record.picksBans).map DraftPick.entry ↔
      ∃ row, view.matchRow = some row ∧ postgameWritten row = false := by
  let ready := view.matchRow.any fun row => !postgameWritten row
  have undecided : Undecided ready view :=
    { entries := by simp [MatchView.entries, noRows]
      present := by
        intro isReady
        obtain ⟨row, found, -⟩ := (Option.any_eq_true _ _).mp isReady
        simp [found]
      stamps := by
        intro row found
        simp [ready, found] }
  have stored : after.entries = if ready then _ else [] :=
    (persistMatchRecord_entries now record mustExist fetched nonempty undecided).exec committed
  have readyIff : ready = true ↔ ∃ row, view.matchRow = some row ∧ postgameWritten row = false := by
    simp [ready, Option.any_eq_true]
  rw [← readyIff]
  change after.entries = _ ↔ _
  rw [stored]
  cases ready with
  | true => simp
  | false => simpa using Ne.symm nonempty

/-- A record with one ban and one pick. -/
def draftRecord : PostgameRecord where
  facts :=
    { matchId := 7
      matchSeqNum := some 88
      startTime := some 1700000000
      duration := some 100
      others := fun _ => none }
  picksBans :=
    [some { heroId := some 63, isPick := .bool false, team := some 0, order := some 0 },
      some { heroId := some 87, isPick := .bool true, team := some 1, order := some 1 }]

theorem draft_persisted_iff_existing :
    ∃ after,
      transaction 7 (persistMatchRecord 0 draftRecord true .seq) { matchRow := some {} } =
          some ((), after) ∧
        after.draft.map DraftRow.entry = [⟨0, 63, 0, false⟩, ⟨1, 87, 1, true⟩] :=
  ⟨_, rfl, (draft_persisted_iff 0 draftRecord true .seq { matchRow := some {} } _ rfl (by decide)
    rfl).mpr ⟨{}, rfl, rfl⟩⟩

/-- The draft of a match which is inserted by the call itself is lost. -/
theorem inserted_match_loses_draft :
    ∃ after,
      transaction 7 (persistMatchRecord 0 draftRecord false .seq) {} = some ((), after) ∧
        after.matchRow.isSome ∧
        after.draft.map DraftRow.entry ≠
          (extractDraft draftRecord.picksBans).map DraftPick.entry :=
  ⟨_, rfl, rfl, by decide⟩

end Persist
end DotaCollector
