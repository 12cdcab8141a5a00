import Mathlib.Data.List.Nodup
import Mathlib.Data.List.Range
import DotaCollector.Library.Decimal
import DotaCollector.Steam.Imap

/-!
# The commands of an IMAP session

A client sends one command at a time, each under a new tag, and collects the lines which arrive
until one bears the tag. A command may also run out of time, and what the server answers to it then
stays for the commands after it.
-/

namespace DotaCollector
namespace Steam
namespace ImapSession

open Imap (Latin1 Client LogicalLine encodeAll crlf tryParseLogicalLine)

/-! ## The functions -/

/-- `A0001`, and more digits beyond `A9999`. -/
def tagOf (n : Nat) : Latin1 :=
  'A' :: (List.replicate (4 - (Nat.toDigits 10 n).length) '0' ++ Nat.toDigits 10 n)

/-- How the loop of a command ends. -/
inductive Ending where
  | tagged (line : Latin1)
  | continuation (line : Latin1)
  | closed
  | timeout
deriving DecidableEq

structure Pending where
  tag : Latin1
  untagged : List Latin1 := []
deriving DecidableEq

structure Done where
  tag : Latin1
  untagged : List Latin1
  ending : Ending
deriving DecidableEq

structure Session where
  buf : Latin1 := []
  closed : Bool := false
  tagSeq : Nat := 0
  /-- What has been written to the socket. -/
  written : Latin1 := []
  pending : Option Pending := none
  done : List Done := []

/-- A command is sent, the socket gets data or is closed, the loop of the pending command tries to
read a line, or its deadline passes while it waits for data. -/
inductive Event where
  | command (cmd : Latin1)
  | chunk (bytes : Latin1)
  | close
  | read
  | timeout

namespace Session

def command (session : Session) (cmd : Latin1) : Session :=
  let tagSeq := session.tagSeq + 1
  { session with
    tagSeq
    written := session.written ++ (tagOf tagSeq ++ ' ' :: cmd ++ crlf)
    pending := some { tag := tagOf tagSeq } }

def finish (session : Session) (pending : Pending) (ending : Ending) : Session :=
  { session with
    pending := none
    done := session.done ++ [⟨pending.tag, pending.untagged, ending⟩] }

/-- What the loop of a command does with a line. -/
def receive (session : Session) (pending : Pending) (line : Latin1) : Session :=
  if ['+'] <+: line then session.finish pending (.continuation line)
  else if pending.tag ++ [' '] <+: line then session.finish pending (.tagged line)
  else { session with pending := some { pending with untagged := pending.untagged ++ [line] } }

def read (session : Session) (pending : Pending) : Session :=
  match tryParseLogicalLine session.buf with
  | some (line, rest) => { session with buf := rest }.receive pending line
  | none => if session.closed then session.finish pending .closed else session

def next (session : Session) : Event → Session
  | .command cmd => if session.pending.isSome then session else session.command cmd
  | .chunk bytes => { session with buf := session.buf ++ bytes }
  | .close => { session with closed := true }
  | .read =>
      match session.pending with
      | none => session
      | some pending => session.read pending
  | .timeout =>
      match session.pending with
      | none => session
      | some pending =>
          if (tryParseLogicalLine session.buf).isNone ∧ ¬ session.closed then
            session.finish pending .timeout
          else session

end Session

def run (events : List Event) : Session := events.foldl Session.next {}

/-- The bytes which have arrived. -/
def received (events : List Event) : Latin1 :=
  events.flatMap fun
    | .chunk bytes => bytes
    | _ => []

/-! ## Every line goes to one command -/

/-- The line which has ended a command. -/
def Ending.line : Ending → List Latin1
  | .tagged line | .continuation line => [line]
  | .closed | .timeout => []

/-- The lines which a command has taken from the connection. -/
def Done.lines (done : Done) : List Latin1 := done.untagged ++ done.ending.line

/-- The lines which the commands have taken. -/
def Session.consumed (session : Session) : List Latin1 :=
  session.done.flatMap Done.lines ++ (session.pending.map Pending.untagged).getD []

/-- The reader of lines below the session. -/
def Session.client (session : Session) : Client where
  buf := session.buf
  lines := session.consumed

theorem Session.client_finish {session : Session} {pending : Pending}
    (waits : session.pending = some pending) (ending : Ending) :
    (session.finish pending ending).client =
      ⟨session.buf, session.consumed ++ ending.line⟩ := by
  simp [client, consumed, finish, Done.lines, waits]

theorem Session.client_receive {session : Session} {pending : Pending}
    (waits : session.pending = some pending) (line : Latin1) :
    (session.receive pending line).client = ⟨session.buf, session.consumed ++ [line]⟩ := by
  rw [receive]
  split_ifs
  · exact client_finish waits _
  · exact client_finish waits _
  · simp [client, consumed, waits]

theorem Session.client_read {session : Session} {pending : Pending}
    (waits : session.pending = some pending) :
    (session.read pending).client = session.client.step .parse := by
  rw [read, Client.step]
  cases parsed : tryParseLogicalLine session.buf with
  | none =>
      have parsed : tryParseLogicalLine session.client.buf = none := parsed
      rw [parsed]
      dsimp only
      split_ifs
      · rw [client_finish waits, Ending.line, List.append_nil]
        rfl
      · rfl
  | some found =>
      have parsed : tryParseLogicalLine session.client.buf = some found := parsed
      rw [parsed]
      have waits : ({ session with buf := found.2 } : Session).pending = some pending := waits
      exact client_receive waits found.1

/-- A step of the session is one of the reader, or none. -/
theorem Session.client_next (session : Session) (event : Event) :
    (session.next event).client = session.client ∧ received [event] = [] ∨
      ∃ reading, (session.next event).client = session.client.step reading ∧
        Imap.received [reading] = received [event] := by
  cases event with
  | command cmd =>
      refine .inl ⟨?_, rfl⟩
      rw [next]
      split_ifs with busy
      · rfl
      · rw [Option.not_isSome_iff_eq_none] at busy
        simp [client, consumed, command, busy]
  | chunk bytes => exact .inr ⟨.chunk bytes, rfl, rfl⟩
  | close => exact .inl ⟨rfl, rfl⟩
  | read =>
      rw [next]
      cases waits : session.pending with
      | none => exact .inl ⟨rfl, rfl⟩
      | some pending => exact .inr ⟨.parse, client_read waits, rfl⟩
  | timeout =>
      refine .inl ⟨?_, rfl⟩
      rw [next]
      cases waits : session.pending with
      | none => rfl
      | some pending =>
          dsimp only
          split_ifs
          · rw [client_finish waits, Ending.line, List.append_nil]
            rfl
          · rfl

theorem run_append_singleton (events : List Event) (event : Event) :
    run (events ++ [event]) = (run events).next event := by
  rw [run, run, List.foldl_append]
  rfl

theorem received_append (events more : List Event) :
    received (events ++ more) = received events ++ received more := List.flatMap_append

theorem framed_run {lines : List LogicalLine} {events : List Event}
    (arrive : received events <+: encodeAll lines) :
    ∃ k, Imap.Framed lines (run events).client (received events) k := by
  induction events using List.reverseRecOn with
  | nil => exact ⟨0, Nat.zero_le _, rfl, rfl⟩
  | append_singleton events event ih =>
      rw [received_append] at arrive ⊢
      obtain ⟨k, framed⟩ := ih ((List.prefix_append _ _).trans arrive)
      rw [run_append_singleton]
      rcases (run events).client_next event with ⟨same, nothing⟩ | ⟨reading, same, bytes⟩
      · rw [same, nothing, List.append_nil]
        exact ⟨k, framed⟩
      · rw [← bytes] at arrive ⊢
        rw [same]
        exact framed.step reading arrive

/-! ## What a command takes -/

/-- A line at which the loop of a command goes on. -/
def Foreign (tag line : Latin1) : Prop := ¬ ['+'] <+: line ∧ ¬ tag ++ [' '] <+: line

/-- A line which ends a command is a continuation or bears the tag. -/
def Ending.Fits (tag : Latin1) : Ending → Prop
  | .tagged line => tag ++ [' '] <+: line
  | .continuation line => ['+'] <+: line
  | .closed | .timeout => True

structure Done.Shaped (done : Done) : Prop where
  untagged : ∀ line ∈ done.untagged, Foreign done.tag line
  ending : done.ending.Fits done.tag

structure Session.Shaped (session : Session) : Prop where
  /-- Every command has its own tag. -/
  tags : session.done.map Done.tag ++ (session.pending.map Pending.tag).toList =
    (List.range session.tagSeq).map fun n => tagOf (n + 1)
  done : ∀ done ∈ session.done, done.Shaped
  pending : ∀ pending ∈ session.pending, ∀ line ∈ pending.untagged, Foreign pending.tag line

theorem Session.Shaped.finish {session : Session} (shaped : session.Shaped) {pending : Pending}
    (waits : session.pending = some pending) {ending : Ending} (fits : ending.Fits pending.tag) :
    (session.finish pending ending).Shaped where
  tags := by
    have tags := shaped.tags
    rw [waits] at tags
    simpa [Session.finish] using tags
  done := by
    intro done member
    rcases List.mem_append.mp member with known | new
    · exact shaped.done done known
    · obtain rfl := List.mem_singleton.mp new
      exact ⟨shaped.pending pending waits, fits⟩
  pending := by
    intro other member
    cases member

theorem Session.Shaped.receive {session : Session} (shaped : session.Shaped) {pending : Pending}
    (waits : session.pending = some pending) (line : Latin1) :
    (session.receive pending line).Shaped := by
  rw [Session.receive]
  split_ifs with plus mine
  · exact shaped.finish waits plus
  · exact shaped.finish waits mine
  · refine ⟨?_, shaped.done, ?_⟩
    · have tags := shaped.tags
      rw [waits] at tags
      exact tags
    · rintro other ⟨⟩ known member
      rcases List.mem_append.mp member with old | new
      · exact shaped.pending pending waits known old
      · obtain rfl := List.mem_singleton.mp new
        exact ⟨plus, mine⟩

theorem Session.Shaped.next {session : Session} (shaped : session.Shaped) (event : Event) :
    (session.next event).Shaped := by
  cases event with
  | command cmd =>
      rw [Session.next]
      split_ifs with busy
      · exact shaped
      · rw [Option.not_isSome_iff_eq_none] at busy
        refine ⟨?_, shaped.done, ?_⟩
        · have tags := shaped.tags
          rw [busy] at tags
          simpa [Session.command, List.range_succ] using tags
        · rintro other ⟨⟩ line ⟨⟩
  | chunk bytes => exact ⟨shaped.tags, shaped.done, shaped.pending⟩
  | close => exact ⟨shaped.tags, shaped.done, shaped.pending⟩
  | read =>
      rw [Session.next]
      cases waits : session.pending with
      | none => exact shaped
      | some pending =>
          dsimp only
          rw [Session.read]
          split
          · next line rest _ =>
            have moved : ({ session with buf := rest } : Session).Shaped :=
              ⟨shaped.tags, shaped.done, shaped.pending⟩
            exact moved.receive waits line
          · split_ifs
            · exact shaped.finish waits trivial
            · exact shaped
  | timeout =>
      rw [Session.next]
      cases waits : session.pending with
      | none => exact shaped
      | some pending =>
          dsimp only
          split_ifs
          · exact shaped.finish waits trivial
          · exact shaped

theorem shaped_run (events : List Event) : (run events).Shaped := by
  induction events using List.reverseRecOn with
  | nil => exact ⟨rfl, fun _ => nofun, fun _ => nofun⟩
  | append_singleton events event ih =>
      rw [run_append_singleton]
      exact ih.next event

/-! ## Tags -/

theorem value_tag (n : Nat) : Decimal.value (tagOf n).tail = n := by
  have zeros : ∀ k, Decimal.value (List.replicate k '0' ++ Nat.toDigits 10 n) = n := by
    intro k
    induction k with
    | zero => exact Decimal.value_toDigits n
    | succ k ih => exact ih
  exact zeros _

theorem space_notMem_tagOf (n : Nat) : ' ' ∉ tagOf n := by
  rw [tagOf, List.mem_cons, List.mem_append, not_or, not_or]
  refine ⟨by decide, fun zero => ?_, fun digit => ?_⟩
  · exact absurd (List.eq_of_mem_replicate zero) (by decide)
  · exact absurd (Nat.isDigit_of_mem_toDigits (by decide) (by decide) digit) (by decide)

theorem tagOf_inj {n other : Nat} (same : tagOf n = tagOf other) : n = other := by
  rw [← value_tag n, same, value_tag]

/-- The tag of a line is what stands before its first space. -/
theorem takeWhile_of_tag {n : Nat} {line : Latin1} (mine : tagOf n ++ [' '] <+: line) :
    line.takeWhile (· ≠ ' ') = tagOf n := by
  obtain ⟨rest, rfl⟩ := mine
  have letters : ∀ c ∈ tagOf n, decide (c ≠ ' ') = true := by
    intro c member
    apply decide_eq_true
    rintro rfl
    exact space_notMem_tagOf n member
  rw [List.append_assoc, List.takeWhile_append_of_pos letters, List.singleton_append,
    List.takeWhile_cons_of_neg (by simp), List.append_nil]

theorem tag_unique {n other : Nat} {line : Latin1} (mine : tagOf n ++ [' '] <+: line)
    (another : tagOf other ++ [' '] <+: line) : n = other :=
  tagOf_inj ((takeWhile_of_tag mine).symm.trans (takeWhile_of_tag another))

/-- Whatever a server sends, in whatever chunks, and however the commands end: the lines which the
commands have taken, in their order, are the first lines of the connection, and the buffer holds
the rest of what has arrived. A command takes lines of others up to a continuation or to the line
under its own tag, and no two commands have the same tag. -/
theorem session_lines (lines : List LogicalLine) (events : List Event)
    (arrive : received events <+: encodeAll lines) :
    (∃ k ≤ lines.length, (run events).consumed = (lines.take k).map LogicalLine.text ∧
      encodeAll (lines.take k) ++ (run events).buf = received events) ∧
    (run events).Shaped ∧
    ((run events).done.map Done.tag).Nodup := by
  obtain ⟨k, few, consumed, rest⟩ := framed_run arrive
  have shaped := shaped_run events
  refine ⟨⟨k, few, consumed, rest⟩, shaped, ?_⟩
  have distinct : ((List.range (run events).tagSeq).map fun n => tagOf (n + 1)).Nodup :=
    List.nodup_range.map fun _ _ same => Nat.succ.inj (tagOf_inj same)
  rw [← shaped.tags] at distinct
  exact (List.nodup_append.mp distinct).1

/-! ## A server which answers in turn -/

/-- What a server sends for a command: any lines without tags, and the line under the tag. -/
structure Answer where
  untagged : List LogicalLine
  tagged : LogicalLine

def Answer.lines (answer : Answer) : List LogicalLine := answer.untagged ++ [answer.tagged]

def stream (answers : List Answer) : List LogicalLine := answers.flatMap Answer.lines

/-- The answers are to the first, the second and so on of the commands. -/
structure Proper (answers : List Answer) : Prop where
  tagged : ∀ {n : Nat} {answer : Answer}, answers[n]? = some answer →
    tagOf (n + 1) ++ [' '] <+: answer.tagged.text
  untagged : ∀ answer ∈ answers, ∀ line ∈ answer.untagged, ∀ n, Foreign (tagOf n) line.text

/-- The lines before the one under a tag. -/
def ahead (answers : List Answer) (n : Nat) : List LogicalLine :=
  stream (answers.take n) ++ (answers[n]?.map Answer.untagged).getD []

theorem stream_take_succ {answers : List Answer} {n : Nat} {answer : Answer}
    (found : answers[n]? = some answer) :
    stream (answers.take (n + 1)) = ahead answers n ++ [answer.tagged] := by
  rw [stream, ahead, stream, List.take_add_one, found, List.flatMap_append]
  simp [Answer.lines]

theorem stream_take_starts (answers : List Answer) (n : Nat) :
    stream (answers.take n) <+: stream answers := by
  refine ⟨stream (answers.drop n), ?_⟩
  rw [stream, stream, ← List.flatMap_append, List.take_append_drop, stream]

theorem ahead_of_none {answers : List Answer} {n : Nat} (absent : answers[n]? = none) :
    ahead answers n = stream answers := by
  rw [ahead, absent, List.take_of_length_le (List.getElem?_eq_none_iff.mp absent)]
  exact List.append_nil _

theorem ahead_starts (answers : List Answer) (n : Nat) :
    ahead answers n <+: stream (answers.take (n + 1)) := by
  cases found : answers[n]? with
  | none =>
      have few : answers.length ≤ n := List.getElem?_eq_none_iff.mp found
      rw [ahead_of_none found, List.take_of_length_le (by omega)]
  | some answer =>
      rw [stream_take_succ found]
      exact List.prefix_append _ _

/-- The line behind those before the n-th tag is the one under it. -/
theorem tagged_of_ahead {answers : List Answer} {n : Nat} {line : LogicalLine}
    (found : (stream answers)[(ahead answers n).length]? = some line) :
    ∃ answer, answers[n]? = some answer ∧ line = answer.tagged := by
  cases here : answers[n]? with
  | none =>
      rw [ahead_of_none here, List.getElem?_length] at found
      cases found
  | some answer =>
      obtain ⟨rest, whole⟩ := stream_take_starts answers (n + 1)
      rw [stream_take_succ here, List.append_assoc] at whole
      rw [← whole, List.getElem?_append_right le_rfl, Nat.sub_self] at found
      exact ⟨answer, rfl, (Option.some.inj found).symm⟩

theorem Proper.foreign_tagged {answers : List Answer} (proper : Proper answers) {n other : Nat}
    {answer : Answer} (found : answers[other]? = some answer) (ne : other ≠ n) :
    Foreign (tagOf (n + 1)) answer.tagged.text := by
  have mine := proper.tagged found
  constructor
  · rintro ⟨rest, text⟩
    obtain ⟨more, same⟩ := mine
    rw [← text] at same
    exact absurd (List.cons.inj same).1 (by decide)
  · intro another
    exact ne (Nat.succ.inj (tag_unique mine another))

theorem Proper.foreign {answers : List Answer} (proper : Proper answers) {n : Nat}
    {line : LogicalLine} (member : line ∈ ahead answers n) :
    Foreign (tagOf (n + 1)) line.text := by
  rcases List.mem_append.mp member with earlier | own
  · obtain ⟨answer, taken, inside⟩ := List.mem_flatMap.mp earlier
    rcases List.mem_append.mp inside with plain | last
    · exact proper.untagged answer (List.mem_of_mem_take taken) line plain _
    · obtain rfl := List.mem_singleton.mp last
      obtain ⟨other, short, found⟩ := List.mem_iff_getElem.mp taken
      rw [List.length_take] at short
      rw [List.getElem_take] at found
      exact proper.foreign_tagged (List.getElem?_eq_some_iff.mpr ⟨_, found⟩) (by omega)
  · cases found : answers[n]? with
    | none =>
        rw [found] at own
        cases own
    | some answer =>
        rw [found] at own
        exact proper.untagged answer (List.mem_of_getElem? found) line own _

/-- What is known of the n-th command which has ended. -/
def Settled (answers : List Answer) (done : List Done) (n : Nat) : Ending → Prop
  | .tagged line => ∃ answer, answers[n]? = some answer ∧ line = answer.tagged.text ∧
      (done.take (n + 1)).flatMap Done.lines =
        (stream (answers.take (n + 1))).map LogicalLine.text
  | .continuation _ => False
  | .closed | .timeout =>
      (done.take (n + 1)).flatMap Done.lines <+: (ahead answers n).map LogicalLine.text

structure Matched (answers : List Answer) (session : Session) : Prop where
  count : session.tagSeq = session.done.length + session.pending.toList.length
  idle : session.pending = none →
    session.consumed <+: (stream (answers.take session.done.length)).map LogicalLine.text
  pending : ∀ {pending : Pending}, session.pending = some pending →
    pending.tag = tagOf (session.done.length + 1) ∧
      session.consumed <+: (ahead answers session.done.length).map LogicalLine.text
  done : ∀ {n : Nat} {done : Done}, session.done[n]? = some done →
    Settled answers session.done n done.ending

/-- What has ended stays as it was when another command ends. -/
theorem Settled.append {answers : List Answer} {done : List Done} {n : Nat} {ending : Ending}
    (settled : Settled answers done n ending) (inside : n < done.length) (last : Done) :
    Settled answers (done ++ [last]) n ending := by
  have same : (done ++ [last]).take (n + 1) = done.take (n + 1) :=
    List.take_append_of_le_length inside
  cases ending with
  | tagged line =>
      obtain ⟨answer, found, text, taken⟩ := settled
      exact ⟨answer, found, text, same ▸ taken⟩
  | continuation line => exact settled
  | closed =>
      rw [Settled, same]
      exact settled
  | timeout =>
      rw [Settled, same]
      exact settled

theorem Session.consumed_idle {session : Session} (idle : session.pending = none) :
    session.consumed = session.done.flatMap Done.lines := by
  rw [consumed, idle]
  exact List.append_nil _

/-- A command ends: the ones before it stay as they were. -/
theorem Matched.finish {answers : List Answer} {session : Session}
    (matched : Matched answers session) {pending : Pending}
    (waits : session.pending = some pending) {ending : Ending}
    (settled : Settled answers (session.finish pending ending).done session.done.length ending) :
    Matched answers (session.finish pending ending) where
  count := by
    have count := matched.count
    rw [waits] at count
    simpa [Session.finish] using count
  idle _ := by
    have length : (session.finish pending ending).done.length = session.done.length + 1 := by
      simp [Session.finish]
    have all : (session.finish pending ending).done.take (session.done.length + 1) =
        (session.finish pending ending).done := List.take_of_length_le length.le
    rw [Session.consumed_idle rfl, length]
    cases ending with
    | tagged line =>
        obtain ⟨answer, -, -, taken⟩ := settled
        rw [all] at taken
        exact taken ▸ List.prefix_rfl
    | continuation line => exact settled.elim
    | closed =>
        rw [Settled, all] at settled
        exact settled.trans ((ahead_starts answers _).map _)
    | timeout =>
        rw [Settled, all] at settled
        exact settled.trans ((ahead_starts answers _).map _)
  pending := nofun
  done := by
    intro n done found
    rcases Nat.lt_or_ge n session.done.length with old | new
    · have known : session.done[n]? = some done := by
        rwa [Session.finish, List.getElem?_append_left old] at found
      exact (matched.done known).append old _
    · have last : n = session.done.length := by
        have inside := (List.getElem?_eq_some_iff.mp found).1
        simp only [Session.finish, List.length_append, List.length_singleton] at inside
        omega
      subst last
      rw [Session.finish, List.getElem?_append_right le_rfl, Nat.sub_self] at found
      cases Option.some.inj found
      exact settled

/-- A command which ends without a line has taken what it had taken. -/
theorem Matched.give_up {answers : List Answer} {session : Session}
    (matched : Matched answers session) {pending : Pending}
    (waits : session.pending = some pending) {ending : Ending}
    (quiet : ending = .closed ∨ ending = .timeout) :
    Matched answers (session.finish pending ending) := by
  have taken : (session.finish pending ending).done.flatMap Done.lines = session.consumed := by
    have client := congrArg Client.lines (Session.client_finish waits ending)
    rcases quiet with rfl | rfl
    · exact (Session.consumed_idle rfl).symm.trans (client.trans (List.append_nil _))
    · exact (Session.consumed_idle rfl).symm.trans (client.trans (List.append_nil _))
  have all : (session.finish pending ending).done.take (session.done.length + 1) =
      (session.finish pending ending).done :=
    List.take_of_length_le (by simp [Session.finish])
  have before := (matched.pending waits).2
  apply matched.finish waits
  rcases quiet with rfl | rfl
  · rw [Settled, all, taken]
    exact before
  · rw [Settled, all, taken]
    exact before

/-- A command receives the next line of the stream. -/
theorem Matched.receive {answers : List Answer} (proper : Proper answers) {session : Session}
    (matched : Matched answers session) {pending : Pending}
    (waits : session.pending = some pending) {k : Nat} {line : LogicalLine}
    (next : (stream answers)[k]? = some line)
    (consumed : session.consumed = ((stream answers).take k).map LogicalLine.text) :
    Matched answers (session.receive pending line.text) := by
  obtain ⟨tag, before⟩ := matched.pending waits
  have inside := (List.getElem?_eq_some_iff.mp next).1
  have grown : session.consumed ++ [line.text] =
      ((stream answers).take (k + 1)).map LogicalLine.text := by
    rw [consumed, List.take_add_one, next, List.map_append]
    rfl
  have short : k ≤ (ahead answers session.done.length).length := by
    have length := before.length_le
    rw [consumed, List.length_map, List.length_map, List.length_take] at length
    omega
  have first : ahead answers session.done.length <+: stream answers :=
    (ahead_starts answers _).trans (stream_take_starts answers _)
  rw [Session.receive]
  rcases Nat.lt_or_eq_of_le short with more | last
  · have member : line ∈ ahead answers session.done.length := by
      obtain ⟨rest, whole⟩ := first
      rw [← whole, List.getElem?_append_left more] at next
      exact List.mem_of_getElem? next
    have foreign := proper.foreign member
    rw [if_neg foreign.1, tag, if_neg foreign.2]
    refine ⟨?_, nofun, ?_, matched.done⟩
    · have count := matched.count
      rw [waits] at count
      exact count
    · rintro other ⟨⟩
      have taken : (stream answers).take (k + 1) <+: ahead answers session.done.length :=
        List.prefix_of_prefix_length_le (List.take_prefix _ _) first
          ((List.length_take_le _ _).trans more)
      have lines : session.done.flatMap Done.lines ++ (pending.untagged ++ [line.text]) =
          session.consumed ++ [line.text] := by
        rw [Session.consumed, waits, Option.map_some, Option.getD_some, List.append_assoc]
      refine ⟨rfl, ?_⟩
      change session.done.flatMap Done.lines ++ (pending.untagged ++ [line.text]) <+: _
      rw [lines, grown]
      exact taken.map _
  · subst last
    obtain ⟨answer, found, rfl⟩ := tagged_of_ahead next
    have mine := proper.tagged found
    have plus : ¬ ['+'] <+: answer.tagged.text := by
      rintro ⟨rest, text⟩
      obtain ⟨more, same⟩ := mine
      rw [← text] at same
      exact absurd (List.cons.inj same).1 (by decide)
    rw [if_neg plus, tag, if_pos mine]
    have client := congrArg Client.lines
      (Session.client_finish waits (.tagged answer.tagged.text))
    have taken := (Session.consumed_idle rfl).symm.trans client
    have through : (stream answers).take ((ahead answers session.done.length).length + 1) =
        stream (answers.take (session.done.length + 1)) := by
      have whole := stream_take_starts answers (session.done.length + 1)
      rw [stream_take_succ found] at whole ⊢
      rw [List.prefix_iff_eq_take.mp whole, List.length_append]
      rfl
    apply matched.finish waits
    refine ⟨answer, found, rfl, ?_⟩
    rw [List.take_of_length_le (by simp [Session.finish]), taken]
    exact grown.trans (congrArg (List.map LogicalLine.text) through)

theorem Matched.read {answers : List Answer} (proper : Proper answers) {session : Session}
    (matched : Matched answers session) {pending : Pending}
    (waits : session.pending = some pending) {arrived : Latin1} {k : Nat}
    (framed : Imap.Framed (stream answers) session.client arrived k)
    (arrive : arrived <+: encodeAll (stream answers)) :
    Matched answers (session.read pending) := by
  rw [Session.read]
  split
  · next line rest parsed =>
    have next := (framed.parse arrive).symm.trans parsed
    obtain ⟨logical, found, whole⟩ := Option.bind_eq_some_iff.mp next
    split_ifs at whole
    obtain ⟨rfl, -⟩ := Prod.mk.inj (Option.some.inj whole)
    have moved : Matched answers { session with buf := rest } :=
      ⟨matched.count, matched.idle, matched.pending, matched.done⟩
    exact moved.receive proper waits found framed.2.1
  · split_ifs
    · exact matched.give_up waits (.inl rfl)
    · exact matched

theorem Matched.next {answers : List Answer} (proper : Proper answers) {session : Session}
    (matched : Matched answers session) {arrived : Latin1} {k : Nat}
    (framed : Imap.Framed (stream answers) session.client arrived k)
    (arrive : arrived <+: encodeAll (stream answers)) (event : Event) :
    Matched answers (session.next event) := by
  cases event with
  | command cmd =>
      rw [Session.next]
      split_ifs with busy
      · exact matched
      · rw [Option.not_isSome_iff_eq_none] at busy
        have count := matched.count
        rw [busy] at count
        refine ⟨?_, nofun, ?_, matched.done⟩
        · simpa [Session.command] using count
        · rintro other ⟨⟩
          refine ⟨congrArg (fun n => tagOf (n + 1)) count, ?_⟩
          have before := matched.idle busy
          rw [Session.consumed_idle busy] at before
          change session.done.flatMap Done.lines ++ [] <+: _
          rw [List.append_nil]
          exact before.trans ((List.prefix_append _ _).map _)
  | chunk bytes => exact ⟨matched.count, matched.idle, matched.pending, matched.done⟩
  | close => exact ⟨matched.count, matched.idle, matched.pending, matched.done⟩
  | read =>
      rw [Session.next]
      cases waits : session.pending with
      | none => exact matched
      | some pending => exact matched.read proper waits framed arrive
  | timeout =>
      rw [Session.next]
      cases waits : session.pending with
      | none => exact matched
      | some pending =>
          dsimp only
          split_ifs
          · exact matched.give_up waits (.inr rfl)
          · exact matched

theorem matched_run {answers : List Answer} (proper : Proper answers) {events : List Event}
    (arrive : received events <+: encodeAll (stream answers)) :
    Matched answers (run events) := by
  induction events using List.reverseRecOn with
  | nil => exact ⟨rfl, fun _ => List.nil_prefix, nofun, nofun⟩
  | append_singleton events event ih =>
      rw [received_append] at arrive
      have earlier := (List.prefix_append _ _).trans arrive
      obtain ⟨k, framed⟩ := framed_run earlier
      rw [run_append_singleton]
      exact (ih earlier).next proper framed earlier event

/-- The commands up to an answered one have taken all the lines up to its answer. -/
theorem Matched.through {answers : List Answer} {session : Session}
    (matched : Matched answers session) {n : Nat} {done : Done}
    (found : session.done[n]? = some done) {line : Latin1} (tagged : done.ending = .tagged line) :
    ∃ answer, answers[n]? = some answer ∧ line = answer.tagged.text ∧
      (session.done.take n).flatMap Done.lines ++ done.untagged =
        (ahead answers n).map LogicalLine.text ∧
      (session.done.take (n + 1)).flatMap Done.lines =
        (stream (answers.take (n + 1))).map LogicalLine.text := by
  have settled := matched.done found
  rw [tagged] at settled
  obtain ⟨answer, here, rfl, taken⟩ := settled
  refine ⟨answer, here, rfl, ?_, taken⟩
  rw [stream_take_succ here, List.take_add_one, found, List.flatMap_append, List.map_append,
    Option.toList_some, List.flatMap_singleton, Done.lines, tagged, Ending.line,
    ← List.append_assoc] at taken
  exact List.append_cancel_right taken

/-- The line under the tag is not among those before it. -/
theorem short_of_ahead {answers : List Answer} {n : Nat} (inside : n < answers.length)
    {texts : List Latin1} (taken : texts <+: (ahead answers n).map LogicalLine.text) :
    texts ≠ (stream (answers.take (n + 1))).map LogicalLine.text := by
  rintro rfl
  have length := taken.length_le
  rw [stream_take_succ (List.getElem?_eq_getElem inside), List.map_append,
    List.length_append] at length
  exact absurd length (by simp)

/-- A server answers the commands in their turn, in whatever chunks, and some commands may run out
of time. A command which is answered gets the line under its own tag, and before it whatever the
commands before it have left of the stream: just its own lines if and only if it is the first one,
or the command before it was answered as well. -/
theorem answers_matched {answers : List Answer} (proper : Proper answers) (events : List Event)
    (arrive : received events <+: encodeAll (stream answers)) (n : Nat) (done : Done)
    (found : (run events).done[n]? = some done) :
    (∀ line, done.ending ≠ .continuation line) ∧
    ∀ line, done.ending = .tagged line → ∃ answer, answers[n]? = some answer ∧
      line = answer.tagged.text ∧
      ((run events).done.take n).flatMap Done.lines ++ done.untagged =
        (ahead answers n).map LogicalLine.text ∧
      (done.untagged = answer.untagged.map LogicalLine.text ↔
        ∀ m before, n = m + 1 → (run events).done[m]? = some before →
          ∃ line, before.ending = .tagged line) := by
  have matched := matched_run proper arrive
  refine ⟨fun line continued => ?_, fun line tagged => ?_⟩
  · have settled := matched.done found
    rw [continued] at settled
    exact settled
  · obtain ⟨answer, here, text, taken, -⟩ := matched.through found tagged
    refine ⟨answer, here, text, taken, ?_⟩
    rw [ahead, here, Option.map_some, Option.getD_some, List.map_append] at taken
    -- what is left over are the lines of the earlier answers which nobody has taken
    have clean : done.untagged = answer.untagged.map LogicalLine.text ↔
        ((run events).done.take n).flatMap Done.lines =
          (stream (answers.take n)).map LogicalLine.text := by
      constructor
      · intro same
        rw [same] at taken
        exact List.append_cancel_right taken
      · intro same
        rw [same] at taken
        exact List.append_cancel_left taken
    rw [clean]
    cases n with
    | zero => exact iff_of_true rfl nofun
    | succ m =>
        have known : (run events).done[m]? ≠ none := fun absent => by
          have short := List.getElem?_eq_none_iff.mp absent
          rw [List.getElem?_eq_none_iff.mpr (by omega)] at found
          cases found
        obtain ⟨before, earlier⟩ := Option.ne_none_iff_exists'.mp known
        have inside : m < answers.length := by
          have last := (List.getElem?_eq_some_iff.mp here).1
          omega
        constructor
        · rintro all _ _ ⟨⟩ other
          cases earlier.symm.trans other
          cases ending : before.ending with
          | tagged line => exact ⟨line, rfl⟩
          | continuation line =>
              have settled := matched.done earlier
              rw [ending] at settled
              exact settled.elim
          | closed =>
              have settled := matched.done earlier
              rw [ending] at settled
              exact absurd all (short_of_ahead inside settled)
          | timeout =>
              have settled := matched.done earlier
              rw [ending] at settled
              exact absurd all (short_of_ahead inside settled)
        · intro answered
          obtain ⟨line, tagged⟩ := answered m before rfl earlier
          obtain ⟨-, -, -, -, through⟩ := matched.through earlier tagged
          exact through

/-! ## A command whose answer has arrived -/

/-- A line ends the command, or leaves those which have ended as they were. -/
theorem Session.done_of_line {session : Session} (pending : Pending)
    (line : (tryParseLogicalLine session.buf).isSome = true) :
    (∃ ending, ending.line ≠ [] ∧
      (session.read pending).done = session.done ++ [⟨pending.tag, pending.untagged, ending⟩]) ∨
    (∃ other, (session.read pending).pending = some other ∧ other.tag = pending.tag) ∧
      (session.read pending).done = session.done := by
  obtain ⟨⟨line, rest⟩, parsed⟩ := Option.isSome_iff_exists.mp line
  rw [read, parsed]
  dsimp only
  rw [receive]
  split_ifs
  · exact .inl ⟨.continuation line, List.cons_ne_nil _ _, rfl⟩
  · exact .inl ⟨.tagged line, List.cons_ne_nil _ _, rfl⟩
  · exact .inr ⟨⟨_, rfl, rfl⟩, rfl⟩

/-- The buffer begins with the next line as long as the answer has not been taken. -/
theorem next_of_arrived {answers : List Answer} {session : Session} {arrived : Latin1} {k n : Nat}
    (framed : Imap.Framed (stream answers) session.client arrived k)
    (short : k < (stream (answers.take n)).length)
    (all : encodeAll (stream (answers.take n)) <+: arrived) :
    ∃ line, (stream answers)[k]? = some line ∧ line.encode <+: session.client.buf := by
  obtain ⟨rest, whole⟩ := stream_take_starts answers n
  have next : (stream answers)[k]? = some (stream (answers.take n))[k] := by
    rw [← whole, List.getElem?_append_left short, List.getElem?_eq_getElem short]
  refine ⟨_, next, ?_⟩
  have front : (stream answers).take k = (stream (answers.take n)).take k := by
    rw [← whole, List.take_append_of_le_length short.le]
  have split := framed.2.2
  rw [front] at split
  rw [← split, ← Imap.encodeAll_take_append _ k, List.prefix_append_right_inj,
    List.drop_eq_getElem_cons short] at all
  exact (List.prefix_append _ _).trans all

theorem Matched.reads {answers : List Answer} (proper : Proper answers) {session : Session}
    (matched : Matched answers session) {arrived : Latin1} {k : Nat}
    (framed : Imap.Framed (stream answers) session.client arrived k)
    (arrive : arrived <+: encodeAll (stream answers)) {pending : Pending}
    (waits : session.pending = some pending) {answer : Answer}
    (here : answers[session.done.length]? = some answer)
    (all : encodeAll (stream (answers.take (session.done.length + 1))) <+: arrived) {room : Nat}
    (enough : (stream (answers.take (session.done.length + 1))).length ≤ k + room) :
    ∃ m ≤ room, ∃ untagged, ((List.replicate m Event.read).foldl Session.next session).done =
      session.done ++ [⟨pending.tag, untagged, .tagged answer.tagged.text⟩] := by
  have size : (stream (answers.take (session.done.length + 1))).length =
      (ahead answers session.done.length).length + 1 := by
    rw [stream_take_succ here, List.length_append]
    rfl
  have taken : k ≤ (ahead answers session.done.length).length := by
    have length := (matched.pending waits).2.length_le
    have consumed := congrArg List.length framed.2.1
    rw [List.length_map, List.length_take, Nat.min_eq_left framed.1] at consumed
    rw [← consumed]
    rwa [List.length_map] at length
  induction room generalizing session k pending with
  | zero => omega
  | succ room ih =>
      obtain ⟨line, next, whole⟩ := next_of_arrived framed (by omega) all
      have reads : session.next .read = session.read pending := by
        rw [Session.next, waits]
      have after := framed.next arrive next whole
      rw [← Session.client_read waits] at after
      have later : Matched answers (session.read pending) :=
        matched.read proper waits framed arrive
      have parsed : (tryParseLogicalLine session.buf).isSome = true := by
        have found := framed.parse arrive
        rw [next, Option.bind_some, if_pos whole] at found
        rw [show tryParseLogicalLine session.buf = _ from found]
        rfl
      rcases Session.done_of_line pending parsed with ⟨ending, nonempty, done⟩ |
        ⟨⟨other, waiting, tag⟩, done⟩
      · refine ⟨1, by omega, pending.untagged, ?_⟩
        have last : (session.read pending).done[session.done.length]? =
            some ⟨pending.tag, pending.untagged, ending⟩ := by
          rw [done, List.getElem?_append_right le_rfl, Nat.sub_self]
          rfl
        have settled := later.done last
        rw [List.replicate_one, List.foldl_cons, List.foldl_nil, reads, done]
        cases ending with
        | tagged line =>
            obtain ⟨same, found, rfl, -⟩ := settled
            cases here.symm.trans found
            rfl
        | continuation line => exact settled.elim
        | closed => exact absurd rfl nonempty
        | timeout => exact absurd rfl nonempty
      · rw [← done] at here all enough size taken
        have position := (later.pending waiting).2.length_le
        have consumed := congrArg List.length after.2.1
        rw [List.length_map, List.length_take, Nat.min_eq_left after.1] at consumed
        rw [List.length_map] at position
        obtain ⟨m, few, untagged, ends⟩ := ih later after waiting here all (by omega) size
          (consumed ▸ position)
        refine ⟨m + 1, by omega, untagged, ?_⟩
        rw [List.replicate_succ, List.foldl_cons, reads, ends, done, tag]

/-- Once the whole answer to the pending command has arrived, the command ends with it after as
many reads as there are lines, unless they are interrupted by its deadline. -/
theorem answer_read {answers : List Answer} (proper : Proper answers) (events : List Event)
    (arrive : received events <+: encodeAll (stream answers)) {pending : Pending}
    (waits : (run events).pending = some pending) {answer : Answer}
    (here : answers[(run events).done.length]? = some answer)
    (all : encodeAll (stream (answers.take ((run events).done.length + 1))) <+: received events) :
    ∃ m ≤ (stream (answers.take ((run events).done.length + 1))).length, ∃ untagged,
      (run (events ++ List.replicate m .read)).done =
        (run events).done ++ [⟨pending.tag, untagged, .tagged answer.tagged.text⟩] := by
  obtain ⟨k, framed⟩ := framed_run arrive
  obtain ⟨m, few, untagged, ends⟩ := (matched_run proper arrive).reads proper framed arrive waits
    here all (Nat.le_add_left _ _)
  refine ⟨m, few, untagged, ?_⟩
  rw [run, List.foldl_append]
  exact ends

/-! ## An answer which comes too late -/

/-- A line which begins with a star is no line of a tag. -/
theorem foreign_star (n : Nat) (text : Latin1) : Foreign (tagOf n) ('*' :: text) := by
  constructor
  · rintro ⟨rest, same⟩
    exact absurd (List.cons.inj same).1 (by decide)
  · rintro ⟨rest, same⟩
    exact absurd (List.cons.inj same).1 (by decide)

def plainLine (text : Latin1) (free : ¬ crlf <:+: text) (plain : Imap.announced text = none) :
    LogicalLine := ⟨[], text, free, plain⟩

def firstAnswer : Answer where
  untagged := []
  tagged := plainLine "A0001 OK".toList (by decide) (by decide)

def secondAnswer : Answer where
  untagged := [plainLine "* SEARCH 7".toList (by decide) (by decide)]
  tagged := plainLine "A0002 OK".toList (by decide) (by decide)

theorem proper_answers : Proper [firstAnswer, secondAnswer] where
  tagged := by
    intro n answer found
    match n with
    | 0 =>
        cases found
        exact by decide
    | 1 =>
        cases found
        exact by decide
    | n + 2 => cases found
  untagged := by
    intro answer member line inside n
    rcases List.mem_cons.mp member with rfl | member
    · cases inside
    · obtain rfl := List.mem_singleton.mp member
      obtain rfl := List.mem_singleton.mp inside
      exact foreign_star n _

/-- The first command runs out of time, and its answer arrives with the one to the second. -/
def lateAnswer : List Event :=
  [.command "NOOP".toList, .chunk "A00".toList, .read, .timeout, .command "UID SEARCH ALL".toList,
    .chunk "01 OK\r\n* SEARCH 7\r\nA0002 OK\r\n".toList]

/-- Of the three lines two are read, and the last is left to the buffer. -/
theorem session_lines_late :
    (run (lateAnswer ++ List.replicate 2 .read)).consumed =
        ((stream [firstAnswer, secondAnswer]).take 2).map LogicalLine.text ∧
      (run (lateAnswer ++ List.replicate 2 .read)).buf = "A0002 OK\r\n".toList := by
  obtain ⟨⟨k, few, consumed, -⟩, -, -⟩ := session_lines (stream [firstAnswer, secondAnswer])
    (lateAnswer ++ List.replicate 2 .read) (by decide)
  have taken : (run (lateAnswer ++ List.replicate 2 .read)).consumed.length = 2 := by
    decide +kernel
  have two : k = 2 := by
    have lengths := congrArg List.length consumed
    rw [List.length_map, List.length_take, taken] at lengths
    omega
  exact ⟨two ▸ consumed, by decide +kernel⟩

/-- The second command has got the answer to the first. -/
def lateDone : Done :=
  ⟨"A0002".toList, ["A0001 OK".toList, "* SEARCH 7".toList], .tagged "A0002 OK".toList⟩

theorem run_lateAnswer : (run (lateAnswer ++ List.replicate 3 .read)).done =
    [⟨"A0001".toList, [], .timeout⟩, lateDone] := by
  decide +kernel

theorem answers_matched_late :
    lateDone.untagged ≠ secondAnswer.untagged.map LogicalLine.text := by
  have found : (run (lateAnswer ++ List.replicate 3 .read)).done[1]? = some lateDone := by
    rw [run_lateAnswer]
    rfl
  obtain ⟨answer, here, -, -, clean⟩ := (answers_matched proper_answers
    (lateAnswer ++ List.replicate 3 .read) (by decide) 1 lateDone found).2 _ rfl
  cases Option.some.inj here
  intro same
  obtain ⟨line, tagged⟩ := clean.mp same 0 ⟨"A0001".toList, [], .timeout⟩ rfl (by
    rw [run_lateAnswer]
    rfl)
  cases tagged

theorem answer_read_late : ∃ m ≤ 3, ∃ untagged,
    (run (lateAnswer ++ List.replicate m .read)).done =
      (run lateAnswer).done ++ [⟨"A0002".toList, untagged, .tagged "A0002 OK".toList⟩] := by
  have waits : (run lateAnswer).pending = some ⟨"A0002".toList, []⟩ := by decide +kernel
  have one : (run lateAnswer).done.length = 1 := by decide +kernel
  have here : [firstAnswer, secondAnswer][(run lateAnswer).done.length]? = some secondAnswer := by
    rw [one]
    rfl
  obtain ⟨m, few, ends⟩ := answer_read proper_answers lateAnswer (by decide) waits here
    (by rw [one]; decide)
  rw [one] at few
  exact ⟨m, few, ends⟩

end ImapSession
end Steam
end DotaCollector
