import DotaCollector.Library.Champion
import Mathlib.Algebra.Order.Ring.Rat
import Mathlib.Data.List.Nodup

/-!
# Choosing among pending confirmations

Of the pending requests for an API key only the newest is accepted. The newest is found by going
through the list with a comparison which takes the times of creation where both are known, and
else the ids.
-/

namespace DotaCollector
namespace Steam

open Champion

/-! ## Texts -/

/-- A text is the list of its UTF-16 code units. -/
abbrev Text := List UInt16

/-- A text without supplementary characters. -/
def units (s : String) : Text := s.toList.map fun c => UInt16.ofNat c.toNat

/-- `StrWhiteSpaceChar`. -/
def isSpace (unit : UInt16) : Bool :=
  unit ∈ [0x09, 0x0a, 0x0b, 0x0c, 0x0d, 0x20, 0xa0, 0x1680, 0x2028, 0x2029, 0x202f, 0x205f, 0x3000,
    0xfeff] || (0x2000 ≤ unit && unit ≤ 0x200a)

def trim (text : Text) : Text :=
  ((text.dropWhile isSpace).reverse.dropWhile isSpace).reverse

def digit (unit : UInt16) : Option Nat :=
  if 0x30 ≤ unit && unit ≤ 0x39 then some (unit.toNat - 0x30)
  else if 0x41 ≤ unit && unit ≤ 0x5a then some (unit.toNat - 0x41 + 10)
  else if 0x61 ≤ unit && unit ≤ 0x7a then some (unit.toNat - 0x61 + 10)
  else none

def digits (base : Nat) (text : Text) : Option Int :=
  if text = [] then none
  else text.foldlM (fun value unit =>
    (digit unit).bind fun d => if d < base then some (value * base + d) else none) 0

/-- `BigInt` of a text, which throws where there is none. -/
def bigInt (text : Text) : Option Int :=
  let literal := trim text
  if literal = [] then some 0
  else if literal.take 2 ∈ [units "0x", units "0X"] then digits 16 (literal.drop 2)
  else if literal.take 2 ∈ [units "0o", units "0O"] then digits 8 (literal.drop 2)
  else if literal.take 2 ∈ [units "0b", units "0B"] then digits 2 (literal.drop 2)
  else if literal.take 1 = units "+" then digits 10 (literal.drop 1)
  else if literal.take 1 = units "-" then (digits 10 (literal.drop 1)).map (- ·)
  else digits 10 literal

/-! ## Confirmations -/

/-- A pending confirmation. Numbers are finite doubles, so they are rational. -/
structure SteamConfirmation where
  id : Text
  nonce : Text
  type : Option ℚ
  typeName : Option Text
  headline : Option Text
  creatorId : Option Text
  creationTime : Option ℚ
deriving DecidableEq

def isApiKeyConfirmation (confirmation : SteamConfirmation) : Bool :=
  confirmation.type = some 9 || confirmation.typeName = some (units "Register API Key")

/-- The ids as numbers, or as texts where `BigInt` throws. -/
def newerId (candidate current : Text) : Bool :=
  match bigInt candidate, bigInt current with
  | some candidateId, some currentId => currentId < candidateId
  | _, _ => current < candidate

def newerConfirmation (candidate current : SteamConfirmation) : Bool :=
  match candidate.creationTime, current.creationTime with
  | some candidateTime, some currentTime => currentTime < candidateTime
  | _, _ => newerId candidate.id current.id

structure Decision where
  accept : List SteamConfirmation
  skipped : List SteamConfirmation

/-- `confirmationsToAccept`. The list which is reduced is not empty. -/
def confirmationsToAccept (pending : List SteamConfirmation) : Decision :=
  let apiKeys := pending.filter isApiKeyConfirmation
  if apiKeys.length ≤ 1 then { accept := pending, skipped := [] }
  else
    match best? newerConfirmation apiKeys with
    | none => { accept := pending, skipped := [] }
    | some newest =>
        let skipped := apiKeys.filter (·.id ≠ newest.id)
        { accept := pending.filter fun item => !(skipped.map (·.id)).contains item.id
          skipped }

/-! ## Properties -/

/-- What is asked of the choice. -/
structure Chooses (pending : List SteamConfirmation) : Prop where
  split : ((confirmationsToAccept pending).accept ++
    (confirmationsToAccept pending).skipped).Perm pending
  others : ∀ item ∈ pending, isApiKeyConfirmation item = false →
    item ∈ (confirmationsToAccept pending).accept
  one : pending.any isApiKeyConfirmation = true → ∃ kept,
    (confirmationsToAccept pending).accept.filter isApiKeyConfirmation = [kept]
  newest : ∀ kept ∈ (confirmationsToAccept pending).accept, isApiKeyConfirmation kept = true →
    ∀ item ∈ (confirmationsToAccept pending).skipped, newerConfirmation item kept = false
  order : ∀ other : List SteamConfirmation, other.Perm pending →
    (confirmationsToAccept other).accept.Perm (confirmationsToAccept pending).accept ∧
      (confirmationsToAccept other).skipped.Perm (confirmationsToAccept pending).skipped

/-- There is no request for an API key, or one which is newer than each of the others. -/
def NewestKnown (pending : List SteamConfirmation) : Prop :=
  pending.filter isApiKeyConfirmation = [] ∨
    ∃ newest, Unbeaten newerConfirmation (pending.filter isApiKeyConfirmation) newest

/-! ## The choice -/

theorem newerId_asymm {candidate current : Text} (newer : newerId candidate current = true) :
    newerId current candidate = false := by
  revert newer
  rw [newerId, newerId]
  cases bigInt candidate with
  | none =>
      cases bigInt current with
      | none => exact fun newer => decide_eq_false (List.lt_asymm (of_decide_eq_true newer))
      | some _ => exact fun newer => decide_eq_false (List.lt_asymm (of_decide_eq_true newer))
  | some candidateId =>
      cases bigInt current with
      | none => exact fun newer => decide_eq_false (List.lt_asymm (of_decide_eq_true newer))
      | some currentId => exact fun newer => decide_eq_false (lt_asymm (of_decide_eq_true newer))

theorem newerConfirmation_asymm (candidate current : SteamConfirmation)
    (newer : newerConfirmation candidate current = true) :
    newerConfirmation current candidate = false := by
  revert newer
  rw [newerConfirmation, newerConfirmation]
  cases candidate.creationTime with
  | none => cases current.creationTime <;> exact newerId_asymm
  | some candidateTime =>
      cases current.creationTime with
      | none => exact newerId_asymm
      | some currentTime => exact fun newer => decide_eq_false (lt_asymm (of_decide_eq_true newer))

variable {pending : List SteamConfirmation}

theorem eq_of_id_eq (distinct : (pending.map SteamConfirmation.id).Nodup)
    {item other : SteamConfirmation} (listed : item ∈ pending) (found : other ∈ pending)
    (same : item.id = other.id) : item = other :=
  List.inj_on_of_nodup_map distinct listed found same

theorem skipped_sublist (pending : List SteamConfirmation) :
    (confirmationsToAccept pending).skipped.Sublist (pending.filter isApiKeyConfirmation) := by
  rw [confirmationsToAccept]
  dsimp only
  split_ifs
  · exact List.nil_sublist _
  · cases best? newerConfirmation (pending.filter isApiKeyConfirmation) with
    | none => exact List.nil_sublist _
    | some newest => exact List.filter_sublist

/-- What is skipped: the requests for an API key but the newest one. -/
theorem mem_skipped (distinct : (pending.map SteamConfirmation.id).Nodup)
    {item : SteamConfirmation} :
    item ∈ (confirmationsToAccept pending).skipped ↔ item ∈ pending.filter isApiKeyConfirmation ∧
      best? newerConfirmation (pending.filter isApiKeyConfirmation) ≠ some item := by
  have listed {item : SteamConfirmation} (found : item ∈ pending.filter isApiKeyConfirmation) :
      item ∈ pending := (List.mem_filter.mp found).1
  rw [confirmationsToAccept]
  dsimp only
  generalize keys : pending.filter isApiKeyConfirmation = apiKeys at listed ⊢
  match apiKeys with
  | [] => exact iff_of_false List.not_mem_nil fun found => List.not_mem_nil found.1
  | [only] =>
      refine iff_of_false List.not_mem_nil fun ⟨found, other⟩ => ?_
      cases List.mem_singleton.mp found
      exact other rfl
  | first :: second :: rest =>
      rw [if_neg (by simp), best?]
      have newest := listed (best_mem newerConfirmation first (second :: rest))
      dsimp only
      rw [List.mem_filter, decide_eq_true_eq, Ne, Ne, Option.some_inj]
      refine and_congr_right fun found => not_congr ⟨fun same => ?_, fun same => ?_⟩
      · exact eq_of_id_eq distinct newest (listed found) same.symm
      · rw [same]

/-- What is accepted: everything but what is skipped. -/
theorem accept_eq (distinct : (pending.map SteamConfirmation.id).Nodup) :
    (confirmationsToAccept pending).accept =
      pending.filter (· ∉ (confirmationsToAccept pending).skipped) := by
  have known {skipped : List SteamConfirmation} (subset : skipped ⊆ pending) :
      ∀ item ∈ pending, (!(skipped.map (·.id)).contains item.id) = decide (item ∉ skipped) := by
    intro item listed
    rw [Bool.eq_iff_iff, decide_eq_true_eq, Bool.not_eq_true', ← Bool.not_eq_true,
      List.contains_iff_mem, List.mem_map]
    refine not_congr ⟨?_, fun found => ⟨item, found, rfl⟩⟩
    rintro ⟨other, found, same⟩
    exact eq_of_id_eq distinct (subset found) listed same ▸ found
  have subset := ((skipped_sublist pending).trans List.filter_sublist).subset
  rw [confirmationsToAccept] at subset ⊢
  dsimp only at subset ⊢
  split_ifs with few
  · simp
  · rw [if_neg few] at subset
    cases newest : best? newerConfirmation (pending.filter isApiKeyConfirmation) with
    | none => simp
    | some newest =>
        rw [newest] at subset
        exact List.filter_congr (known subset)

theorem mem_accept (distinct : (pending.map SteamConfirmation.id).Nodup)
    {item : SteamConfirmation} :
    item ∈ (confirmationsToAccept pending).accept ↔ item ∈ pending ∧
      (isApiKeyConfirmation item = true →
        best? newerConfirmation (pending.filter isApiKeyConfirmation) = some item) := by
  rw [accept_eq distinct, List.mem_filter, decide_eq_true_eq, mem_skipped distinct,
    List.mem_filter]
  refine and_congr_right fun listed => ?_
  rw [not_and, not_not, and_iff_right listed]

theorem split_choice (distinct : (pending.map SteamConfirmation.id).Nodup) :
    ((confirmationsToAccept pending).accept ++ (confirmationsToAccept pending).skipped).Perm
      pending := by
  have whole : pending.Nodup := distinct.of_map
  have subset := ((skipped_sublist pending).trans List.filter_sublist)
  rw [accept_eq distinct]
  refine (List.perm_ext_iff_of_nodup ?_ whole).mpr fun item => ?_
  · refine List.nodup_append'.mpr ⟨whole.filter _, whole.sublist subset, ?_⟩
    intro item accepted skipped
    exact of_decide_eq_true (List.mem_filter.mp accepted).2 skipped
  · rw [List.mem_append, List.mem_filter, decide_eq_true_eq]
    constructor
    · exact fun either => either.elim And.left fun skipped => subset.subset skipped
    · intro listed
      by_cases skipped : item ∈ (confirmationsToAccept pending).skipped
      · exact .inr skipped
      · exact .inl ⟨listed, skipped⟩

/-- Exactly one request for an API key is accepted where there is any. -/
theorem one_accepted (distinct : (pending.map SteamConfirmation.id).Nodup)
    (any : pending.any isApiKeyConfirmation = true) :
    ∃ kept, (confirmationsToAccept pending).accept.filter isApiKeyConfirmation = [kept] := by
  obtain ⟨newest, found⟩ : ∃ newest,
      best? newerConfirmation (pending.filter isApiKeyConfirmation) = some newest := by
    cases keys : pending.filter isApiKeyConfirmation with
    | nil =>
        obtain ⟨item, listed, key⟩ := List.any_eq_true.mp any
        exact absurd key (List.filter_eq_nil_iff.mp keys item listed)
    | cons first rest => exact ⟨_, rfl⟩
  refine ⟨newest, List.perm_singleton.mp ?_⟩
  have whole : (confirmationsToAccept pending).accept.Nodup := by
    rw [accept_eq distinct]
    exact distinct.of_map.filter _
  refine (List.perm_ext_iff_of_nodup (whole.filter _) (List.nodup_singleton _)).mpr fun item => ?_
  rw [List.mem_filter, mem_accept distinct, List.mem_singleton, found, Option.some_inj]
  constructor
  · exact fun ⟨⟨_, kept⟩, key⟩ => (kept key).symm
  · rintro rfl
    obtain ⟨listed, key⟩ := List.mem_filter.mp (mem_of_best? found)
    exact ⟨⟨listed, fun _ => rfl⟩, key⟩

/-- The same choice in another order of the list, where the newest one is the same. -/
theorem perm_choice {other : List SteamConfirmation} (perm : other.Perm pending)
    (distinct : (pending.map SteamConfirmation.id).Nodup)
    (same : best? newerConfirmation (other.filter isApiKeyConfirmation) =
      best? newerConfirmation (pending.filter isApiKeyConfirmation)) :
    (confirmationsToAccept other).accept.Perm (confirmationsToAccept pending).accept ∧
      (confirmationsToAccept other).skipped.Perm (confirmationsToAccept pending).skipped := by
  have moved : (other.map SteamConfirmation.id).Nodup := (perm.map _).nodup_iff.mpr distinct
  have nodup {list : List SteamConfirmation} (unique : (list.map SteamConfirmation.id).Nodup) :
      (confirmationsToAccept list).accept.Nodup ∧ (confirmationsToAccept list).skipped.Nodup :=
    List.nodup_append'.mp ((split_choice unique).nodup_iff.mpr unique.of_map) |>.imp_right And.left
  constructor
  · refine (List.perm_ext_iff_of_nodup (nodup moved).1 (nodup distinct).1).mpr fun item => ?_
    rw [mem_accept moved, mem_accept distinct, same, perm.mem_iff]
  · refine (List.perm_ext_iff_of_nodup (nodup moved).2 (nodup distinct).2).mpr fun item => ?_
    rw [mem_skipped moved, mem_skipped distinct, same, (perm.filter _).mem_iff]

/-- The choice is as it is asked just when the newest request for an API key is known. -/
theorem chooses_iff (distinct : (pending.map SteamConfirmation.id).Nodup) :
    Chooses pending ↔ NewestKnown pending := by
  have unique : (pending.filter isApiKeyConfirmation).Nodup := distinct.of_map.filter _
  have choice := best?_perm_iff newerConfirmation_asymm unique
  constructor
  · intro chooses
    refine choice.mp fun other order => ?_
    have keys : ∀ item ∈ other, isApiKeyConfirmation item = true := fun item member =>
      (List.mem_filter.mp (order.subset member)).2
    have arranged : (other ++ pending.filter fun item => !isApiKeyConfirmation item).Perm pending :=
      (order.append_right _).trans (List.filter_append_perm isApiKeyConfirmation pending)
    have filtered : (other ++ pending.filter fun item => !isApiKeyConfirmation item).filter
        isApiKeyConfirmation = other := by
      rw [List.filter_append, List.filter_eq_self.mpr keys, List.filter_filter]
      simp
    cases found : best? newerConfirmation (pending.filter isApiKeyConfirmation) with
    | none =>
        cases none : pending.filter isApiKeyConfirmation with
        | nil => rw [none] at order; rw [List.perm_nil.mp order]; rfl
        | cons first rest => rw [none] at found; cases found
    | some newest =>
        obtain ⟨listed, key⟩ := List.mem_filter.mp (mem_of_best? found)
        have accepted : newest ∈ (confirmationsToAccept pending).accept :=
          (mem_accept distinct).mpr ⟨listed, fun _ => found⟩
        have again := (chooses.order _ arranged).1.mem_iff.mpr accepted
        have moved := (arranged.map SteamConfirmation.id).nodup_iff.mpr distinct
        rw [mem_accept moved, filtered] at again
        exact again.2 key
  · intro known
    refine ⟨split_choice distinct, fun item listed other => ?_, one_accepted distinct,
      fun kept accepted key item skipped => ?_, fun other perm => ?_⟩
    · refine (mem_accept distinct).mpr ⟨listed, fun key => ?_⟩
      rw [other] at key
      cases key
    · have found := ((mem_accept distinct).mp accepted).2 key
      obtain ⟨request, different⟩ := (mem_skipped distinct).mp skipped
      obtain none | ⟨newest, unbeaten⟩ := known
      · rw [none] at request
        cases request
      · have wins : best? newerConfirmation (pending.filter isApiKeyConfirmation) = some newest := by
          cases keys : pending.filter isApiKeyConfirmation with
          | nil => rw [keys] at request; cases request
          | cons first rest =>
              rw [keys] at unbeaten
              exact congrArg some (best_eq_of_unbeaten newerConfirmation_asymm unbeaten)
        cases found.symm.trans wins
        refine newerConfirmation_asymm _ _ (unbeaten.2 item request ?_)
        rintro rfl
        exact different found
    · exact perm_choice perm distinct (choice.mpr known _ (perm.filter _))

/-! ## Requests for an API key -/

/-- A request for an API key. -/
def apiKey (id : String) (creationTime : Option ℚ) : SteamConfirmation where
  id := units id
  nonce := units id
  type := some 9
  typeName := some (units "Register API Key")
  headline := none
  creatorId := some (units id)
  creationTime := creationTime

/-- A newer and an older request. -/
theorem chooses_newer :
    Chooses [apiKey "21707354257" (some 200), apiKey "21707318832" (some 100)] := by
  refine (chooses_iff (by decide +kernel)).mpr (.inr ⟨apiKey "21707354257" (some 200), ?_, ?_⟩)
  · decide +kernel
  · decide +kernel

/-- Of two requests of one time the first in the list is accepted. With a time missing, three
requests may each be newer than another one, and a newer one than the accepted is skipped. -/
theorem equal_times_and_cycles :
    let equal := [apiKey "1" (some 100), apiKey "2" (some 100)]
    let cycle := [apiKey "1" (some 5), apiKey "2" none, apiKey "3" (some 1)]
    ((equal.map SteamConfirmation.id).Nodup ∧ ¬ Chooses equal) ∧
      (cycle.map SteamConfirmation.id).Nodup ∧ ¬ Chooses cycle := by
  refine ⟨⟨by decide +kernel, fun chooses => ?_⟩, by decide +kernel, fun chooses => ?_⟩
  · have order := (chooses.order _ (List.Perm.swap _ _ [])).1
    have kept : apiKey "2" (some 100) ∈ (confirmationsToAccept
        [apiKey "2" (some 100), apiKey "1" (some 100)]).accept := by decide +kernel
    have again := order.mem_iff.mp kept
    revert again
    decide +kernel
  · have kept : apiKey "3" (some 1) ∈ (confirmationsToAccept
        [apiKey "1" (some 5), apiKey "2" none, apiKey "3" (some 1)]).accept := by decide +kernel
    have skipped : apiKey "1" (some 5) ∈ (confirmationsToAccept
        [apiKey "1" (some 5), apiKey "2" none, apiKey "3" (some 1)]).skipped := by decide +kernel
    have older := chooses.newest _ kept (by decide +kernel) _ skipped
    revert older
    decide +kernel

end Steam
end DotaCollector
