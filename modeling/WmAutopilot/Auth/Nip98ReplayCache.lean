import Mathlib.Data.List.Nodup
import Mathlib.Data.Int.Notation

/-!
# The replay cache of NIP-98 requests

* `ReplayRow`      a row of `nip98_replay_events`;
* `deleteExpired`, `accept`, `cleanup`   the transactions of `Nip98ReplayCache`;
* `CacheEvent`     what the committed transactions did, for the statements only;
* `rowsOf`         the rows that a history of such events leaves;
* `Standing`       since an event was admitted, no transaction has used a time past its expiry.

`Standing.mem`: **an event that is standing still has its row**, and `accept_of_mem`: such an event
is refused.
-/

set_option autoImplicit false

namespace WmAutopilot
namespace Auth

/-- a row of `nip98_replay_events`. -/
structure ReplayRow where
  eventId : String
  expiresAt : ℤ
  deriving DecidableEq, Repr

/-- `Number.isSafeInteger` of an integer. -/
def isSafeInteger (n : ℤ) : Bool := -9007199254740991 ≤ n && n ≤ 9007199254740991

namespace Nip98ReplayCache

/-- `DELETE FROM nip98_replay_events WHERE expires_at <= now` -/
def deleteExpired (now : ℤ) (rows : List ReplayRow) : List ReplayRow :=
  rows.filter fun row => now < row.expiresAt

/-- the arguments that `accept` refuses before it opens a transaction. -/
def Refuses (eventId : String) (expiresAt now : ℤ) : Prop :=
  eventId = "" ∨ isSafeInteger expiresAt = false ∨ isSafeInteger now = false ∨ expiresAt ≤ now

instance (eventId : String) (expiresAt now : ℤ) : Decidable (Refuses eventId expiresAt now) :=
  inferInstanceAs (Decidable (_ ∨ _))

/-- `accept` when no statement fails: the answer, and the rows after `COMMIT` or `ROLLBACK`. -/
def accept (limit : ℕ) (eventId : String) (expiresAt now : ℤ) (rows : List ReplayRow) :
    Bool × List ReplayRow :=
  if Refuses eventId expiresAt now then (false, rows)
  else
    let remaining := deleteExpired now rows
    if ∃ row ∈ remaining, row.eventId = eventId then (false, rows)
    else if limit ≤ remaining.length then (false, rows)
    else (true, remaining ++ [⟨eventId, expiresAt⟩])

/-- `cleanup` when no statement fails. -/
def cleanup (now : ℤ) (rows : List ReplayRow) : List ReplayRow :=
  if isSafeInteger now then deleteExpired now rows else rows

section
variable {limit : ℕ} {eventId : String} {expiresAt now : ℤ} {rows : List ReplayRow}

/-- **An event is admitted only when it is new and there is room.** -/
theorem accept_true (h : (accept limit eventId expiresAt now rows).1 = true) :
    eventId ≠ "" ∧ now < expiresAt ∧ (∀ row ∈ deleteExpired now rows, row.eventId ≠ eventId) ∧
      (deleteExpired now rows).length < limit ∧
      (accept limit eventId expiresAt now rows).2 =
        deleteExpired now rows ++ [⟨eventId, expiresAt⟩] := by
  unfold accept at h ⊢
  split at h
  · cases h
  · rename_i hargs
    have hargs' := hargs
    simp only [Refuses, not_or, Int.not_le] at hargs'
    dsimp only at h ⊢
    split at h
    · cases h
    · rename_i hnew
      split at h
      · cases h
      · rename_i hroom
        refine ⟨hargs'.1, hargs'.2.2.2, fun row hr e => hnew ⟨row, hr, e⟩, Nat.not_le.mp hroom, ?_⟩
        rw [if_neg hargs, if_neg hnew, if_neg hroom]

/-- a refusal changes no row. -/
theorem accept_false (h : (accept limit eventId expiresAt now rows).1 = false) :
    (accept limit eventId expiresAt now rows).2 = rows := by
  unfold accept at h ⊢
  dsimp only at h ⊢
  split
  · rfl
  · split
    · rfl
    · split
      · rfl
      · rename_i h₁ h₂ h₃
        rw [if_neg h₁, if_neg h₂, if_neg h₃] at h
        cases h

/-- **An event that has a row is refused** until the row has expired. -/
theorem accept_of_mem (limit : ℕ) (now : ℤ) {row : ReplayRow} (hr : row ∈ rows) (hid : row.eventId = eventId)
    (he : row.expiresAt = expiresAt) : (accept limit eventId expiresAt now rows).1 = false := by
  rw [← Bool.not_eq_true]
  intro h
  obtain ⟨-, hnow, hnew, -⟩ := accept_true h
  refine hnew row (List.mem_filter.mpr ⟨hr, ?_⟩) hid
  simpa [he] using hnow

end

end Nip98ReplayCache

/-! ## histories -/

/-- What a committed transaction did. -/
inductive CacheEvent where
  /-- the rows that had expired at `now` were deleted. -/
  | expired (now : ℤ)
  | admitted (row : ReplayRow)
  deriving DecidableEq, Repr

/-- the rows that a history, latest event first, leaves. -/
def rowsOf : List CacheEvent → List ReplayRow
  | [] => []
  | .expired now :: history => Nip98ReplayCache.deleteExpired now (rowsOf history)
  | .admitted row :: history => rowsOf history ++ [row]

/-- the ids that were admitted, latest first. -/
def admittedIds : List CacheEvent → List String
  | [] => []
  | .expired _ :: history => admittedIds history
  | .admitted row :: history => row.eventId :: admittedIds history

/-- Since `eventId` was admitted, no transaction has deleted the rows that expire by `expiresAt`. -/
def Standing (eventId : String) (expiresAt : ℤ) : List CacheEvent → Prop
  | [] => True
  | .expired now :: history =>
    (eventId ∈ admittedIds history → now < expiresAt) ∧ Standing eventId expiresAt history
  | .admitted _ :: history => Standing eventId expiresAt history

section
variable {history : List CacheEvent} {eventId : String} {expiresAt : ℤ}

theorem mem_admittedIds :
    eventId ∈ admittedIds history ↔ ∃ row, .admitted row ∈ history ∧ row.eventId = eventId := by
  induction history with
  | nil => simp [admittedIds]
  | cons e history ih =>
    cases e with
    | expired now => simp [admittedIds, ih]
    | admitted row => simp [admittedIds, ih, eq_comm]

/-- **An event that is standing still has its row.** -/
theorem Standing.mem {row : ReplayRow} (h : Standing row.eventId row.expiresAt history)
    (hr : .admitted row ∈ history) : row ∈ rowsOf history := by
  induction history with
  | nil => exact absurd hr List.not_mem_nil
  | cons e history ih =>
    cases e with
    | expired now =>
      have hr' : .admitted row ∈ history := (List.mem_cons.mp hr).resolve_left (by simp)
      refine List.mem_filter.mpr ⟨ih h.2 hr', ?_⟩
      simpa using h.1 (mem_admittedIds.mpr ⟨row, hr', rfl⟩)
    | admitted row' =>
      rcases List.mem_cons.mp hr with e | hr'
      · obtain rfl := CacheEvent.admitted.inj e
        exact List.mem_append_right _ (List.mem_singleton.mpr rfl)
      · exact List.mem_append_left _ (ih h hr')

/-- an event stands while no transaction has used its expiry or a later time. -/
theorem Standing.of_lt (h : ∀ now, .expired now ∈ history → now < expiresAt) :
    Standing eventId expiresAt history := by
  induction history with
  | nil => trivial
  | cons e history ih =>
    have htail := ih fun now hn => h now (List.mem_cons_of_mem e hn)
    cases e with
    | expired now => exact ⟨fun _ => h now List.mem_cons_self, htail⟩
    | admitted row => exact htail

end

end Auth
end WmAutopilot
