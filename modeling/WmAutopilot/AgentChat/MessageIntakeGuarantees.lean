import WmAutopilot.AgentChat.MessageIntake

/-!
# What the intake of messages guarantees

* `reads`, `statements`  the statements before the claim of a call, and all statements of a call
                         that advances the row;
* `deliver_before`, `deliver_duplicate`, `deliver_new`   what a delivery does;
* `Inv`, `deliver_inv`   what holds between the deliveries;
* `ExactlyOnce`          what is expected of the calls that completed;
* `torn_claim`           **a call that is cut off behind its claim is never reported as new**;
* `exactly_once`         **without such calls every revision is taken in exactly once**.
-/

set_option autoImplicit false

namespace WmAutopilot
namespace AgentChat
namespace Intake
open Async Js

/-- the row that a call finds for the conversation. -/
def existing (c : Conversation) (db : Db) : Option Record :=
  match db.get c.routingKey, c.legacy with
  | none, some key => (db.get key).filter (·.subscriptionId = c.subscriptionId)
  | canonical, _ => canonical

/-- the statements of a call before its claim. -/
def reads (c : Conversation) (db : Db) : ℕ :=
  match db.get c.routingKey, c.legacy with
  | none, some _ => 2
  | _, _ => 1

/-- all statements of a call that advances the row. -/
def statements (c : Conversation) (db : Db) : ℕ :=
  reads c db + 3 + if shouldMigrateLegacy c (existing c db) then 1 else 0

/-- a row of the conversation. -/
def Of (c : Conversation) (r : Record) : Prop :=
  r.routingKey = c.routingKey ∨ some r.routingKey = c.legacy ∧ r.subscriptionId = c.subscriptionId

instance (c : Conversation) : DecidablePred (Of c) :=
  fun _ => inferInstanceAs (Decidable (_ ∨ _ ∧ _))

/-- the rows of the conversation. -/
def rowsOf (c : Conversation) (db : Db) : List Record := db.rows.filter (Of c)

/-- the messages that are pending in the rows of the conversation. -/
def pending (c : Conversation) (db : Db) : ℕ :=
  (rowsOf c db).foldl (fun n r => n + r.pendingMessageCount) 0

/-- the revision that a call delivers. -/
def Done.key (d : Done) : String × Option ℤ := (d.message.messageId, d.message.messageRevision)

/-- The row of the conversation after a message that was not seen before. -/
structure Advanced (c : Conversation) (d : Done) : Prop where
  row : (rowsOf c d.after).map mapRow = [d.result.record]
  seen : d.result.record.lastMessageIdSeen = some d.message.messageId
  counted : d.result.record.pendingMessageCount = pending c d.before + 1

/-- What is expected of the calls that completed, from `db₀` to `db₁`. -/
structure ExactlyOnce (c : Conversation) (db₀ db₁ : Db) (dones : List Done) : Prop where
  once : ∀ d ∈ dones,
    dones.countP (fun e => e.key = d.key ∧ e.result.wasDuplicate = false) = 1
  advanced : ∀ d ∈ dones, d.result.wasDuplicate = false → Advanced c d
  oneRow : ∀ d ∈ dones, (rowsOf c d.after).length = 1
  total : pending c db₁ = pending c db₀ + dones.countP (fun d => d.result.wasDuplicate = false)

/-- A conversation before its first revision: with one row at most, under either of its keys. -/
structure Fresh (c : Conversation) (db : Db) : Prop where
  keys : Sql.PrimaryKey Record.routingKey db.rows
  unclaimed : ∀ claim ∈ db.claims, claim.routingKey ≠ c.routingKey
  oneRow : (rowsOf c db).length ≤ 1

/-- the claim of a revision. -/
def claimOf (c : Conversation) (messageId : String) (revision : ℤ) : Claim :=
  ⟨c.routingKey, messageId, revision⟩

/-- The delivery is not cut off between its claim of a new revision and its end. -/
def Whole (c : Conversation) (db : Db) (d : Delivery) : Prop :=
  ∀ revision, d.message.messageRevision = some revision →
    claimOf c d.message.messageId revision ∈ db.claims ∨ d.cut ≤ reads c db ∨
      statements c db ≤ d.cut

/-- every delivery of the run is. -/
def AllWhole (c : Conversation) : Db → List Delivery → Prop
  | _, [] => True
  | db, d :: ds => Whole c db d ∧ AllWhole c (deliver c db d).1 ds

section
variable {c : Conversation} {m : Message} {db : Db} {d : Delivery} {r e : Record} {n : ℕ}
  {rows : List Record} {key : String} {revision : ℤ}

/-! ## rows -/

@[simp] theorem stored_routingKey : (stored rows r).routingKey = r.routingKey := by
  unfold stored
  cases rows.find? (·.routingKey = r.routingKey) <;> rfl

@[simp] theorem stored_pendingMessageCount :
    (stored rows r).pendingMessageCount = r.pendingMessageCount := by
  unfold stored
  cases rows.find? (·.routingKey = r.routingKey) <;> rfl

@[simp] theorem stored_lastMessageIdSeen :
    (stored rows r).lastMessageIdSeen = r.lastMessageIdSeen := by
  unfold stored
  cases rows.find? (·.routingKey = r.routingKey) <;> rfl

theorem get_eq_some (h : db.get key = some e) :
    ∃ r ∈ db.rows, r.routingKey = key ∧ mapRow r = e := by
  unfold Db.get at h
  cases hr : db.rows.find? (·.routingKey = key) with
  | none =>
    rw [hr] at h
    cases h
  | some r =>
    rw [hr] at h
    obtain ⟨hmem, hkey⟩ := Sql.mem_of_find hr
    exact ⟨r, hmem, hkey, Option.some.inj h⟩

theorem get_eq_none : db.get key = none ↔ ∀ r ∈ db.rows, r.routingKey ≠ key := by
  unfold Db.get
  rw [Option.map_eq_none_iff, List.find?_eq_none]
  refine forall₂_congr fun r _ => ?_
  rw [decide_eq_true_iff]

theorem get_upsertRow_self :
    (Db.get ⟨upsertRow rows r, db.claims⟩ r.routingKey) = some (mapRow (stored rows r)) := by
  unfold Db.get upsertRow
  have hkey : r.routingKey = (stored rows r).routingKey := stored_routingKey.symm
  rw [hkey, find?_put_self]
  rfl

theorem mem_upsertRow : e ∈ upsertRow rows r ↔
    e = stored rows r ∨ e ∈ rows ∧ e.routingKey ≠ r.routingKey := by
  unfold upsertRow
  rw [mem_put, stored_routingKey]

theorem primaryKey_upsertRow (h : Sql.PrimaryKey Record.routingKey rows) :
    Sql.PrimaryKey Record.routingKey (upsertRow rows r) := nodup_put h

/-! ## what a delivery does -/

theorem cut_getByRoutingKey : cut effect n (getByRoutingKey key) db =
    if n = 0 then (db, none) else (db, some (db.get key, n - 1)) := cut_perform _

theorem cut_claimMessageRevision (claim : Claim) : cut effect n (claimMessageRevision claim) db =
    if n = 0 then (db, none)
    else if claim ∈ db.claims then (db, some (false, n - 1))
    else ({ db with claims := db.claims ++ [claim] }, some (true, n - 1)) := by
  refine (cut_perform _).trans ?_
  by_cases hn : n = 0
  · rw [if_pos hn, if_pos hn]
    rfl
  · rw [if_neg hn, if_neg hn, effect]
    by_cases hc : claim ∈ db.claims
    · rw [if_pos hc, if_pos hc]
      rfl
    · rw [if_neg hc, if_neg hc]
      rfl

theorem cut_deleteByRoutingKey : cut effect n (deleteByRoutingKey key) db =
    if n = 0 then (db, none)
    else ({ db with rows := db.rows.filter fun r => r.routingKey ≠ key }, some ((), n - 1)) :=
  cut_perform _

theorem cut_findExisting : cut effect n (findExisting c) db =
    if n < reads c db then (db, none) else (db, some (existing c db, n - reads c db)) := by
  unfold findExisting reads existing
  rw [cut_bind, cut_getByRoutingKey]
  by_cases hn : n = 0
  · subst hn
    rw [if_pos rfl, if_pos (by split <;> decide)]
    rfl
  rw [if_neg hn]
  show cut effect (n - 1) _ db = _
  cases hk : db.get c.routingKey with
  | some e =>
    show _ = if n < 1 then _ else _
    rw [if_neg (by omega)]
    exact cut_ret _
  | none =>
    cases hl : c.legacy with
    | none =>
      show _ = if n < 1 then _ else _
      rw [if_neg (by omega)]
      exact cut_ret _
    | some l =>
      show cut effect (n - 1) (getByRoutingKey l >>= _) db = _
      rw [cut_bind, cut_getByRoutingKey]
      show _ = if n < 2 then _ else _
      by_cases hn2 : n < 2
      · rw [if_pos hn2, if_pos (by omega)]
        rfl
      · rw [if_neg hn2, if_neg (by omega)]
        exact cut_ret _

theorem cut_deliveryWasDuplicate (hrev : m.messageRevision = some revision) :
    cut effect n (deliveryWasDuplicate c m) db =
      if n = 0 then (db, none)
      else if claimOf c m.messageId revision ∈ db.claims then (db, some (true, n - 1))
      else ({ db with claims := db.claims ++ [claimOf c m.messageId revision] },
        some (false, n - 1)) := by
  unfold deliveryWasDuplicate
  rw [hrev]
  show cut effect n (claimMessageRevision (claimOf c m.messageId revision) >>= _) db = _
  rw [cut_bind, cut_claimMessageRevision]
  by_cases hn : n = 0
  · rw [if_pos hn, if_pos hn]
    rfl
  · rw [if_neg hn, if_neg hn]
    by_cases hc : claimOf c m.messageId revision ∈ db.claims
    · rw [if_pos hc, if_pos hc]
      exact cut_ret _
    · rw [if_neg hc, if_neg hc]
      exact cut_ret _

/-- the state after a row was saved. -/
def saved (db : Db) (r : Record) : Db := { db with rows := upsertRow db.rows r }

theorem cut_save : cut effect n (save r) db =
    if n = 0 then (db, none)
    else if n = 1 then (saved db r, none)
    else (saved db r, some (mapRow (stored db.rows r), n - 2)) := by
  match n with
  | 0 => rfl
  | 1 => rfl
  | n + 2 =>
    rw [if_neg (by omega), if_neg (by omega)]
    have hget : (saved db r).get r.routingKey = some (mapRow (stored db.rows r)) :=
      get_upsertRow_self
    show cut effect n (pure (((saved db r).get r.routingKey).getD r)) (saved db r) = _
    rw [hget]
    exact cut_ret _

/-- a call that is cut off before its claim has done nothing. -/
theorem deliver_before (hrev : d.message.messageRevision = some revision)
    (h : d.cut ≤ reads c db) : deliver c db d = (db, none) := by
  unfold deliver upsertMessage
  rw [cut_bind, cut_findExisting]
  by_cases hlt : d.cut < reads c db
  · rw [if_pos hlt]
    rfl
  · rw [if_neg hlt]
    show cut effect (d.cut - reads c db) _ db = _
    rw [cut_bind, cut_deliveryWasDuplicate hrev, if_pos (by omega)]
    rfl

/-- what a call does behind its claim. -/
theorem deliver_behind (hrev : d.message.messageRevision = some revision)
    (h : reads c db < d.cut) :
    deliver c db d =
      if claimOf c d.message.messageId revision ∈ db.claims then
        cut effect (d.cut - reads c db - 1) (record c d.message (existing c db) true) db
      else cut effect (d.cut - reads c db - 1) (record c d.message (existing c db) false)
        { db with claims := db.claims ++ [claimOf c d.message.messageId revision] } := by
  unfold deliver upsertMessage
  rw [cut_bind, cut_findExisting, if_neg (by omega)]
  show cut effect (d.cut - reads c db) _ db = _
  rw [cut_bind, cut_deliveryWasDuplicate hrev, if_neg (by omega), hrev]
  by_cases hc : claimOf c d.message.messageId revision ∈ db.claims
  · rw [if_pos hc, if_pos hc]
    rfl
  · rw [if_neg hc, if_neg hc]
    rfl

/-- the key of the row that a call found. -/
def foundKey (existing : Option Record) : String := (existing.map (·.routingKey)).getD ""

/-- the rows after a call that advances the row. -/
def rowsAfter (c : Conversation) (db : Db) (m : Message) : List Record :=
  if shouldMigrateLegacy c (existing c db) then
    (upsertRow db.rows (advanced c m (existing c db))).filter
      fun r => r.routingKey ≠ foundKey (existing c db)
  else upsertRow db.rows (advanced c m (existing c db))

/-- the row that such a call reports. -/
def reported (c : Conversation) (db : Db) (m : Message) : Record :=
  mapRow (stored db.rows (advanced c m (existing c db)))

theorem cut_advance (h : 2 + (if shouldMigrateLegacy c (existing c db) then 1 else 0) ≤ n)
    (claims : List Claim) :
    ∃ k, cut effect n (advance c m (existing c db) false) ⟨db.rows, claims⟩ =
      (⟨rowsAfter c db m, claims⟩, some (⟨reported c db m, false⟩, k)) := by
  unfold advance rowsAfter
  rw [cut_bind, cut_save, if_neg (by omega), if_neg (by omega), andThen_some]
  by_cases hm : shouldMigrateLegacy c (existing c db) = true
  · rw [if_pos hm] at h
    rw [if_pos hm, if_pos hm, cut_bind, cut_deleteByRoutingKey, if_neg (by omega), andThen_some,
      cut_pure]
    exact ⟨n - 2 - 1, rfl⟩
  · rw [if_neg hm, if_neg hm, cut_pure]
    exact ⟨n - 2, rfl⟩

/-- **A whole call with a new revision.** -/
theorem deliver_new (hrev : d.message.messageRevision = some revision)
    (hnew : claimOf c d.message.messageId revision ∉ db.claims) (h : statements c db ≤ d.cut) :
    ∃ k, deliver c db d =
      (⟨rowsAfter c db d.message, db.claims ++ [claimOf c d.message.messageId revision]⟩,
        some (⟨reported c db d.message, false⟩, k)) := by
  unfold statements at h
  rw [deliver_behind hrev (by omega), if_neg hnew]
  have hadvance : record c d.message (existing c db) false =
      advance c d.message (existing c db) false := by
    cases existing c db <;> rfl
  rw [hadvance]
  exact cut_advance (by omega) _

/-- the row as it is, or with a new cursor. -/
theorem cut_acknowledge (hm : shouldMigrateLegacy c (some e) = false) :
    ((cut effect n (acknowledge c m e) db).1 = db ∨
      (cut effect n (acknowledge c m e) db).1 =
        saved db { e with lastEventCursorSeen := m.eventCursor, updatedAt := m.now }) ∧
      ∀ result k, (cut effect n (acknowledge c m e) db).2 = some (result, k) →
        result.wasDuplicate = true := by
  unfold acknowledge
  rw [if_neg (hm ▸ Bool.false_ne_true)]
  by_cases hnc : newCursor m e = true
  · rw [if_pos hnc, cut_bind, cut_save]
    by_cases h0 : n = 0
    · rw [if_pos h0, andThen_none]
      exact ⟨.inl rfl, fun _ _ hres => absurd hres.symm (Option.some_ne_none _)⟩
    · rw [if_neg h0]
      by_cases h1 : n = 1
      · rw [if_pos h1, andThen_none]
        exact ⟨.inr rfl, fun _ _ hres => absurd hres.symm (Option.some_ne_none _)⟩
      · rw [if_neg h1, andThen_some, cut_pure]
        refine ⟨.inr rfl, fun result k hres => ?_⟩
        cases hres
        rfl
  · rw [if_neg hnc, cut_pure]
    refine ⟨.inl rfl, fun result k hres => ?_⟩
    cases hres
    rfl

/-- **A call with a revision that was claimed**, when the row is under its key. -/
theorem deliver_duplicate (hrev : d.message.messageRevision = some revision)
    (hold : claimOf c d.message.messageId revision ∈ db.claims)
    (he : db.get c.routingKey = some e) :
    ((deliver c db d).1 = db ∨ (deliver c db d).1 = saved db
        { e with lastEventCursorSeen := d.message.eventCursor, updatedAt := d.message.now }) ∧
      ∀ result k, (deliver c db d).2 = some (result, k) → result.wasDuplicate = true := by
  have hex : existing c db = some e := by
    unfold existing
    rw [he]
  have hkey : e.routingKey = c.routingKey := by
    obtain ⟨r, -, hr, rfl⟩ := get_eq_some he
    exact hr
  by_cases hcut : d.cut ≤ reads c db
  · rw [deliver_before hrev hcut]
    exact ⟨.inl rfl, fun _ _ hres => absurd hres.symm (Option.some_ne_none _)⟩
  · rw [deliver_behind hrev (by omega), if_pos hold, hex]
    refine cut_acknowledge ?_
    show decide (e.routingKey ≠ c.routingKey ∧ _) = false
    rw [hkey]
    exact decide_eq_false fun hne => hne.1 rfl

/-! ## between the deliveries -/

/-- What holds between the deliveries. -/
structure Inv (c : Conversation) (db : Db) : Prop where
  keys : Sql.PrimaryKey Record.routingKey db.rows
  claimed : ∀ claim ∈ db.claims, claim.routingKey = c.routingKey → db.get c.routingKey ≠ none
  oneRow : (rowsOf c db).length ≤ 1

theorem Fresh.inv (h : Fresh c db) : Inv c db :=
  ⟨h.keys, fun claim hclaim hkey => absurd hkey (h.unclaimed claim hclaim), h.oneRow⟩

theorem nodup_rows (h : Sql.PrimaryKey Record.routingKey rows) : rows.Nodup := h.of_map _

/-- the only row of a conversation. -/
theorem filter_eq_singleton (h : Sql.PrimaryKey Record.routingKey rows) (hr : r ∈ rows)
    (hof : Of c r) (honly : ∀ x ∈ rows, Of c x → x = r) : rows.filter (Of c) = [r] := by
  refine List.perm_singleton.mp ((List.perm_ext_iff_of_nodup ((nodup_rows h).filter _)
    (List.nodup_singleton r)).mpr fun x => ?_)
  rw [List.mem_filter, decide_eq_true_iff, List.mem_singleton]
  constructor
  · rintro ⟨hx, hofx⟩
    exact honly x hx hofx
  · rintro rfl
    exact ⟨hr, hof⟩

theorem mem_rowsOf {x : Record} : x ∈ rowsOf c db ↔ x ∈ db.rows ∧ Of c x := by
  unfold rowsOf
  rw [List.mem_filter, decide_eq_true_iff]

/-- a row under the key is the row of the conversation. -/
theorem of_key (h : r.routingKey = c.routingKey) : Of c r := .inl h

/-- with one row at most, two rows are the same. -/
theorem Inv.eq (h : Inv c db) {x y : Record} (hx : x ∈ rowsOf c db) (hy : y ∈ rowsOf c db) :
    x = y := by
  have hlen := h.oneRow
  match hrows : rowsOf c db with
  | [] => rw [hrows] at hx; cases hx
  | [z] =>
    rw [hrows] at hx hy
    exact (List.mem_singleton.mp hx).trans (List.mem_singleton.mp hy).symm
  | _ :: _ :: _ =>
    rw [hrows] at hlen
    exact absurd hlen (by simp)

theorem rowsOf_eq_singleton (h : Inv c db) (hr : r ∈ rowsOf c db) : rowsOf c db = [r] :=
  filter_eq_singleton h.keys (mem_rowsOf.mp hr).1 (mem_rowsOf.mp hr).2 fun _ hx hof =>
    h.eq (mem_rowsOf.mpr ⟨hx, hof⟩) hr

theorem existing_eq_some (h : existing c db = some e) : ∃ r ∈ rowsOf c db, mapRow r = e := by
  unfold existing at h
  cases hk : db.get c.routingKey with
  | some e' =>
    rw [hk] at h
    obtain ⟨r, hr, hkey, hmap⟩ := get_eq_some hk
    exact ⟨r, mem_rowsOf.mpr ⟨hr, of_key hkey⟩, hmap.trans (Option.some.inj h)⟩
  | none =>
    cases hl : c.legacy with
    | none =>
      rw [hk, hl] at h
      cases h
    | some l =>
      rw [hk, hl] at h
      obtain ⟨hget, hsub⟩ := Option.filter_eq_some_iff.mp h
      obtain ⟨r, hr, hkey, rfl⟩ := get_eq_some hget
      have hof : some r.routingKey = c.legacy := by rw [hkey, hl]
      exact ⟨r, mem_rowsOf.mpr ⟨hr, .inr ⟨hof, of_decide_eq_true hsub⟩⟩, rfl⟩

theorem rowsOf_eq_nil (hpk : Sql.PrimaryKey Record.routingKey db.rows)
    (h : existing c db = none) : rowsOf c db = [] := by
  refine List.filter_eq_nil_iff.mpr fun x hx hof => ?_
  unfold existing at h
  cases hk : db.get c.routingKey with
  | some e =>
    rw [hk] at h
    cases h
  | none =>
    rcases of_decide_eq_true hof with hkey | ⟨hkey, hsub⟩
    · exact get_eq_none.mp hk x hx hkey
    · rw [hk, ← hkey] at h
      cases hl : db.get x.routingKey with
      | none => exact get_eq_none.mp hl x hx rfl
      | some e =>
        obtain ⟨r, hr, hrkey, rfl⟩ := get_eq_some hl
        obtain rfl := hpk.eq hr hx hrkey
        have hfilter : (db.get r.routingKey).filter (·.subscriptionId = c.subscriptionId) =
          none := h
        rw [hl] at hfilter
        exact absurd (Option.filter_eq_none_iff.mp hfilter (mapRow r) rfl) (by
          rw [decide_eq_true_iff]
          exact not_not_intro hsub)

/-- what a call finds is the row of the conversation. -/
theorem map_rowsOf (h : Inv c db) : (rowsOf c db).map mapRow = (existing c db).toList := by
  cases hex : existing c db with
  | none => rw [rowsOf_eq_nil h.keys hex]; rfl
  | some e =>
    obtain ⟨r, hr, rfl⟩ := existing_eq_some hex
    rw [rowsOf_eq_singleton h hr]
    rfl

theorem pending_of_rowsOf (h : rowsOf c db = [r]) : pending c db = r.pendingMessageCount := by
  unfold pending
  rw [h]
  exact Nat.zero_add _

theorem pending_eq (h : Inv c db) :
    pending c db + 1 = ((existing c db).map (·.pendingMessageCount + 1)).getD 1 := by
  cases hex : existing c db with
  | none =>
    unfold pending
    rw [rowsOf_eq_nil h.keys hex]
    rfl
  | some e =>
    obtain ⟨r, hr, rfl⟩ := existing_eq_some hex
    rw [pending_of_rowsOf (rowsOf_eq_singleton h hr)]
    rfl

/-! ## a message that is new -/

theorem mem_rowsAfter {x : Record} : x ∈ rowsAfter c db m ↔
    (x = stored db.rows (advanced c m (existing c db)) ∨
      x ∈ db.rows ∧ x.routingKey ≠ c.routingKey) ∧
      (shouldMigrateLegacy c (existing c db) = true → x.routingKey ≠ foundKey (existing c db)) := by
  unfold rowsAfter
  split
  · rename_i hm
    rw [List.mem_filter, mem_upsertRow, decide_eq_true_iff]
    exact and_congr_right fun _ => ⟨fun hne _ => hne, fun hne => hne hm⟩
  · rename_i hm
    rw [mem_upsertRow]
    exact ⟨fun hx => ⟨hx, fun hm' => absurd hm' hm⟩, fun hx => hx.1⟩

theorem shouldMigrateLegacy_some : shouldMigrateLegacy c (some e) = true ↔
    e.routingKey ≠ c.routingKey ∧ some e.routingKey = c.legacyRoutingKey := decide_eq_true_iff

theorem primaryKey_rowsAfter (h : Inv c db) :
    Sql.PrimaryKey Record.routingKey (rowsAfter c db m) := by
  unfold rowsAfter
  split
  · exact (primaryKey_upsertRow h.keys).sublist (List.filter_sublist.map _)
  · exact primaryKey_upsertRow h.keys

/-- **The conversation has one row after a new message**, under its key. -/
theorem rowsOf_rowsAfter (h : Inv c db) :
    (rowsAfter c db m).filter (Of c) = [stored db.rows (advanced c m (existing c db))] := by
  have hkey : (stored db.rows (advanced c m (existing c db))).routingKey = c.routingKey :=
    stored_routingKey
  refine filter_eq_singleton (primaryKey_rowsAfter h)
    (mem_rowsAfter.mpr ⟨.inl rfl, fun hm => ?_⟩) (of_key hkey) ?_
  · cases hex : existing c db with
    | none =>
      rw [hex] at hm
      cases hm
    | some e =>
      rw [hex] at hm
      rw [← hex, hkey, hex]
      exact (shouldMigrateLegacy_some.mp hm).1.symm
  · intro x hx hof
    obtain ⟨hx | ⟨hmem, hne⟩, hmig⟩ := mem_rowsAfter.mp hx
    · exact hx
    -- a row that is left under the legacy key is the row that was found, which was moved
    exfalso
    obtain ⟨hlegacy, -⟩ := hof.resolve_left hne
    have hrow : x ∈ rowsOf c db := mem_rowsOf.mpr ⟨hmem, hof⟩
    have hfound : (existing c db).toList = [mapRow x] := by
      rw [← map_rowsOf h, rowsOf_eq_singleton h hrow]
      rfl
    have hex : existing c db = some (mapRow x) := Option.toList_eq_singleton_iff.mp hfound
    have hkeyed : some x.routingKey = c.legacyRoutingKey :=
      (Option.filter_eq_some_iff.mp hlegacy.symm).1.symm
    rw [hex] at hmig
    exact hmig (shouldMigrateLegacy_some.mpr ⟨hne, hkeyed⟩) rfl

/-- the row under the key is the one that is reported. -/
theorem get_of_rowsOf {claims : List Claim} (h : rows.filter (Of c) = [r])
    (hkey : r.routingKey = c.routingKey) :
    Db.get ⟨rows, claims⟩ c.routingKey ≠ none := by
  have hr : r ∈ rows := by
    have hmem : r ∈ rows.filter (Of c) := by
      rw [h]
      exact List.mem_singleton_self r
    exact (List.mem_filter.mp hmem).1
  exact fun hnone => get_eq_none.mp hnone r hr hkey

/-- **A new message, in whole.** -/
theorem advanced_of_new (h : Inv c db) (claims : List Claim) :
    Inv c ⟨rowsAfter c db m, claims⟩ ∧
      Advanced c ⟨db, m, ⟨reported c db m, false⟩, ⟨rowsAfter c db m, claims⟩⟩ ∧
      pending c ⟨rowsAfter c db m, claims⟩ = pending c db + 1 := by
  have hrows := rowsOf_rowsAfter (m := m) h
  have hrow : rowsOf c ⟨rowsAfter c db m, claims⟩ =
      [stored db.rows (advanced c m (existing c db))] := hrows
  have hcount : (stored db.rows (advanced c m (existing c db))).pendingMessageCount =
      pending c db + 1 := by
    rw [stored_pendingMessageCount, pending_eq h]
    rfl
  refine ⟨⟨primaryKey_rowsAfter h, fun _ _ _ => ?_, ?_⟩, ⟨?_, ?_, ?_⟩, ?_⟩
  · exact get_of_rowsOf hrows stored_routingKey
  · rw [hrow]
    exact Nat.le_refl 1
  · rw [hrow]
    rfl
  · exact stored_lastMessageIdSeen
  · exact hcount
  · rw [pending_of_rowsOf hrow, hcount]

/-! ## a message that was seen -/

/-- **A cursor changes neither the count nor the number of rows.** -/
theorem inv_saved (h : Inv c db) (hk : db.get c.routingKey = some e)
    (hr : r.routingKey = c.routingKey) (hcount : r.pendingMessageCount = e.pendingMessageCount) :
    Inv c (saved db r) ∧ rowsOf c (saved db r) = [stored db.rows r] ∧
      pending c (saved db r) = pending c db := by
  obtain ⟨old, hold, holdkey, rfl⟩ := get_eq_some hk
  have hmem : old ∈ rowsOf c db := mem_rowsOf.mpr ⟨hold, of_key holdkey⟩
  have hkey : (stored db.rows r).routingKey = c.routingKey := stored_routingKey.trans hr
  have hpk := primaryKey_upsertRow (r := r) h.keys
  have hrows : rowsOf c (saved db r) = [stored db.rows r] := by
    refine filter_eq_singleton hpk (mem_upsertRow.mpr (.inl rfl)) (of_key hkey) fun x hx hof => ?_
    rcases mem_upsertRow.mp hx with hx | ⟨hx, hne⟩
    · exact hx
    · obtain rfl := h.eq (mem_rowsOf.mpr ⟨hx, hof⟩) hmem
      exact absurd (holdkey.trans hr.symm) hne
  refine ⟨⟨hpk, fun _ _ _ => get_of_rowsOf hrows hkey, ?_⟩, hrows, ?_⟩
  · rw [hrows]
    exact Nat.le_refl 1
  · rw [pending_of_rowsOf hrows, pending_of_rowsOf (rowsOf_eq_singleton h hmem),
      stored_pendingMessageCount]
    exact hcount

/-- the invariant and the claims after a delivery that took nothing in. -/
structure Unchanged (c : Conversation) (db db' : Db) : Prop where
  inv : Inv c db'
  claims : db'.claims = db.claims
  pending : pending c db' = pending c db

/-- a repeated message. -/
theorem repeated (h : Inv c db) (hrev : d.message.messageRevision = some revision)
    (hold : claimOf c d.message.messageId revision ∈ db.claims) :
    Unchanged c db (deliver c db d).1 ∧ (rowsOf c (deliver c db d).1).length = 1 ∧
      ∀ result k, (deliver c db d).2 = some (result, k) → result.wasDuplicate = true := by
  obtain ⟨e, he⟩ := Option.ne_none_iff_exists'.mp (h.claimed _ hold rfl)
  obtain ⟨hstate, hresult⟩ := deliver_duplicate hrev hold he
  obtain ⟨old, holdmem, holdkey, rfl⟩ := get_eq_some he
  have hmem : old ∈ rowsOf c db := mem_rowsOf.mpr ⟨holdmem, of_key holdkey⟩
  rcases hstate with hstate | hstate
  · rw [hstate]
    refine ⟨⟨h, rfl, rfl⟩, ?_, hresult⟩
    rw [rowsOf_eq_singleton h hmem]
    rfl
  · rw [hstate]
    obtain ⟨hinv, hrows, hpending⟩ := inv_saved (r := { mapRow old with
      lastEventCursorSeen := d.message.eventCursor, updatedAt := d.message.now }) h he holdkey rfl
    refine ⟨⟨hinv, rfl, hpending⟩, ?_, hresult⟩
    rw [hrows]
    rfl

/-! ## every delivery -/

/-- a delivery that took its message in. -/
structure TakenIn (c : Conversation) (db : Db) (d : Delivery) (revision : ℤ) : Prop where
  inv : Inv c (deliver c db d).1
  unclaimed : claimOf c d.message.messageId revision ∉ db.claims
  claims : (deliver c db d).1.claims = db.claims ++ [claimOf c d.message.messageId revision]
  pending : pending c (deliver c db d).1 = pending c db + 1
  result : ∃ result k, (deliver c db d).2 = some (result, k) ∧ result.wasDuplicate = false ∧
    Advanced c ⟨db, d.message, result, (deliver c db d).1⟩

/-- a delivery that took nothing in: its message was taken in before, or it did not complete. -/
structure TookNothing (c : Conversation) (db : Db) (d : Delivery) (revision : ℤ) : Prop where
  unchanged : Unchanged c db (deliver c db d).1
  result : ∀ result k, (deliver c db d).2 = some (result, k) →
    result.wasDuplicate = true ∧ claimOf c d.message.messageId revision ∈ db.claims ∧
      (rowsOf c (deliver c db d).1).length = 1

/-- **What a delivery that is not torn does.** -/
theorem deliver_cases (h : Inv c db) (hrev : d.message.messageRevision = some revision)
    (hw : Whole c db d) : TakenIn c db d revision ∨ TookNothing c db d revision := by
  by_cases hold : claimOf c d.message.messageId revision ∈ db.claims
  · obtain ⟨hunchanged, hone, hresult⟩ := repeated h hrev hold
    exact .inr ⟨hunchanged, fun result k hres => ⟨hresult result k hres, hold, hone⟩⟩
  rcases (hw revision hrev).resolve_left hold with hcut | hcut
  · refine .inr ⟨?_, fun result k hres => ?_⟩
    · rw [deliver_before hrev hcut]
      exact ⟨h, rfl, rfl⟩
    · rw [deliver_before hrev hcut] at hres
      exact absurd hres.symm (Option.some_ne_none _)
  · obtain ⟨k, hk⟩ := deliver_new hrev hold hcut
    obtain ⟨hinv, hadv, hpending⟩ := advanced_of_new (m := d.message) h
      (db.claims ++ [claimOf c d.message.messageId revision])
    left
    refine ⟨?_, hold, ?_, ?_, _, k, congrArg Prod.snd hk, rfl, ?_⟩
    · rw [hk]
      exact hinv
    · rw [hk]
    · rw [hk]
      exact hpending
    · rw [hk]
      exact hadv

/-! ## runs -/

/-- every delivery has a revision. -/
def Revised (ds : List Delivery) : Prop := ∀ d ∈ ds, d.message.messageRevision ≠ none

/-- the calls that took a revision in. -/
def takings (key : String × Option ℤ) (dones : List Done) : ℕ :=
  dones.countP fun d => d.key = key ∧ d.result.wasDuplicate = false

/-- What a run did, from `db₀` to `db₁`. -/
structure Ran (c : Conversation) (db₀ db₁ : Db) (dones : List Done) : Prop where
  inv : Inv c db₁
  kept : ∀ claim ∈ db₀.claims, claim ∈ db₁.claims
  claimed : ∀ d ∈ dones, ∃ revision, d.message.messageRevision = some revision ∧
    claimOf c d.message.messageId revision ∈ db₁.claims
  once : ∀ id revision, (if claimOf c id revision ∈ db₀.claims then 1 else 0) +
    takings (id, some revision) dones = if claimOf c id revision ∈ db₁.claims then 1 else 0
  advanced : ∀ d ∈ dones, d.result.wasDuplicate = false → Advanced c d
  oneRow : ∀ d ∈ dones, (rowsOf c d.after).length = 1
  total : pending c db₁ = pending c db₀ + dones.countP (fun d => d.result.wasDuplicate = false)

theorem Ran.nil (h : Inv c db) : Ran c db db [] :=
  ⟨h, fun _ hc => hc, fun _ hd => absurd hd List.not_mem_nil, fun _ _ => Nat.add_zero _,
    fun _ hd => absurd hd List.not_mem_nil, fun _ hd => absurd hd List.not_mem_nil, rfl⟩

/-- a delivery that took nothing in, before a run. -/
theorem Ran.took_nothing {db₁ : Db} {dones : List Done}
    (hrev : d.message.messageRevision = some revision) (hd : TookNothing c db d revision)
    (hran : Ran c (deliver c db d).1 db₁ dones) :
    Ran c db db₁ (((deliver c db d).2.map fun r =>
      ⟨db, d.message, r.1, (deliver c db d).1⟩).toList ++ dones) := by
  have hclaims := hd.unchanged.claims
  cases hres : (deliver c db d).2 with
  | none =>
    refine ⟨hran.inv, fun claim hc => hran.kept claim (hclaims ▸ hc), hran.claimed, ?_,
      hran.advanced, hran.oneRow, ?_⟩
    · intro id rev
      rw [← hclaims]
      exact hran.once id rev
    · rw [hran.total, hd.unchanged.pending]
      rfl
  | some r =>
    obtain ⟨result, k⟩ := r
    obtain ⟨hdup, hclaim, hone⟩ := hd.result result k hres
    have hnot : ∀ p : Done → Prop, [inst : DecidablePred p] →
        ((⟨db, d.message, result, (deliver c db d).1⟩ : Done) :: dones).countP
          (fun x => p x ∧ x.result.wasDuplicate = false) =
        dones.countP (fun x => p x ∧ x.result.wasDuplicate = false) := by
      intro p inst
      refine List.countP_cons_of_neg ?_
      rw [decide_eq_true_iff]
      exact fun hfalse => Bool.noConfusion (hdup.symm.trans hfalse.2)
    refine ⟨hran.inv, fun claim hc => hran.kept claim (hclaims ▸ hc), ?_, ?_, ?_, ?_, ?_⟩
    · intro x hx
      rcases List.mem_cons.mp hx with rfl | hx
      · exact ⟨revision, hrev, hran.kept _ (hclaims ▸ hclaim)⟩
      · exact hran.claimed x hx
    · intro id rev
      rw [← hran.once id rev, hclaims]
      exact congrArg _ (hnot fun x => x.key = (id, some rev))
    · intro x hx hnew
      rcases List.mem_cons.mp hx with rfl | hx
      · exact Bool.noConfusion (hdup.symm.trans hnew)
      · exact hran.advanced x hx hnew
    · intro x hx
      rcases List.mem_cons.mp hx with rfl | hx
      · exact hone
      · exact hran.oneRow x hx
    · rw [hran.total, hd.unchanged.pending]
      refine congrArg _ (List.countP_cons_of_neg ?_).symm
      rw [decide_eq_true_iff]
      exact fun hfalse => Bool.noConfusion (hdup.symm.trans hfalse)

/-- a delivery that took its message in, before a run. -/
theorem Ran.taken_in {db₁ : Db} {dones : List Done}
    (hrev : d.message.messageRevision = some revision) (hd : TakenIn c db d revision)
    (hran : Ran c (deliver c db d).1 db₁ dones) :
    Ran c db db₁ (((deliver c db d).2.map fun r =>
      ⟨db, d.message, r.1, (deliver c db d).1⟩).toList ++ dones) := by
  obtain ⟨result, k, hres, hnew, hadv⟩ := hd.result
  have hmem : ∀ claim, claim ∈ (deliver c db d).1.claims ↔
      claim ∈ db.claims ∨ claim = claimOf c d.message.messageId revision := by
    intro claim
    rw [hd.claims, List.mem_append, List.mem_singleton]
  rw [hres]
  refine ⟨hran.inv, fun claim hc => hran.kept claim ((hmem claim).mpr (.inl hc)), ?_, ?_, ?_, ?_,
    ?_⟩
  · intro x hx
    rcases List.mem_cons.mp hx with rfl | hx
    · exact ⟨revision, hrev, hran.kept _ ((hmem _).mpr (.inr rfl))⟩
    · exact hran.claimed x hx
  · intro id rev
    rw [← hran.once id rev]
    by_cases hkey : claimOf c id rev = claimOf c d.message.messageId revision
    · obtain ⟨-, rfl, rfl⟩ := Claim.mk.injEq .. ▸ hkey
      rw [if_neg hd.unclaimed, if_pos ((hmem _).mpr (.inr rfl)), Nat.zero_add, Nat.add_comm]
      refine List.countP_cons_of_pos ?_
      rw [decide_eq_true_iff]
      exact ⟨congrArg (Prod.mk _) hrev, hnew⟩
    · have hiff : claimOf c id rev ∈ (deliver c db d).1.claims ↔ claimOf c id rev ∈ db.claims :=
        (hmem _).trans (or_iff_left hkey)
      rw [if_congr hiff rfl rfl]
      refine congrArg _ (List.countP_cons_of_neg ?_)
      rw [decide_eq_true_iff]
      rintro ⟨hid, -⟩
      obtain ⟨rfl, hrev'⟩ := Prod.mk.inj hid
      obtain rfl := Option.some.inj (hrev.symm.trans hrev')
      exact hkey rfl
  · intro x hx hx'
    rcases List.mem_cons.mp hx with rfl | hx
    · exact hadv
    · exact hran.advanced x hx hx'
  · intro x hx
    rcases List.mem_cons.mp hx with rfl | hx
    · have hlen := congrArg List.length hadv.row
      rw [List.length_map] at hlen
      exact hlen
    · exact hran.oneRow x hx
  · rw [hran.total, hd.pending, Nat.add_assoc, Nat.add_comm 1]
    refine congrArg _ (List.countP_cons_of_pos ?_).symm
    rw [decide_eq_true_iff]
    exact hnew

/-- **What a run without torn calls does.** -/
theorem ran {ds : List Delivery} (h : Inv c db) (hrev : Revised ds) (hw : AllWhole c db ds) :
    Ran c db (run c db ds).1 (run c db ds).2 := by
  induction ds generalizing db with
  | nil => exact Ran.nil h
  | cons d ds ih =>
    obtain ⟨revision, hrevision⟩ := Option.ne_none_iff_exists'.mp (hrev d List.mem_cons_self)
    have hrest : Revised ds := fun x hx => hrev x (List.mem_cons_of_mem d hx)
    rcases deliver_cases h hrevision hw.1 with hd | hd
    · exact Ran.taken_in hrevision hd (ih hd.inv hrest hw.2)
    · exact Ran.took_nothing hrevision hd (ih hd.unchanged.inv hrest hw.2)

/-! ## a call that is torn -/

theorem claim_kept {claim : Claim} (o : store.Op) (db : Db) (h : claim ∈ db.claims) :
    claim ∈ (effect o db).1.claims := by
  cases o with
  | claimMessageRevision other =>
    rw [effect]
    split
    · exact h
    · exact List.mem_append_left _ h
  | _ => exact h

theorem returns_save (record : Record) {f : Record → Prog store Result} {Q : Result → Prop}
    (h : ∀ a, (f a).Returns Q) : (save record >>= f).Returns Q := fun _ _ => h _

/-- a message whose revision was claimed is reported as a duplicate. -/
theorem returns_record (found : Option Record) :
    (record c m found true).Returns fun result => result.wasDuplicate = true := by
  cases found with
  | none => exact returns_save _ fun _ => rfl
  | some e =>
    show (acknowledge c m e).Returns _
    unfold acknowledge
    split
    · exact returns_save _ fun _ _ => rfl
    · split
      · exact returns_save _ fun _ => rfl
      · rfl

/-- **A claimed revision is never reported as new**, wherever the calls are cut off. -/
theorem never_new {ds : List Delivery} {id : String}
    (h : claimOf c id revision ∈ db.claims) : takings (id, some revision) (run c db ds).2 = 0 := by
  induction ds generalizing db with
  | nil => rfl
  | cons d ds ih =>
    have hkept : claimOf c id revision ∈ (deliver c db d).1.claims :=
      cut_keeps claim_kept (upsertMessage c d.message) h
    have hrest := ih hkept
    show takings _ (_ ++ _) = 0
    unfold takings at hrest ⊢
    rw [List.countP_append, hrest, Nat.add_zero, List.countP_eq_zero]
    intro x hx
    rw [decide_eq_true_iff]
    rintro ⟨hkey, hnew⟩
    obtain ⟨⟨result, k⟩, hres, rfl⟩ := Option.map_eq_some_iff.mp (Option.mem_toList.mp hx)
    obtain ⟨rfl, hrev⟩ := Prod.mk.inj hkey
    have hbehind : reads c db < d.cut := by
      by_contra hcut
      have hnone : (deliver c db d).2 = none := by
        rw [deliver_before hrev (Nat.le_of_not_lt hcut)]
      exact absurd (hres.symm.trans hnone) (Option.some_ne_none _)
    rw [deliver_behind hrev hbehind, if_pos h] at hres
    exact Bool.noConfusion ((cut_returns (returns_record _) hres).symm.trans hnew)

/-- **A call that is cut off behind its claim** does not complete, and its revision is never
reported as new. -/
theorem torn_claim (hrev : d.message.messageRevision = some revision)
    (hnew : claimOf c d.message.messageId revision ∉ db.claims) (hbehind : reads c db < d.cut)
    (hcut : d.cut < statements c db) :
    (deliver c db d).2 = none ∧ ∀ ds,
      takings (d.message.messageId, some revision) (run c (deliver c db d).1 ds).2 = 0 := by
  rw [deliver_behind hrev hbehind, if_neg hnew]
  refine ⟨?_, fun ds => never_new (cut_keeps claim_kept _ (List.mem_append_right _
    (List.mem_singleton_self _)))⟩
  have hadvance : record c d.message (existing c db) false =
      advance c d.message (existing c db) false := by
    cases existing c db <;> rfl
  unfold statements at hcut
  rw [hadvance, advance, cut_bind, cut_save]
  by_cases h0 : d.cut - reads c db - 1 = 0
  · rw [if_pos h0, andThen_none]
  rw [if_neg h0]
  by_cases h1 : d.cut - reads c db - 1 = 1
  · rw [if_pos h1, andThen_none]
  rw [if_neg h1, andThen_some]
  by_cases hm : shouldMigrateLegacy c (existing c db) = true
  · rw [if_pos hm] at hcut
    rw [if_pos hm, cut_bind, cut_deleteByRoutingKey, if_pos (by omega), andThen_none]
  · rw [if_neg hm] at hcut
    omega

/-- **Exactly once.**  When no call is cut off between its claim of a new revision and its end,
every revision that a call completed with was taken in by exactly one of them, and a conversation
has one row after each. -/
theorem exactly_once {ds : List Delivery} (h : Fresh c db) (hrev : Revised ds)
    (hw : AllWhole c db ds) : ExactlyOnce c db (run c db ds).1 (run c db ds).2 := by
  have hran := ran h.inv hrev hw
  refine ⟨fun d hd => ?_, hran.advanced, hran.oneRow, hran.total⟩
  obtain ⟨revision, hrevision, hclaim⟩ := hran.claimed d hd
  have honce := hran.once d.message.messageId revision
  have hunclaimed : claimOf c d.message.messageId revision ∉ db.claims :=
    fun hmem => h.unclaimed _ hmem rfl
  rw [if_neg hunclaimed, if_pos hclaim, Nat.zero_add] at honce
  have hkey : d.key = (d.message.messageId, some revision) := congrArg (Prod.mk _) hrevision
  rw [hkey]
  exact honce

end

/-! ## on a conversation -/

/-- A conversation with a message, for the examples. -/
def sampleConversation : Conversation := ⟨"key", some "legacy", "subscription"⟩

def sampleMessage : Message :=
  { agentId := "agent", workspaceOwnerNpub := "owner", sourceAppNpub := "app",
    towerServiceNpub := none, workspaceId := none, channelId := "channel", threadId := "thread",
    botNpub := "bot", messageId := "m", messageRevision := some 1, eventCursor := none, now := "t" }

/-- Two whole calls with one revision. -/
theorem exactly_once_sample :
    ExactlyOnce sampleConversation ⟨[], []⟩
      (run sampleConversation ⟨[], []⟩ [⟨sampleMessage, 9⟩, ⟨sampleMessage, 9⟩]).1
      (run sampleConversation ⟨[], []⟩ [⟨sampleMessage, 9⟩, ⟨sampleMessage, 9⟩]).2 :=
  exactly_once ⟨List.nodup_nil, nofun, Nat.zero_le 1⟩ (by simp [Revised, sampleMessage])
    ⟨fun _ _ => .inr (.inr (by decide +kernel)), fun revision hrev => .inl (by
      obtain rfl := Option.some.inj hrev
      decide +kernel), trivial⟩

/-- A call that is cut off behind its claim, and any calls after it. -/
theorem torn_claim_sample :
    (deliver sampleConversation ⟨[], []⟩ ⟨sampleMessage, 3⟩).2 = none ∧ ∀ ds, takings ("m", some 1)
      (run sampleConversation (deliver sampleConversation ⟨[], []⟩ ⟨sampleMessage, 3⟩).1 ds).2 = 0 :=
  torn_claim (d := ⟨sampleMessage, 3⟩) rfl List.not_mem_nil (by decide +kernel) (by decide +kernel)

/-- **A call that is cut off behind its claim, and its redelivery.**  The redelivery is reported as
a duplicate of a message that no call took in. -/
theorem redelivery_lost :
    Fresh sampleConversation ⟨[], []⟩ ∧
      ((run sampleConversation ⟨[], []⟩ [⟨sampleMessage, 3⟩, ⟨sampleMessage, 9⟩]).2.map
        fun d => (d.message.messageId, d.result.wasDuplicate)) = [("m", true)] ∧
      ¬ExactlyOnce sampleConversation ⟨[], []⟩
        (run sampleConversation ⟨[], []⟩ [⟨sampleMessage, 3⟩, ⟨sampleMessage, 9⟩]).1
        (run sampleConversation ⟨[], []⟩ [⟨sampleMessage, 3⟩, ⟨sampleMessage, 9⟩]).2 := by
  refine ⟨⟨List.nodup_nil, nofun, Nat.zero_le 1⟩, by decide +kernel, fun h => ?_⟩
  exact absurd h.once (by decide +kernel)

end Intake
end AgentChat
end WmAutopilot
