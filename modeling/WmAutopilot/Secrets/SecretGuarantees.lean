import WmAutopilot.Async.Solo
import WmAutopilot.Secrets.SecretStore

/-!
# Revocations and policy updates of secrets stay

* `SecretRecord.unused`   a record without the time of its last use, which is all a stamp may change;
* `Inv`, `handles`        the invariant of the handles and what each operation may ask for;
* `handles_keeps`         every method keeps it, among any number of others;
* `Evolves`               a revision never decreases and a revocation stays;
* `custody_kept`          **where every stamp finds the revision that it writes, what was committed
                          stays**; and what is returned was allowed at the last read;
* `custody_undone`        a stamp of a record that was read before a revocation.
-/

set_option autoImplicit false
set_option linter.unusedVariables false

namespace WmAutopilot
namespace Secrets
open Js Value Async Sql

/-! ## rows -/

/-- all of a record but the time of its last use. -/
def SecretRecord.unused (record : SecretRecord) : SecretRecord := { record with lastUsedAt := none }

section
variable {record record' : SecretRecord}

/-- what records with the same `unused` share. -/
theorem SecretRecord.of_unused (h : record.unused = record'.unused) :
    record.id = record'.id ∧ record.revision = record'.revision ∧
      record.revokedAt = record'.revokedAt := by
  have hid := congrArg SecretRecord.id h
  have hrevision := congrArg SecretRecord.revision h
  have hrevoked := congrArg SecretRecord.revokedAt h
  exact ⟨hid, hrevision, hrevoked⟩

theorem findRow_ok {rows : List SecretRow} {owner workspace id : String} {row : SecretRow}
    (h : findRow rows owner workspace id = .ok row) : row ∈ rows ∧ row.id = id := by
  have hfind := orThrow_ok.mp h
  have hp := List.find?_some hfind
  exact ⟨List.mem_of_find?_eq_some hfind, (of_decide_eq_true hp).1⟩

theorem mem_writeRow {rows : List SecretRow} {id : String} {metadata : SecretRecord}
    {envelope : Option String} {row' : SecretRow} (h : row' ∈ writeRow id metadata envelope rows) :
    ∃ row ∈ rows, row'.id = row.id ∧
      (row.id = id ∧ row'.metadata = metadata ∧ row'.envelope = envelope.getD row.envelope ∨
        row.id ≠ id ∧ row' = row) := by
  obtain ⟨row, hrow, rfl⟩ := mem_update.mp h
  by_cases hid : row.id = id
  · rw [if_pos hid]
    exact ⟨row, hrow, rfl, Or.inl ⟨hid, rfl, rfl⟩⟩
  · rw [if_neg hid]
    exact ⟨row, hrow, rfl, Or.inr ⟨hid, rfl⟩⟩

theorem writeRow_mem {rows : List SecretRow} {id : String} {metadata : SecretRecord}
    {envelope : Option String} {row : SecretRow} (h : row ∈ rows) :
    ∃ row' ∈ writeRow id metadata envelope rows, row'.id = row.id ∧
      (row.id = id ∧ row'.metadata = metadata ∧ row'.envelope = envelope.getD row.envelope ∨
        row.id ≠ id ∧ row' = row) := by
  refine ⟨_, mem_update.mpr ⟨row, h, rfl⟩, ?_⟩
  by_cases hid : row.id = id
  · rw [if_pos hid]
    exact ⟨rfl, Or.inl ⟨hid, rfl, rfl⟩⟩
  · rw [if_neg hid]
    exact ⟨rfl, Or.inr ⟨hid, rfl⟩⟩

theorem PrimaryKey.writeRow {rows : List SecretRow} (h : PrimaryKey SecretRow.id rows)
    {id : String} {metadata : SecretRecord} {envelope : Option String} :
    PrimaryKey SecretRow.id (writeRow id metadata envelope rows) := h.update fun _ => rfl

end

/-- **An update writes the next revision of a record that is not revoked.** -/
theorem updated_ok {host : Host} {time : String} {nonce : ℕ} {input : Value} {row : SecretRow}
    {next : SecretRecord} {envelope : String}
    (h : updated host time nonce input row = .ok (next, envelope)) :
    next.id = row.metadata.id ∧ next.revision = row.metadata.revision + 1 ∧
      next.revokedAt = none ∧ row.metadata.revokedAt = none := by
  unfold updated at h
  obtain ⟨_, -, h⟩ := bind_ok.mp h
  obtain ⟨_, hrevoked, h⟩ := bind_ok.mp h
  have hnone : row.metadata.revokedAt = none := by simpa using throwIf_ok.mp hrevoked
  obtain ⟨type, -, h⟩ := bind_ok.mp h
  obtain ⟨_, -, h⟩ := bind_ok.mp h
  obtain ⟨policy, -, h⟩ := bind_ok.mp h
  obtain ⟨label, -, h⟩ := bind_ok.mp h
  split at h
  · cases h
    exact ⟨rfl, rfl, hnone, hnone⟩
  · obtain ⟨value, -, h⟩ := bind_ok.mp h
    cases h
    unfold SecretRecord.rekeyed
    split <;> exact ⟨rfl, rfl, hnone, hnone⟩

/-! ## the invariant -/

/-- the record committed last under an id. -/
def lastCommitted (committed : List SecretRecord) (id : String) : Option SecretRecord :=
  committed.find? fun record => record.id = id

/-- `record` is a committed record of `id`, but for the time of its last use. -/
def Known (id : String) (record : SecretRecord) (w : World) : Prop :=
  ∃ r ∈ w.committed, r.id = id ∧ record.unused = r.unused

/-- What stays where no stamp writes an old record. -/
structure Custody (w : World) : Prop where
  stored : ∀ row ∈ w.rows, ∃ record, lastCommitted w.committed row.id = some record ∧
    row.metadata.unused = record.unused
  erased : ∀ row ∈ w.rows, row.metadata.revokedAt.isSome → row.envelope = ""
  revisions : ∀ r ∈ w.committed, ∀ r' ∈ w.committed, r.id = r'.id → r.revision = r'.revision → r = r'
  latest : ∀ row ∈ w.rows, ∀ r ∈ w.committed, r.id = row.id → r.revision ≤ row.metadata.revision

/-- The invariant; `fenced` says that no stamp writes an old record. -/
structure Inv (host : Host) (fenced : Prop) (w : World) : Prop where
  unique : PrimaryKey SecretRow.id w.rows
  known : ∀ row ∈ w.rows, Known row.id row.metadata w
  rowed : ∀ r ∈ w.committed, ∃ row ∈ w.rows, row.id = r.id
  allowed : ∀ entry ∈ w.returned, ∃ record, entry.2 = some record ∧
    assertSecretUse host record entry.1 = .ok ()
  custody : fenced → Custody w

/-- what thread `κ` asks for. -/
def may (host : Host) (κ : ℕ) : SecretOp → World → Prop
  | .insert row, _ => row.metadata.id = row.id ∧ row.metadata.revokedAt = none
  | .stamp id record, w => Known id record w
  | .returned consumer, w => ∃ record, w.lastRead κ = some record ∧
      assertSecretUse host record consumer = .ok ()
  | _, _ => True

/-- the handles with their invariant. -/
def handles (host : Host) (R : When) (fenced : Prop) : Discipline api World :=
  { restricted host R with Inv := Inv host fenced, may := may host }

/-- the stored revision is that of the record that a stamp writes. -/
def Current : When := fun w id record =>
  ∀ row ∈ w.rows, row.id = id → row.metadata.revision = record.revision

section
variable {host : Host} {R : When} {fenced : Prop} {κ : ℕ} {w w' : World}

theorem Inv.initial (h : w.Initial) : Inv host fenced w := by
  subst h
  exact ⟨List.nodup_nil, fun _ h => absurd h List.not_mem_nil, fun _ h => absurd h List.not_mem_nil,
    fun _ h => absurd h List.not_mem_nil, fun _ => ⟨fun _ h => absurd h List.not_mem_nil,
      fun _ h => absurd h List.not_mem_nil, fun _ h => absurd h List.not_mem_nil,
      fun _ h => absurd h List.not_mem_nil⟩⟩

theorem Known.mono {id : String} {record : SecretRecord} (h : Known id record w)
    (hw : w.committed <:+ w'.committed) : Known id record w' := by
  obtain ⟨r, hr, hid, hu⟩ := h
  exact ⟨r, hw.subset hr, hid, hu⟩

theorem Known.id_eq {id : String} {record : SecretRecord} (h : Known id record w) :
    record.id = id := by
  obtain ⟨r, -, rfl, hu⟩ := h
  exact (SecretRecord.of_unused hu).1

theorem lastCommitted_cons_self (record : SecretRecord) (committed : List SecretRecord) :
    lastCommitted (record :: committed) record.id = some record :=
  List.find?_cons_of_pos (decide_eq_true rfl)

theorem lastCommitted_cons_of_ne {record : SecretRecord} {id : String} (h : record.id ≠ id)
    (committed : List SecretRecord) :
    lastCommitted (record :: committed) id = lastCommitted committed id :=
  List.find?_cons_of_neg (by simpa using h)

/-- **A committed transaction on a stored record keeps the invariant** when it writes the next
revision, and erases the envelope of a revoked record. -/
theorem Inv.commit_step {row : SecretRow} {next : SecretRecord} {envelope : String}
    (h : Inv host fenced w) (hrow : row ∈ w.rows) (hid : next.id = row.metadata.id)
    (hrev : next.revision = row.metadata.revision + 1)
    (herased : next.revokedAt.isSome → envelope = "") :
    Inv host fenced (w.commit row.id next envelope) := by
  have hnext : next.id = row.id := hid.trans (h.known row hrow).id_eq
  refine ⟨PrimaryKey.writeRow h.unique, fun row' hr' => ?_, fun r hr => ?_, h.allowed, fun hf => ?_⟩
  · obtain ⟨row₀, hr₀, hids, ⟨hx, hm, -⟩ | ⟨-, rfl⟩⟩ := mem_writeRow hr'
    · exact ⟨next, List.mem_cons_self, hnext.trans (hx.symm.trans hids.symm), hm ▸ rfl⟩
    · exact (h.known row' hr₀).mono (List.suffix_cons ..)
  · have hrowed : ∃ row₀ ∈ w.rows, row₀.id = r.id := by
      rcases List.mem_cons.mp hr with rfl | hr
      · exact ⟨row, hrow, hnext.symm⟩
      · exact h.rowed r hr
    obtain ⟨row₀, hr₀, hids⟩ := hrowed
    obtain ⟨row', hr', hids', -⟩ := writeRow_mem hr₀
    exact ⟨row', hr', hids'.trans hids⟩
  · have hc := h.custody hf
    have hbelow : ∀ r ∈ w.committed, r.id = next.id → r.revision < next.revision := by
      intro r hr e
      have := hc.latest row hrow r hr (e.trans hnext)
      omega
    refine ⟨fun row' hr' => ?_, fun row' hr' hrevoked => ?_, fun r hr r' hr' e e' => ?_,
      fun row' hr' r hr e => ?_⟩
    · obtain ⟨row₀, hr₀, hids, ⟨hx, hm, -⟩ | ⟨hx, rfl⟩⟩ := mem_writeRow hr'
      · refine ⟨next, ?_, hm ▸ rfl⟩
        rw [hids, hx, ← hnext]
        exact lastCommitted_cons_self ..
      · obtain ⟨record, hlast, hu⟩ := hc.stored row' hr₀
        exact ⟨record, (lastCommitted_cons_of_ne (fun e => hx (e.symm.trans hnext)) _).trans hlast, hu⟩
    · obtain ⟨row₀, hr₀, hids, ⟨hx, hm, he⟩ | ⟨hx, rfl⟩⟩ := mem_writeRow hr'
      · exact he.trans (herased (hm ▸ hrevoked))
      · exact hc.erased row' hr₀ hrevoked
    · rcases List.mem_cons.mp hr with h₁ | h₁ <;> rcases List.mem_cons.mp hr' with h₂ | h₂
      · exact h₁.trans h₂.symm
      · subst h₁
        exact absurd e'.symm (Nat.ne_of_lt (hbelow r' h₂ e.symm))
      · subst h₂
        exact absurd e' (Nat.ne_of_lt (hbelow r h₁ e))
      · exact hc.revisions r h₁ r' h₂ e e'
    · obtain ⟨row₀, hr₀, hids, ⟨hx, hm, -⟩ | ⟨hx, rfl⟩⟩ := mem_writeRow hr'
      · rw [hm]
        rcases List.mem_cons.mp hr with rfl | hr
        · exact Nat.le_refl _
        · exact Nat.le_of_lt (hbelow r hr (e.trans (hids.trans (hx.trans hnext.symm))))
      · rcases List.mem_cons.mp hr with rfl | hr
        · exact absurd (e.symm.trans hnext) hx
        · exact hc.latest row' hr₀ r hr e

/-- a new secret. -/
theorem Inv.insert_step {row : SecretRow} (h : Inv host fenced w)
    (hnew : ∀ row' ∈ w.rows, row'.id ≠ row.id) (hid : row.metadata.id = row.id)
    (hrevoked : row.metadata.revokedAt = none) :
    Inv host fenced { w with
      rows := w.rows ++ [row], committed := row.metadata :: w.committed } := by
  have hfresh : ∀ r ∈ w.committed, r.id ≠ row.id := by
    intro r hr e
    obtain ⟨row', hr', e'⟩ := h.rowed r hr
    exact hnew row' hr' (e'.trans e)
  refine ⟨h.unique.append hnew, fun row' hr' => ?_, fun r hr => ?_, h.allowed, fun hf => ?_⟩
  · rcases List.mem_append.mp hr' with hr' | hr'
    · exact (h.known row' hr').mono (List.suffix_cons ..)
    · obtain rfl := List.mem_singleton.mp hr'
      exact ⟨_, List.mem_cons_self, hid, rfl⟩
  · rcases List.mem_cons.mp hr with rfl | hr
    · exact ⟨row, List.mem_append_right _ (List.mem_singleton.mpr rfl), hid.symm⟩
    · obtain ⟨row', hr', e⟩ := h.rowed r hr
      exact ⟨row', List.mem_append_left _ hr', e⟩
  · have hc := h.custody hf
    refine ⟨fun row' hr' => ?_, fun row' hr' hx => ?_, fun r hr r' hr' e e' => ?_,
      fun row' hr' r hr e => ?_⟩
    · rcases List.mem_append.mp hr' with hr' | hr'
      · obtain ⟨record, hlast, hu⟩ := hc.stored row' hr'
        have hne : row.metadata.id ≠ row'.id := fun e => hnew row' hr' (e.symm.trans hid)
        exact ⟨record, (lastCommitted_cons_of_ne hne _).trans hlast, hu⟩
      · obtain rfl := List.mem_singleton.mp hr'
        refine ⟨row'.metadata, ?_, rfl⟩
        rw [← hid]
        exact lastCommitted_cons_self ..
    · rcases List.mem_append.mp hr' with hr' | hr'
      · exact hc.erased row' hr' hx
      · obtain rfl := List.mem_singleton.mp hr'
        rw [hrevoked] at hx
        cases hx
    · rcases List.mem_cons.mp hr with h₁ | h₁ <;> rcases List.mem_cons.mp hr' with h₂ | h₂
      · exact h₁.trans h₂.symm
      · subst h₁
        exact absurd (e.symm.trans hid) (hfresh r' h₂)
      · subst h₂
        exact absurd (e.trans hid) (hfresh r h₁)
      · exact hc.revisions r h₁ r' h₂ e e'
    · rcases List.mem_append.mp hr' with hr' | hr'
      · rcases List.mem_cons.mp hr with rfl | hr
        · exact absurd (e.symm.trans hid) (hnew row' hr')
        · exact hc.latest row' hr' r hr e
      · obtain rfl := List.mem_singleton.mp hr'
        rcases List.mem_cons.mp hr with rfl | hr
        · exact Nat.le_refl _
        · exact absurd e (hfresh r hr)

/-- a known record of the stored revision is the stored one. -/
theorem Custody.same {id : String} {record : SecretRecord} (hc : Custody w)
    (hknown : Known id record w) (hcurrent : Current w id record) {row : SecretRow}
    (hrow : row ∈ w.rows) (hid : row.id = id) : record.unused = row.metadata.unused := by
  obtain ⟨last, hlast, hu⟩ := hc.stored row hrow
  obtain ⟨r, hr, hrid, hur⟩ := hknown
  have hrev : last.revision = r.revision := by
    rw [← (SecretRecord.of_unused hu).2.1, ← (SecretRecord.of_unused hur).2.1]
    exact hcurrent row hrow hid
  have hlid : last.id = row.id := by simpa using List.find?_some hlast
  have hlr : last = r := hc.revisions last (List.mem_of_find?_eq_some hlast) r hr
    (hlid.trans (hid.trans hrid.symm)) hrev
  rw [hur, hu, hlr]

/-- **A stamp of the stored revision changes the time of the last use only.** -/
theorem Inv.stamp_step {id : String} {record : SecretRecord} (h : Inv host fenced w)
    (hknown : Known id record w) (hcurrent : fenced → Current w id record) :
    Inv host fenced { w with rows := writeRow id record none w.rows } := by
  refine ⟨PrimaryKey.writeRow h.unique, fun row' hr' => ?_, fun r hr => ?_, h.allowed, fun hf => ?_⟩
  · obtain ⟨row, hr, hids, ⟨hx, hm, -⟩ | ⟨-, rfl⟩⟩ := mem_writeRow hr'
    · rw [hids, hx, hm]
      exact hknown
    · exact h.known row' hr
  · obtain ⟨row, hrow, hids⟩ := h.rowed r hr
    obtain ⟨row', hr', hids', -⟩ := writeRow_mem hrow
    exact ⟨row', hr', hids'.trans hids⟩
  · have hc := h.custody hf
    have hrows : ∀ row' ∈ writeRow id record none w.rows, ∃ row ∈ w.rows, row'.id = row.id ∧
        row'.metadata.unused = row.metadata.unused ∧ row'.envelope = row.envelope := by
      intro row' hr'
      obtain ⟨row, hr, hids, ⟨hx, hm, he⟩ | ⟨-, rfl⟩⟩ := mem_writeRow hr'
      · exact ⟨row, hr, hids, hm ▸ hc.same hknown (hcurrent hf) hr hx, he⟩
      · exact ⟨row', hr, rfl, rfl, rfl⟩
    refine ⟨fun row' hr' => ?_, fun row' hr' hx => ?_, hc.revisions, fun row' hr' r hr e => ?_⟩
    · obtain ⟨row, hr, hids, hu, -⟩ := hrows row' hr'
      obtain ⟨last, hlast, hul⟩ := hc.stored row hr
      exact ⟨last, hids ▸ hlast, hu.trans hul⟩
    · obtain ⟨row, hr, -, hu, he⟩ := hrows row' hr'
      exact he.trans (hc.erased row hr ((SecretRecord.of_unused hu).2.2 ▸ hx))
    · obtain ⟨row, hrow, hids, hu, -⟩ := hrows row' hr'
      rw [(SecretRecord.of_unused hu).2.1]
      exact hc.latest row hrow r hr (e.trans hids)

theorem Inv.returned_step {consumer : SecretConsumer} (h : Inv host fenced w)
    (hreturned : ∃ record, w.lastRead κ = some record ∧
      assertSecretUse host record consumer = .ok ()) :
    Inv host fenced { w with returned := (consumer, w.lastRead κ) :: w.returned } := by
  refine ⟨h.unique, h.known, h.rowed, fun entry he => ?_, fun hf => ?_⟩
  · rcases List.mem_cons.mp he with rfl | he
    · exact hreturned
    · exact h.allowed entry he
  · have hc := h.custody hf
    exact ⟨hc.stored, hc.erased, hc.revisions, hc.latest⟩

theorem Inv.read_step (h : Inv host fenced w) (lastRead : ℕ → Option SecretRecord) :
    Inv host fenced { w with lastRead } := by
  refine ⟨h.unique, h.known, h.rowed, h.allowed, fun hf => ?_⟩
  have hc := h.custody hf
  exact ⟨hc.stored, hc.erased, hc.revisions, hc.latest⟩

/-! ## what one operation does -/

/-- a revision never decreases, and a revocation stays. -/
def Evolves (w w' : World) : Prop :=
  ∀ row ∈ w.rows, ∃ row' ∈ w'.rows, row'.id = row.id ∧
    row.metadata.revision ≤ row'.metadata.revision ∧
    (row.metadata.revokedAt.isSome → row'.metadata.revokedAt.isSome)

theorem Evolves.same (h : ∀ row ∈ w.rows, row ∈ w'.rows) : Evolves w w' :=
  fun row hr => ⟨row, h row hr, rfl, Nat.le_refl _, id⟩

theorem Evolves.trans {w'' : World} (h : Evolves w w') (h' : Evolves w' w'') : Evolves w w'' := by
  intro row hr
  obtain ⟨row', hr', hid, hrev, hx⟩ := h row hr
  obtain ⟨row'', hr'', hid', hrev', hx'⟩ := h' row' hr'
  exact ⟨row'', hr'', hid'.trans hid, Nat.le_trans hrev hrev', fun e => hx' (hx e)⟩

/-- a write of one row evolves when what it writes does. -/
theorem evolves_writeRow {id : String} {metadata : SecretRecord} {envelope : Option String}
    (hrows : w'.rows = writeRow id metadata envelope w.rows)
    (h : ∀ row ∈ w.rows, row.id = id → row.metadata.revision ≤ metadata.revision ∧
      (row.metadata.revokedAt.isSome → metadata.revokedAt.isSome)) : Evolves w w' := by
  intro row hr
  obtain ⟨row', hr', hids, ⟨hx, hm, -⟩ | ⟨-, rfl⟩⟩ := writeRow_mem hr
  · exact ⟨row', hrows ▸ hr', hids, hm ▸ h row hr hx⟩
  · exact ⟨row', hrows ▸ hr', rfl, Nat.le_refl _, fun e => e⟩

/-- what a step does to the invariant and to the records. -/
def Goes (host : Host) (fenced : Prop) (w w' : World) : Prop :=
  Inv host fenced w' ∧ (fenced → Evolves w w')

theorem Goes.stay (h : Inv host fenced w) : Goes host fenced w w :=
  ⟨h, fun _ => Evolves.same fun _ hr => hr⟩

theorem Goes.commit {row : SecretRow} {next : SecretRecord} {envelope : String}
    (h : Inv host fenced w) (hrow : row ∈ w.rows) (hid : next.id = row.metadata.id)
    (hrev : next.revision = row.metadata.revision + 1)
    (herased : next.revokedAt.isSome → envelope = "")
    (hkept : row.metadata.revokedAt.isSome → next.revokedAt.isSome) :
    Goes host fenced w (w.commit row.id next envelope) := by
  refine ⟨h.commit_step hrow hid hrev herased, fun _ => evolves_writeRow rfl fun row' hr' e => ?_⟩
  obtain rfl : row' = row := h.unique.eq hr' hrow e
  exact ⟨by omega, hkept⟩

/-- **One permitted operation** keeps the invariant, and the records evolve. -/
theorem perform_goes (hR : ∀ w id record, R w id record → fenced → Current w id record)
    {o : SecretOp} {r : o.Ans} (h : Inv host fenced w) (hmay : may host κ o w)
    (ho : (restricted host R).perform κ o w r w') : Goes host fenced w w' := by
  obtain ⟨ho, hwhen⟩ := ho
  cases o with
  | row owner workspace id =>
    rcases ho with ⟨-, rfl⟩ | ho
    · exact Goes.stay h
    · split at ho
      · obtain ⟨-, rfl⟩ := ho
        exact Goes.stay h
      · obtain ⟨-, rfl⟩ := ho
        exact ⟨h.read_step _, fun _ => Evolves.same fun _ hr => hr⟩
  | insert row =>
    rcases ho with ⟨-, rfl⟩ | ⟨hnew, -, rfl⟩
    · exact Goes.stay h
    · exact ⟨h.insert_step hnew hmay.1 hmay.2, fun _ =>
        Evolves.same fun _ hr => List.mem_append_left _ hr⟩
  | update owner workspace id input =>
    rcases ho with ⟨-, rfl⟩ | ⟨time, nonce, ho⟩
    · exact Goes.stay h
    · split at ho
      · obtain ⟨-, rfl⟩ := ho
        exact Goes.stay h
      · rename_i next envelope hok
        obtain ⟨-, rfl⟩ := ho
        obtain ⟨row, hfind, hupdated⟩ := bind_ok.mp hok
        obtain ⟨hrow, rfl⟩ := findRow_ok hfind
        obtain ⟨hid, hrev, hnone, hprev⟩ := updated_ok hupdated
        refine Goes.commit h hrow hid hrev (fun hx => ?_) fun hx => ?_
        · rw [hnone] at hx
          cases hx
        · rw [hprev] at hx
          cases hx
  | revoke owner workspace id revision =>
    rcases ho with ⟨-, rfl⟩ | ⟨time, ho⟩
    · exact Goes.stay h
    · split at ho
      · obtain ⟨-, rfl⟩ := ho
        exact Goes.stay h
      · rename_i row hfind
        split at ho
        · obtain ⟨-, rfl⟩ := ho
          exact Goes.stay h
        · obtain ⟨-, rfl⟩ := ho
          obtain ⟨hrow, rfl⟩ := findRow_ok hfind
          exact Goes.commit h hrow rfl rfl (fun _ => rfl) fun _ => rfl
  | stamp id record =>
    rcases ho with ⟨-, rfl⟩ | ⟨-, rfl⟩
    · exact Goes.stay h
    · have hcurrent := hR w id record (hwhen id record rfl)
      refine ⟨h.stamp_step hmay hcurrent, fun hf => evolves_writeRow rfl fun row hr hid => ?_⟩
      obtain ⟨-, hrev, hrevoked⟩ :=
        SecretRecord.of_unused ((h.custody hf).same hmay (hcurrent hf) hr hid)
      exact ⟨Nat.le_of_eq hrev.symm, fun hx => hrevoked ▸ hx⟩
  | returned consumer =>
    obtain rfl := ho
    exact ⟨h.returned_step hmay, fun _ => Evolves.same fun _ hr => hr⟩
  | isoNow | dateNow | randomUUID | randomBytes | audit | onReturned | service =>
    obtain rfl := ho
    exact Goes.stay h

/-! ## the methods keep it -/

/-- the operation that reads a row. -/
def SecretOp.reads : SecretOp → Bool
  | row .. => true
  | _ => false

/-- records are committed only, and only thread `κ` changes what `κ` has read last. -/
theorem perform_frame {κ' : ℕ} {o : SecretOp} {r : o.Ans} (ho : perform host κ' o w r w') :
    w.committed <:+ w'.committed ∧
      (κ' ≠ κ ∨ o.reads = false → w'.lastRead κ = w.lastRead κ) := by
  have stay : w' = w → w.committed <:+ w'.committed ∧
      (κ' ≠ κ ∨ o.reads = false → w'.lastRead κ = w.lastRead κ) := by
    rintro rfl
    exact ⟨List.suffix_refl _, fun _ => rfl⟩
  cases o with
  | row owner workspace id =>
    rcases ho with ⟨-, hw⟩ | ho
    · exact stay hw
    · split at ho
      · exact stay ho.2
      · obtain ⟨-, rfl⟩ := ho
        refine ⟨List.suffix_refl _, fun h => ?_⟩
        rcases h with h | h
        · exact Function.update_of_ne (Ne.symm h) ..
        · cases h
  | insert row =>
    rcases ho with ⟨-, hw⟩ | ⟨-, -, rfl⟩
    · exact stay hw
    · exact ⟨List.suffix_cons .., fun _ => rfl⟩
  | update owner workspace id input =>
    rcases ho with ⟨-, hw⟩ | ⟨time, nonce, ho⟩
    · exact stay hw
    · split at ho
      · exact stay ho.2
      · obtain ⟨-, rfl⟩ := ho
        exact ⟨List.suffix_cons .., fun _ => rfl⟩
  | revoke owner workspace id revision =>
    rcases ho with ⟨-, hw⟩ | ⟨time, ho⟩
    · exact stay hw
    · split at ho
      · exact stay ho.2
      · split at ho
        · exact stay ho.2
        · obtain ⟨-, rfl⟩ := ho
          exact ⟨List.suffix_cons .., fun _ => rfl⟩
  | stamp id record =>
    rcases ho with ⟨-, hw⟩ | ⟨-, rfl⟩
    · exact stay hw
    · exact ⟨List.suffix_refl _, fun _ => rfl⟩
  | returned consumer =>
    obtain rfl := ho
    exact ⟨List.suffix_refl _, fun _ => rfl⟩
  | isoNow | dateNow | randomUUID | randomBytes | audit | onReturned | service => exact stay ho

/-- what a method knows of the record that it has read last. -/
def Held (κ : ℕ) (id : String) (record : SecretRecord) (w : World) : Prop :=
  Known id record w ∧ w.lastRead κ = some record

/-- a record that was read allows the consumer. -/
def Allows (host : Host) (κ : ℕ) (consumer : SecretConsumer) (w : World) : Prop :=
  ∃ record, w.lastRead κ = some record ∧ assertSecretUse host record consumer = .ok ()

theorem Held.perform {id : String} {record : SecretRecord} {o : SecretOp} {r : o.Ans} {κ' : ℕ}
    (h : Held κ id record w) (ho : perform host κ' o w r w') (hκ : κ' ≠ κ ∨ o.reads = false) :
    Held κ id record w' := by
  obtain ⟨hsuffix, hread⟩ := perform_frame ho
  exact ⟨h.1.mono hsuffix, (hread hκ).trans h.2⟩

theorem stable_held (id : String) (record : SecretRecord) :
    Stable (handles host R fenced) κ (Held κ id record) := by
  rintro w w' h ⟨κ', o, r, hne, -, -, ho, -⟩
  exact h.perform ho (.inl hne)

theorem stable_allows (consumer : SecretConsumer) :
    Stable (handles host R fenced) κ (Allows host κ consumer) := by
  rintro w w' ⟨record, h, ha⟩ ⟨κ', o, r, hne, -, -, ho, -⟩
  exact ⟨record, ((perform_frame ho).2 (.inl hne)).trans h, ha⟩

section
variable {α : Type} {P : World → Prop} {id : String} {record : SecretRecord}

theorem now_triple {x : Except Failure α} : Triple (handles host R fenced) κ P (now x)
    (fun a w => P w ∧ x = .ok a) (fun _ => P) := by
  intro w hi hp
  cases x with
  | ok a => exact ⟨hi, hp, rfl⟩
  | error e => exact ⟨hi, hp⟩

theorem checked_triple {x : Except SecretError α} : Triple (handles host R fenced) κ P (checked x)
    (fun a w => P w ∧ x = .ok a) (fun _ => P) := by
  intro w hi hp
  cases x with
  | ok a => exact ⟨hi, hp, rfl⟩
  | error e => exact ⟨hi, hp⟩

/-- an operation that reads no row keeps what a method knows. -/
theorem op_held {o : SecretOp} {E : Failure → World → Prop} (hreads : o.reads = false)
    (hmay : ∀ w, may host κ o w) :
    Triple (handles host R fenced) κ (Held κ id record) (op o) (fun _ => Held κ id record) E :=
  Triple.op (stable_held id record) (fun w _ _ => hmay w) fun w r w' _ h ho _ =>
    h.perform ho.1 (.inr hreads)

theorem tryOp_held {o : SecretOp} {he : o.Ans = Except Failure α} (hreads : o.reads = false)
    (hmay : ∀ w, Held κ id record w → may host κ o w) :
    Triple (handles host R fenced) κ (Held κ id record) (tryOp o he) (fun _ => Held κ id record)
      fun _ => Held κ id record :=
  Triple.tryOp (stable_held id record) (fun w _ h => hmay w h)
    (fun w r w' a _ h ho _ _ => h.perform ho.1 (.inr hreads))
    fun w r w' e _ h ho _ _ => h.perform ho.1 (.inr hreads)

/-- an operation about which nothing is known. -/
theorem tryOp_any {o : SecretOp} {he : o.Ans = Except Failure α} (hmay : ∀ w, may host κ o w) :
    Triple (handles host R fenced) κ Any (tryOp o he) Any₂ Any₂ :=
  Triple.tryOp (Stable.const True) (fun w _ _ => hmay w) (fun _ _ _ _ _ _ _ _ _ => trivial)
    fun _ _ _ _ _ _ _ _ _ => trivial

theorem op_any {o : SecretOp} (hmay : ∀ w, may host κ o w) :
    Triple (handles host R fenced) κ Any (op o) Any₂ Any₂ :=
  Triple.op (Stable.const True) (fun w _ _ => hmay w) fun _ _ _ _ _ _ _ => trivial

/-- **A row that is read** holds a committed record. -/
theorem row_triple {P : World → Prop} (hP : Stable (handles host R fenced) κ P)
    (owner workspace id : String) : Triple (handles host R fenced) κ P
      (tryOp (.row owner workspace id) rfl) (fun row w => Held κ id row.metadata w) Any₂ := by
  refine Triple.tryOp hP (fun _ _ _ => trivial) ?_ fun _ _ _ _ _ _ _ _ _ => trivial
  rintro w r w' row hi - ⟨⟨hr, -⟩ | ho, -⟩ - hok
  · rw [hr] at hok
    cases hok
  · split at ho
    · obtain ⟨hr, -⟩ := ho
      rw [hr] at hok
      cases hok
    · rename_i row' hfind
      obtain ⟨hr, rfl⟩ := ho
      rw [hr] at hok
      obtain rfl : row' = row := by simpa using hok
      obtain ⟨hrow, rfl⟩ := findRow_ok hfind
      exact ⟨hi.known row' hrow, Function.update_self ..⟩

end

theorem release_triple {id : String} {record : SecretRecord} (operation : String) (event : Value)
    (bytes : Bytes) : Triple (handles host R fenced) κ (Held κ id record)
      (release host record operation event bytes) (fun _ => Held κ id record)
      fun _ => Held κ id record := by
  unfold release
  refine Triple.ite (fun _ => ?_) fun _ => ?_
  · refine Triple.bind (op_held (o := .dateNow) rfl fun _ => trivial) fun ms => ?_
    refine Triple.bind now_triple fun signed => ?_
    exact Triple.pure fun w _ h => h.1
  · refine Triple.bind (tryOp_held rfl fun _ _ => trivial) fun _ => ?_
    exact Triple.pure fun w _ h => h

/-- the stamp and the audit that end a use. -/
theorem stamped_triple {α : Type} {id : String} {record : SecretRecord} {Q : α → World → Prop}
    {audit : Exc api Failure Unit} {result : α} (hQ : ∀ w, Held κ id record w → Q result w)
    (haudit : Triple (handles host R fenced) κ (Held κ id record) audit
      (fun _ => Held κ id record) fun _ => Held κ id record) :
    Triple (handles host R fenced) κ (Held κ id record) (do
      let time ← op .isoNow
      tryOp (.stamp id { record with lastUsedAt := some time }) rfl
      audit
      pure result) Q Any₂ := by
  refine Triple.bind (op_held (o := .isoNow) rfl fun _ => trivial) fun time => ?_
  refine Triple.bind ((tryOp_held rfl fun w h => ?_).post (fun _ _ _ h => h) fun _ _ _ _ => trivial)
    fun _ => ?_
  · exact h.1
  refine Triple.bind (haudit.post (fun _ _ _ h => h) fun _ _ _ _ => trivial) fun _ => ?_
  exact Triple.pure fun w _ h => hQ w h

theorem auditUse_triple {id : String} {record r : SecretRecord} (operation : String)
    (consumer : SecretConsumer) (outcome : String) :
    Triple (handles host R fenced) κ (Held κ id record) (auditUse r operation consumer outcome)
      (fun _ => Held κ id record) fun _ => Held κ id record :=
  tryOp_held rfl fun _ _ => trivial

theorem audited_any {r : SecretRecord} (operation : String) (consumer : SecretConsumer)
    (outcome : String) {α : Type} {Q : α → World → Prop} (e : Failure) :
    Triple (handles host R fenced) κ Any (do
      auditUse r operation consumer outcome
      throw e : Exc api Failure α) Q Any₂ :=
  Triple.bind (tryOp_any fun _ => trivial) fun _ => Triple.throw fun _ _ _ => trivial

theorem mayConsume_ok {record : SecretRecord} {consumer : SecretConsumer} {operation : String}
    (h : mayConsume host record consumer operation = .ok ()) :
    assertSecretUse host record consumer = .ok () := by
  obtain ⟨_, -, h⟩ := bind_ok.mp h
  obtain ⟨⟨⟩, huse, -⟩ := bind_ok.mp h
  exact huse

/-- **`consume` returns to a consumer that the record it has read allows.** -/
theorem consume_triple (id : String) (consumer : SecretConsumer) (operation : String)
    (event : Value) : Triple (handles host R fenced) κ Any
      (consume host id consumer operation event) (fun _ => Allows host κ consumer) Any₂ := by
  refine Triple.bind (row_triple (Stable.const True) _ _ _) fun row => ?_
  refine Triple.tryCatch (R := Any₂) ?_ fun e => audited_any _ _ _ _
  refine Triple.bind (checked_triple.post (fun _ _ _ h => h) fun _ _ _ _ => trivial) fun _ => ?_
  refine Triple.assume fun hmay => ?_
  refine Triple.bind (now_triple.post (fun _ _ _ h => h.1) fun _ _ _ _ => trivial) fun bytes => ?_
  refine Triple.bind ((release_triple _ _ _).post (fun _ _ _ h => h) fun _ _ _ _ => trivial)
    fun result => ?_
  exact stamped_triple (fun w h => ⟨row.metadata, h.2, mayConsume_ok hmay⟩) (auditUse_triple _ _ _)

/-- **A service returns to a consumer that the record it has read last allows.** -/
theorem withServiceCredential_triple (id : String) (consumer : SecretConsumer) :
    Triple (handles host R fenced) κ Any (withServiceCredential host id consumer)
      (fun _ => Allows host κ consumer) Any₂ := by
  refine Triple.bind (row_triple (Stable.const True) _ _ _) fun row => ?_
  refine Triple.tryCatch (R := Any₂) ?_ fun e => audited_any _ _ _ _
  refine Triple.bind (checked_triple.post (fun _ _ _ h => h.1) fun _ _ _ _ => trivial) fun _ => ?_
  refine Triple.bind (checked_triple.post (fun _ _ _ h => h.1) fun _ _ _ _ => trivial) fun _ => ?_
  refine Triple.bind (now_triple.post (fun _ _ _ h => h.1) fun _ _ _ _ => trivial) fun bytes => ?_
  refine Triple.bind ((tryOp_held (o := .service _) rfl fun _ _ => trivial).post
    (fun _ _ _ h => h) fun _ _ _ _ => trivial) fun result => ?_
  refine Triple.bind (row_triple (stable_held _ _) _ _ _) fun current => ?_
  refine Triple.bind (checked_triple.post (fun _ _ _ h => h) fun _ _ _ _ => trivial) fun _ => ?_
  refine Triple.assume fun huse => ?_
  refine Triple.bind (checked_triple.post (fun _ _ _ h => h.1) fun _ _ _ _ => trivial) fun _ => ?_
  exact stamped_triple (fun w h => ⟨current.metadata, h.2, huse⟩) (auditUse_triple _ _ _)

theorem checkHostedSiteCustody_triple (grant : HostedSiteGrant) :
    Triple (handles host R fenced) κ Any (checkHostedSiteCustody host grant) Any₂ Any₂ := by
  refine Triple.bind (row_triple (Stable.const True) _ _ _) fun row => ?_
  refine Triple.bind checked_triple.any fun _ => ?_
  refine Triple.bind now_triple.any fun bytes => ?_
  refine Triple.bind now_triple.any fun npub => ?_
  exact checked_triple.any

theorem signHostedSite_triple (grant : HostedSiteGrant) (event : Value) :
    Triple (handles host R fenced) κ Any (signHostedSite host grant event) Any₂ Any₂ := by
  refine Triple.bind (checkHostedSiteCustody_triple grant) fun _ => ?_
  refine Triple.bind now_triple.any fun _ => ?_
  refine Triple.bind (row_triple (Stable.const True) _ _ _) fun row => ?_
  refine Triple.bind (now_triple.post (fun _ _ _ h => h.1) fun _ _ _ _ => trivial) fun bytes => ?_
  refine Triple.bind (now_triple.post (fun _ _ _ h => h.1) fun _ _ _ _ => trivial) fun result => ?_
  have haudit : Triple (handles host R fenced) κ (Held κ row.metadata.id row.metadata)
      (tryOp (.audit row.metadata.id "hosted_site_attest" grant.siteNpub "app" grant.appId
        "allowed") rfl) (fun _ => Held κ row.metadata.id row.metadata)
      fun _ => Held κ row.metadata.id row.metadata := tryOp_held rfl fun _ _ => trivial
  refine (stamped_triple (fun _ _ => trivial) haudit).pre fun w _ h => ?_
  rw [h.1.id_eq]
  exact h

theorem create_triple (owner workspace : String) (input : Value) :
    Triple (handles host R fenced) κ Any (create host owner workspace input) Any₂ Any₂ := by
  refine Triple.bind checked_triple.any fun new => ?_
  refine Triple.bind (op_any (o := .isoNow) fun _ => trivial) fun time => ?_
  refine Triple.bind (op_any (o := .randomUUID) fun _ => trivial) fun id => ?_
  refine Triple.bind (op_any (o := .randomBytes) fun _ => trivial) fun nonce => ?_
  refine Triple.bind (tryOp_any fun _ => ⟨rfl, rfl⟩) fun _ => ?_
  exact Triple.pure fun _ _ _ => trivial

/-- **Every method keeps the invariant**, where no stamp writes an old record. -/
theorem handles_keeps (hR : ∀ w id record, R w id record → fenced → Current w id record) :
    (handles host R fenced).Keeps where
  perform h hmay ho := (perform_goes hR h hmay ho).1
  crash h hs := by
    obtain rfl := hs
    exact h
  spawn {κ p w} h hp := by
    have report : ∀ consumer : SecretConsumer,
        Triple (handles host R fenced) κ (Allows host κ consumer) (op (.returned consumer))
          Any₂ Any₂ := fun consumer =>
      Triple.op (stable_allows consumer) (fun _ _ h => h) fun _ _ _ _ _ _ _ => trivial
    cases hp with
    | create owner workspace input => exact (create_triple owner workspace input).detach h
    | update owner workspace id input =>
      have hupdate : Triple (handles host R fenced) κ Any (update owner workspace id input)
          Any₂ Any₂ := Triple.bind checked_triple.any fun _ => tryOp_any fun _ => trivial
      exact hupdate.detach h
    | revoke owner workspace id revision =>
      have hrevoke : Triple (handles host R fenced) κ Any (revoke owner workspace id revision)
          Any₂ Any₂ := tryOp_any fun _ => trivial
      exact hrevoke.detach h
    | consume id consumer operation event =>
      have hconsume : Triple (handles host R fenced) κ Any
          (consumeAndReturn host id consumer operation event) Any₂ Any₂ :=
        Triple.bind (consume_triple id consumer operation event) fun _ => report consumer
      exact hconsume.detach h
    | service id consumer =>
      have hserve : Triple (handles host R fenced) κ Any (serveAndReturn host id consumer)
          Any₂ Any₂ :=
        Triple.bind (withServiceCredential_triple id consumer) fun _ => report consumer
      exact hserve.detach h
    | site grant event => exact (signHostedSite_triple grant event).detach h

end

/-! ## what it says of a run -/

/-- What holds from one configuration of a run to a later one. -/
structure CustodyGuarantees (host : Host) (c c' : Conf api World) : Prop where
  /-- a revoked record stays revoked, with an empty envelope. -/
  revoked : ∀ row ∈ c.state.rows, row.metadata.revokedAt.isSome → ∃ row' ∈ c'.state.rows,
    row'.id = row.id ∧ row'.metadata.revokedAt.isSome ∧ row'.envelope = ""
  /-- a revision never decreases. -/
  revision : ∀ row ∈ c.state.rows, ∃ row' ∈ c'.state.rows, row'.id = row.id ∧
    row.metadata.revision ≤ row'.metadata.revision
  /-- the stored record is the one committed last, but for the time of its last use. -/
  stored : ∀ row ∈ c'.state.rows, ∃ record, lastCommitted c'.state.committed row.id = some record ∧
    row.metadata.unused = record.unused

/-- a committed revocation leaves a revoked record and an empty envelope. -/
theorem revoked_of_perform {host : Host} {κ : ℕ} {owner workspace id : String} {revision : Value}
    {record : SecretRecord} {w w' : World}
    (ho : perform host κ (.revoke owner workspace id revision) w (.ok record) w') :
    ∃ row ∈ w'.rows, row.id = id ∧ row.metadata.revokedAt.isSome ∧ row.envelope = "" := by
  rcases ho with ⟨h, -⟩ | ⟨time, ho⟩
  · cases h
  · split at ho
    · cases ho.1
    · rename_i row hfind
      split at ho
      · cases ho.1
      · obtain ⟨-, rfl⟩ := ho
        obtain ⟨hrow, rfl⟩ := findRow_ok hfind
        obtain ⟨row', hr', hid, ⟨-, hm, he⟩ | ⟨hne, -⟩⟩ := writeRow_mem hrow
        · exact ⟨row', hr', hid, hm ▸ rfl, he⟩
        · exact absurd rfl hne

/-- **Revocations and policy updates stay** in a run in which every stamp finds the revision that it
writes.  In every run `consume` and `withServiceCredential` return only to a consumer that the record
read last allows. -/
theorem custody_kept (host : Host) :
    (∀ c c', Reachable (restricted host Current) World.Initial c →
      Steps (restricted host Current) c c' → CustodyGuarantees host c c' ∧
        ∀ κ owner workspace id revision record w',
          perform host κ (.revoke owner workspace id revision) c.state (.ok record) w' →
            ∃ row ∈ w'.rows, row.id = id ∧ row.metadata.revokedAt.isSome ∧ row.envelope = "") ∧
    ∀ c, Reachable (system host) World.Initial c → ∀ entry ∈ c.state.returned,
      ∃ record, entry.2 = some record ∧ assertSecretUse host record entry.1 = .ok () := by
  have current : ∀ w id record, Current w id record → True → Current w id record :=
    fun _ _ _ h _ => h
  have keeps : (handles host Current True).Keeps := handles_keeps current
  have systemKeeps : (handles host (fun _ _ _ => True) False).Keeps :=
    handles_keeps fun _ _ _ _ h => h.elim
  refine ⟨fun c c' h hs => ⟨?_, fun κ owner workspace id revision record w' =>
    revoked_of_perform⟩, fun c h => ?_⟩
  · have hc : ConfOk (handles host Current True) c := keeps.reachable (fun _ => Inv.initial) h
    have hc' : ConfOk (handles host Current True) c' := hc.steps keeps hs
    have hcustody := hc'.inv.custody trivial
    have hevolves : Evolves c.state c'.state :=
      hc.run keeps (fun _ => Evolves.same fun _ hr => hr) (fun _ _ _ => Evolves.trans)
        (fun κ o w r w' hi hm ho => (perform_goes current hi hm ho).2 trivial)
        (fun w w' _ hs => Evolves.same fun _ hr => hs ▸ hr) hs
    refine ⟨fun row hr hx => ?_, fun row hr => ?_, hcustody.stored⟩
    · obtain ⟨row', hr', hid, -, hx'⟩ := hevolves row hr
      exact ⟨row', hr', hid, hx' hx, hcustody.erased row' hr' (hx' hx)⟩
    · obtain ⟨row', hr', hid, hrev, -⟩ := hevolves row hr
      exact ⟨row', hr', hid, hrev⟩
  · exact (systemKeeps.reachable (fun _ => Inv.initial) h).inv.allowed

/-! ## a revocation that is undone -/

/-- a host that accepts every npub and opens every envelope. -/
def someHost : Host where
  toText value := if value = str "all" then "all" else ""
  url _ := none
  isNpub _ := true
  decodeNsec _ := none
  nsecEncode _ := ""
  publicNpub _ := none
  fromHex _ := []
  textEncode _ := []
  textDecode _ := "token"
  finalizeEvent _ _ := none
  encrypt _ _ _ := "sealed"
  decrypt _ _ := some []

/-- every pipeline of one identity may use and export the secret. -/
def somePolicy : SecretPolicy where
  identities := ["npub"]
  pipelines := ⟨true, str "all", []⟩
  agents := ⟨false, str "all", []⟩
  allowExport := true
  kindRules := []

def someInput : Value :=
  obj [("label", str "token"), ("type", str "secret"), ("value", str "token"),
    ("policy", somePolicy.value)]

def someRecord : SecretRecord where
  id := "id"
  ownerNpub := "owner"
  workspaceId := "workspace"
  label := "token"
  type := .secret
  publicNpub := none
  policy := somePolicy
  revision := 1
  createdAt := "monday"
  updatedAt := "monday"

def someConsumer : SecretConsumer := ⟨"owner", "workspace", "npub", "pipeline", "run"⟩

/-- the row of the secret. -/
def someRow (record : SecretRecord) (envelope : String) : SecretRow :=
  ⟨"id", "owner", "workspace", record, envelope⟩

/-- the state when the secret was created. -/
def created : World where
  rows := [someRow someRecord "sealed"]
  committed := [someRecord]

/-- the state when thread 1 has read it too. -/
def alsoRead : World where
  rows := [someRow someRecord "sealed"]
  committed := [someRecord]
  lastRead := Function.update (fun _ => none) 1 (some someRecord)

/-- the state when it was revoked, and thread 2 has not finished. -/
def alsoRevoked : World where
  rows := [someRow (someRecord.revoked "tuesday") ""]
  committed := [someRecord.revoked "tuesday", someRecord]
  lastRead := Function.update (fun _ => none) 1 (some someRecord)

/-- a program that may be started. -/
def Startable (p : Prog api Unit) : Prop :=
  p.Suspended ∧ ∀ κ w, (system someHost).spawn w κ p

/-- every step of the handles is run. -/
theorem unrestricted {o : SecretOp} (id : String) (record : SecretRecord)
    (_ : o = .stamp id record) : True := trivial

theorem readNewSecret_some : readNewSecret someHost "owner" "workspace" someInput =
    .ok ⟨.secret, somePolicy, "token", [], none⟩ := rfl

theorem create_some : ∃ p, Startable p ∧ Solo (system someHost) 0 p {} (.ret ()) created := by
  refine ⟨_, ⟨?_, fun κ w => Spawn.create "owner" "workspace" someInput⟩, ?_⟩
  · unfold create
    rw [readNewSecret_some]
    exact (rfl : api.yields .isoNow = true)
  · unfold create
    rw [readNewSecret_some]
    exact .step "monday" ⟨rfl, unrestricted⟩ <| .step "id" ⟨rfl, unrestricted⟩ <|
      .step (0 : ℕ) ⟨rfl, unrestricted⟩ <|
      .step (.ok ()) ⟨.inr ⟨fun _ h => absurd h List.not_mem_nil, rfl, rfl⟩, unrestricted⟩
        (.refl _ _)

/-- a consumer is told the value, and its use is not stamped yet. -/
theorem consume_some : ∃ p, Startable p ∧ ∃ p', Solo (system someHost) 1 p created p' alsoRead ∧
    p'.Suspended ∧ ∃ w, Solo (system someHost) 1 p' alsoRevoked (.ret ()) w ∧
      w.rows.map (fun row => (row.id, row.metadata.revokedAt)) = [("id", none)] := by
  refine ⟨_, ⟨?_, fun κ w => Spawn.consume "id" someConsumer "return" undefined⟩, ?_⟩
  · exact (rfl : api.yields (.row "owner" "workspace" "id") = true)
  · exact ⟨_, .step (.ok (someRow someRecord "sealed")) ⟨.inr ⟨rfl, rfl⟩, unrestricted⟩ <|
      .step (.ok ()) ⟨rfl, unrestricted⟩ <| .step "wednesday" ⟨rfl, unrestricted⟩ (.refl _ _),
      rfl, _, .step (.ok ()) ⟨.inr ⟨rfl, rfl⟩, unrestricted⟩ <|
        .step (.ok ()) ⟨rfl, unrestricted⟩ <| .step () ⟨rfl, unrestricted⟩ (.refl _ _), rfl⟩

theorem revoke_some : ∃ p, Startable p ∧
    Solo (system someHost) 2 p alsoRead (.ret ()) alsoRevoked := by
  refine ⟨_, ⟨?_, fun κ w => Spawn.revoke "owner" "workspace" "id" (num 1)⟩, ?_⟩
  · exact (rfl : api.yields (.revoke "owner" "workspace" "id" (num 1)) = true)
  · exact .step (.ok (someRecord.revoked "tuesday"))
      ⟨.inr ⟨"tuesday", rfl, rfl⟩, unrestricted⟩ (.refl _ _)

/-- **A revocation is undone** by the stamp of a use that began before it. -/
theorem custody_undone :
    ¬∀ host c c', Reachable (system host) World.Initial c → Steps (system host) c c' →
      CustodyGuarantees host c c' := by
  intro h
  obtain ⟨p₀, hp₀, create⟩ := create_some
  obtain ⟨p₁, hp₁, p₁', consume, hp₁', w, stamp, hrows⟩ := consume_some
  obtain ⟨p₂, hp₂, revoke⟩ := revoke_some
  obtain ⟨c₀, hc₀, hs₀, -, hr₀, ht₀⟩ := create.reachable World.Initial rfl hp₀.1 (hp₀.2 _ _)
  rw [← hs₀] at consume
  obtain ⟨c₁, hc₁, hs₁, ht₁, hr₁, ho₁⟩ :=
    consume.extend hc₀ hr₀ (ht₀ 1 (by decide)) hp₁.1 (hp₁.2 _ _)
  rw [← hs₁] at revoke
  obtain ⟨c₂, hc₂, hs₂, -, hr₂, ho₂⟩ := revoke.extend hc₁ (hr₁.trans (if_pos hp₁'))
    ((ho₁ 2 (by decide)).trans (ht₀ 2 (by decide))) hp₂.1 (hp₂.2 _ _)
  obtain ⟨c₃, hsteps, hs₃, -⟩ := stamp.steps c₂ hs₂ ((ho₂ 1 (by decide)).trans ht₁)
    (hr₂.trans (if_pos hp₁').symm)
  have hrow : someRow (someRecord.revoked "tuesday") "" ∈ c₂.state.rows := by
    rw [hs₂]
    exact List.mem_singleton.mpr rfl
  obtain ⟨row', hr', -, hx, -⟩ := (h someHost c₂ c₃ hc₂ hsteps).revoked _ hrow rfl
  have hpair := List.mem_map_of_mem (f := fun row : SecretRow => (row.id, row.metadata.revokedAt)) hr'
  rw [hs₃, hrows] at hpair
  have hnone := congrArg Prod.snd (List.mem_singleton.mp hpair)
  rw [show row'.metadata.revokedAt = none from hnone] at hx
  cases hx

end Secrets
end WmAutopilot
