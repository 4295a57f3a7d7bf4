import WmAutopilot.Async.Schedule
import WmAutopilot.AgentChat.SessionTurnBridge

/-!
# What the turns of Flight Deck sessions guarantee

* `find_eq_some`, `mem_saveRow`, `mem_retireRows`   what the statements do to the rows;
* `Inv`, `may`, `apartRuns`   the discipline of the runs in which calls from outside stand apart;
* `At`, `Open`              what the work of a turn knows of the row;
* `publish_spec`, `publishKnownFinal_spec`, `process_spec`   the methods;
* `OneFinal`                one final: what is asked of a run;
* `one_final`               **it holds of the runs in which calls from outside stand apart**;
* `suppressed_stays`        a turn that is suppressed stays so in every run;
* `second_final`            a call with an old record publishes a second final.
-/

set_option autoImplicit false
set_option linter.unusedVariables false

namespace WmAutopilot
namespace AgentChat
namespace SessionTurns
open Js Async

section
variable {rows : List TurnRecord} {row r record : TurnRecord} {w w' : World} {κ : ℕ}
  {turnId sessionId triggerId now content : String} {turnIds : List String}

/-! ## rows -/

theorem find_eq_some (h : Sql.PrimaryKey TurnRecord.turnId rows) :
    find rows turnId = some row ↔ row ∈ rows ∧ row.turnId = turnId := by
  constructor
  · exact Sql.mem_of_find
  · rintro ⟨hrow, rfl⟩
    cases hfind : find rows row.turnId with
    | none =>
      exact absurd rfl (of_decide_eq_false
        (Bool.eq_false_iff.mpr (List.find?_eq_none.mp hfind row hrow)))
    | some row' =>
      obtain ⟨hrow', hkey⟩ := Sql.mem_of_find hfind
      rw [h.eq hrow' hrow hkey]

theorem find_eq_none : find rows turnId = none ↔ ∀ row ∈ rows, row.turnId ≠ turnId := by
  unfold find
  rw [List.find?_eq_none]
  refine forall₂_congr fun row _ => ?_
  rw [decide_eq_true_iff]

/-- the row is the one that is saved. -/
def Saves (r row : TurnRecord) : Prop := row.turnId = r.turnId ∧ row.state ≠ .suppressed

instance (r : TurnRecord) : DecidablePred (Saves r) :=
  fun _ => inferInstanceAs (Decidable (_ ∧ _))

theorem saveRow_of_mem (hrow : row ∈ rows) (hkey : row.turnId = r.turnId) :
    saveRow rows r = Sql.update (Saves r) (merged · r) rows := by
  unfold saveRow
  rw [if_pos]
  · rfl
  · exact List.any_eq_true.mpr ⟨row, hrow, decide_eq_true hkey⟩

theorem saveRow_of_new (h : find rows r.turnId = none) : saveRow rows r = rows ++ [r] := by
  unfold saveRow
  rw [if_neg]
  rw [Bool.not_eq_true, List.any_eq_false]
  exact fun row hrow => (decide_eq_true_iff.not).mpr (find_eq_none.mp h row hrow)

/-- a row before a statement is a row after it, or the statement touched it. -/
theorem mem_saveRow (hrow : row ∈ rows) :
    row ∈ saveRow rows r ∨ Saves r row ∧ merged row r ∈ saveRow rows r := by
  by_cases hkey : row.turnId = r.turnId
  · rw [saveRow_of_mem hrow hkey]
    by_cases hsave : Saves r row
    · exact .inr ⟨hsave, Sql.mem_update.mpr ⟨row, hrow, if_pos hsave⟩⟩
    · exact .inl (Sql.mem_update_of_not hrow hsave)
  · unfold saveRow
    split
    · exact .inl (Sql.mem_update_of_not hrow fun h => hkey h.1)
    · exact .inl (List.mem_append_left _ hrow)

/-- a suppressed row stays. -/
theorem mem_saveRow_of_suppressed (hrow : row ∈ rows) (hstate : row.state = .suppressed) :
    row ∈ saveRow rows r :=
  (mem_saveRow hrow).resolve_right fun h => h.1.2 hstate

theorem primaryKey_saveRow (h : Sql.PrimaryKey TurnRecord.turnId rows) :
    Sql.PrimaryKey TurnRecord.turnId (saveRow rows r) := by
  unfold saveRow
  split
  · exact h.update fun _ => rfl
  · next hany =>
    refine h.append fun x hx hkey => hany ?_
    exact List.any_eq_true.mpr ⟨x, hx, decide_eq_true hkey⟩

/-- the row that a retirement leaves. -/
def retired (triggerId now : String) (row : TurnRecord) : TurnRecord :=
  { row with
    state := .suppressed
    lastError := some (supersededBy ++ " " ++ triggerId ++ "; no completion claim")
    updatedAt := now }

theorem retired_Retired : Retired (retired triggerId now row) := by
  refine ⟨rfl, decide_eq_true ?_⟩
  show supersededBy.toList <+: (supersededBy ++ " " ++ triggerId ++ "; no completion claim").toList
  rw [String.toList_append, String.toList_append, String.toList_append, List.append_assoc,
    List.append_assoc]
  exact List.prefix_append _ _

theorem mem_retireRows (sessionId triggerId now : String) (turnIds : List String)
    (hrow : row ∈ rows) :
    row ∈ retireRows rows sessionId triggerId now turnIds ∨
      retires sessionId turnIds row ∧
        retired triggerId now row ∈ retireRows rows sessionId triggerId now turnIds := by
  by_cases hret : retires sessionId turnIds row
  · exact .inr ⟨hret, Sql.mem_update.mpr ⟨row, hrow, if_pos hret⟩⟩
  · exact .inl (Sql.mem_update_of_not hrow hret)

theorem primaryKey_retireRows (h : Sql.PrimaryKey TurnRecord.turnId rows) :
    Sql.PrimaryKey TurnRecord.turnId (retireRows rows sessionId triggerId now turnIds) :=
  h.update fun _ => rfl

end

/-! ## the discipline -/

/-- the thread is at work on the turn. -/
def Owns (κ : ℕ) (turnId : String) (w : World) : Prop :=
  ∃ work ∈ w.chain ++ w.calls, work.turnId = turnId ∧ work.thread = κ

/-- the publication is the reply of its row. -/
def Backed (p : Publication) (w : World) : Prop :=
  ∃ row ∈ w.rows, row.turnId = p.turnId ∧ row.clientRequestId = p.clientRequestId ∧
    row.replyBody = some p.body ∧ p.body ≠ ""

/-- What holds when calls from outside stand apart. -/
structure Inv (w : World) : Prop where
  keys : Sql.PrimaryKey TurnRecord.turnId w.rows
  /-- one thread at most is at work on a turn. -/
  one : ((w.chain ++ w.calls).map Work.turnId).Nodup
  /-- the turn of a session's chain is one of the session. -/
  sessions : ∀ work ∈ w.chain, ∃ row ∈ w.rows,
    row.turnId = work.turnId ∧ row.sessionId = work.sessionId
  published : ∀ p ∈ w.publications, Backed p w

/-- the row may be written: the thread is at work on its turn, which is not completed, and the reply
stays. -/
def MaySave (κ : ℕ) (r : TurnRecord) (w : World) : Prop :=
  ∃ row ∈ w.rows, row.turnId = r.turnId ∧ Owns κ row.turnId w ∧ row.state ≠ .completed ∧
    (row.state ≠ .suppressed → row.replyBody.getD "" ≠ "" → r.replyBody = row.replyBody)

/-- the record is one of a turn. -/
def Known (record : TurnRecord) (w : World) : Prop := ∃ row ∈ w.rows, sameTurn record row

/-- what a thread may ask for. -/
def may (κ : ℕ) : Op → World → Prop
  | .save r, w => MaySave κ r w
  | .send p, w => Backed p w
  | .enter record, w => Known record w
  | _, _ => True

/-- What is asked of a run from `w` to `w'`: the row of a turn that is completed, or was retired,
stays as it is, and what is published of a turn is one reply, under the turn's request id. -/
structure OneFinal (w w' : World) : Prop where
  completed : ∀ turnId row, find w.rows turnId = some row → row.state = .completed →
    find w'.rows turnId = some row
  retired : ∀ turnId row, find w.rows turnId = some row → Retired row →
    find w'.rows turnId = some row
  published : ∀ p ∈ w'.publications, ∃ row, find w'.rows p.turnId = some row ∧
    p.clientRequestId = row.clientRequestId
  oneBody : ∀ p ∈ w'.publications, ∀ q ∈ w'.publications, p.turnId = q.turnId → p.body = q.body

/-- the bridge, with calls from outside that stand apart. -/
abbrev apartRuns (host : Host) : Discipline api World := ⟨system host True, Inv, may⟩

/-- What a step leaves of a row: the row itself, or the row that a statement made of it. -/
inductive Becomes (κ : ℕ) (w w' : World) (row : TurnRecord) : Prop where
  | same (h : row ∈ w'.rows)
  | saved (r : TurnRecord) (hown : Owns κ row.turnId w) (hstate : row.state ≠ .completed)
      (hlive : row.state ≠ .suppressed)
      (hbody : row.replyBody.getD "" ≠ "" → r.replyBody = row.replyBody)
      (h : merged row r ∈ w'.rows)
  | retired (triggerId now : String) (hstate : row.state ≠ .completed)
      (hlive : row.state ≠ .suppressed) (h : retired triggerId now row ∈ w'.rows)

section
variable {host : Host} {apart : Prop} {rows : List TurnRecord} {row r record : TurnRecord}
  {w w' : World} {κ κ' : ℕ} {o : Op} {ans : Ans o} {p : Publication} {b : String}
  {turnId sessionId triggerId now content : String} {turnIds : List String}

theorem becomes (hi : Inv w) (hmay : may κ o w) (ho : Performs apart κ o w ans w')
    (hrow : row ∈ w.rows) : Becomes κ w w' row := by
  cases ho with
  | save _ r row' hr =>
    rcases mem_saveRow (r := r) hrow with hmem | ⟨hsave, hmem⟩
    · exact .same hmem
    · obtain ⟨row₁, hrow₁, hkey, hown, hstate, hbody⟩ := hmay
      obtain rfl : row = row₁ := hi.keys.eq hrow hrow₁ (hsave.1.trans hkey.symm)
      exact .saved r hown hstate hsave.2 (hbody hsave.2) hmem
  | accept _ record hnew hstate =>
    refine .same ?_
    show row ∈ saveRow w.rows record
    rw [saveRow_of_new hnew]
    exact List.mem_append_left _ hrow
  | retire _ sessionId triggerId now turnIds =>
    rcases mem_retireRows sessionId triggerId now turnIds hrow with hmem | ⟨hret, hmem⟩
    · exact .same hmem
    · exact .retired triggerId now hret.2.2.1 hret.2.2.2 hmem
  | _ => exact .same hrow

theorem performs_keys (h : Sql.PrimaryKey TurnRecord.turnId w.rows)
    (ho : Performs apart κ o w ans w') : Sql.PrimaryKey TurnRecord.turnId w'.rows := by
  cases ho with
  | save _ r row' hr => exact primaryKey_saveRow h
  | accept _ record hnew hstate => exact primaryKey_saveRow h
  | retire _ sessionId triggerId now turnIds => exact primaryKey_retireRows h
  | _ => exact h

/-- a row keeps its turn, and its reply once it has one. -/
structure Keeps (row row' : TurnRecord) : Prop where
  turnId : row'.turnId = row.turnId
  sessionId : row'.sessionId = row.sessionId
  clientRequestId : row'.clientRequestId = row.clientRequestId
  replyBody : row.replyBody.getD "" ≠ "" → row'.replyBody = row.replyBody

theorem Becomes.keeps (h : Becomes κ w w' row) : ∃ row' ∈ w'.rows, Keeps row row' := by
  cases h with
  | same h => exact ⟨row, h, rfl, rfl, rfl, fun _ => rfl⟩
  | saved r hown hstate hlive hbody h => exact ⟨_, h, rfl, rfl, rfl, hbody⟩
  | retired triggerId now hstate hlive h => exact ⟨_, h, rfl, rfl, rfl, fun _ => rfl⟩

theorem Backed.of_keeps (h : Backed p w)
    (hkeeps : ∀ row ∈ w.rows, ∃ row' ∈ w'.rows, Keeps row row') : Backed p w' := by
  obtain ⟨row, hrow, hturn, hclient, hbody, hne⟩ := h
  obtain ⟨row', hrow', hk⟩ := hkeeps row hrow
  refine ⟨row', hrow', hk.turnId.trans hturn, hk.clientRequestId.trans hclient, ?_, hne⟩
  rw [hk.replyBody (by rw [hbody]; exact hne), hbody]

theorem mem_publications (ho : Performs apart κ o w ans w') (hp : p ∈ w'.publications) :
    p ∈ w.publications ∨ o = .send p := by
  cases ho with
  | send _ p' =>
    rcases List.mem_append.mp hp with hp | hp
    · exact .inl hp
    · exact .inr (congrArg Op.send (List.mem_singleton.mp hp).symm)
  | _ => exact .inl hp

theorem one_of_sublist {w w' : World} (h : ((w.chain ++ w.calls).map Work.turnId).Nodup)
    (hchain : w'.chain.Sublist w.chain) (hcalls : w'.calls.Sublist w.calls) :
    ((w'.chain ++ w'.calls).map Work.turnId).Nodup :=
  h.sublist ((hchain.append hcalls).map _)

theorem notMem_turnIds {l : List Work} (h : ∀ work ∈ l, work.turnId ≠ turnId) :
    turnId ∉ l.map Work.turnId := by
  intro hmem
  obtain ⟨work, hwork, rfl⟩ := List.mem_map.mp hmem
  exact h work hwork rfl

theorem performs_one (hi : Inv w) (hmay : may κ o w) (ho : Performs True κ o w ans w') :
    ((w'.chain ++ w'.calls).map Work.turnId).Nodup := by
  have h := hi.one
  cases ho with
  | enter _ record hfree hcalls =>
    show (record.turnId :: (w.chain ++ w.calls).map Work.turnId).Nodup
    refine List.nodup_cons.mpr ⟨notMem_turnIds fun work hmem hturn => ?_, h⟩
    rcases List.mem_append.mp hmem with hmem | hmem
    · -- another turn of the chain is one of another session
      obtain ⟨row, hrow, hkey, hsession⟩ := hi.sessions work hmem
      obtain ⟨row', hrow', hkey', hsession', -⟩ := hmay
      obtain rfl : row = row' :=
        hi.keys.eq hrow hrow' (hkey.trans (hturn.trans hkey'))
      exact hfree work hmem (hsession.symm.trans hsession'.symm)
    · exact hcalls trivial work hmem hturn
  | leave _ record => exact one_of_sublist h List.filter_sublist (.refl _)
  | call _ record content hapart =>
    show ((w.chain ++ if Over record then w.calls else workOf record κ :: w.calls).map
      Work.turnId).Nodup
    by_cases hover : Over record
    · rw [if_pos hover]
      exact h
    · rw [if_neg hover, List.map_append, List.map_cons, List.nodup_middle, ← List.map_append]
      exact List.nodup_cons.mpr
        ⟨notMem_turnIds ((hapart trivial).resolve_left hover).2, h⟩
  | return_ _ record => exact one_of_sublist h (.refl _) List.filter_sublist
  | _ => exact h

/-- a turn that a chain is at was there, or its thread enters. -/
theorem mem_chain {work : Work} (ho : Performs apart κ o w ans w') (hwork : work ∈ w'.chain) :
    work ∈ w.chain ∨ ∃ record, o = .enter record ∧ work = workOf record κ := by
  cases ho with
  | enter _ record hfree hcalls =>
    exact (List.mem_cons.mp hwork).symm.imp_right fun heq => ⟨record, rfl, heq⟩
  | leave _ record => exact .inl (List.mem_filter.mp hwork).1
  | _ => exact .inl hwork

/-- **A permitted operation keeps the invariant.** -/
theorem inv_perform (hi : Inv w) (hmay : may κ o w) (ho : Performs True κ o w ans w') : Inv w' where
  keys := performs_keys hi.keys ho
  one := performs_one hi hmay ho
  sessions work hwork := by
    have hold : ∃ row ∈ w.rows, row.turnId = work.turnId ∧ row.sessionId = work.sessionId := by
      rcases mem_chain ho hwork with hwork | ⟨record, rfl, rfl⟩
      · exact hi.sessions work hwork
      · obtain ⟨row, hrow, hturn, hsession, -⟩ := hmay
        exact ⟨row, hrow, hturn.symm, hsession.symm⟩
    obtain ⟨row, hrow, hturn, hsession⟩ := hold
    obtain ⟨row', hrow', hk⟩ := (becomes hi hmay ho hrow).keeps
    exact ⟨row', hrow', hk.turnId.trans hturn, hk.sessionId.trans hsession⟩
  published p hp := by
    have hkeeps : ∀ row ∈ w.rows, ∃ row' ∈ w'.rows, Keeps row row' :=
      fun row hrow => (becomes hi hmay ho hrow).keeps
    rcases mem_publications ho hp with hold | rfl
    · exact Backed.of_keeps (hi.published p hold) hkeeps
    · exact Backed.of_keeps hmay hkeeps

/-! ## what the work of a turn knows -/

/-- the row of the turn is the record, or was retired. -/
def At (κ : ℕ) (record : TurnRecord) (w : World) : Prop :=
  Owns κ record.turnId w ∧
    (record ∈ w.rows ∨ ∃ row ∈ w.rows, row.turnId = record.turnId ∧ Retired row)

/-- the turn is not completed. -/
def Open (κ : ℕ) (turnId : String) (w : World) : Prop :=
  Owns κ turnId w ∧ ∃ row ∈ w.rows, row.turnId = turnId ∧ row.state ≠ .completed

/-- the row of the turn is the record. -/
def Exact (κ : ℕ) (record : TurnRecord) (w : World) : Prop :=
  Owns κ record.turnId w ∧ record ∈ w.rows

theorem Exact.at (h : Exact κ record w) : At κ record w := ⟨h.1, .inl h.2⟩

theorem Retired.state_ne (h : Retired row) : row.state ≠ .completed := by
  rw [h.1]
  exact fun hne => by cases hne

theorem At.open (h : At κ record w) (hstate : record.state ≠ .completed) :
    Open κ record.turnId w := by
  obtain ⟨hown, hmem | ⟨row, hrow, hturn, hret⟩⟩ := h
  · exact ⟨hown, record, hmem, rfl, hstate⟩
  · exact ⟨hown, row, hrow, hturn, hret.state_ne⟩

theorem Owns.eq (hi : Inv w) (h : Owns κ turnId w) (h' : Owns κ' turnId w) : κ = κ' := by
  obtain ⟨work, hwork, hturn, rfl⟩ := h
  obtain ⟨work', hwork', hturn', rfl⟩ := h'
  rw [List.inj_on_of_nodup_map hi.one hwork hwork' (hturn.trans hturn'.symm)]

/-- what the other threads do leaves a turn to its thread. -/
theorem owns_kept (hne : κ' ≠ κ) (ho : Performs apart κ' o w ans w') (h : Owns κ turnId w) :
    Owns κ turnId w' := by
  obtain ⟨work, hwork, hturn, rfl⟩ := h
  have hkeep : ∀ r, decide (work ≠ workOf r κ') = true :=
    fun r => decide_eq_true fun heq => hne (congrArg Work.thread heq).symm
  refine ⟨work, ?_, hturn, rfl⟩
  cases ho with
  | enter _ r hfree hcalls => exact List.mem_cons_of_mem _ hwork
  | leave _ r =>
    refine List.mem_append.mpr ((List.mem_append.mp hwork).imp_left fun hmem => ?_)
    exact List.mem_filter.mpr ⟨hmem, hkeep r⟩
  | call _ r content hapart =>
    refine List.mem_append.mpr ((List.mem_append.mp hwork).imp_right fun hmem => ?_)
    show work ∈ if Over r then w.calls else workOf r κ' :: w.calls
    split
    · exact hmem
    · exact List.mem_cons_of_mem _ hmem
  | return_ _ r =>
    refine List.mem_append.mpr ((List.mem_append.mp hwork).imp_right fun hmem => ?_)
    exact List.mem_filter.mpr ⟨hmem, hkeep r⟩
  | _ => exact hwork

/-- what another thread makes of the row of the thread's turn. -/
theorem other_becomes (hi : Inv w) (hne : κ' ≠ κ) (hmay : may κ' o w)
    (ho : Performs apart κ' o w ans w') (hown : Owns κ row.turnId w) (hrow : row ∈ w.rows) :
    row ∈ w'.rows ∨ row.state ≠ .suppressed ∧ ∃ triggerId now,
      retired triggerId now row ∈ w'.rows := by
  cases becomes hi hmay ho hrow with
  | same h => exact .inl h
  | saved r hown' hstate hlive hbody h => exact absurd (hown'.eq hi hown) hne
  | retired triggerId now hstate hlive h => exact .inr ⟨hlive, triggerId, now, h⟩

theorem stable_at : Stable (apartRuns host) κ (At κ record) := by
  rintro w w' ⟨hown, hrow⟩ ⟨κ', o, ans, hne, hi, hmay, ho⟩
  refine ⟨owns_kept hne ho hown, ?_⟩
  rcases hrow with hrow | ⟨row, hrow, hturn, hret⟩
  · refine (other_becomes hi hne hmay ho hown hrow).imp_right fun h => ?_
    obtain ⟨-, triggerId, now, hmem⟩ := h
    exact ⟨_, hmem, rfl, retired_Retired⟩
  · have hmem := (other_becomes hi hne hmay ho (hturn ▸ hown) hrow).resolve_right
      fun h => h.1 hret.1
    exact .inr ⟨row, hmem, hturn, hret⟩

theorem stable_known : Stable (apartRuns host) κ (Known record) := by
  rintro w w' ⟨row, hrow, hturn, hsession, hclient⟩ ⟨κ', o, ans, hne, hi, hmay, ho⟩
  obtain ⟨row', hrow', hk⟩ := (becomes hi hmay ho hrow).keeps
  exact ⟨row', hrow', hturn.trans hk.turnId.symm, hsession.trans hk.sessionId.symm,
    hclient.trans hk.clientRequestId.symm⟩

/-! ## the operations -/

/-- an operation that leaves the world as it is. -/
def quiet : Op → Bool
  | .wake | .get _ | .now | .binding _ | .resolveTriggerMessageId _ | .activity | .awaitFinal _ |
    .evaluate _ | .recordPublished .. | .answer => true
  | _ => false

theorem quiet_performs (hq : quiet o = true) (ho : Performs apart κ o w ans w') : w' = w := by
  cases ho with
  | enter | leave | call | return_ | save | refused | notAccepted | existing | accept | retire
  | send => cases hq
  | _ => rfl

theorem quiet_may (hq : quiet o = true) : may κ o w := by
  cases o with
  | save | send => cases hq
  | _ => trivial

section
variable {P : World → Prop} {α : Type} {E : String → World → Prop}

/-- a quiet operation, in any section. -/
theorem quietNow (hq : quiet o = true) (hy : yields o = false) :
    Triple (apartRuns host) κ P (Exc.op (A := api) o) (fun _ => P) E :=
  .opNow hy (fun _ _ _ => quiet_may hq) fun _ _ _ _ h ho _ => quiet_performs hq ho ▸ h

theorem quietOp (hP : Stable (apartRuns host) κ P) (hq : quiet o = true) :
    Triple (apartRuns host) κ P (Exc.op (A := api) o) (fun _ => P) E :=
  .op hP (fun _ _ _ => quiet_may hq) fun _ _ _ _ h ho _ => quiet_performs hq ho ▸ h

theorem quietTryNow {he : Ans o = Except String α} (hq : quiet o = true) (hy : yields o = false) :
    Triple (apartRuns host) κ P (Exc.tryOp (A := api) o he) (fun _ => P) (fun _ => P) :=
  .tryOpNow hy (fun _ _ _ => quiet_may hq) (fun _ _ _ _ _ h ho _ _ => quiet_performs hq ho ▸ h)
    fun _ _ _ _ _ h ho _ _ => quiet_performs hq ho ▸ h

theorem quietTry {he : Ans o = Except String α} (hP : Stable (apartRuns host) κ P)
    (hq : quiet o = true) :
    Triple (apartRuns host) κ P (Exc.tryOp (A := api) o he) (fun _ => P) (fun _ => P) :=
  .tryOp hP (fun _ _ _ => quiet_may hq) (fun _ _ _ _ _ h ho _ _ => quiet_performs hq ho ▸ h)
    fun _ _ _ _ _ h ho _ _ => quiet_performs hq ho ▸ h

theorem get_spec : Triple (apartRuns host) κ P (Exc.op (A := api) (.get turnId))
    (fun row w => P w ∧ find w.rows turnId = row) E := by
  refine .opNow rfl (fun _ _ _ => trivial) fun w row w' _ h ho _ => ?_
  cases ho
  exact ⟨h, rfl⟩

/-- what a row is after it was saved. -/
theorem save_spec (hmay : ∀ w, Inv w → P w → MaySave κ r w) :
    Triple (apartRuns host) κ P (save r)
      (fun row w => find w.rows r.turnId = some row ∧
        ∃ w₀, Inv w₀ ∧ P w₀ ∧ w = { w₀ with rows := saveRow w₀.rows r }) (fun _ => P) := by
  refine .tryOpNow rfl hmay (fun w ans w' row hi h ho hi' heq => ?_)
    fun w ans w' e hi h ho hi' _ => ?_
  · cases ho with
    | save _ _ row' hrow =>
      cases heq
      exact ⟨hrow, w, hi, h, rfl⟩
    | refused => cases heq
  · cases ho with
    | save _ _ row' hrow => rename_i heq; cases heq
    | refused => exact h

/-- **`isRetired`** -/
theorem isRetired_spec : Triple (apartRuns host) κ P (isRetired record)
    (fun b w => P w ∧ (b = false → ∀ row, find w.rows record.turnId = some row → ¬Retired row))
    E := by
  refine .bind get_spec fun latest => .pure fun w hi h => ⟨h.1, fun hb row hrow hret => ?_⟩
  rw [← h.2, hrow] at hb
  exact absurd (decide_eq_true hret) (Bool.eq_false_iff.mp hb)

theorem publishActivity_spec (hP : Stable (apartRuns host) κ P) :
    Triple (apartRuns host) κ P (publishActivity record) (fun _ => P) E := by
  refine .bind isRetired_spec fun b => .ite (fun _ => .pure fun _ _ h => h.1) fun _ => ?_
  exact (quietOp hP rfl).pre fun _ _ h => h.1

end

/-- the row is the record when it was not retired. -/
theorem At.exact (hi : Inv w) (h : At κ record w)
    (hret : ∀ row, find w.rows record.turnId = some row → ¬Retired row) : Exact κ record w := by
  obtain ⟨hown, hrow | ⟨row, hrow, hturn, hr⟩⟩ := h
  · exact ⟨hown, hrow⟩
  · exact absurd hr (hret row ((find_eq_some hi.keys).mpr ⟨hrow, hturn⟩))

/-! ## the methods -/

/-- what may be saved of the row as it is. -/
theorem Exact.maySave (h : Exact κ record w) (hstate : record.state ≠ .completed)
    (hturn : r.turnId = record.turnId)
    (hbody : record.replyBody.getD "" ≠ "" → r.replyBody = record.replyBody) : MaySave κ r w :=
  ⟨record, h.2, hturn.symm, h.1, hstate, fun _ => hbody⟩

theorem At.maySave (h : At κ record w) (hstate : record.state ≠ .completed)
    (hturn : r.turnId = record.turnId) (hbody : r.replyBody = record.replyBody) :
    MaySave κ r w := by
  obtain ⟨hown, hrow | ⟨row, hrow, hkey, hret⟩⟩ := h
  · exact Exact.maySave ⟨hown, hrow⟩ hstate hturn fun _ => hbody
  · exact ⟨row, hrow, hkey.trans hturn.symm, hkey ▸ hown, hret.state_ne,
      fun hlive => absurd hret.1 hlive⟩

theorem recordPublished_spec {P : World → Prop} {messageId : Option String} :
    Triple (apartRuns host) κ P (recordPublished record messageId) (fun _ => P) (fun _ => P) := by
  cases messageId with
  | none => exact .pure fun _ _ h => h
  | some messageId => exact .ite (fun _ => .pure fun _ _ h => h) fun _ => quietTryNow rfl rfl

/-- **What is published is the reply of the row**, and no other work comes to the row until it is
completed. -/
theorem deliver_spec (hstate : record.state ≠ .completed) (hbody : record.replyBody = some b)
    (hne : b ≠ "") : Triple (apartRuns host) κ (Exact κ record) (deliver record b) Any₂
      (fun _ => Open κ record.turnId) := by
  refine .bind (R := fun _ => At κ record) (.opNow rfl ?_ ?_) fun _ => ?_
  · exact fun w _ h => ⟨record, h.2, rfl, rfl, hbody, hne⟩
  · intro w _ w' _ h ho _
    cases ho
    exact h.at
  refine .bind ((quietTry stable_at rfl).post (fun _ _ _ h => h) fun _ w _ h => h.open hstate)
    fun messageId => ?_
  refine .bind (quietNow rfl rfl) fun publishedAt => .bind
    (recordPublished_spec.post (fun _ _ _ h => h) fun _ w _ h => h.open hstate) fun _ => ?_
  exact .bind ((save_spec fun w _ h => h.maySave hstate rfl rfl).post (fun _ _ _ _ => trivial)
    fun _ w _ h => h.open hstate) fun _ => .pure fun _ _ _ => trivial

/-- **`publish`** -/
theorem publish_spec : Triple (apartRuns host) κ (At κ record) (publish record) Any₂
    (fun _ => Open κ record.turnId) := by
  refine .ite (fun _ => .pure fun _ _ _ => trivial) fun hstate => ?_
  have hcompleted : record.state ≠ .completed := fun h => hstate (.inl h)
  refine .bind isRetired_spec fun b => .ite (fun _ => .pure fun _ _ _ => trivial) fun hb => ?_
  refine Triple.pre (P := Exact κ record) ?_ fun w hi h =>
    h.1.exact hi (h.2 (Bool.eq_false_iff.mpr hb))
  refine .bind ((quietTryNow rfl rfl).post (fun _ _ _ h => h)
    fun _ w _ h => h.at.open hcompleted) fun bound => ?_
  refine .ite (fun _ => .pure fun _ _ _ => trivial) fun hbody => ?_
  refine .bind ((quietTryNow rfl rfl).post (fun _ _ _ h => h)
    fun _ w _ h => h.at.open hcompleted) fun suppress => ?_
  refine .ite (fun _ => ?_) fun _ => ?_
  · refine .bind (quietNow rfl rfl) fun now => ?_
    exact .bind ((save_spec fun w _ h => h.maySave hcompleted rfl fun _ => rfl).post
      (fun _ _ _ _ => trivial) fun _ w _ h => h.at.open hcompleted) fun _ =>
        .pure fun _ _ _ => trivial
  · have hne : record.replyBody.getD "" ≠ "" := fun h => hbody (.inr h)
    refine deliver_spec hcompleted ?_ hne
    cases hreply : record.replyBody with
    | none => exact absurd (by rw [hreply]; rfl) hne
    | some body => rfl

/-- what is saved of a row that is neither completed nor suppressed. -/
theorem Exact.saved (hi : Inv w) (h : Exact κ record w) (hlive : record.state ≠ .suppressed)
    (hrow : find (saveRow w.rows r) r.turnId = some row) (hturn : r.turnId = record.turnId) :
    row = merged record r ∧ Exact κ row { w with rows := saveRow w.rows r } := by
  have hmem : merged record r ∈ saveRow w.rows r := by
    rw [saveRow_of_mem h.2 hturn.symm]
    exact Sql.mem_update.mpr ⟨record, h.2, if_pos ⟨hturn.symm, hlive⟩⟩
  obtain rfl : row = merged record r := by
    obtain ⟨hrow', hkey⟩ := Sql.mem_of_find hrow
    exact (primaryKey_saveRow hi.keys).eq hrow' hmem (hkey.trans hturn)
  exact ⟨rfl, h.1, hmem⟩

/-- the thread is at work on a turn that is ready for the reply. -/
def Awaits (κ : ℕ) (turnId content : String) (w : World) : Prop :=
  Owns κ turnId w ∧ Ready w turnId content

theorem Awaits.open (h : Awaits κ turnId content w) : Open κ turnId w := by
  obtain ⟨hown, row, hrow, hturn, hstate, -⟩ := h
  exact ⟨hown, row, hrow, hturn, hstate⟩

theorem At.awaits (h : At κ record w) (hstate : record.state ≠ .completed)
    (hbody : record.replyBody.getD "" = "") : Awaits κ record.turnId content w := by
  obtain ⟨hown, hrow | ⟨row, hrow, hturn, hret⟩⟩ := h
  · exact ⟨hown, record, hrow, rfl, hstate, fun _ hne => absurd hbody hne⟩
  · exact ⟨hown, row, hrow, hturn, hret.state_ne, fun hlive => absurd hret.1 hlive⟩

/-- **`publishKnownFinal`** -/
theorem publishKnownFinal_spec {createdAt : String} :
    Triple (apartRuns host) κ (fun w => Over record ∨ Awaits κ record.turnId content w)
      (publishKnownFinal host record content createdAt) Any₂
      (fun _ => Open κ record.turnId) := by
  refine .ite (fun _ => .pure fun _ _ _ => trivial) fun hover => ?_
  refine Triple.pre (P := Awaits κ record.turnId content) ?_ fun w _ h => h.resolve_left hover
  refine .bind isRetired_spec fun b => .ite (fun _ => .pure fun _ _ _ => trivial) fun _ => ?_
  refine Triple.pre (P := Awaits κ record.turnId content) ?_ fun w _ h => h.1
  refine .bind (quietNow rfl rfl) fun now => ?_
  refine .bind (R := fun ready w => At κ ready w ∧ ready.turnId = record.turnId) ?_ fun ready => ?_
  · refine (save_spec fun w _ h => ?_).post ?_ fun _ w _ h => h.open
    · obtain ⟨hown, row, hrow, hturn, hstate, hbody⟩ := h
      exact ⟨row, hrow, hturn, hturn ▸ hown, hstate, fun hlive hne => (hbody hlive hne).symm⟩
    · rintro ready w hi ⟨hrow, w₀, hi₀, h, rfl⟩
      obtain ⟨hmem, hturn⟩ := Sql.mem_of_find hrow
      have hturn : ready.turnId = record.turnId := hturn
      exact ⟨⟨hturn ▸ h.1, .inl hmem⟩, hturn⟩
  · refine .assume fun hturn => ?_
    rw [← hturn]
    exact publish_spec

/-- what is done when the reply cannot be published. -/
theorem fail_spec {error : String} : Triple (apartRuns host) κ (Open κ record.turnId)
    (fail record error) Any₂ Any₂ := by
  refine .bind get_spec fun latest => ?_
  refine .ite (fun _ => .pure fun _ _ _ => trivial) fun hlive => ?_
  refine .bind (quietNow rfl rfl) fun now => ?_
  refine .bind (R := Any₂) ((save_spec fun w hi h => ?_).any) fun _ => ?_
  · obtain ⟨⟨hown, row, hrow, hturn, hopen⟩, hfind⟩ := h
    obtain rfl : some row = latest := ((find_eq_some hi.keys).mpr ⟨hrow, hturn⟩).symm.trans hfind
    exact ⟨row, hrow, rfl, hturn ▸ hown, hopen, fun _ _ => rfl⟩
  · refine .bind (publishActivity_spec (Stable.const True)) fun _ => ?_
    refine .bind (publishActivity_spec (Stable.const True)) fun _ => ?_
    exact .throw fun _ _ _ => trivial

/-- the final reply is awaited, and published. -/
theorem awaitReply_spec (hstate : record.state ≠ .completed)
    (hbody : record.replyBody.getD "" = "") :
    Triple (apartRuns host) κ (At κ record) (awaitReply host record) Any₂
      (fun _ => Open κ record.turnId) := by
  refine .bind ((quietTry stable_at rfl).post (fun _ _ _ h => h) fun _ w _ h => h.open hstate)
    fun reply => .bind (publishActivity_spec stable_at) fun _ => ?_
  refine .bind (publishKnownFinal_spec.pre fun w _ h => .inr (h.awaits hstate hbody)) fun _ => ?_
  exact publishActivity_spec (Stable.const True)

/-- a turn with its trigger. -/
theorem carry_spec (hstate : record.state ≠ .completed) :
    Triple (apartRuns host) κ (At κ record) (carry host record) Any₂ Any₂ := by
  refine .ite (fun _ => ?_) fun hbody => ?_
  · refine .bind (publishActivity_spec stable_at) fun _ => ?_
    refine .bind (publishActivity_spec stable_at) fun _ => ?_
    refine .bind publish_spec.any fun _ => ?_
    exact publishActivity_spec (Stable.const True)
  · refine .bind (publishActivity_spec stable_at) fun _ => ?_
    exact .tryCatch (awaitReply_spec hstate (Decidable.not_not.mp hbody)) fun _ => fail_spec

/-- the record with its trigger. -/
theorem withTrigger_spec {trigger : String} (hstate : record.state ≠ .completed)
    (hlive : record.state ≠ .suppressed) :
    Triple (apartRuns host) κ (Exact κ record) (withTrigger record trigger)
      (fun r w => At κ r w ∧ r.state ≠ .completed) Any₂ := by
  refine .ite (fun _ => .pure fun _ _ h => ⟨h.at, hstate⟩) fun _ => ?_
  refine .bind (quietNow rfl rfl) fun now => ?_
  refine (save_spec fun w _ h => h.maySave hstate rfl fun _ => rfl).post ?_
    fun _ _ _ _ => trivial
  rintro row w hi ⟨hrow, w₀, hi₀, h, rfl⟩
  obtain ⟨rfl, hexact⟩ := h.saved hi₀ hlive hrow rfl
  exact ⟨hexact.at, hstate⟩

theorem triggerOf_spec {P : World → Prop} : Triple (apartRuns host) κ P (triggerOf record)
    (fun _ => P) Any₂ := by
  unfold triggerOf
  cases record.triggerMessageId <|> record.sourceMessageIds.getLast? with
  | some id => exact .pure fun _ _ h => h
  | none => exact quietNow rfl rfl

/-- **`process`** -/
theorem process_spec (hstate : record.state ≠ .completed) (hlive : record.state ≠ .suppressed) :
    Triple (apartRuns host) κ (Exact κ record) (process host record) Any₂ Any₂ := by
  refine .bind ((quietTryNow rfl rfl).post (fun _ _ _ h => h) fun _ _ _ _ => trivial) fun bound =>
    .ite (fun _ => ?_) fun _ => .pure fun _ _ _ => trivial
  refine .bind triggerOf_spec fun trigger => ?_
  cases trigger with
  | none => exact .throw fun _ _ _ => trivial
  | some trigger =>
    refine .ite (fun _ => .throw fun _ _ _ => trivial) fun _ => ?_
    exact .bind (withTrigger_spec hstate hlive) fun r => .assume carry_spec

/-- the work of a turn. -/
theorem work_spec : Triple (apartRuns host) κ
    (fun w => Owns κ record.turnId w ∧ Known record w) (work host record) Any₂ Any₂ := by
  refine .bind get_spec fun latest => ?_
  refine .ite (fun hstate => ?_) fun _ => .pure fun _ _ _ => trivial
  refine (process_spec hstate.1 hstate.2).pre fun w hi h => ?_
  obtain ⟨⟨hown, row, hrow, hturn, -⟩, hfind⟩ := h
  obtain rfl : some row = latest :=
    ((find_eq_some hi.keys).mpr ⟨hrow, hturn.symm⟩).symm.trans hfind
  exact ⟨hturn ▸ hown, hrow⟩

theorem leave_spec {P : World → Prop} {E : String → World → Prop} :
    Triple (apartRuns host) κ P (Exc.op (A := api) (.leave record)) Any₂ E :=
  .opNow rfl (fun _ _ _ => trivial) fun _ _ _ _ _ _ _ => trivial

theorem return_spec {P : World → Prop} {E : String → World → Prop} :
    Triple (apartRuns host) κ P (Exc.op (A := api) (.return_ record)) Any₂ E :=
  .opNow rfl (fun _ _ _ => trivial) fun _ _ _ _ _ _ _ => trivial

/-- **`observe`** -/
theorem observe_spec : Triple (apartRuns host) κ (Known record) (observe host record)
    Any₂ Any₂ := by
  refine .bind (quietOp stable_known rfl) fun _ => ?_
  refine .ite (fun _ => .pure fun _ _ _ => trivial) fun _ => ?_
  refine .bind isRetired_spec fun b => .ite (fun _ => .pure fun _ _ _ => trivial) fun _ => ?_
  refine .bind (R := fun _ w => Owns κ record.turnId w ∧ Known record w) ?_ fun _ => ?_
  · refine .pre (P := Known record) (.op stable_known (fun _ _ h => h) ?_) fun _ _ h => h.1
    intro w _ w' _ h ho _
    cases ho
    exact ⟨⟨workOf record κ, List.mem_cons_self, rfl, rfl⟩, h⟩
  · exact .andFinally work_spec (fun _ => leave_spec) fun _ => leave_spec

/-- a call from outside that stands apart. -/
theorem published_spec {createdAt : String} : Triple (apartRuns host) κ Any
    (published host record content createdAt) Any₂ Any₂ := by
  refine .bind (R := fun _ w => Over record ∨ Awaits κ record.turnId content w) ?_ fun _ => ?_
  · refine .op (Stable.const True) (fun _ _ _ => trivial) fun w _ w' _ _ ho _ => ?_
    cases ho with
    | call _ _ _ hapart =>
      by_cases hover : Over record
      · exact .inl hover
      · refine .inr ⟨⟨workOf record κ, List.mem_append_right _ ?_, rfl, rfl⟩, ?_⟩
        · show workOf record κ ∈ if Over record then w.calls else workOf record κ :: w.calls
          rw [if_neg hover]
          exact List.mem_cons_self
        · exact ((hapart trivial).resolve_left hover).1
  · refine .andFinally (R := Any₂) (F := Any₂) ?_ (fun _ => return_spec) fun _ => return_spec
    exact .bind publishKnownFinal_spec.any fun _ => .pure fun _ _ _ => trivial

/-! ## runs -/

/-- **The runs in which calls from outside stand apart keep the discipline.** -/
theorem keeps (host : Host) : (apartRuns host).Keeps where
  perform := inv_perform
  crash := by
    rintro w w' hi rfl
    exact ⟨hi.keys, List.nodup_nil, (fun _ hwork => by cases hwork), hi.published⟩
  spawn := by
    rintro κ p w hi (⟨record, hknown, rfl⟩ | ⟨record, content, createdAt, -, rfl⟩ | ⟨record, rfl⟩ |
      ⟨sessionId, triggerId, now, turnIds, rfl⟩)
    · exact observe_spec.detachFrom hi hknown
    · exact published_spec.detach hi
    · exact (Triple.op (Q := Any₂) (E := Any₂) (Stable.const True) (fun _ _ _ => trivial)
        fun _ _ _ _ _ _ _ => trivial).detach hi
    · exact (Triple.op (Q := Any₂) (E := Any₂) (Stable.const True) (fun _ _ _ => trivial)
        fun _ _ _ _ _ _ _ => trivial).detach hi

theorem Start.inv (h : Start w) : Inv w := by
  obtain ⟨hrows, hpublications, hchain, hcalls⟩ := h
  refine ⟨?_, ?_, ?_, ?_⟩
  · rw [hrows]
    exact List.nodup_nil
  · rw [hchain, hcalls]
    exact List.nodup_nil
  · rw [hchain]
    exact fun _ hwork => by cases hwork
  · rw [hpublications]
    exact fun _ hp => by cases hp

/-- a row that is completed, or suppressed. -/
def Final (row : TurnRecord) : Prop := row.state = .completed ∨ row.state = .suppressed

/-- the rows that are final stay. -/
def FinalStays (w w' : World) : Prop := ∀ row ∈ w.rows, Final row → row ∈ w'.rows

theorem finalStays_perform (hi : Inv w) (hmay : may κ o w) (ho : Performs apart κ o w ans w') :
    FinalStays w w' := by
  intro row hrow hfinal
  cases becomes hi hmay ho hrow with
  | same h => exact h
  | saved r hown hstate hlive hbody h => exact absurd hfinal (not_or.mpr ⟨hstate, hlive⟩)
  | retired triggerId now hstate hlive h => exact absurd hfinal (not_or.mpr ⟨hstate, hlive⟩)

theorem finalStays_run {c c' : Conf api World} (hc : ConfOk (apartRuns host) c)
    (hs : Steps (system host True) c c') : FinalStays c.state c'.state := by
  refine hc.run (keeps host) (fun _ _ hrow _ => hrow) (fun w w' w'' h h' row hrow hfinal =>
    h' row (h row hrow hfinal) hfinal) (fun κ o w ans w' hi hmay ho =>
      finalStays_perform hi hmay ho) ?_ hs
  rintro w w' hi rfl row hrow hfinal
  exact hrow

theorem find_of_finalStays (hi : Inv w') (hstays : FinalStays w w')
    (hrow : find w.rows turnId = some row) (hfinal : Final row) :
    find w'.rows turnId = some row := by
  obtain ⟨hmem, hkey⟩ := Sql.mem_of_find hrow
  exact (find_eq_some hi.keys).mpr ⟨hstays row hmem hfinal, hkey⟩

/-- two publications of a turn are its reply. -/
theorem Inv.oneBody (hi : Inv w) {p q : Publication} (hp : p ∈ w.publications)
    (hq : q ∈ w.publications) (hturn : p.turnId = q.turnId) : p.body = q.body := by
  obtain ⟨row, hrow, hkey, -, hbody, -⟩ := hi.published p hp
  obtain ⟨row', hrow', hkey', -, hbody', -⟩ := hi.published q hq
  obtain rfl : row = row' := hi.keys.eq hrow hrow' (hkey.trans (hturn.trans hkey'.symm))
  exact Option.some.inj (hbody.symm.trans hbody')

/-- **One final**, when the calls of `publishKnownFinal` from outside stand apart. -/
theorem one_final (host : Host) {c c' : Conf api World}
    (hc : Reachable (system host True) Start c) (hs : Steps (system host True) c c') :
    OneFinal c.state c'.state := by
  have hok : ConfOk (apartRuns host) c := (keeps host).reachable (fun _ h => h.inv) hc
  have hi : Inv c'.state := (hok.steps (keeps host) hs).inv
  have hstays : FinalStays c.state c'.state := finalStays_run hok hs
  refine ⟨fun turnId row hrow hstate => ?_, fun turnId row hrow hret => ?_, fun p hp => ?_,
    fun p hp q hq => hi.oneBody hp hq⟩
  · exact find_of_finalStays hi hstays hrow (.inl hstate)
  · exact find_of_finalStays hi hstays hrow (.inr hret.1)
  · obtain ⟨row, hrow, hturn, hclient, -⟩ := hi.published p hp
    exact ⟨row, (find_eq_some hi.keys).mpr ⟨hrow, hturn⟩, hclient.symm⟩

end

/-! ## suppressed turns -/

section
variable {host : Host} {apart : Prop} {row : TurnRecord} {w w' : World} {κ : ℕ} {o : Op}
  {ans : Ans o}

theorem suppressed_perform (ho : Performs apart κ o w ans w') (hrow : row ∈ w.rows)
    (hstate : row.state = .suppressed) : row ∈ w'.rows := by
  cases ho with
  | save _ r row' hr => exact mem_saveRow_of_suppressed hrow hstate
  | accept _ record hnew hstate' => exact mem_saveRow_of_suppressed hrow hstate
  | retire _ sessionId triggerId now turnIds =>
    refine (mem_retireRows sessionId triggerId now turnIds hrow).resolve_right fun h => ?_
    exact h.1.2.2.2 hstate
  | _ => exact hrow

end

/-! ## a call with an old record -/

def someHost : Host := ⟨fun content createdAt => createdAt ++ content⟩

/-- a turn as it is accepted. -/
def someTurn : TurnRecord where
  turnId := "turn"
  sessionId := "session"
  prompt := "prompt"
  promptType := "flightdeck_chat"
  sourceMessageIds := ["message"]
  triggerMessageId := some "message"
  clientRequestId := "flightdeck-session-turn:turn"
  replyBody := none
  finalMessageIdentity := none
  replyCreatedAt := none
  publishedMessageId := none
  state := .accepted
  lastError := none
  createdAt := "2026-01-01"
  updatedAt := "2026-01-01"

/-- nothing fails, and the agent's final reply is `first`. -/
def someAnswer : (o : Op) → World → Ans o
  | .get turnId, w => find w.rows turnId
  | .save r, w => .ok ((find (saveRow w.rows r) r.turnId).getD r)
  | .accept r, _ => some r
  | .now, _ => "2026-01-02"
  | .binding _, _ => .ok true
  | .resolveTriggerMessageId _, _ => none
  | .awaitFinal _, _ => .ok ("first", "2026-01-02")
  | .evaluate _, _ => .ok false
  | .recordPublished .., _ => .ok ()
  | .answer, _ => .ok (some "published")
  | .wake, _ | .enter _, _ | .leave _, _ | .call .., _ | .return_ _, _ | .retire .., _
  | .activity, _ | .send _, _ => ()

def someEffect (κ : ℕ) : Op → World → World
  | .enter r, w => { w with chain := workOf r κ :: w.chain }
  | .leave r, w => { w with chain := w.chain.filter fun work => work ≠ workOf r κ }
  | .call r _, w => { w with calls := if Over r then w.calls else workOf r κ :: w.calls }
  | .return_ r, w => { w with calls := w.calls.filter fun work => work ≠ workOf r κ }
  | .save r, w => { w with rows := saveRow w.rows r }
  | .accept r, w => { w with rows := saveRow w.rows r }
  | .send p, w => { w with publications := w.publications ++ [p] }
  | _, w => w

/-- `apart`: a call from outside has nothing to do. -/
def someAllowed (apart : Bool) : Op → World → Bool
  | .enter r, w => w.chain.isEmpty && w.calls.isEmpty
  | .call r _, _ => !apart || decide (Over r)
  | .save r, w => (find (saveRow w.rows r) r.turnId).isSome
  | .accept r, w => w.rows.isEmpty && decide (r = someTurn)
  | .retire .., _ => false
  | _, _ => true

theorem performs_some (apart : Bool) (κ : ℕ) (o : Op) (w : World)
    (ho : someAllowed apart o w = true) :
    Performs (apart = true) κ o w (someAnswer o w) (someEffect κ o w) := by
  cases o with
  | enter r =>
    obtain ⟨hchain, hcalls⟩ := Bool.and_eq_true_iff.mp ho
    refine .enter w r (fun work hwork => ?_) fun _ work hwork => ?_
    · rw [List.isEmpty_iff.mp hchain] at hwork
      cases hwork
    · rw [List.isEmpty_iff.mp hcalls] at hwork
      cases hwork
  | call r content =>
    refine .call w r content fun hapart => ?_
    subst hapart
    exact .inl (of_decide_eq_true ho)
  | save r =>
    obtain ⟨row, hrow⟩ := Option.isSome_iff_exists.mp ho
    have hanswer : someAnswer (.save r) w = .ok row := by
      show Except.ok ((find (saveRow w.rows r) r.turnId).getD r) = _
      rw [hrow]
      rfl
    rw [hanswer]
    exact .save w r row hrow
  | accept r =>
    obtain ⟨hrows, hr⟩ := Bool.and_eq_true_iff.mp ho
    obtain rfl : r = someTurn := of_decide_eq_true hr
    refine .accept w someTurn ?_ ⟨rfl, rfl, rfl⟩
    rw [List.isEmpty_iff.mp hrows]
    rfl
  | retire => cases ho
  | _ => constructor

/-- the world in which the turn is accepted. -/
def acceptedWorld : World := ⟨[someTurn], [], [], []⟩

def acceptance : Prog api Unit := (Exc.op (A := api) (.accept someTurn) : Exc api String _).detach

theorem accepted_reachable (apart : Bool) :
    Reachable (system someHost (apart = true)) Start (.idle acceptedWorld) := by
  have hstart : Reachable (system someHost (apart = true)) Start (.idle ⟨[], [], [], []⟩) :=
    ⟨_, ⟨rfl, rfl, rfl, rfl⟩, .refl⟩
  have hspawn : ∀ p ∈ [acceptance],
      p.Suspended ∧ ∀ w, (system someHost (apart = true)).spawn w 0 p := by
    intro p hp
    rw [List.mem_singleton.mp hp]
    exact ⟨rfl, fun _ => Or.inr (Or.inr (Or.inl ⟨someTurn, rfl⟩))⟩
  exact Reachable.runAll 0 (performs_some apart 0) hspawn hstart (by cases apart <;> decide +kernel)

/-- the turn is observed to its end, then there is a call with this record. -/
def someRun (apart : Bool) (record : TurnRecord) : Option (Conf api World) :=
  (Conf.started acceptedWorld [(observe someHost someTurn).detach,
    (published someHost record "second" "2026-01-03").detach]).follow
      (fun _ => someAnswer) someEffect (fun _ => someAllowed apart) [0, 0, 0, 0, 0, 0, 0, 1, 1]

theorem someRun_steps {apart : Bool} {record : TurnRecord} {c : Conf api World}
    (hknown : sameTurn record someTurn) (hc : someRun apart record = some c) :
    Steps (system someHost (apart = true)) (.idle acceptedWorld) c := by
  have hspawn : ∀ p ∈ [(observe someHost someTurn).detach,
      (published someHost record "second" "2026-01-03").detach],
      p.Suspended ∧ ∀ κ, (system someHost (apart = true)).spawn acceptedWorld κ p := by
    intro p hp
    rcases List.mem_cons.mp hp with rfl | hp
    · exact ⟨rfl, fun _ => Or.inl ⟨_, ⟨_, List.mem_cons_self, rfl, rfl, rfl⟩, rfl⟩⟩
    · rw [List.mem_singleton.mp hp]
      exact ⟨rfl, fun _ => Or.inr (Or.inl ⟨_, _, _, ⟨_, List.mem_cons_self, hknown⟩, rfl⟩)⟩
  have hreach : Reachable (system someHost (apart = true)) (fun w => w = acceptedWorld) c :=
    Reachable.follow (performs_some apart) rfl hspawn hc
  obtain ⟨w, rfl, hsteps⟩ := hreach
  exact hsteps

/-- **A call with the record as it was accepted**, when the turn is completed, publishes a second
final. -/
theorem second_final : ¬∀ (host : Host) (c c' : Conf api World),
    Reachable (system host False) Start c → Steps (system host False) c c' →
      OneFinal c.state c'.state := by
  intro h
  have hrun : (someRun false someTurn).map (fun c => c.state.publications) =
      some [⟨"turn", "flightdeck-session-turn:turn", "first"⟩,
        ⟨"turn", "flightdeck-session-turn:turn", "second"⟩] := by decide +kernel
  obtain ⟨c, hc, hpublications⟩ := Option.map_eq_some_iff.mp hrun
  have hreach := accepted_reachable false
  have hsteps := someRun_steps ⟨rfl, rfl, rfl⟩ hc
  rw [eq_false Bool.false_ne_true] at hreach hsteps
  obtain ⟨w, hw, hfirst⟩ := hreach
  have hbody := (h someHost c c ⟨w, hw, hfirst.trans hsteps⟩ .refl).oneBody
  rw [hpublications] at hbody
  exact absurd (hbody _ List.mem_cons_self _ (List.mem_cons_of_mem _ List.mem_cons_self) rfl)
    (by decide)

/-- the record of the turn when it is completed. -/
def completedTurn : TurnRecord :=
  { someTurn with state := .completed, publishedMessageId := some "published" }

theorem one_final_sample : ∃ c, someRun true completedTurn = some c ∧
    OneFinal acceptedWorld c.state ∧ c.state.publications.map (·.body) = ["first"] := by
  have hrun : (someRun true completedTurn).map (fun c => c.state.publications.map (·.body)) =
      some ["first"] := by decide +kernel
  obtain ⟨c, hc, hbodies⟩ := Option.map_eq_some_iff.mp hrun
  have hknown : sameTurn completedTurn someTurn := ⟨rfl, rfl, rfl⟩
  have hreach := accepted_reachable true
  have hsteps := someRun_steps hknown hc
  rw [eq_self] at hreach hsteps
  have hfinal := one_final someHost hreach hsteps
  exact ⟨c, hc, hfinal, hbodies⟩

/-- the turn when it was retired, with a call for it. -/
def retiredWorld : World :=
  ⟨[{ someTurn with state := .suppressed }], [], [workOf someTurn 0], [workOf someTurn 0]⟩

end SessionTurns
end AgentChat
end WmAutopilot
