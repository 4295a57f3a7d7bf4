import Mathlib.Logic.Relation
import WmAutopilot.Pipelines.EvidenceStore

/-!
# The budget of pipeline evidence

* `Top`              the run at the top of a composition, `root_top`, which never changes for a run
                     (`Top.unique`, `Top.append`);
* `usedBytes_ok`     what `usedBytes` counts is the budget used by a run;
* `intern_ok`        what `intern` gives is a payload with just the content it was asked for;
* `Inv`              contents are stored once for each family, under their digest, and every run
                     is within its budget;
* `record_inv`       recording a value keeps the invariant;
* `evidence_budget`  it holds whenever the store is used.
-/

set_option autoImplicit false

namespace WmAutopilot
namespace Pipelines
namespace EvidenceStore
open Js Value Sql EvidenceRedaction

/-! ## the top of a composition -/

namespace Db
variable (db : Db)

/-- the run that a run is linked to. -/
def Parent (child parent : String) : Prop :=
  ∃ link, db.childRuns.find? (·.childRunId = child) = some link ∧ link.parentRunId = parent

/-- the run at the top, above which there is no link. -/
def Top (run top : String) : Prop :=
  Relation.ReflTransGen db.Parent run top ∧ db.childRuns.find? (·.childRunId = top) = none

/-- every run that is linked exists. -/
def Linked : Prop :=
  ∀ link ∈ db.childRuns, (∃ r ∈ db.runs, r.id = link.childRunId) ∧
    ∃ r ∈ db.runs, r.id = link.parentRunId

end Db

section
variable {db : Db} {run top : String}

theorem run_ok {id : String} {r : Run} (h : db.run id = .ok r) : r ∈ db.runs ∧ r.id = id :=
  mem_of_find (orThrow_ok.mp h)

theorem climb_of_none {seen : List String} {r : Run} (hseen : r.id ∉ seen)
    (hlink : db.childRuns.find? (·.childRunId = r.id) = none) : db.climb seen r = .ok r.id := by
  rw [Db.climb, if_neg hseen]
  split
  · rfl
  · rename_i link hlink'
    rw [hlink] at hlink'
    cases hlink'

theorem climb_of_some {seen : List String} {r : Run} {link : ChildRunLink} (hseen : r.id ∉ seen)
    (hlink : db.childRuns.find? (·.childRunId = r.id) = some link) :
    db.climb seen r = db.run link.parentRunId >>= fun parent =>
      if parent.ownerNpub ≠ r.ownerNpub ∨ parent.ownerAlias ≠ r.ownerAlias ∨
          ¬db.HasStep link.parentStepId parent.id then
        .error "Pipeline evidence composition authority mismatch"
      else db.climb (r.id :: seen) parent := by
  rw [Db.climb, if_neg hseen]
  split
  · rename_i hlink'
    rw [hlink] at hlink'
    cases hlink'
  · rename_i link' hlink'
    rw [hlink] at hlink'
    obtain rfl := Option.some.inj hlink'
    cases db.run link.parentRunId <;> rfl

theorem climb_top {seen : List String} {r : Run} (h : db.climb seen r = .ok top) :
    db.Top r.id top := by
  induction seen, r using Db.climb.induct db with
  | case1 seen r hseen =>
    rw [Db.climb, if_pos hseen] at h
    cases h
  | case2 seen r hseen hlink =>
    rw [climb_of_none hseen hlink] at h
    cases h
    exact ⟨.refl, hlink⟩
  | case3 seen r hseen link hlink e hrun =>
    rw [climb_of_some hseen hlink, hrun] at h
    cases h
  | case4 seen r hseen link hlink parent hrun hother =>
    rw [climb_of_some hseen hlink, hrun] at h
    obtain ⟨_, hp, h⟩ := bind_ok.mp h
    cases hp
    rw [if_pos hother] at h
    cases h
  | case5 seen r hseen link hlink parent hrun hsame ih =>
    rw [climb_of_some hseen hlink, hrun] at h
    obtain ⟨_, hp, h⟩ := bind_ok.mp h
    cases hp
    rw [if_neg hsame] at h
    obtain ⟨hchain, hnone⟩ := ih h
    rw [(run_ok hrun).2] at hchain
    exact ⟨.head ⟨link, hlink, rfl⟩ hchain, hnone⟩

/-- **`root` finds the top.** -/
theorem root_top {stepId : Option String} (h : db.root run stepId = .ok top) :
    (∃ r ∈ db.runs, r.id = run) ∧ db.Top run top := by
  obtain ⟨_, -, h⟩ := bind_ok.mp h
  obtain ⟨r, hr, h⟩ := bind_ok.mp h
  obtain ⟨hmem, hid⟩ := run_ok hr
  have htop := climb_top h
  rw [hid] at htop
  exact ⟨⟨r, hmem, hid⟩, htop⟩

/-- **A run has one top.** -/
theorem Db.Top.unique {top' : String} (h : db.Top run top) (h' : db.Top run top') : top = top' := by
  obtain ⟨hchain, hnone⟩ := h
  obtain ⟨hchain', hnone'⟩ := h'
  induction hchain using Relation.ReflTransGen.head_induction_on with
  | refl =>
    rcases hchain'.cases_head with heq | ⟨_, ⟨link, hlink, -⟩, -⟩
    · exact heq
    · rw [hnone] at hlink
      cases hlink
  | head hstep _ ih =>
    obtain ⟨link, hlink, rfl⟩ := hstep
    rcases hchain'.cases_head with rfl | ⟨_, ⟨link', hlink', rfl⟩, hrest⟩
    · rw [hnone'] at hlink
      cases hlink
    · rw [hlink] at hlink'
      obtain rfl := Option.some.inj hlink'
      exact ih hrest

/-- a run keeps its top when a new run is linked below another. -/
theorem Db.Top.append {db' : Db} {link : ChildRunLink} (hlinked : db.Linked)
    (hnew : ∀ r ∈ db.runs, r.id ≠ link.childRunId)
    (hlinks : db'.childRuns = db.childRuns ++ [link]) (hrun : ∃ r ∈ db.runs, r.id = run)
    (h : db.Top run top) : db'.Top run top := by
  -- a run that exists has the links that it had
  have hold : ∀ id, (∃ r ∈ db.runs, r.id = id) →
      db'.childRuns.find? (·.childRunId = id) = db.childRuns.find? (·.childRunId = id) := by
    rintro id ⟨r, hr, rfl⟩
    have hne : link.childRunId ≠ r.id := fun e => hnew r hr e.symm
    rw [hlinks, List.find?_append, List.find?_singleton, if_neg (by simpa using hne), Option.or_none]
  obtain ⟨hchain, hnone⟩ := h
  induction hchain using Relation.ReflTransGen.head_induction_on with
  | refl =>
    refine ⟨.refl, ?_⟩
    rw [hold top hrun]
    exact hnone
  | head hstep _ ih =>
    obtain ⟨l, hl, rfl⟩ := hstep
    obtain ⟨hmem, -⟩ := mem_of_find hl
    obtain ⟨hchain', hnone'⟩ := ih (hlinked l hmem).2
    refine ⟨.head ⟨l, ?_, rfl⟩ hchain', hnone'⟩
    rw [hold _ hrun]
    exact hl

end

/-! ## what is counted -/

/-- The bytes of the retained contents of a run; content with one hash counts once. -/
def Db.budget (db : Db) (runId : String) : ℕ :=
  grouped (·.contentHash) (·.bytes) (db.retainedRows runId)

/-- every row has a content hash. -/
def Db.Hashed (db : Db) : Prop := ∀ row ∈ db.evidence, row.contentHash.isSome = true

section
variable {host : Host} {limits : Limits} {db db' : Db} {runId root json hash id newId : String}
  {bytes : ℕ}

theorem mem_retainedRows {row : EvidenceRow} :
    row ∈ db.retainedRows runId ↔
      row ∈ db.evidence ∧ row.runId = runId ∧ row.availability.retained = true := by
  rw [Db.retainedRows, List.mem_filter, decide_eq_true_iff]

/-- **`usedBytes` counts the budget**, and finds the contents that are in it. -/
theorem usedBytes_ok {used : ℕ × Bool} (hhashed : db.Hashed)
    (h : db.usedBytes host runId hash = .ok used) :
    used.1 = db.budget runId ∧
      (used.2 = true ↔ some hash ∈ (db.retainedRows runId).map (·.contentHash)) := by
  have hsome : ∀ row ∈ db.retainedRows runId, row.contentHash.isSome = true :=
    fun row hrow => hhashed row (mem_retainedRows.mp hrow).1
  have hall : (db.retainedRows runId).filter (fun row => row.contentHash.isSome = true) =
      db.retainedRows runId :=
    List.filter_eq_self.mpr fun row hrow => decide_eq_true (hsome row hrow)
  have hlegacy : (db.retainedRows runId).filter (fun row => row.contentHash = none) = [] := by
    refine List.filter_eq_nil_iff.mpr fun row hrow hnone => ?_
    have hrow' := hsome row hrow
    rw [of_decide_eq_true hnone] at hrow'
    cases hrow'
  unfold Db.usedBytes at h
  rw [hall, hlegacy] at h
  obtain ⟨_, -, h⟩ := bind_ok.mp h
  obtain ⟨sizes, hsizes, h⟩ := bind_ok.mp h
  cases hsizes
  cases h
  constructor
  · show total _ (List.map _ _) = total _ _
    rw [total, List.map_map]
    rfl
  · show decide _ = true ↔ _
    rw [decide_eq_true_iff, List.map_map, List.mem_map]
    constructor
    · rintro ⟨key, hkey, rfl⟩
      obtain ⟨row, hrow, rfl⟩ := List.mem_map.mp (mem_distinct.mp hkey)
      obtain ⟨digest, hdigest⟩ := Option.isSome_iff_exists.mp (hsome row hrow)
      refine List.mem_map.mpr ⟨row, hrow, ?_⟩
      show row.contentHash = some (row.contentHash.getD "")
      rw [hdigest]
      rfl
    · intro hmem
      exact ⟨some hash, mem_distinct.mpr hmem, rfl⟩

/-- **What is interned** is a payload of the family with just this content; nothing else changes,
and the payload is new only when the family had none with this hash. -/
theorem intern_ok (h : db.intern host root json hash bytes newId = .ok (id, db')) :
    ∃ p : Payload, p = ⟨id, root, hash, bytes, json⟩ ∧
      (db' = db ∧ p ∈ db.payloads ∨
        db' = { db with payloads := db.payloads ++ [p] } ∧
          (∀ q ∈ db.payloads, ¬(q.rootRunId = root ∧ q.contentHash = hash)) ∧
          ∀ q ∈ db.payloads, q.id ≠ id) := by
  unfold Db.intern at h
  split at h
  · rename_i existing hfind
    obtain ⟨hmem, hroot, hhash⟩ := mem_of_find hfind
    obtain ⟨_, hsame, h⟩ := bind_ok.mp h
    cases h
    have hsame' := throwIf_ok.mp hsame
    simp only [not_or, not_not] at hsame'
    refine ⟨existing, ?_, .inl ⟨rfl, hmem⟩⟩
    rw [← hroot, ← hhash, ← hsame'.1, ← hsame'.2.1]
  · rename_i hfind
    obtain ⟨_, -, h⟩ := bind_ok.mp h
    obtain ⟨_, hid, h⟩ := bind_ok.mp h
    cases h
    have hid' := throwIf_ok.mp hid
    refine ⟨_, rfl, .inr ⟨rfl, fun q hq hkey => ?_, fun q hq heq => hid' ⟨q, hq, heq⟩⟩⟩
    exact of_decide_eq_false (by simpa using List.find?_eq_none.mp hfind q hq) hkey

end

/-! ## the invariant -/

/-- The content of a row is a payload of its family. -/
def Db.Stores (db : Db) (row : EvidenceRow) (p : Payload) : Prop :=
  p ∈ db.payloads ∧ row.payloadId = some p.id ∧ row.contentHash = some p.contentHash ∧
    row.bytes = p.bytes ∧ db.Top row.runId p.rootRunId

/-- Contents are stored once for each family, under their digest and with their size; every
retained row has its content, and the limits are kept. -/
structure Inv (host : Host) (limits : Limits) (db : Db) : Prop where
  linked : db.Linked
  hashed : db.Hashed
  runs : ∀ row ∈ db.evidence, ∃ r ∈ db.runs, r.id = row.runId
  unique : PrimaryKey (fun p : Payload => (p.rootRunId, p.contentHash)) db.payloads
  digests : ∀ p ∈ db.payloads, p.contentHash = host.evidenceDigest p.valueJson ∧
    p.bytes = p.valueJson.utf8ByteSize
  stored : ∀ row ∈ db.evidence, row.availability.retained = true → ∃ p, db.Stores row p
  within : ∀ row ∈ db.evidence, row.availability.retained = true → row.bytes ≤ limits.valueLimit
  budget : ∀ runId, db.budget runId ≤ limits.runLimit

section
variable {host : Host} {limits : Limits} {db db' : Db} {row : EvidenceRow} {p : Payload}

/-- what is stored stays stored while runs keep their tops and payloads are only added. -/
theorem Db.Stores.mono (h : db.Stores row p) (hpayloads : ∀ q ∈ db.payloads, q ∈ db'.payloads)
    (htop : ∀ top, db.Top row.runId top → db'.Top row.runId top) : db'.Stores row p := by
  obtain ⟨hmem, hid, hhash, hbytes, hrun⟩ := h
  exact ⟨hpayloads p hmem, hid, hhash, hbytes, htop _ hrun⟩

/-- rows of one run with one hash have one content. -/
theorem Db.Stores.same_size {row' : EvidenceRow} {p' : Payload}
    (hunique : PrimaryKey (fun p : Payload => (p.rootRunId, p.contentHash)) db.payloads)
    (h : db.Stores row p) (h' : db.Stores row' p') (hrun : row.runId = row'.runId)
    (hhash : row.contentHash = row'.contentHash) : row.bytes = row'.bytes := by
  obtain ⟨hp, -, hkey, hbytes, htop⟩ := h
  obtain ⟨hp', -, hkey', hbytes', htop'⟩ := h'
  rw [hrun] at htop
  rw [hkey, hkey'] at hhash
  have heq : p = p' := hunique.eq hp hp' (Prod.ext (htop.unique htop') (Option.some.inj hhash))
  rw [hbytes, hbytes', heq]

/-! ## recording -/

/-- the retained rows after one more row. -/
theorem retainedRows_append {runId : String} (hevidence : db'.evidence = db.evidence ++ [row]) :
    db'.retainedRows runId = db.retainedRows runId ++
      if row.runId = runId ∧ row.availability.retained = true then [row] else [] := by
  unfold Db.retainedRows
  rw [hevidence, List.filter_append]
  by_cases hrow : row.runId = runId ∧ row.availability.retained = true
  · rw [if_pos hrow]
    exact congrArg _ (List.filter_cons_of_pos (decide_eq_true hrow))
  · rw [if_neg hrow]
    exact congrArg _ (List.filter_cons_of_neg (by simpa using hrow))

/-- **A row is added.**  When it is retained, its content is stored and it was found to be within
the limits. -/
theorem Inv.append (inv : Inv host limits db) (hruns : db'.runs = db.runs)
    (hlinks : db'.childRuns = db.childRuns) (hevidence : db'.evidence = db.evidence ++ [row])
    (hpayloads : ∀ q ∈ db.payloads, q ∈ db'.payloads)
    (hunique : PrimaryKey (fun p : Payload => (p.rootRunId, p.contentHash)) db'.payloads)
    (hdigests : ∀ p ∈ db'.payloads, p.contentHash = host.evidenceDigest p.valueJson ∧
      p.bytes = p.valueJson.utf8ByteSize)
    (hhash : row.contentHash.isSome = true) (hrun : ∃ r ∈ db.runs, r.id = row.runId)
    (hstored : row.availability.retained = true → ∃ p, db'.Stores row p)
    (hlimits : row.availability.retained = true → row.bytes ≤ limits.valueLimit ∧
      (row.contentHash ∈ (db.retainedRows row.runId).map (·.contentHash) ∨
        db.budget row.runId + row.bytes ≤ limits.runLimit)) :
    Inv host limits db' := by
  have htop : ∀ run top, db.Top run top → db'.Top run top := by
    intro run top h
    unfold Db.Top Db.Parent
    rw [hlinks]
    exact h
  have hcases : ∀ r ∈ db'.evidence, r ∈ db.evidence ∨ r = row := by
    intro r hr
    rw [hevidence] at hr
    exact (List.mem_append.mp hr).imp_right List.mem_singleton.mp
  have hstored' : ∀ r ∈ db'.evidence, r.availability.retained = true → ∃ p, db'.Stores r p := by
    intro r hr hret
    rcases hcases r hr with hr | rfl
    · obtain ⟨p, hp⟩ := inv.stored r hr hret
      exact ⟨p, hp.mono hpayloads (htop r.runId)⟩
    · exact hstored hret
  refine { linked := ?_, hashed := ?_, runs := ?_, unique := hunique, digests := hdigests,
           stored := hstored', within := ?_, budget := ?_ }
  · unfold Db.Linked
    rw [hlinks, hruns]
    exact inv.linked
  · intro r hr
    rcases hcases r hr with hr | rfl
    · exact inv.hashed r hr
    · exact hhash
  · intro r hr
    rw [hruns]
    rcases hcases r hr with hr | rfl
    · exact inv.runs r hr
    · exact hrun
  · intro r hr hret
    rcases hcases r hr with hr | rfl
    · exact inv.within r hr hret
    · exact (hlimits hret).1
  · intro runId
    unfold Db.budget
    rw [retainedRows_append hevidence]
    split
    · rename_i hrow
      obtain ⟨rfl, hret⟩ := hrow
      obtain ⟨p, hp⟩ := hstored hret
      have hsize : ∀ r ∈ db.retainedRows row.runId, r.contentHash = row.contentHash →
          r.bytes = row.bytes := by
        intro r hr hkey
        obtain ⟨hr, hrun', hret'⟩ := mem_retainedRows.mp hr
        obtain ⟨q, hq⟩ := inv.stored r hr hret'
        exact (hq.mono hpayloads (htop r.runId)).same_size hunique hp hrun' hkey
      by_cases hmem : row.contentHash ∈ (db.retainedRows row.runId).map (·.contentHash)
      · rw [grouped_append_of_mem hsize hmem]
        exact inv.budget row.runId
      · rw [grouped_append_of_not hsize hmem]
        exact (hlimits hret).2.resolve_left hmem
    · rw [List.append_nil]
      exact inv.budget runId

/-- The tables only grow, and runs keep their tops. -/
structure Grows (db db' : Db) : Prop where
  evidence : ∀ row ∈ db.evidence, row ∈ db'.evidence
  payloads : ∀ p ∈ db.payloads, p ∈ db'.payloads
  top : ∀ run top, (∃ r ∈ db.runs, r.id = run) → db.Top run top → db'.Top run top

/-- A reference stands for a row, and a retained one has just this content. -/
def Db.Captured (db : Db) (ref : EvidenceReference) (json : String) : Prop :=
  ∃ row ∈ db.evidence, reference row = ref ∧
    (ref.availability.retained = true → ∃ p, db.Stores row p ∧ p.valueJson = json)

theorem Db.Captured.mono {ref : EvidenceReference} {json : String} (inv : Inv host limits db)
    (h : db.Captured ref json) (hgrows : Grows db db') : db'.Captured ref json := by
  obtain ⟨row, hrow, href, hstored⟩ := h
  refine ⟨row, hgrows.evidence row hrow, href, fun hret => ?_⟩
  obtain ⟨p, hp, hjson⟩ := hstored hret
  exact ⟨p, hp.mono hgrows.payloads fun top => hgrows.top _ top (inv.runs row hrow), hjson⟩

theorem keep_ok {ref : EvidenceReference} {root json hash newId : String}
    {kept : Option String × Db} (h : keep host db ref root json hash newId = .ok kept) :
    ref.availability.retained = false ∧ kept = (none, db) ∨
      ref.availability.retained = true ∧ ∃ id db', kept = (some id, db') ∧
        db.intern host root json hash ref.bytes newId = .ok (id, db') := by
  unfold keep at h
  split at h
  · rename_i hret
    obtain ⟨⟨id, db'⟩, hintern, h⟩ := bind_ok.mp h
    cases h
    exact .inr ⟨hret, id, db', rfl, hintern⟩
  · rename_i hret
    cases h
    exact .inl ⟨Bool.eq_false_iff.mpr hret, rfl⟩

/-- a retained reference is within the limits. -/
theorem availabilityOf_retained {input : EvidenceCapture} {used : ℕ × Bool} {bytes : ℕ}
    {redacted : Bool} (h : (availabilityOf limits input used bytes redacted).retained = true) :
    bytes ≤ limits.valueLimit ∧ (used.2 = true ∨ used.1 + bytes ≤ limits.runLimit) := by
  have hlimits : ¬(limits.valueLimit < bytes ∨
      limits.runLimit < used.1 + (if used.2 = true then 0 else bytes)) := by
    intro hover
    rw [availabilityOf, if_pos hover] at h
    cases h
  rw [not_or, Nat.not_lt, Nat.not_lt] at hlimits
  refine ⟨hlimits.1, ?_⟩
  by_cases hrepeated : used.2 = true
  · exact .inl hrepeated
  · rw [if_neg hrepeated] at hlimits
    exact .inr hlimits.2

/-- **Recording a value keeps the invariant**, and the reference stands for its content. -/
theorem record_inv (inv : Inv host limits db) {input : EvidenceCapture} {around : Surroundings}
    {root sourceHash : String} {safe : Value × Bool} {r : EvidenceReference × String × Db}
    (hrun : ∃ r ∈ db.runs, r.id = input.runId) (htop : db.Top input.runId root)
    (h : record host limits db input around root sourceHash safe = .ok r) :
    Inv host limits r.2.2 ∧ Grows db r.2.2 ∧ r.2.2.Captured r.1 r.2.1 := by
  unfold record at h
  obtain ⟨used, hused, h⟩ := bind_ok.mp h
  obtain ⟨kept, hkept, h⟩ := bind_ok.mp h
  obtain ⟨_, -, h⟩ := bind_ok.mp h
  obtain ⟨hbudget, hrepeated⟩ := usedBytes_ok inv.hashed hused
  cases h
  have hgrowsTop : ∀ db' : Db, db'.childRuns = db.childRuns → ∀ run top,
      db.Top run top → db'.Top run top := by
    intro db' hlinks run top h
    unfold Db.Top Db.Parent
    rw [hlinks]
    exact h
  rcases keep_ok hkept with ⟨hret, rfl⟩ | ⟨hret, id, db₁, rfl, hintern⟩
  · -- nothing is kept
    refine ⟨inv.append rfl rfl rfl (fun q hq => hq) inv.unique inv.digests rfl hrun
      (fun hret' => absurd (hret.symm.trans hret') Bool.false_ne_true)
      (fun hret' => absurd (hret.symm.trans hret') Bool.false_ne_true), ?_, ?_⟩
    · exact ⟨fun row hrow => List.mem_append_left _ hrow, fun p hp => hp,
        fun run top _ => hgrowsTop _ rfl run top⟩
    · exact ⟨_, List.mem_append_right _ (List.mem_singleton_self _), rfl,
        fun hret' => absurd (hret.symm.trans hret') Bool.false_ne_true⟩
  · -- the content is interned
    obtain ⟨p, hp, hcases⟩ := intern_ok hintern
    have hsame : db₁.runs = db.runs ∧ db₁.childRuns = db.childRuns ∧
        db₁.evidence = db.evidence ∧ (∀ q ∈ db.payloads, q ∈ db₁.payloads) ∧ p ∈ db₁.payloads := by
      rcases hcases with ⟨rfl, hmem⟩ | ⟨rfl, -, -⟩
      · exact ⟨rfl, rfl, rfl, fun q hq => hq, hmem⟩
      · exact ⟨rfl, rfl, rfl, fun q hq => List.mem_append_left _ hq,
          List.mem_append_right _ (List.mem_singleton_self p)⟩
    obtain ⟨hruns, hlinks, hevidence, hpayloads, hmem⟩ := hsame
    have hunique : PrimaryKey (fun p : Payload => (p.rootRunId, p.contentHash)) db₁.payloads := by
      rcases hcases with ⟨rfl, -⟩ | ⟨rfl, hnew, -⟩
      · exact inv.unique
      · refine inv.unique.append fun q hq hkey => hnew q hq ?_
        rw [hp] at hkey
        exact Prod.mk.inj hkey
    have hdigests : ∀ q ∈ db₁.payloads, q.contentHash = host.evidenceDigest q.valueJson ∧
        q.bytes = q.valueJson.utf8ByteSize := by
      rcases hcases with ⟨rfl, -⟩ | ⟨rfl, -, -⟩
      · exact inv.digests
      · intro q hq
        rcases List.mem_append.mp hq with hq | hq
        · exact inv.digests q hq
        · rw [List.mem_singleton.mp hq, hp]
          exact ⟨rfl, rfl⟩
    obtain ⟨hvalue, hlimit⟩ := availabilityOf_retained hret
    rw [hrepeated, hbudget] at hlimit
    subst hp
    refine ⟨inv.append hruns hlinks (congrArg (· ++ _) hevidence) hpayloads hunique hdigests rfl hrun
      (fun _ => ⟨_, hmem, rfl, rfl, rfl, hgrowsTop _ hlinks _ _ htop⟩) (fun _ => ⟨hvalue, hlimit⟩),
      ?_, ?_⟩
    · refine ⟨fun row hrow => List.mem_append_left _ ?_, hpayloads,
        fun run top _ => hgrowsTop _ hlinks run top⟩
      rw [hevidence]
      exact hrow
    · exact ⟨_, List.mem_append_right _ (List.mem_singleton_self _), rfl,
        fun _ => ⟨_, ⟨hmem, rfl, rfl, rfl, hgrowsTop _ hlinks _ _ htop⟩, rfl⟩⟩

/-- **A capture keeps the invariant.** -/
theorem captureValue_inv (inv : Inv host limits db) {input : EvidenceCapture}
    {around : Surroundings} {r : EvidenceReference × String × Db}
    (h : captureValue host limits db input around = .ok r) :
    Inv host limits r.2.2 ∧ Grows db r.2.2 ∧ r.2.2.Captured r.1 r.2.1 := by
  unfold captureValue at h
  obtain ⟨root, hroot, h⟩ := bind_ok.mp h
  obtain ⟨_, -, h⟩ := bind_ok.mp h
  obtain ⟨retained, -, h⟩ := bind_ok.mp h
  obtain ⟨_, -, h⟩ := bind_ok.mp h
  obtain ⟨boundary, -, h⟩ := bind_ok.mp h
  obtain ⟨_, -, h⟩ := bind_ok.mp h
  obtain ⟨recorded, hrecorded, h⟩ := bind_ok.mp h
  obtain ⟨_, -, h⟩ := bind_ok.mp h
  cases h
  obtain ⟨hrun, htop⟩ := root_top hroot
  exact record_inv inv hrun htop hrecorded

/-- what `ensureArchived` gives is a row that there is, or comes from a capture. -/
theorem ensureArchived_ok {executionSecrets : List String} {input : EvidenceCapture}
    {around : Surroundings} {x : EvidenceReference ⊕ (EvidenceReference × String × Db)}
    (h : ensureArchived host limits db executionSecrets input around = .ok x) :
    (∃ row ∈ db.evidence, x = .inl (reference row)) ∨
      ∃ r, x = .inr r ∧ captureValue host limits db input around = .ok r := by
  unfold ensureArchived at h
  split at h
  · rename_i row hrow
    obtain ⟨_, -, h⟩ := bind_ok.mp h
    cases h
    exact .inl ⟨row, (List.mem_filter.mp (List.mem_of_getLast? hrow)).1, rfl⟩
  · obtain ⟨_, -, h⟩ := bind_ok.mp h
    obtain ⟨r, hr, h⟩ := bind_ok.mp h
    cases h
    exact .inr ⟨r, rfl, hr⟩

/-! ## the store in use -/

variable (db') in
/-- new runs, with the links to them, keep the invariant. -/
theorem Inv.withRuns (inv : Inv host limits db) (hevidence : db'.evidence = db.evidence)
    (hpayloads : db'.payloads = db.payloads) (hruns : ∀ r ∈ db.runs, r ∈ db'.runs)
    (hlinked : db'.Linked)
    (htop : ∀ run top, (∃ r ∈ db.runs, r.id = run) → db.Top run top → db'.Top run top) :
    Inv host limits db' ∧ Grows db db' := by
  have hgrows : Grows db db' :=
    ⟨fun row hrow => hevidence ▸ hrow, fun p hp => hpayloads ▸ hp, htop⟩
  refine ⟨{ linked := hlinked, hashed := ?_, runs := ?_, unique := hpayloads ▸ inv.unique,
            digests := hpayloads ▸ inv.digests, stored := ?_, within := ?_, budget := ?_ }, hgrows⟩
  · intro row hrow
    rw [hevidence] at hrow
    exact inv.hashed row hrow
  · intro row hrow
    rw [hevidence] at hrow
    obtain ⟨r, hr, hid⟩ := inv.runs row hrow
    exact ⟨r, hruns r hr, hid⟩
  · intro row hrow hret
    rw [hevidence] at hrow
    obtain ⟨p, hp⟩ := inv.stored row hrow hret
    exact ⟨p, hp.mono hgrows.payloads fun top => htop _ top (inv.runs row hrow)⟩
  · intro row hrow hret
    rw [hevidence] at hrow
    exact inv.within row hrow hret
  · intro runId
    unfold Db.budget Db.retainedRows
    rw [hevidence]
    exact inv.budget runId

/-- What holds of a store in use. -/
structure StoreInv (host : Host) (limits : Limits) (s : Store) : Prop where
  db : Inv host limits s.db
  captured : ∀ c ∈ s.captured, s.db.Captured c.1 c.2
  archived : ∀ ref ∈ s.archived, ∃ row ∈ s.db.evidence, reference row = ref

theorem StoreInv.grow {s s' : Store} (inv : StoreInv host limits s) (hdb : Inv host limits s'.db)
    (hgrows : Grows s.db s'.db)
    (hcaptured : ∀ c ∈ s'.captured, c ∈ s.captured ∨ s'.db.Captured c.1 c.2)
    (harchived : ∀ ref ∈ s'.archived, ref ∈ s.archived ∨
      ∃ row ∈ s.db.evidence, reference row = ref) : StoreInv host limits s' := by
  refine ⟨hdb, fun c hc => ?_, fun ref href => ?_⟩
  · rcases hcaptured c hc with hc | hc
    · exact (inv.captured c hc).mono inv.db hgrows
    · exact hc
  · have hrow : ∃ row ∈ s.db.evidence, reference row = ref :=
      (harchived ref href).elim (inv.archived ref) id
    obtain ⟨row, hrow, href⟩ := hrow
    exact ⟨row, hgrows.evidence row hrow, href⟩

theorem Grows.refl (db : Db) : Grows db db :=
  ⟨fun _ h => h, fun _ h => h, fun _ _ _ h => h⟩

/-- **A step of the store keeps the invariant.** -/
theorem StoreInv.step {s s' : Store} (inv : StoreInv host limits s) (h : Step host limits s s') :
    StoreInv host limits s' := by
  have recorded : ∀ {r : EvidenceReference × String × Db} {input : EvidenceCapture}
      {around : Surroundings}, captureValue host limits s.db input around = .ok r →
      StoreInv host limits (s.recorded r) := by
    intro r input around hr
    obtain ⟨hdb, hgrows, hcaptured⟩ := captureValue_inv inv.db hr
    refine inv.grow hdb hgrows (fun c hc => ?_) (fun ref href => .inl href)
    rcases List.mem_append.mp hc with hc | hc
    · exact .inl hc
    · rw [List.mem_singleton.mp hc]
      exact .inr hcaptured
  cases h with
  | capture input around h => exact recorded h
  | ensureArchived input around h =>
    rcases ensureArchived_ok h with ⟨row, -, heq⟩ | ⟨r, heq, hr⟩
    · cases heq
    · cases heq
      exact recorded hr
  | alreadyArchived input around h =>
    refine inv.grow inv.db (.refl _) (fun c hc => .inl hc) (fun ref href => ?_)
    rcases List.mem_append.mp href with href | href
    · exact .inl href
    · rcases ensureArchived_ok h with ⟨row, hrow, heq⟩ | ⟨r, heq, -⟩
      · rw [List.mem_singleton.mp href]
        exact .inr ⟨row, hrow, (Sum.inl.inj heq).symm⟩
      · cases heq
  | createRun run h =>
    have hgrown := inv.db.withRuns { s.db with runs := s.db.runs ++ [run] } rfl rfl
      (fun r hr => List.mem_append_left _ hr)
      (fun link hlink =>
        ⟨(inv.db.linked link hlink).1.imp fun r hr => ⟨List.mem_append_left _ hr.1, hr.2⟩,
          (inv.db.linked link hlink).2.imp fun r hr => ⟨List.mem_append_left _ hr.1, hr.2⟩⟩)
      (fun _ _ _ htop => htop)
    exact inv.grow hgrown.1 hgrown.2 (fun c hc => .inl hc) (fun ref href => .inl href)
  | createChildRun run link h hchild hparent hstep =>
    have hnew : ∀ r ∈ s.db.runs, r.id ≠ link.childRunId := by
      intro r hr heq
      exact h r hr (heq.trans hchild)
    have hgrown := inv.db.withRuns
      { s.db with runs := s.db.runs ++ [run], childRuns := s.db.childRuns ++ [link] }
      rfl rfl (fun r hr => List.mem_append_left _ hr)
      (fun l hl => by
        rcases List.mem_append.mp hl with hl | hl
        · exact ⟨(inv.db.linked l hl).1.imp fun r hr => ⟨List.mem_append_left _ hr.1, hr.2⟩,
            (inv.db.linked l hl).2.imp fun r hr => ⟨List.mem_append_left _ hr.1, hr.2⟩⟩
        · rw [List.mem_singleton.mp hl]
          exact ⟨⟨run, List.mem_append_right _ (List.mem_singleton_self run), hchild.symm⟩,
            hparent.imp fun r hr => ⟨List.mem_append_left _ hr.1, hr.2⟩⟩)
      (fun _ _ hrun htop => htop.append inv.db.linked hnew rfl hrun)
    exact inv.grow hgrown.1 hgrown.2 (fun c hc => .inl hc) (fun ref href => .inl href)
  | createStep step h hrun =>
    have hgrown := inv.db.withRuns { s.db with steps := s.db.steps ++ [step] } rfl rfl
      (fun r hr => hr) inv.db.linked (fun _ _ _ htop => htop)
    exact inv.grow hgrown.1 hgrown.2 (fun c hc => .inl hc) (fun ref href => .inl href)
  | registerSecret secret =>
    exact inv.grow inv.db (.refl _) (fun c hc => .inl hc) (fun ref href => .inl href)
  | reopen => exact inv.grow inv.db (.refl _) (fun c hc => .inl hc) (fun ref href => .inl href)

theorem StoreInv.init : StoreInv host limits .init := by
  refine ⟨{ linked := fun link hlink => absurd hlink List.not_mem_nil
            hashed := fun row hrow => absurd hrow List.not_mem_nil
            runs := fun row hrow => absurd hrow List.not_mem_nil
            unique := List.nodup_nil
            digests := fun p hp => absurd hp List.not_mem_nil
            stored := fun row hrow => absurd hrow List.not_mem_nil
            within := fun row hrow => absurd hrow List.not_mem_nil
            budget := fun _ => Nat.zero_le _ },
    fun c hc => absurd hc List.not_mem_nil, fun ref href => absurd href List.not_mem_nil⟩

theorem Reachable.inv {s : Store} (h : Reachable host limits s) : StoreInv host limits s := by
  induction h with
  | init => exact .init
  | step _ hstep ih => exact ih.step hstep

end

/-- the content of a row is stored under its digest, with its size. -/
def Db.HasContent (host : Host) (db : Db) (row : EvidenceRow) (json : String) : Prop :=
  ∃ p ∈ db.payloads, row.payloadId = some p.id ∧ p.valueJson = json ∧
    row.contentHash = some (host.evidenceDigest json) ∧ row.bytes = json.utf8ByteSize

theorem Db.Stores.hasContent {host : Host} {limits : Limits} {db : Db} {row : EvidenceRow}
    {p : Payload} (h : db.Stores row p) (inv : Inv host limits db) :
    db.HasContent host row p.valueJson := by
  obtain ⟨hmem, hid, hhash, hbytes, -⟩ := h
  obtain ⟨hdigest, hsize⟩ := inv.digests p hmem
  exact ⟨p, hmem, hid, rfl, hhash.trans (congrArg some hdigest), hbytes.trans hsize⟩

/-- **The budget of evidence.**  Whenever a store is used: the retained contents of a run, each
counted once, are within its limit; each retained value is within its limit and has its content,
and rows of a run with one hash have one size; a retained reference that was captured stands for a
row with just the content that was captured, and an archived one for a row. -/
theorem evidence_budget (host : Host) (limits : Limits) {s : Store}
    (h : Reachable host limits s) :
    (∀ runId, s.db.budget runId ≤ limits.runLimit) ∧
    (∀ row ∈ s.db.evidence, row.availability.retained = true →
      row.bytes ≤ limits.valueLimit ∧ (∃ json, s.db.HasContent host row json) ∧
      ∀ row' ∈ s.db.evidence, row'.availability.retained = true → row.runId = row'.runId →
        row.contentHash = row'.contentHash → row.bytes = row'.bytes) ∧
    (∀ c ∈ s.captured, c.1.availability.retained = true →
      ∃ row ∈ s.db.evidence, reference row = c.1 ∧ s.db.HasContent host row c.2) ∧
    ∀ ref ∈ s.archived, ∃ row ∈ s.db.evidence, reference row = ref := by
  obtain ⟨inv, hcaptured, harchived⟩ := h.inv
  refine ⟨inv.budget, fun row hrow hret => ?_, fun c hc hret => ?_, harchived⟩
  · obtain ⟨p, hp⟩ := inv.stored row hrow hret
    refine ⟨inv.within row hrow hret, ⟨_, hp.hasContent inv⟩, fun row' hrow' hret' hrun hhash => ?_⟩
    obtain ⟨p', hp'⟩ := inv.stored row' hrow' hret'
    exact hp.same_size inv.unique hp' hrun hhash
  · obtain ⟨row, hrow, href, hstored⟩ := hcaptured c hc
    obtain ⟨p, hp, hjson⟩ := hstored hret
    have hcontent := hp.hasContent inv
    rw [hjson] at hcontent
    exact ⟨row, hrow, href, hcontent⟩

/-! ## two captures of one value -/

/-- a platform where a text is its own JSON and its own digest. -/
def exampleHost : Host :=
  { stringify := fun v => v.getString.getD "null", parse := fun text => some (str text),
    sha256 := fun text => text, env := fun _ => none }

def exampleLimits : Limits := ⟨10, 15⟩

def exampleInput : EvidenceCapture :=
  { runId := "r", stepId := "s", kind := .returned_output, scope := "", value := str "0123456789" }

def exampleAround (id : String) : Surroundings :=
  { prepare := .ok (), credentials := [], scan := false, uncertain := false,
    boundary := fun _ => .ok (str "0123456789", false), exposure := false, refine := .ok (),
    attest := .ok (), preview := fun _ => null, id, payloadId := "p" ++ id, capturedAt := "" }

/-- the store after a capture. -/
def exampleCapture (s : Store) (id : String) : Store :=
  match captureValue exampleHost exampleLimits s.db exampleInput (exampleAround id) with
  | .ok r => s.recorded r
  | .error _ => s

def exampleStore : Store :=
  { Store.init with db := ⟨[⟨"r", none, none⟩], [⟨"s", "r"⟩], [], [], []⟩ }

theorem exampleStore_reachable : Reachable exampleHost exampleLimits exampleStore := by
  have hinit : Reachable exampleHost exampleLimits .init := .init
  have hrun := hinit.step (.createRun ⟨"r", none, none⟩ fun r hr => absurd hr List.not_mem_nil)
  exact hrun.step (Step.createStep ⟨"s", "r"⟩ (fun p hp => absurd hp List.not_mem_nil)
    ⟨⟨"r", none, none⟩, List.mem_singleton_self _, rfl⟩)

theorem exampleCapture_reachable {s : Store} (id : String)
    (h : Reachable exampleHost exampleLimits s) :
    Reachable exampleHost exampleLimits (exampleCapture s id) := by
  unfold exampleCapture
  split
  · rename_i r hr
    exact h.step (.capture exampleInput (exampleAround id) hr)
  · exact h

/-- a value that is captured twice counts once. -/
theorem evidence_budget_twice :
    ((exampleCapture (exampleCapture exampleStore "1") "2").captured.map (·.1.availability) =
        [.complete, .complete]) ∧
      (exampleCapture (exampleCapture exampleStore "1") "2").db.budget "r" ≤ 15 :=
  ⟨by decide +kernel, (evidence_budget exampleHost exampleLimits (exampleCapture_reachable "2"
    (exampleCapture_reachable "1" exampleStore_reachable))).1 "r"⟩

end EvidenceStore
end Pipelines
end WmAutopilot
