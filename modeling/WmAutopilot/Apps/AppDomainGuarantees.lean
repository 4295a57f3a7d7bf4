import Mathlib.Order.Basic
import WmAutopilot.Apps.AppDomains
import WmAutopilot.Async.Schedule
import WmAutopilot.Async.Triple
import WmAutopilot.Js.Segments

/-!
# What the registry of app domains keeps

* `normalize_valid`        a valid hostname is normal;
* `Coherent`, `Valid`      the two maps hold the same records, each hostname once, and may be written
                           and read again (`loaded_stored`);
* `World`, `Orderly`       the registry with its file and its writes; what goes well;
* `Inv`, `registry`        the invariant, and what is asked of an operation;
* `ensureLoaded_spec`      a method goes on when the registry is loaded;
* `domain_registry`        **the maps, the registrations and the file**;
* `late_load`, `lost_write`   a load that comes late, and a write that fails last.
-/

set_option autoImplicit false

namespace WmAutopilot
namespace Apps
namespace Domains
open Js Async

/-! ## names of hosts -/

/-- the characters of hostnames. -/
def IsPlain (c : Char) : Prop := isLabelChar c = true ∨ c = '.'

section
variable {c : Char} {text : List Char}

theorem IsPlain.range (h : IsPlain c) : 45 ≤ c.toNat ∧ c.toNat ≤ 122 ∧ c.toNat ≠ 47 ∧
    c.toNat ≠ 58 := by
  rcases h with h | rfl
  · simp only [isLabelChar, Bool.or_eq_true, Bool.and_eq_true, decide_eq_true_eq, Char.le_def,
      UInt32.le_iff_toNat_le] at h
    have ha : ('a' : Char).val.toNat = 97 := rfl
    have hz : ('z' : Char).val.toNat = 122 := rfl
    have h0 : ('0' : Char).val.toNat = 48 := rfl
    have h9 : ('9' : Char).val.toNat = 57 := rfl
    have hval : c.toNat = c.val.toNat := rfl
    rcases h with (h | h) | rfl
    · omega
    · omega
    · decide
  · decide

theorem IsPlain.not_space (h : IsPlain c) : isSpace c = false := by
  obtain ⟨h₁, h₂, -⟩ := h.range
  rw [isSpace, Bool.or_eq_false_iff]
  constructor
  · refine decide_eq_false fun hmem => ?_
    simp only [List.mem_cons, List.not_mem_nil, or_false] at hmem
    omega
  · rw [Bool.and_eq_false_iff]
    exact Or.inl (decide_eq_false (by omega))

theorem IsPlain.ne_slash (h : IsPlain c) : c ≠ '/' := fun heq =>
  h.range.2.2.1 (congrArg Char.toNat heq)

theorem IsPlain.ne_colon (h : IsPlain c) : c ≠ ':' := fun heq =>
  h.range.2.2.2 (congrArg Char.toNat heq)

/-- a character of a text is in a label, or is a dot. -/
theorem mem_labels (hc : c ∈ text) : c = '.' ∨ ∃ label ∈ text.splitOn '.', c ∈ label := by
  induction text with
  | nil => cases hc
  | cons d text ih =>
    by_cases hd : d = '.'
    · subst hd
      rw [splitOn_cons_self]
      rcases List.mem_cons.mp hc with rfl | hc
      · exact Or.inl rfl
      · exact (ih hc).imp_right fun ⟨label, hlabel, h⟩ => ⟨label, List.mem_cons_of_mem _ hlabel, h⟩
    · rw [splitOn_cons_of_ne hd]
      obtain ⟨y, ys, hy⟩ := exists_splitOn '.' text
      rw [hy] at ih ⊢
      rcases List.mem_cons.mp hc with rfl | hc
      · exact Or.inr ⟨_, List.mem_cons_self, List.mem_cons_self⟩
      · refine (ih hc).imp_right fun ⟨label, hlabel, h⟩ => ?_
        rcases List.mem_cons.mp hlabel with rfl | hlabel
        · exact ⟨_, List.mem_cons_self, List.mem_cons_of_mem _ h⟩
        · exact ⟨label, List.mem_cons_of_mem _ hlabel, h⟩

/-- the last label of a text that ends with a dot is empty. -/
theorem labels_of_dot (h : text.getLast? = some '.') :
    ∃ label labels, text.splitOn '.' = label :: labels ++ [[]] := by
  induction text with
  | nil => cases h
  | cons d text ih =>
    cases text with
    | nil =>
      cases h
      exact ⟨[], [], by decide⟩
    | cons e text =>
      rw [List.getLast?_cons_cons] at h
      obtain ⟨label, labels, heq⟩ := ih h
      by_cases hd : d = '.'
      · subst hd
        exact ⟨[], label :: labels, by rw [splitOn_cons_self, heq]; rfl⟩
      · exact ⟨d :: label, labels, by rw [splitOn_cons_of_ne hd, heq]; rfl⟩

theorem plain_of_valid (h : isValidAppHostname text = true) : ∀ c ∈ text, IsPlain c := by
  simp only [isValidAppHostname, Bool.and_eq_true] at h
  intro c hc
  rcases mem_labels hc with rfl | ⟨label, hlabel, hmem⟩
  · exact Or.inr rfl
  · have hvalid := List.all_eq_true.mp h.2 label hlabel
    simp only [isValidLabel, Bool.and_eq_true] at hvalid
    exact Or.inl (List.all_eq_true.mp hvalid.2 c hmem)

theorem not_ends_with_dot (h : isValidAppHostname text = true) : text.getLast? ≠ some '.' := by
  simp only [isValidAppHostname, Bool.and_eq_true] at h
  intro hlast
  obtain ⟨label, labels, heq⟩ := labels_of_dot hlast
  have hvalid := List.all_eq_true.mp h.2 [] (by simp [heq])
  cases hvalid

end

section
variable {host : Host} {text : List Char} {hostname : String}

theorem trim_plain (h : ∀ c ∈ hostname.toList, IsPlain c) : trim hostname = hostname :=
  trim_of_no_space fun c hc => (h c hc).not_space

theorem before_plain {separator : Char} (h : ∀ c ∈ text, c ≠ separator) :
    before separator text = text :=
  List.takeWhile_eq_self_iff.mpr fun c hc => decide_eq_true (h c hc)

theorem withoutProtocol_plain (h : ∀ c ∈ text, IsPlain c) : withoutProtocol text = text := by
  unfold withoutProtocol
  split
  · exact absurd rfl (h ':' (by simp)).ne_colon
  · exact absurd rfl (h ':' (by simp)).ne_colon
  · rfl

/-- **A valid hostname is normal.** -/
theorem normalize_valid (h : isValidAppHostname hostname.toList = true) :
    normalizeAppHostname host hostname = some hostname := by
  have hplain := plain_of_valid h
  have hne : hostname.toList ≠ [] := by
    intro hnil
    rw [hnil] at h
    cases h
  have hport : withoutPort hostname.toList = hostname.toList := by
    unfold withoutPort
    split
    · rfl
    · exact before_plain fun c hc => (hplain c hc).ne_colon
  have hnormal : withoutDot (withoutPort (before '/' (withoutProtocol hostname.toList))) =
      hostname.toList := by
    rw [withoutProtocol_plain hplain, before_plain fun c hc => (hplain c hc).ne_slash, hport,
      withoutDot, if_neg (not_ends_with_dot h)]
  unfold normalizeAppHostname
  rw [trim_plain hplain, host.lower_plain _ hplain]
  simp only [hnormal]
  rw [if_pos ⟨hne, h⟩, String.ofList_toList]

theorem valid_of_normalize {input : String} (h : normalizeAppHostname host input = some hostname) :
    isValidAppHostname hostname.toList = true := by
  unfold normalizeAppHostname at h
  obtain ⟨⟨-, hvalid⟩, h⟩ := Option.ite_none_right_eq_some.mp h
  cases h
  rw [String.toList_ofList]
  exact hvalid

end

/-! ## the two maps -/

/-- **The two maps hold the same records**, each hostname once. -/
structure Coherent (m : Memory) : Prop where
  unique : (m.byHostname.map (·.hostname)).Nodup
  same : ∀ appId r, r ∈ m.byAppId appId ↔ r ∈ m.byHostname ∧ r.appId = appId

/-- a record that is read again as it was written. -/
def Valid (record : AppDomainRecord) : Prop :=
  isValidAppHostname record.hostname.toList = true ∧ record.appId ≠ ""

section
variable {m : Memory} {record r : AppDomainRecord} {appId hostname : String}

theorem Coherent.eq (h : Coherent m) {r' : AppDomainRecord} (hr : r ∈ m.byHostname)
    (hr' : r' ∈ m.byHostname) (heq : r.hostname = r'.hostname) : r = r' :=
  List.inj_on_of_nodup_map h.unique hr hr' heq

theorem find_some (h : m.find hostname = some r) : r ∈ m.byHostname ∧ r.hostname = hostname :=
  ⟨List.mem_of_find?_eq_some h, by simpa using List.find?_some h⟩

theorem find_none (h : m.find hostname = none) : ∀ r ∈ m.byHostname, r.hostname ≠ hostname :=
  fun r hr => by simpa using List.find?_eq_none.mp h r hr

theorem mem_forget {appId' : String} : r ∈ m.forget appId hostname appId' ↔
    r ∈ m.byAppId appId' ∧ (appId' = appId → r.hostname ≠ hostname) := by
  by_cases happ : appId' = appId
  · subst happ
    simp [Memory.forget]
  · simp [Memory.forget, happ]

theorem displaced_some {previous : AppDomainRecord} (h : m.find record.hostname = some previous) :
    m.displaced record = if previous.appId ≠ record.appId then
      m.forget previous.appId record.hostname else m.byAppId := by
  rw [Memory.displaced, h]

theorem displaced_none (h : m.find record.hostname = none) : m.displaced record = m.byAppId := by
  rw [Memory.displaced, h]

/-- the apps that a hostname has left. -/
theorem mem_displaced (h : Coherent m) (hne : appId ≠ record.appId) :
    r ∈ m.displaced record appId ↔
      (r ∈ m.byHostname ∧ r.appId = appId) ∧ r.hostname ≠ record.hostname := by
  rw [← h.same]
  have hmine : ∀ previous ∈ m.find record.hostname, r ∈ m.byAppId appId →
      r.hostname = record.hostname → previous = r := by
    intro previous hprevious hr hhost
    obtain ⟨hmem, hname⟩ := find_some hprevious
    exact h.eq hmem ((h.same appId r).mp hr).1 (hname.trans hhost.symm)
  cases hfind : m.find record.hostname with
  | some previous =>
    have hprevious : previous ∈ m.find record.hostname := hfind
    rw [displaced_some hfind]
    split
    · rw [mem_forget]
      refine and_congr_right fun hr => ⟨fun hforget hhost => ?_, fun hhost _ => hhost⟩
      obtain rfl := hmine previous hprevious hr hhost
      exact hforget ((h.same appId previous).mp hr).2.symm hhost
    · next hsame =>
      refine ⟨fun hr => ⟨hr, fun hhost => ?_⟩, fun hr => hr.1⟩
      obtain rfl := hmine previous hprevious hr hhost
      exact hne (((h.same appId previous).mp hr).2.symm.trans (not_not.mp hsame))
  | none =>
    rw [displaced_none hfind]
    refine ⟨fun hr => ⟨hr, fun hhost => ?_⟩, fun hr => hr.1⟩
    exact find_none hfind r ((h.same appId r).mp hr).1 hhost

theorem displaced_self : m.displaced record record.appId = m.byAppId record.appId := by
  cases hfind : m.find record.hostname with
  | some previous =>
    rw [displaced_some hfind]
    split
    · next hne => exact Function.update_of_ne (Ne.symm hne) ..
    · rfl
  | none => rw [displaced_none hfind]

theorem mem_setRecord : r ∈ (m.setRecord record).byHostname ↔
    r = record ∨ r ∈ m.byHostname ∧ r.hostname ≠ record.hostname := mem_put

theorem Coherent.setRecord (h : Coherent m) : Coherent (m.setRecord record) where
  unique := nodup_put h.unique
  same appId r := by
    rw [mem_setRecord]
    by_cases happ : appId = record.appId
    · subst happ
      have hput : (m.setRecord record).byAppId record.appId =
          put (·.hostname) (m.byAppId record.appId) record := by
        show Function.update _ _ _ _ = _
        rw [Function.update_self, displaced_self]
      rw [hput, mem_put, h.same]
      constructor
      · rintro (rfl | ⟨⟨hr, happ⟩, hne⟩)
        · exact ⟨Or.inl rfl, rfl⟩
        · exact ⟨Or.inr ⟨hr, hne⟩, happ⟩
      · rintro ⟨rfl | ⟨hr, hne⟩, happ⟩
        · exact Or.inl rfl
        · exact Or.inr ⟨⟨hr, happ⟩, hne⟩
    · have hother : (m.setRecord record).byAppId appId = m.displaced record appId :=
        Function.update_of_ne happ ..
      rw [hother, mem_displaced h happ]
      constructor
      · rintro ⟨⟨hr, hmine⟩, hne⟩
        exact ⟨Or.inr ⟨hr, hne⟩, hmine⟩
      · rintro ⟨rfl | ⟨hr, hne⟩, hmine⟩
        · exact absurd hmine.symm happ
        · exact ⟨⟨hr, hmine⟩, hne⟩

theorem mem_remove {existing : AppDomainRecord} : r ∈ (m.remove existing).byHostname ↔
    r ∈ m.byHostname ∧ r.hostname ≠ existing.hostname := by
  simp [Memory.remove]

theorem Coherent.remove (h : Coherent m) {existing : AppDomainRecord}
    (hexisting : existing ∈ m.byHostname) : Coherent (m.remove existing) where
  unique := h.unique.sublist (List.filter_sublist.map _)
  same appId r := by
    show r ∈ m.forget existing.appId existing.hostname appId ↔ _
    rw [mem_remove, mem_forget, h.same]
    constructor
    · rintro ⟨⟨hr, happ⟩, hforget⟩
      refine ⟨⟨hr, fun hhost => ?_⟩, happ⟩
      obtain rfl := h.eq hr hexisting hhost
      exact hforget happ.symm rfl
    · rintro ⟨⟨hr, hne⟩, happ⟩
      exact ⟨⟨hr, happ⟩, fun _ => hne⟩

theorem mem_removeApp (h : Coherent m) : r ∈ (m.removeApp appId).byHostname ↔
    r ∈ m.byHostname ∧ r.appId ≠ appId := by
  show r ∈ m.byHostname.filter _ ↔ _
  rw [List.mem_filter]
  refine and_congr_right fun hr => ?_
  rw [decide_eq_true_iff, not_iff_not, List.mem_map]
  constructor
  · rintro ⟨other, hother, hhost⟩
    obtain ⟨hmem, happ⟩ := (h.same appId other).mp hother
    rwa [← h.eq hmem hr hhost]
  · exact fun happ => ⟨r, (h.same appId r).mpr ⟨hr, happ⟩, rfl⟩

theorem Coherent.removeApp (h : Coherent m) : Coherent (m.removeApp appId) where
  unique := h.unique.sublist (List.filter_sublist.map _)
  same other r := by
    rw [mem_removeApp h]
    by_cases happ : other = appId
    · subst happ
      have hnone : (m.removeApp other).byAppId other = [] := Function.update_self ..
      rw [hnone]
      exact ⟨fun hr => absurd hr List.not_mem_nil, fun hr => absurd hr.2 hr.1.2⟩
    · have hother : (m.removeApp appId).byAppId other = m.byAppId other :=
        Function.update_of_ne happ ..
      rw [hother, h.same]
      exact ⟨fun hr => ⟨⟨hr.1, fun heq => happ (hr.2.symm.trans heq)⟩, hr.2⟩,
        fun hr => ⟨hr.1.1, hr.2⟩⟩

theorem Coherent.empty : Coherent {} where
  unique := List.nodup_nil
  same _ _ := ⟨fun h => absurd h List.not_mem_nil, fun h => absurd h.1 List.not_mem_nil⟩

end

/-! ## loads -/

section
variable {host : Host} {now : String} {records : List AppDomainRecord}

theorem foldl_setRecord (m : Memory) : (records.foldl Memory.setRecord m).byHostname =
    records.foldl (put (·.hostname)) m.byHostname := by
  induction records generalizing m with
  | nil => rfl
  | cons record records ih => exact ih _

theorem coherent_foldl {m : Memory} (h : Coherent m) :
    Coherent (records.foldl Memory.setRecord m) := by
  induction records generalizing m with
  | nil => exact h
  | cons record records ih => exact ih h.setRecord

theorem loaded_coherent (domains : List StoredRecord) : Coherent (loaded host now domains) :=
  coherent_foldl .empty

theorem readRecord_stored {record : AppDomainRecord} (h : Valid record) :
    readRecord host now record.stored = some record := by
  have happ : (some record.appId).filter (· ≠ "") = some record.appId := by simp [h.2]
  unfold readRecord AppDomainRecord.stored
  simp only [Option.bind_some, normalize_valid h.1, happ, Option.bind_eq_bind]
  rfl

theorem readRecord_valid {stored : StoredRecord} {record : AppDomainRecord}
    (h : readRecord host now stored = some record) : Valid record := by
  unfold readRecord at h
  obtain ⟨hostname, hhost, h⟩ := Option.bind_eq_some_iff.mp h
  obtain ⟨appId, happ, h⟩ := Option.bind_eq_some_iff.mp h
  obtain ⟨input, -, hnormal⟩ := Option.bind_eq_some_iff.mp hhost
  cases h
  exact ⟨valid_of_normalize hnormal, of_decide_eq_true (Option.filter_eq_some_iff.mp happ).2⟩

theorem valid_foldl {m : Memory} (hm : ∀ r ∈ m.byHostname, Valid r) (h : ∀ r ∈ records, Valid r) :
    ∀ r ∈ (records.foldl Memory.setRecord m).byHostname, Valid r := by
  induction records generalizing m with
  | nil => exact hm
  | cons record records ih =>
    refine ih (fun r hr => ?_) fun r hr => h r (List.mem_cons_of_mem _ hr)
    rcases mem_setRecord.mp hr with rfl | ⟨hr, -⟩
    · exact h r List.mem_cons_self
    · exact hm r hr

theorem loaded_valid (domains : List StoredRecord) :
    ∀ r ∈ (loaded host now domains).byHostname, Valid r := by
  refine valid_foldl (fun r hr => absurd hr List.not_mem_nil) fun r hr => ?_
  obtain ⟨stored, -, hread⟩ := List.mem_filterMap.mp hr
  exact readRecord_valid hread

/-- **What is written is read again.** -/
theorem loaded_stored (hunique : (records.map (·.hostname)).Nodup) (h : ∀ r ∈ records, Valid r) :
    (loaded host now (records.map (·.stored))).byHostname = records := by
  have hread : (records.map (·.stored)).filterMap (readRecord host now) = records := by
    rw [List.filterMap_map]
    refine (List.filterMap_congr fun r hr => ?_).trans List.filterMap_some
    exact readRecord_stored (h r hr)
  rw [loaded, hread, foldl_setRecord]
  exact foldl_put hunique

theorem mem_snapshot {m : Memory} {r : AppDomainRecord} :
    r ∈ snapshot host m ↔ r ∈ m.byHostname := (List.perm_insertionSort _ _).mem_iff

theorem snapshot_unique {m : Memory} (h : Coherent m) :
    ((snapshot host m).map (·.hostname)).Nodup :=
  ((List.perm_insertionSort _ _).map _).nodup_iff.mpr h.unique

end

/-! ## the registry -/

structure World where
  file : FileContent
  memory : Memory := {}
  isLoaded : Bool := false
  /-- the writes that are not settled, first one first. -/
  queue : List (ℕ × List AppDomainRecord) := []
  settled : ℕ → Option (Except Failure Unit) := fun _ => none
  next : ℕ := 0
  /-- what was loaded first, as the operations since have changed it. -/
  truth : List AppDomainRecord := []
  /-- the registrations, each with what was registered before it. -/
  registrations : List (AppDomainRecord × List AppDomainRecord) := []

section
variable (host : Host)

/-- the records that a load at a time makes of a file. -/
def fileRecords (now : String) : FileContent → List AppDomainRecord
  | .records domains => (loaded host now domains).byHostname
  | _ => []

namespace World

/-- nothing is loaded, and nothing is written. -/
def Initial (w : World) : Prop := ∃ file, w = { file }

/-- the write of the maps is queued. -/
def enqueue (w : World) : World :=
  { w with queue := w.queue ++ [(w.next, snapshot host w.memory)], next := w.next + 1 }

def setLoaded (w : World) (memory : Memory) : World :=
  { w with
    memory := memory
    isLoaded := true
    truth := if w.isLoaded then w.truth else memory.byHostname }

def clear (w : World) : World := ({ w with memory := {} } : World).enqueue host

def register (w : World) (hostname appId : String) (input : DomainInput) (now : String) :
    Except Failure (AppDomainRecord × ℕ) × World :=
  match registered w.memory hostname appId input now with
  | .error e => (.error e, w)
  | .ok record => (.ok (record, w.next), ({ w with
      memory := w.memory.setRecord record
      truth := put (·.hostname) w.truth record
      registrations := (record, w.truth) :: w.registrations } : World).enqueue host)

def update (w : World) (hostname : String) (input : DomainInput) (now : String) :
    Except Failure (AppDomainRecord × ℕ) × World :=
  match updated w.memory hostname input now with
  | .error e => (.error e, w)
  | .ok record => (.ok (record, w.next), ({ w with
      memory := w.memory.setRecord record
      truth := put (·.hostname) w.truth record } : World).enqueue host)

def remove (w : World) (hostname : String) : Option ℕ × World :=
  match w.memory.find hostname with
  | none => (none, w)
  | some existing => (some w.next, ({ w with
      memory := w.memory.remove existing
      truth := w.truth.filter fun record => record.hostname ≠ hostname } : World).enqueue host)

def removeApp (w : World) (appId : String) : Option (ℕ × ℕ) × World :=
  if w.memory.byAppId appId = [] then (none, w)
  else (some (w.next, (w.memory.byAppId appId).length), ({ w with
      memory := w.memory.removeApp appId
      truth := w.truth.filter fun record => record.appId ≠ appId } : World).enqueue host)

/-- the first write of the queue is settled. -/
def settle (w : World) (write : ℕ) (queue : List (ℕ × List AppDomainRecord))
    (result : Except Failure Unit) : World :=
  { w with queue := queue, settled := Function.update w.settled write (some result) }

end World

/-- What an operation does: a read or a write may fail, and a method waits until its write is
settled. -/
inductive Performs : (o : Op) → World → o.Ans → World → Prop where
  | isLoaded (w : World) : Performs .isLoaded w w.isLoaded w
  | readAbsent (w : World) (hfile : w.file = .absent) : Performs .read w (.error .enoent) w
  | readOther (w : World) (hfile : w.file = .other) : Performs .read w (.ok none) w
  | read (domains : List StoredRecord) (w : World) (hfile : w.file = .records domains) :
      Performs .read w (.ok (some domains)) w
  | readFails (message : String) (w : World) : Performs .read w (.error (.other message)) w
  | fill (domains : List StoredRecord) (now : String) (w : World) :
      Performs (.fill domains) w () (w.setLoaded (loaded host now domains))
  | clear (w : World) : Performs .clear w w.next (w.clear host)
  | persist (w : World) : Performs .persist w w.next (w.enqueue host)
  | settled (write : ℕ) (result : Except Failure Unit) (w : World)
      (h : w.settled write = some result) : Performs (.settled write) w result w
  | setLoaded (w : World) : Performs .setLoaded w () (w.setLoaded w.memory)
  | look (w : World) : Performs .look w w.memory w
  | register (hostname appId : String) (input : DomainInput) (now : String) (w : World) :
      Performs (.register hostname appId input) w (w.register host hostname appId input now).1
        (w.register host hostname appId input now).2
  | update (hostname : String) (input : DomainInput) (now : String) (w : World) :
      Performs (.update hostname input) w (w.update host hostname input now).1
        (w.update host hostname input now).2
  | remove (hostname : String) (w : World) :
      Performs (.remove hostname) w (w.remove host hostname).1 (w.remove host hostname).2
  | removeApp (appId : String) (w : World) :
      Performs (.removeApp appId) w (w.removeApp host appId).1 (w.removeApp host appId).2
  | write (id : ℕ) (payload : List AppDomainRecord) (queue : List (ℕ × List AppDomainRecord))
      (w : World) (hqueue : w.queue = (id, payload) :: queue) :
      Performs .write w (.ok ())
        ({ w with file := .records (payload.map AppDomainRecord.stored) }.settle id queue (.ok ()))
  | writeFails (e : Failure) (id : ℕ) (payload : List AppDomainRecord)
      (queue : List (ℕ × List AppDomainRecord)) (w : World)
      (hqueue : w.queue = (id, payload) :: queue) :
      Performs .write w (.error e) (w.settle id queue (.error e))

inductive Spawn : Prog api Unit → Prop where
  | read : Spawn read.detach
  | registerDomain (hostname appId : String) (input : DomainInput) :
      Spawn (registerDomain host hostname appId input).detach
  | updateDomain (hostname : String) (input : DomainInput) :
      Spawn (updateDomain host hostname input).detach
  | removeDomain (hostname : String) : Spawn (removeDomain host hostname).detach
  | removeByAppId (appId : String) : Spawn (removeByAppId appId).detach
  | write : Spawn (.call .write fun _ => .ret ())

/-- **What goes well**: a load that comes when another one has ended finds the records of the maps,
and a write fails only when another one is queued, or when the file holds what it would have
written. -/
def Orderly (w : World) : (o : Op) → o.Ans → Prop
  | .fill domains, _ => w.isLoaded = true →
      ∀ now r, r ∈ (loaded host now domains).byHostname ↔ r ∈ w.memory.byHostname
  | .clear, _ => w.isLoaded = true → w.memory.byHostname = []
  | .write, .error _ => w.queue.tail ≠ [] ∨
      ∃ now, ∀ write ∈ w.queue.head?, ∀ r, r ∈ fileRecords host now w.file ↔ r ∈ write.2
  | _, _ => True

/-- The registry in one process; `calm`: all goes well.  A crash leaves the file. -/
def system (calm : Prop) : System api World where
  perform _ o w r w' := Performs host o w r w' ∧ (calm → Orderly host w o r)
  spawn _ _ p := Spawn host p
  crash w w' := w' = { w with memory := {}, isLoaded := false, queue := [] }

end

/-! ## the invariant -/

/-- every load finds nothing. -/
def Blank (host : Host) (file : FileContent) : Prop := ∀ now, fileRecords host now file = []

/-- the writes lead to the records of the maps. -/
structure Stored (host : Host) (w : World) : Prop where
  queued : ∀ write ∈ w.queue.getLast?, ∀ r, r ∈ write.2 ↔ r ∈ w.memory.byHostname
  written : w.queue = [] → ∃ now, ∀ r, r ∈ fileRecords host now w.file ↔ r ∈ w.memory.byHostname

/-- nothing was loaded. -/
structure Fresh (host : Host) (w : World) : Prop where
  memory : w.memory.byHostname = []
  payloads : ∀ write ∈ w.queue, write.2 = []
  blank : w.queue ≠ [] → Blank host w.file

/-- The invariant.  See the file header. -/
structure Inv (host : Host) (calm : Prop) (w : World) : Prop where
  coherent : Coherent w.memory
  valid : ∀ r ∈ w.memory.byHostname, Valid r
  payloads : ∀ write ∈ w.queue, (write.2.map (·.hostname)).Nodup ∧ ∀ r ∈ write.2, Valid r
  fresh : w.isLoaded = false → Fresh host w
  kept : calm → w.isLoaded = true → ∀ r, r ∈ w.memory.byHostname ↔ r ∈ w.truth
  entitled : calm → ∀ x ∈ w.registrations, ∀ r ∈ x.2, r.hostname = x.1.hostname →
    r.appId = x.1.appId
  stored : calm → w.isLoaded = true → Stored host w

/-- what is asked of an operation. -/
def May (host : Host) : Op → World → Prop
  | .fill domains, w => w.isLoaded = false →
      ∀ now, fileRecords host now (.records domains) = fileRecords host now w.file
  | .clear, w | .persist, w | .setLoaded, w => w.isLoaded = false → Blank host w.file
  | .register hostname appId _, w => w.isLoaded = true ∧
      isValidAppHostname hostname.toList = true ∧ appId ≠ ""
  | .update .., w | .remove _, w | .removeApp _, w => w.isLoaded = true
  | _, _ => True

/-- the discipline of the registry. -/
def registry (host : Host) (calm : Prop) : Discipline api World :=
  { toSystem := system host calm, Inv := Inv host calm, may := fun _ => May host }

section
variable {host : Host} {calm : Prop} {w w' : World} {m : Memory} {κ : ℕ}

theorem snapshot_of_nil (h : m.byHostname = []) : snapshot host m = [] := by
  rw [snapshot, h]
  rfl

/-- **A write is queued**, after a change of the maps. -/
theorem Inv.enqueue (hi : Inv host calm w) (hm : Coherent m) (hvalid : ∀ r ∈ m.byHostname, Valid r)
    {truth : List AppDomainRecord} {registrations : List (AppDomainRecord × List AppDomainRecord)}
    (hfresh : w.isLoaded = false → m.byHostname = [] ∧ Blank host w.file)
    (hkept : calm → w.isLoaded = true → ∀ r, r ∈ m.byHostname ↔ r ∈ truth)
    (hentitled : calm → ∀ x ∈ registrations, ∀ r ∈ x.2, r.hostname = x.1.hostname →
      r.appId = x.1.appId) :
    Inv host calm (({ w with memory := m, truth, registrations } : World).enqueue host) where
  coherent := hm
  valid := hvalid
  payloads write hwrite := by
    rcases List.mem_append.mp hwrite with hwrite | hwrite
    · exact hi.payloads write hwrite
    · rw [List.mem_singleton.mp hwrite]
      exact ⟨snapshot_unique hm, fun r hr => hvalid r (mem_snapshot.mp hr)⟩
  fresh hloaded := by
    obtain ⟨hnil, hblank⟩ := hfresh hloaded
    refine ⟨hnil, fun write hwrite => ?_, fun _ => hblank⟩
    rcases List.mem_append.mp hwrite with hwrite | hwrite
    · exact (hi.fresh hloaded).payloads write hwrite
    · rw [List.mem_singleton.mp hwrite]
      exact snapshot_of_nil hnil
  kept := hkept
  entitled := hentitled
  stored _ _ := by
    refine ⟨fun write hwrite r => ?_, fun hnil => absurd hnil (by simp [World.enqueue])⟩
    have hlast : (w.queue ++ [(w.next, snapshot host m)]).getLast? = some write := hwrite
    rw [List.getLast?_concat] at hlast
    cases hlast
    exact mem_snapshot

/-- a change of the maps when they are loaded. -/
theorem Inv.change (hi : Inv host calm w) (hloaded : w.isLoaded = true) (hm : Coherent m)
    (hvalid : ∀ r ∈ m.byHostname, Valid r) {truth : List AppDomainRecord}
    {registrations : List (AppDomainRecord × List AppDomainRecord)}
    (hkept : calm → ∀ r, r ∈ m.byHostname ↔ r ∈ truth)
    (hentitled : calm → ∀ x ∈ registrations, ∀ r ∈ x.2, r.hostname = x.1.hostname →
      r.appId = x.1.appId) :
    Inv host calm (({ w with memory := m, truth, registrations } : World).enqueue host) :=
  hi.enqueue hm hvalid (fun hfresh => absurd (hloaded.symm.trans hfresh) (by decide))
    (fun hcalm _ => hkept hcalm) hentitled

/-- the maps that a record is put into hold what was there and the record. -/
theorem valid_setRecord {record : AppDomainRecord} (hm : ∀ r ∈ m.byHostname, Valid r)
    (hrecord : Valid record) : ∀ r ∈ (m.setRecord record).byHostname, Valid r := by
  intro r hr
  rcases mem_setRecord.mp hr with rfl | ⟨hr, -⟩
  · exact hrecord
  · exact hm r hr

theorem kept_setRecord {record : AppDomainRecord} {truth : List AppDomainRecord}
    (h : ∀ r, r ∈ m.byHostname ↔ r ∈ truth) :
    ∀ r, r ∈ (m.setRecord record).byHostname ↔ r ∈ put (·.hostname) truth record := by
  intro r
  rw [mem_setRecord, mem_put, h]

theorem registered_ok {hostname appId now : String} {input : DomainInput}
    {record : AppDomainRecord} (h : registered m hostname appId input now = .ok record) :
    record.hostname = hostname ∧ record.appId = appId ∧
      ∀ r ∈ m.find hostname, r.appId = appId := by
  obtain ⟨_, hconflict, h⟩ := bind_ok.mp h
  cases h
  refine ⟨rfl, rfl, fun r hr => ?_⟩
  have hconflict := throwIf_ok.mp hconflict
  push Not at hconflict
  exact hconflict r hr

theorem Inv.register (hi : Inv host calm w) {hostname appId now : String} {input : DomainInput}
    (hloaded : w.isLoaded = true) (hhost : isValidAppHostname hostname.toList = true)
    (happ : appId ≠ "") : Inv host calm (w.register host hostname appId input now).2 := by
  unfold World.register
  split
  · exact hi
  · next record hrecord =>
    obtain ⟨rfl, rfl, hmine⟩ := registered_ok hrecord
    refine hi.change hloaded hi.coherent.setRecord (valid_setRecord hi.valid ⟨hhost, happ⟩)
      (fun hcalm => kept_setRecord (hi.kept hcalm hloaded)) fun hcalm x hx r hr heq => ?_
    rcases List.mem_cons.mp hx with rfl | hx
    · have hmem : r ∈ w.memory.byHostname := (hi.kept hcalm hloaded r).mpr hr
      cases hfind : w.memory.find record.hostname with
      | none => exact absurd heq (find_none hfind r hmem)
      | some r' =>
        obtain ⟨hmem', hname⟩ := find_some hfind
        rw [hi.coherent.eq hmem hmem' (heq.trans hname.symm)]
        exact hmine r' hfind
    · exact hi.entitled hcalm x hx r hr heq

theorem updated_ok {hostname now : String} {input : DomainInput} {record : AppDomainRecord}
    (h : updated m hostname input now = .ok record) :
    ∃ r ∈ m.byHostname, record.hostname = r.hostname ∧ record.appId = r.appId := by
  obtain ⟨existing, hfind, h⟩ := bind_ok.mp h
  cases h
  exact ⟨existing, (find_some (orThrow_ok.mp hfind)).1, rfl, rfl⟩

theorem Inv.update (hi : Inv host calm w) {hostname now : String} {input : DomainInput}
    (hloaded : w.isLoaded = true) : Inv host calm (w.update host hostname input now).2 := by
  unfold World.update
  split
  · exact hi
  · next record hrecord =>
    obtain ⟨r, hr, hhost, happ⟩ := updated_ok hrecord
    have hvalid : Valid record := by
      rw [Valid, hhost, happ]
      exact hi.valid r hr
    exact hi.change hloaded hi.coherent.setRecord (valid_setRecord hi.valid hvalid)
      (fun hcalm => kept_setRecord (hi.kept hcalm hloaded)) hi.entitled

theorem Inv.remove (hi : Inv host calm w) {hostname : String} (hloaded : w.isLoaded = true) :
    Inv host calm (w.remove host hostname).2 := by
  unfold World.remove
  split
  · exact hi
  · next existing hfind =>
    obtain ⟨hmem, rfl⟩ := find_some hfind
    refine hi.change hloaded (hi.coherent.remove hmem)
      (fun r hr => hi.valid r (mem_remove.mp hr).1) (fun hcalm r => ?_) hi.entitled
    rw [mem_remove, List.mem_filter, hi.kept hcalm hloaded, decide_eq_true_iff]

theorem Inv.removeApp (hi : Inv host calm w) {appId : String} (hloaded : w.isLoaded = true) :
    Inv host calm (w.removeApp host appId).2 := by
  unfold World.removeApp
  split
  · exact hi
  · refine hi.change hloaded hi.coherent.removeApp
      (fun r hr => hi.valid r ((mem_removeApp hi.coherent).mp hr).1) (fun hcalm r => ?_) hi.entitled
    rw [mem_removeApp hi.coherent, List.mem_filter, hi.kept hcalm hloaded, decide_eq_true_iff]

/-- the last write of a queue that is not loaded. -/
theorem Fresh.queued (h : Fresh host w) :
    ∀ write ∈ w.queue.getLast?, ∀ r, r ∈ write.2 ↔ r ∈ w.memory.byHostname := by
  intro write hwrite r
  rw [h.payloads write (List.mem_of_getLast? hwrite), h.memory]

/-- **A load ends.** -/
theorem Inv.setLoaded (hi : Inv host calm w) (hm : Coherent m) (hvalid : ∀ r ∈ m.byHostname, Valid r)
    (hsame : calm → w.isLoaded = true → ∀ r, r ∈ m.byHostname ↔ r ∈ w.memory.byHostname)
    (hfirst : w.isLoaded = false → (w.queue ≠ [] → m.byHostname = []) ∧
      ∃ now, ∀ r, r ∈ fileRecords host now w.file ↔ r ∈ m.byHostname) :
    Inv host calm (w.setLoaded m) where
  coherent := hm
  valid := hvalid
  payloads := hi.payloads
  fresh h := nomatch h
  kept hcalm _ r := by
    show r ∈ m.byHostname ↔ r ∈ if w.isLoaded then w.truth else m.byHostname
    split
    · next hloaded => rw [hsame hcalm hloaded, hi.kept hcalm hloaded]
    · rfl
  entitled := hi.entitled
  stored hcalm _ := by
    cases hloaded : w.isLoaded with
    | true =>
      obtain ⟨hqueued, hwritten⟩ := hi.stored hcalm hloaded
      refine ⟨fun write hwrite r => ?_, fun hnil => ?_⟩
      · exact (hqueued write hwrite r).trans (hsame hcalm hloaded r).symm
      · obtain ⟨now, hnow⟩ := hwritten hnil
        exact ⟨now, fun r => (hnow r).trans (hsame hcalm hloaded r).symm⟩
    | false =>
      obtain ⟨hempty, hfile⟩ := hfirst hloaded
      refine ⟨fun write hwrite r => ?_, fun _ => hfile⟩
      have hfresh := hi.fresh hloaded
      have hne : w.queue ≠ [] := fun hnil => by
        rw [show (w.setLoaded m).queue = w.queue from rfl, hnil] at hwrite
        cases hwrite
      show r ∈ write.2 ↔ r ∈ m.byHostname
      rw [hfresh.queued write hwrite, hfresh.memory, hempty hne]

theorem Inv.clear (hi : Inv host calm w) (hmay : May host .clear w)
    (hcalm : calm → Orderly host w .clear w.next) : Inv host calm (w.clear host) := by
  refine hi.enqueue Coherent.empty (fun r hr => absurd hr List.not_mem_nil)
    (fun hfresh => ⟨rfl, hmay hfresh⟩) (fun hc hloaded r => ?_) hi.entitled
  rw [← hi.kept hc hloaded, hcalm hc hloaded]

theorem Inv.persist (hi : Inv host calm w) (hmay : May host .persist w) :
    Inv host calm (w.enqueue host) :=
  hi.enqueue hi.coherent hi.valid (fun hfresh => ⟨(hi.fresh hfresh).memory, hmay hfresh⟩) hi.kept
    hi.entitled

/-- **A load of the records of the file.** -/
theorem Inv.fill (hi : Inv host calm w) {domains : List StoredRecord} {now : String}
    (hmay : May host (.fill domains) w) (hcalm : calm → Orderly host w (.fill domains) ()) :
    Inv host calm (w.setLoaded (loaded host now domains)) := by
  refine hi.setLoaded (loaded_coherent domains) (loaded_valid domains)
    (fun hc hloaded => hcalm hc hloaded now) fun hfresh => ⟨fun hne => ?_, now, fun r => ?_⟩
  · exact (hmay hfresh now).trans ((hi.fresh hfresh).blank hne now)
  · rw [← hmay hfresh now]
    rfl

theorem Inv.setLoaded_same (hi : Inv host calm w) (hmay : May host .setLoaded w) :
    Inv host calm (w.setLoaded w.memory) := by
  refine hi.setLoaded hi.coherent hi.valid (fun _ _ _ => Iff.rfl) fun hfresh => ?_
  have hnil := (hi.fresh hfresh).memory
  refine ⟨fun _ => hnil, "", fun r => ?_⟩
  rw [hmay hfresh, hnil]

/-- **A write that succeeds.** -/
theorem Inv.write (hi : Inv host calm w) {id : ℕ} {payload : List AppDomainRecord}
    {queue : List (ℕ × List AppDomainRecord)} (hqueue : w.queue = (id, payload) :: queue) :
    Inv host calm ({ w with file := .records (payload.map AppDomainRecord.stored) }.settle id queue
      (.ok ())) := by
  have hmem : ∀ write ∈ queue, write ∈ w.queue := fun write h => hqueue ▸ List.mem_cons_of_mem _ h
  have hhead : (id, payload) ∈ w.queue := hqueue ▸ List.mem_cons_self
  have hfile : ∀ now, fileRecords host now (.records (payload.map AppDomainRecord.stored)) =
      payload := fun now => loaded_stored (hi.payloads _ hhead).1 (hi.payloads _ hhead).2
  refine ⟨hi.coherent, hi.valid, fun write h => hi.payloads write (hmem write h), fun hfresh => ?_,
    hi.kept, hi.entitled, fun hcalm hloaded => ?_⟩
  · have h := hi.fresh hfresh
    refine ⟨h.memory, fun write hw => h.payloads write (hmem write hw), fun _ now => ?_⟩
    exact (hfile now).trans (h.payloads _ hhead)
  · have hqueued := (hi.stored hcalm hloaded).queued
    rw [hqueue] at hqueued
    refine ⟨fun write hw => ?_, fun hnil => ⟨"", fun r => ?_⟩⟩
    · cases queue with
      | nil => cases hw
      | cons first rest => exact hqueued write (by rw [List.getLast?_cons_cons]; exact hw)
    · obtain rfl : queue = [] := hnil
      show r ∈ fileRecords host "" (.records (payload.map AppDomainRecord.stored)) ↔
        r ∈ w.memory.byHostname
      rw [hfile]
      exact hqueued _ rfl r

/-- **A write that fails**, when another one is queued or nothing is lost. -/
theorem Inv.writeFails (hi : Inv host calm w) {id : ℕ} {payload : List AppDomainRecord}
    {queue : List (ℕ × List AppDomainRecord)} {e : Failure}
    (hqueue : w.queue = (id, payload) :: queue)
    (hcalm : calm → Orderly host w .write (.error e)) :
    Inv host calm (w.settle id queue (.error e)) := by
  have hmem : ∀ write ∈ queue, write ∈ w.queue := fun write h => hqueue ▸ List.mem_cons_of_mem _ h
  refine ⟨hi.coherent, hi.valid, fun write h => hi.payloads write (hmem write h), fun hfresh => ?_,
    hi.kept, hi.entitled, fun hc hloaded => ?_⟩
  · have h := hi.fresh hfresh
    exact ⟨h.memory, fun write hw => h.payloads write (hmem write hw),
      fun _ => h.blank (by simp [hqueue])⟩
  · have hqueued := (hi.stored hc hloaded).queued
    have horderly := hcalm hc
    unfold Orderly at horderly
    rw [hqueue] at hqueued horderly
    refine ⟨fun write hw => ?_, fun hnil => ?_⟩
    · cases queue with
      | nil => cases hw
      | cons first rest => exact hqueued write (by rw [List.getLast?_cons_cons]; exact hw)
    · obtain rfl : queue = [] := hnil
      rcases horderly with hne | ⟨now, hsame⟩
      · exact absurd rfl hne
      · exact ⟨now, fun r => (hsame _ rfl r).trans (hqueued _ rfl r)⟩

/-- **One operation** that is permitted keeps the invariant. -/
theorem registry_perform {o : Op} {r : o.Ans} (hi : (registry host calm).Inv w)
    (hmay : (registry host calm).may κ o w) (ho : (registry host calm).perform κ o w r w') :
    (registry host calm).Inv w' := by
  have hi : Inv host calm w := hi
  obtain ⟨ho, hcalm⟩ := ho
  cases ho with
  | isLoaded | readAbsent | readOther | read | readFails | settled | look => exact hi
  | fill domains now => exact hi.fill hmay hcalm
  | clear => exact hi.clear hmay hcalm
  | persist => exact hi.persist hmay
  | setLoaded => exact hi.setLoaded_same hmay
  | register hostname appId input now => exact hi.register hmay.1 hmay.2.1 hmay.2.2
  | update hostname input now => exact hi.update hmay
  | remove hostname => exact hi.remove hmay
  | removeApp appId => exact hi.removeApp hmay
  | write id payload queue _ hqueue => exact hi.write hqueue
  | writeFails e id payload queue _ hqueue => exact hi.writeFails hqueue hcalm

/-! ## what is asked of a method -/

/-- **What a load finds** does not change before a load has ended. -/
theorem unloaded_same {o : Op} {r : o.Ans} (hi : Inv host calm w) (ho : Performs host o w r w')
    (hloaded : w'.isLoaded = false) :
    w.isLoaded = false ∧ ∀ now, fileRecords host now w'.file = fileRecords host now w.file := by
  cases ho with
  | isLoaded | readAbsent | readOther | read | readFails | settled | look | clear | persist
  | writeFails => exact ⟨hloaded, fun _ => rfl⟩
  | fill | setLoaded => cases hloaded
  | register | update | remove | removeApp =>
    revert hloaded
    simp only [World.register, World.update, World.remove, World.removeApp]
    split <;> exact fun hloaded => ⟨hloaded, fun _ => rfl⟩
  | write id payload queue _ hqueue =>
    have hhead : (id, payload) ∈ w.queue := hqueue ▸ List.mem_cons_self
    have hfresh := hi.fresh hloaded
    refine ⟨hloaded, fun now => ?_⟩
    have hempty : payload = [] := hfresh.payloads _ hhead
    rw [hfresh.blank (by simp [hqueue]) now]
    subst hempty
    rfl

/-- before a load has ended, loads find nothing. -/
def Empty (host : Host) (w : World) : Prop := w.isLoaded = false → Blank host w.file

/-- before a load has ended, loads find these records. -/
def Found (host : Host) (domains : List StoredRecord) (w : World) : Prop :=
  w.isLoaded = false → ∀ now, fileRecords host now (.records domains) = fileRecords host now w.file

theorem stable_any : Stable (registry host calm) κ Any := Stable.const True

theorem stable_loaded : Stable (registry host calm) κ fun w => w.isLoaded = true := by
  rintro w w' hloaded ⟨κ', o, r, -, hi, -, ho, -⟩
  cases hloaded' : w'.isLoaded with
  | true => rfl
  | false => exact absurd (hloaded.symm.trans (unloaded_same hi ho hloaded').1) (by decide)

theorem stable_empty : Stable (registry host calm) κ (Empty host) := by
  rintro w w' h ⟨κ', o, r, -, hi, -, ho, -⟩ hloaded' now
  obtain ⟨hloaded, hsame⟩ := unloaded_same hi ho hloaded'
  rw [hsame, h hloaded]

theorem stable_found {domains : List StoredRecord} :
    Stable (registry host calm) κ (Found host domains) := by
  rintro w w' h ⟨κ', o, r, -, hi, -, ho, -⟩ hloaded' now
  obtain ⟨hloaded, hsame⟩ := unloaded_same hi ho hloaded'
  rw [hsame, h hloaded]

theorem setLoaded_spec {E : Failure → World → Prop} : Triple (registry host calm) κ (Empty host)
    (Exc.op (A := api) Op.setLoaded) (fun _ w => w.isLoaded = true) E := by
  refine Triple.op stable_empty (fun _ _ h => h) fun w _ w' _ _ ho _ => ?_
  obtain ⟨ho, -⟩ := ho
  cases ho
  rfl

theorem settle_spec {write : ℕ} : Triple (registry host calm) κ (Empty host) (settle write)
    (fun _ => Empty host) fun _ => Empty host := by
  refine Triple.tryOp stable_empty (fun _ _ _ => trivial) (fun w r w' _ _ h ho _ _ => ?_)
    fun w r w' _ _ h ho _ _ => ?_
  all_goals
    obtain ⟨ho, -⟩ := ho
    cases ho
    exact h

theorem create_spec : Triple (registry host calm) κ (Empty host) create
    (fun _ w => w.isLoaded = true) Any₂ := by
  refine Triple.bind (R := fun _ => Empty host) (Triple.op stable_empty (fun _ _ h => h)
    fun w r w' _ h ho _ => ?_) fun write => ?_
  · obtain ⟨ho, -⟩ := ho
    cases ho
    exact h
  · refine Triple.bind (settle_spec.post (fun _ _ _ h => h) fun _ _ _ _ => trivial) fun _ => ?_
    exact setLoaded_spec

/-- what is known of the file once it is read. -/
def Seen (host : Host) : Option (List StoredRecord) → World → Prop
  | none => Empty host
  | some domains => Found host domains

theorem read_spec : Triple (registry host calm) κ Any (Exc.tryOp (A := api) Op.read rfl)
    (Seen host) fun e w => e = .enoent → Empty host w := by
  refine Triple.tryOp stable_any (fun _ _ _ => trivial) (fun w r w' domains _ _ ho _ hr => ?_)
    fun w r w' e _ _ ho _ hr => ?_
  · obtain ⟨ho, -⟩ := ho
    cases ho with
    | readAbsent | readFails => cases hr
    | readOther _ hfile =>
      cases hr
      exact fun _ now => by rw [hfile]; rfl
    | read domains _ hfile =>
      cases hr
      exact fun _ now => by rw [hfile]
  · obtain ⟨ho, -⟩ := ho
    cases ho with
    | readAbsent _ hfile => exact fun _ _ now => by rw [hfile]; rfl
    | readOther | read => cases hr
    | readFails =>
      cases hr
      exact nofun

theorem load_spec : Triple (registry host calm) κ Any load (fun _ w => w.isLoaded = true)
    fun e w => e = .enoent → Empty host w := by
  refine Triple.bind read_spec fun domains => ?_
  cases domains with
  | none =>
    refine Triple.bind (R := fun _ => Empty host) (Triple.op stable_empty (fun _ _ h => h)
      fun w r w' _ h ho _ => ?_) fun write => ?_
    · obtain ⟨ho, -⟩ := ho
      cases ho
      exact h
    · refine Triple.bind (settle_spec.post (fun _ _ _ h => h) fun _ _ _ h _ => h) fun _ => ?_
      exact setLoaded_spec
  | some domains =>
    refine Triple.op stable_found (fun _ _ h => h) fun w _ w' _ _ ho _ => ?_
    obtain ⟨ho, -⟩ := ho
    cases ho
    rfl

/-- **A method goes on** when the registry is loaded. -/
theorem ensureLoaded_spec : Triple (registry host calm) κ Any ensureLoaded
    (fun _ w => w.isLoaded = true) Any₂ := by
  refine Triple.bind (R := fun isLoaded w => isLoaded = true → w.isLoaded = true)
    (Triple.op stable_any (fun _ _ _ => trivial) fun w r w' _ _ ho _ => ?_) fun isLoaded => ?_
  · obtain ⟨ho, -⟩ := ho
    cases ho
    exact id
  · cases isLoaded with
    | true => exact Triple.pure fun _ _ h => h rfl
    | false =>
      refine (Triple.tryCatch load_spec fun e => ?_).pre fun _ _ _ => trivial
      refine Triple.ite (fun he => ?_) fun _ => Triple.throw fun _ _ _ => trivial
      exact create_spec.pre fun _ _ h => h he

/-- a method that waits for its write. -/
theorem settled_spec {write : ℕ} : Triple (registry host calm) κ Any (settle write) Any₂ Any₂ :=
  Triple.tryOp stable_any (fun _ _ _ => trivial) (fun _ _ _ _ _ _ _ _ _ => trivial)
    fun _ _ _ _ _ _ _ _ _ => trivial

theorem look_spec : Triple (registry host calm) κ Any read Any₂ Any₂ := by
  refine Triple.bind ensureLoaded_spec fun _ => ?_
  exact Triple.op stable_loaded (fun _ _ _ => trivial) fun _ _ _ _ _ _ _ => trivial

theorem raise_spec {α : Type} {P : World → Prop} (a : Except Failure α) :
    Triple (registry host calm) κ P (raise a) (fun b w => P w ∧ a = .ok b) Any₂ := by
  cases a with
  | ok a => exact Triple.pure fun _ _ h => ⟨h, rfl⟩
  | error e => exact Triple.throw fun _ _ _ => trivial

theorem readHostname_valid {input hostname : String} (h : readHostname host input = .ok hostname) :
    isValidAppHostname hostname.toList = true := valid_of_normalize (orThrow_ok.mp h)

theorem registerDomain_spec {hostname appId : String} {input : DomainInput} :
    Triple (registry host calm) κ Any (registerDomain host hostname appId input) Any₂ Any₂ := by
  refine Triple.bind ensureLoaded_spec fun _ => ?_
  refine Triple.bind (raise_spec _) fun hostname => ?_
  refine Triple.assume fun hname => ?_
  refine Triple.bind (raise_spec _) fun _ => ?_
  refine Triple.assume fun happ => ?_
  refine Triple.bind (R := Any₂) (Triple.tryOp stable_loaded
    (fun w _ h => ⟨h, readHostname_valid hname, throwIf_ok.mp happ⟩)
    (fun _ _ _ _ _ _ _ _ _ => trivial) fun _ _ _ _ _ _ _ _ _ => trivial) fun result => ?_
  exact Triple.bind settled_spec fun _ => Triple.pure fun _ _ _ => trivial

theorem updateDomain_spec {hostname : String} {input : DomainInput} :
    Triple (registry host calm) κ Any (updateDomain host hostname input) Any₂ Any₂ := by
  refine Triple.bind ensureLoaded_spec fun _ => ?_
  refine Triple.bind (raise_spec _) fun hostname => ?_
  refine Triple.assume fun _ => ?_
  refine Triple.bind (R := Any₂) (Triple.tryOp stable_loaded (fun w _ h => h)
    (fun _ _ _ _ _ _ _ _ _ => trivial) fun _ _ _ _ _ _ _ _ _ => trivial) fun result => ?_
  exact Triple.bind settled_spec fun _ => Triple.pure fun _ _ _ => trivial

theorem removeDomain_spec {hostname : String} :
    Triple (registry host calm) κ Any (removeDomain host hostname) Any₂ Any₂ := by
  refine Triple.bind ensureLoaded_spec fun _ => ?_
  cases normalizeAppHostname host hostname with
  | none => exact Triple.pure fun _ _ _ => trivial
  | some hostname =>
    refine Triple.bind (R := Any₂) (Triple.op stable_loaded (fun w _ h => h)
      fun _ _ _ _ _ _ _ => trivial) fun write => ?_
    cases write with
    | none => exact Triple.pure fun _ _ _ => trivial
    | some write => exact Triple.bind settled_spec fun _ => Triple.pure fun _ _ _ => trivial

theorem removeByAppId_spec {appId : String} :
    Triple (registry host calm) κ Any (removeByAppId appId) Any₂ Any₂ := by
  refine Triple.bind ensureLoaded_spec fun _ => ?_
  refine Triple.bind (R := Any₂) (Triple.op stable_loaded (fun w _ h => h)
    fun _ _ _ _ _ _ _ => trivial) fun removed => ?_
  cases removed with
  | none => exact Triple.pure fun _ _ _ => trivial
  | some removed => exact Triple.bind settled_spec fun _ => Triple.pure fun _ _ _ => trivial

/-- a crash leaves a file that is loaded again. -/
theorem Inv.crash (hi : Inv host calm w) :
    Inv host calm { w with memory := {}, isLoaded := false, queue := [] } where
  coherent := Coherent.empty
  valid _ h := absurd h List.not_mem_nil
  payloads _ h := absurd h List.not_mem_nil
  fresh _ := ⟨rfl, fun _ h => absurd h List.not_mem_nil, fun h => absurd rfl h⟩
  kept _ h := nomatch h
  entitled := hi.entitled
  stored _ h := nomatch h

theorem registry_keeps : (registry host calm).Keeps where
  perform := registry_perform
  crash hi hs := by
    cases hs
    exact Inv.crash hi
  spawn hi hp := by
    cases hp with
    | read => exact look_spec.detach hi
    | registerDomain => exact registerDomain_spec.detach hi
    | updateDomain => exact updateDomain_spec.detach hi
    | removeDomain => exact removeDomain_spec.detach hi
    | removeByAppId => exact removeByAppId_spec.detach hi
    | write => exact fun _ _ _ => ⟨trivial, fun _ _ _ _ => trivial⟩

theorem Inv.initial (h : w.Initial) : Inv host calm w := by
  obtain ⟨file, rfl⟩ := h
  exact {
    coherent := Coherent.empty
    valid := fun _ h => absurd h List.not_mem_nil
    payloads := fun _ h => absurd h List.not_mem_nil
    fresh := fun _ => ⟨rfl, fun _ h => absurd h List.not_mem_nil, fun h => absurd rfl h⟩
    kept := fun _ h => nomatch h
    entitled := fun _ _ h => absurd h List.not_mem_nil
    stored := fun _ h => nomatch h }

/-- no operation is in progress, and no write is queued. -/
def Quiet (c : Conf api World) : Prop := c.Done ∧ c.state.queue = []

/-- **What holds of a registry**: the two maps hold the same records, each hostname once; they hold
what was loaded, as operations have changed it; no registration has taken a hostname from another
app; and when nothing is in progress, a load of the file finds the records of the maps. -/
structure Intact (host : Host) (c : Conf api World) : Prop where
  coherent : Coherent c.state.memory
  kept : c.state.isLoaded = true → ∀ r, r ∈ c.state.memory.byHostname ↔ r ∈ c.state.truth
  entitled : ∀ x ∈ c.state.registrations, ∀ r ∈ x.2, r.hostname = x.1.hostname →
    r.appId = x.1.appId
  written : c.state.isLoaded = true → Quiet c →
    ∃ now, ∀ r, r ∈ fileRecords host now c.state.file ↔ r ∈ c.state.memory.byHostname

end

/-- **The maps, the registrations and the file**, when all goes well. -/
theorem domain_registry (host : Host) (calm : Prop) {c : Conf api World}
    (hc : Reachable (system host calm) World.Initial c) :
    Coherent c.state.memory ∧ (calm → Intact host c) := by
  have hi : Inv host calm c.state :=
    (registry_keeps.reachable (fun _ => Inv.initial) hc).inv
  refine ⟨hi.coherent, fun hcalm => ⟨hi.coherent, hi.kept hcalm, hi.entitled hcalm,
    fun hloaded hquiet => (hi.stored hcalm hloaded).written hquiet.2⟩⟩

/-! ## a load that comes late, and a write that fails last -/

def someHost : Host where
  lower text := text
  lower_plain _ _ := rfl
  localeLe a b := decide (a ≤ b)

/-- a file without records. -/
def someWorld : World := { file := .records [] }

/-- what a write comes to. -/
def someResult (fails : Bool) : Except Failure Unit :=
  if fails then .error (.other "EIO") else .ok ()

def someAnswer (fails : Bool) : (o : Op) → World → o.Ans
  | .isLoaded, w => w.isLoaded
  | .read, w =>
    match w.file with
    | .absent => .error .enoent
    | .other => .ok none
    | .records domains => .ok (some domains)
  | .fill _, _ | .setLoaded, _ => ()
  | .clear, w | .persist, w => w.next
  | .settled write, w => (w.settled write).getD (.ok ())
  | .look, w => w.memory
  | .register hostname appId input, w => (w.register someHost hostname appId input "").1
  | .update hostname input, w => (w.update someHost hostname input "").1
  | .remove hostname, w => (w.remove someHost hostname).1
  | .removeApp appId, w => (w.removeApp someHost appId).1
  | .write, _ => someResult fails

def someEffect (fails : Bool) : Op → World → World
  | .fill domains, w => w.setLoaded (loaded someHost "" domains)
  | .clear, w => w.clear someHost
  | .persist, w => w.enqueue someHost
  | .setLoaded, w => w.setLoaded w.memory
  | .register hostname appId input, w => (w.register someHost hostname appId input "").2
  | .update hostname input, w => (w.update someHost hostname input "").2
  | .remove hostname, w => (w.remove someHost hostname).2
  | .removeApp appId, w => (w.removeApp someHost appId).2
  | .write, w =>
    match w.queue with
    | [] => w
    | (id, payload) :: queue =>
      { w with
        file := if fails then w.file else .records (payload.map AppDomainRecord.stored) }.settle id
        queue (someResult fails)
  | _, w => w

/-- `calm`: a load does not come late, and no write fails. -/
def someAllowed (calm fails : Bool) : Op → World → Bool
  | .settled write, w => (w.settled write).isSome
  | .write, w => !w.queue.isEmpty && (!calm || !fails)
  | .fill _, w | .clear, w => !calm || !w.isLoaded
  | _, _ => true

theorem performs_some (calm fails : Bool) (κ : ℕ) (o : Op) (w : World)
    (ho : someAllowed calm fails o w = true) : (system someHost (calm = true)).perform κ o w
      (someAnswer fails o w) (someEffect fails o w) := by
  cases o with
  | read =>
    refine ⟨?_, fun _ => trivial⟩
    cases hfile : w.file with
    | absent =>
      have hanswer : someAnswer fails .read w = .error .enoent := by rw [someAnswer, hfile]
      rw [hanswer]
      exact .readAbsent w hfile
    | other =>
      have hanswer : someAnswer fails .read w = .ok none := by rw [someAnswer, hfile]
      rw [hanswer]
      exact .readOther w hfile
    | records domains =>
      have hanswer : someAnswer fails .read w = .ok (some domains) := by rw [someAnswer, hfile]
      rw [hanswer]
      exact .read domains w hfile
  | settled write =>
    obtain ⟨result, hresult⟩ := Option.isSome_iff_exists.mp ho
    have hanswer : someAnswer fails (.settled write) w = result := by
      rw [someAnswer, hresult]
      rfl
    rw [hanswer]
    exact ⟨.settled write result w hresult, fun _ => trivial⟩
  | write =>
    have ho : (!w.queue.isEmpty && (!calm || !fails)) = true := ho
    cases hqueue : w.queue with
    | nil =>
      rw [hqueue] at ho
      cases ho
    | cons first queue =>
      cases fails with
      | true =>
        have heffect : someEffect true .write w =
            w.settle first.1 queue (.error (.other "EIO")) := by
          rw [someEffect, hqueue]
          rfl
        rw [heffect]
        refine ⟨.writeFails _ first.1 first.2 queue w hqueue, fun hcalm => ?_⟩
        rw [hcalm, Bool.and_eq_true] at ho
        cases ho.2
      | false =>
        have heffect : someEffect false .write w = { w with
            file := .records (first.2.map AppDomainRecord.stored) }.settle first.1 queue
              (.ok ()) := by
          rw [someEffect, hqueue]
          rfl
        rw [heffect]
        exact ⟨.write first.1 first.2 queue w hqueue, fun _ => trivial⟩
  | fill | clear =>
    refine ⟨by constructor, fun hcalm hloaded => ?_⟩
    have ho : (!calm || !w.isLoaded) = true := ho
    rw [hcalm, hloaded] at ho
    cases ho
  | _ => exact ⟨by constructor, fun _ => trivial⟩

/-- a registration, a list of the domains, and a write of the file. -/
def somePrograms : List (Prog api Unit) :=
  [(registerDomain someHost "a.example" "app" {}).detach, read.detach, .call .write fun _ => .ret ()]

theorem spawn_some {calm : Prop} {p : Prog api Unit} (hp : p ∈ somePrograms) :
    p.Suspended ∧ ∀ κ, (system someHost calm).spawn someWorld κ p := by
  rcases List.mem_cons.mp hp with rfl | hp
  · exact ⟨rfl, fun _ => .registerDomain ..⟩
  · rcases List.mem_cons.mp hp with rfl | hp
    · exact ⟨rfl, fun _ => .read⟩
    · rw [List.mem_singleton.mp hp]
      exact ⟨rfl, fun _ => .write⟩

def someRun (calm fails : Bool) (schedule : List ℕ) : Option (Conf api World) :=
  (Conf.started someWorld somePrograms).follow (fun _ => someAnswer fails)
    (fun _ => someEffect fails) (fun _ => someAllowed calm fails) schedule

theorem someRun_reachable {calm fails : Bool} {schedule : List ℕ} {c : Conf api World}
    (h : someRun calm fails schedule = some c) :
    Reachable (system someHost (calm = true)) World.Initial c :=
  Reachable.follow (performs_some calm fails) ⟨_, rfl⟩ (fun _ => spawn_some) h

/-- both loads have read the file when the registration is made; the second one ends after it. -/
def lateLoad : List ℕ := [0, 1, 0, 1, 0, 0, 1, 2, 0, 1]

/-- the registration, the write, then the list. -/
def inTurn : List ℕ := [0, 0, 0, 0, 2, 0, 1, 1]

theorem unordered {fails : Bool} {schedule : List ℕ} {c : Conf api World}
    (h : someRun false fails schedule = some c) :
    Reachable (system someHost False) World.Initial c := by
  simpa using someRun_reachable h

/-- a registration that succeeds is lost by a load that comes late. -/
theorem late_load : ∃ c, Reachable (system someHost False) World.Initial c ∧ ¬Intact someHost c := by
  have hrun : (someRun false false lateLoad).map (fun c => decide (c.state.isLoaded = true ∧
      c.state.memory.byHostname = [] ∧ c.state.truth ≠ [])) = some true := by decide +kernel
  obtain ⟨c, hc, hstate⟩ := Option.map_eq_some_iff.mp hrun
  obtain ⟨hloaded, hmemory, htruth⟩ := of_decide_eq_true hstate
  refine ⟨c, unordered hc, fun hintact => ?_⟩
  obtain ⟨r, hr⟩ := List.exists_mem_of_ne_nil _ htruth
  have hmem := (hintact.kept hloaded r).mpr hr
  rw [hmemory] at hmem
  cases hmem

/-- a registration whose write fails is not in the file. -/
theorem lost_write : ∃ c, Reachable (system someHost False) World.Initial c ∧
    ¬Intact someHost c := by
  have hrun : (someRun false true inTurn).map (fun c => decide (c.state.isLoaded = true ∧
      c.state.queue = [] ∧ c.state.file = .records [] ∧ c.state.memory.byHostname ≠ [] ∧
      ∀ κ < somePrograms.length, (c.threads κ).all Prog.returned = true)) = some true := by
    decide +kernel
  obtain ⟨c, hc, hstate⟩ := Option.map_eq_some_iff.mp hrun
  obtain ⟨hloaded, hqueue, hfile, hmemory, hdone⟩ := of_decide_eq_true hstate
  refine ⟨c, unordered hc, fun hintact => ?_⟩
  obtain ⟨r, hr⟩ := List.exists_mem_of_ne_nil _ hmemory
  obtain ⟨now, hnow⟩ := hintact.written hloaded ⟨Conf.done_of_follow hc hdone, hqueue⟩
  have hmem := (hnow r).mpr hr
  rw [hfile] at hmem
  cases hmem

/-- **A registration is lost** by a load that comes late. -/
theorem registrations_lost : ¬∀ c, Reachable (system someHost False) World.Initial c →
    Intact someHost c := by
  intro h
  obtain ⟨c, hc, hlost⟩ := late_load
  exact hlost (h c hc)

theorem domain_registered : ∃ c, Reachable (system someHost (true = true)) World.Initial c ∧
    c.state.memory.byHostname ≠ [] ∧ Quiet c ∧ Intact someHost c := by
  have hrun : (someRun true false inTurn).map (fun c => decide (c.state.queue = [] ∧
      c.state.memory.byHostname ≠ [] ∧
      ∀ κ < somePrograms.length, (c.threads κ).all Prog.returned = true)) = some true := by
    decide +kernel
  obtain ⟨c, hc, hstate⟩ := Option.map_eq_some_iff.mp hrun
  obtain ⟨hqueue, hmemory, hdone⟩ := of_decide_eq_true hstate
  have hreach := someRun_reachable hc
  exact ⟨c, hreach, hmemory, ⟨Conf.done_of_follow hc hdone, hqueue⟩,
    (domain_registry someHost (true = true) hreach).2 rfl⟩

end Domains
end Apps
end WmAutopilot
