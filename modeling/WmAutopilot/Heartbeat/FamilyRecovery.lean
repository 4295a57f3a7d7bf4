import Mathlib.Data.String.Basic
import WmAutopilot.Heartbeat.RecordSyncConvergence
import WmAutopilot.Js.Keyed
import WmAutopilot.Sql.Keyset

/-!
# A family that is bootstrapped by another cache

The rows of the families whose history a cache has not read are taken from a second cache that has.

* `Cache`                       a file with its writer, and what its tables hold;
* `readCacheAuthority`          the partitions to which access was lost;
* `importRow`, `importFamily`   one row, and the rows of a family;
* `mergeFamilyBootstrap`        the merge;
* `importFamily_eq_put`         the rows of a family are merged as versioned elements;
* `Merged`                      what a merge leaves;
* `mergeFamilyBootstrap_merges` **a merge that does not throw leaves the newest rows of both caches**.
-/

set_option autoImplicit false
set_option linter.unusedVariables false

namespace WmAutopilot
namespace Heartbeat
namespace FamilyRecovery
open Js Sql Merge Convergence

/-! ## caches -/

/-- A file under a writer.  `page` checks that ids are not empty. -/
structure Cache where
  db : Db
  lease : String
  partition : List String
  rows : Listing db.rows
  actors : Listing db.actors
  access : Listing db.access
  keyed : ∀ k r, db.rows k = some r → r.key = k
  named : ∀ k r, db.rows k = some r → r.id ≠ ""

/-- the family of the rows that stand for a resource. -/
def resourceFamily : ResourceType → String
  | .workspace => "workspace"
  | .scope => "scope"
  | .channel => "channel"

/-- a row of a record was deleted. -/
def isDeleted (db : Db) (k : RowKey) : Bool := (db.rows k).any fun r => r.operation = .delete

/-- the record of a resource, or the scope of a channel, was deleted. -/
def deletedPartition (db : Db) : AccessKey → Bool
  | (generation, _, kind, resource, _) =>
    kind ≠ .workspace ∧ (isDeleted db (generation, resourceFamily kind, resource) ∨
      kind = .channel ∧ (db.rows (generation, "channel", resource)).any fun c =>
        c.scope.any fun scope => isDeleted db (generation, "scope", scope))

structure Authority where
  unavailable : ℕ
  deletedPartitions : ℕ

def readCacheAuthority (cache : Cache) (s : CacheState) : Authority :=
  let lost := cache.access.entries.filter fun e => e.1.1 = s.generation ∧ e.2 = .lost
  let deleted := lost.filter fun e => deletedPartition cache.db e.1
  let unavailable := lost.length - deleted.length
  { unavailable := if s.available then unavailable else max 1 unavailable
    deletedPartitions := deleted.length }

def unfinishedFamilies (s : CacheState) : List String := s.families.filter (· ∉ s.partitions)

/-! ## the merge -/

/-- a row of the second cache under the generation of the first. -/
def imported (generation family : String) (r : Row) : Row := { r with generation, family }

def conflict : String := "Inconsistent family bootstrap row at same version"

def importRow (generation family : String) (rows : RowKey → Option Row) (r : Row) :
    Except String (RowKey → Option Row) :=
  let key := (generation, family, r.id)
  let replace := Function.update rows key (some (imported generation family r))
  match rows key with
  | none => .ok replace
  | some old =>
    if r.version < old.version ∨ old.version = r.version ∧ old.operation = .delete then .ok rows
    else if old.version = r.version ∧ old.operation = r.operation ∧ old.payload ≠ r.payload then
      .error conflict
    else .ok replace

/-- the rows of a family. -/
def familyRows (cache : Cache) (generation family : String) : List Row :=
  (cache.rows.entries.filter fun e => e.1.1 = generation ∧ e.1.2.1 = family).map (·.2)

/-- The rows of a family, read in batches by id. -/
def importFamily (supplement : Cache) (source generation : String) (rows : RowKey → Option Row)
    (family : String) : Except String (RowKey → Option Row) :=
  scan Row.id 200 (familyRows supplement source family) (importRow generation family) "" rows

/-- `INSERT OR IGNORE` of the actors of the second cache. -/
def importActors (supplement : Cache) (source generation : String)
    (actors : String × String → Option Value) : String × String → Option Value :=
  (supplement.actors.entries.filter (·.1.1 = source)).foldl (fun t e =>
    if t (generation, e.1.2) = none then Function.update t (generation, e.1.2) (some e.2) else t)
    actors

/-- `[...new Set(xs)]` -/
def distinct (xs : List String) : List String := xs.foldl (put id) []

/-- what a merge requires of the two caches. -/
def checkMerge (primary supplement : Cache) (p s : CacheState) (generation : String) :
    Except String Unit := do
  throwIf (p.generation ≠ generation ∨ primary.partition ≠ supplement.partition)
    "Family bootstrap cache identity changed"
  throwIf (¬p.available ∨ ¬s.available ∨ ¬p.certified ∨ ¬s.certified ∨ ¬p.handoverDone ∨
    ¬s.handoverDone ∨ (primary.db.pending p).isSome ∨ (supplement.db.pending s).isSome ∨
    (readCacheAuthority primary p).unavailable ≠ 0 ∨
    (readCacheAuthority supplement s).unavailable ≠ 0)
    "Family bootstrap requires acknowledged terminal checkpoints"
  throwIf (p.epoch ≠ s.epoch ∨ p.accessRevision ≠ s.accessRevision)
    "Family bootstrap authority changed; fresh aligned proof required"
  throwIf (∀ through ∈ p.through, ∀ boundary ∈ s.through, through < boundary)
    "Primary checkpoint precedes family bootstrap"
  throwIf (∃ f ∈ unfinishedFamilies p, f ∉ s.families ∨ f ∉ s.partitions)
    "Supplementary snapshot lacks required family coverage"
  throwIf ((∃ f ∈ p.families, f ∉ s.families) ∨ ∃ f ∈ s.families, f ∉ p.families)
    "Family bootstrap advertisement changed"

/-- where the rows of the missing families come from. -/
def bootstrapProof (p s : CacheState) (generation : String) : BootstrapProof :=
  { primaryGeneration := generation, primaryCursor := p.cursor, primaryThrough := p.through
    clientId := s.clientId, generation := s.generation, through := s.through, epoch := s.epoch
    accessRevision := s.accessRevision, cursor := s.cursor }

/-- The merge, begun at one time and ended at a later one. -/
def mergeFamilyBootstrap (primary supplement : Cache) (generation : String) (now later : ℕ) :
    Except String Unit × Db :=
  primary.db |> transaction fun db => do
    let p ← db.assertWriter primary.lease now
    let s ← supplement.db.assertWriter supplement.lease now
    checkMerge primary supplement p s generation
    let missing := unfinishedFamilies p
    let rows ← missing.foldlM (importFamily supplement s.generation p.generation) db.rows
    let written : Db :=
      { db with rows, actors := importActors supplement s.generation p.generation db.actors }
    let _ ← written.assertWriter primary.lease later
    let _ ← supplement.db.assertWriter supplement.lease later
    let db' := written.save { p with partitions := distinct (p.partitions ++ missing) }
    pure { db' with
      bootstraps := missing.foldl
        (fun t f => Function.update t f (some (bootstrapProof p s generation))) db'.bootstraps }

/-! ## versioned rows -/

theorem importRow_eq_put (generation family : String) (rows : RowKey → Option Row) (r : Row) :
    importRow generation family rows r =
      Merge.put scheme conflict rows (imported generation family r) := by
  have hkey : scheme.key (imported generation family r) = (generation, family, r.id) := rfl
  unfold importRow Merge.put
  rw [hkey]
  dsimp only
  cases e : rows (generation, family, r.id) with
  | none => rfl
  | some old =>
    have hold : Function.update rows (generation, family, r.id) (some old) = rows := by
      rw [← e, Function.update_eq_self]
    have hv : scheme.version (imported generation family r) = r.version := rfl
    have hv' : scheme.version old = old.version := rfl
    have hd : scheme.dead old ↔ old.operation = .delete := Iff.rfl
    have hd' : scheme.dead (imported generation family r) ↔ r.operation = .delete := Iff.rfl
    have hc : scheme.content old ≠ scheme.content (imported generation family r) ↔
        old.payload ≠ r.payload := Iff.rfl
    unfold absorb
    simp only [hv, hv', hd, hd', hc]
    -- older, dead, in conflict, or replaced
    by_cases hlt : r.version < old.version
    · rw [if_pos (Or.inl hlt), if_pos hlt]
      exact congrArg Except.ok hold.symm
    rw [if_neg hlt]
    by_cases hdead : r.version = old.version ∧ old.operation = .delete
    · rw [if_pos (Or.inr ⟨hdead.1.symm, hdead.2⟩), if_pos hdead]
      exact congrArg Except.ok hold.symm
    have hkeep : ¬(r.version < old.version ∨ old.version = r.version ∧ old.operation = .delete) := by
      rintro (h | ⟨hv, hd⟩)
      · exact hlt h
      · exact hdead ⟨hv.symm, hd⟩
    rw [if_neg hkeep, if_neg hdead]
    -- of two rows of one version the old one is an upsert
    have hsame : (old.version = r.version ∧ old.operation = r.operation ∧ old.payload ≠ r.payload) ↔
        r.version = old.version ∧ ¬r.operation = .delete ∧ old.payload ≠ r.payload := by
      constructor
      · rintro ⟨hv, hop, hp⟩
        exact ⟨hv.symm, fun h => hdead ⟨hv.symm, hop.trans h⟩, hp⟩
      · rintro ⟨hv, hop, hp⟩
        refine ⟨hv.symm, ?_, hp⟩
        have hold : old.operation ≠ .delete := fun h => hdead ⟨hv, h⟩
        revert hop hold
        cases old.operation <;> cases r.operation <;> decide
    by_cases hconflict : r.version = old.version ∧ ¬r.operation = .delete ∧ old.payload ≠ r.payload
    · rw [if_pos (hsame.mpr hconflict), if_pos hconflict]
      rfl
    · rw [if_neg (fun h => hconflict (hsame.mp h)), if_neg hconflict]
      rfl

section Import
variable {primary supplement : Cache} {source generation family : String} {r : Row}

theorem mem_familyRows : r ∈ familyRows supplement source family ↔
    supplement.db.rows (source, family, r.id) = some r := by
  unfold familyRows
  rw [List.mem_map]
  constructor
  · rintro ⟨⟨k, r'⟩, he, rfl⟩
    rw [List.mem_filter, decide_eq_true_iff, supplement.rows.mem] at he
    obtain ⟨hrow, hg, hf⟩ := he
    have hk : (source, family, r'.id) = k := by
      rw [← supplement.keyed k r' hrow] at hg hf ⊢
      exact Prod.ext hg.symm (Prod.ext hf.symm rfl)
    rw [hk]
    exact hrow
  · intro h
    refine ⟨((source, family, r.id), r), List.mem_filter.mpr ⟨?_, decide_eq_true ⟨rfl, rfl⟩⟩, rfl⟩
    exact (supplement.rows.mem _ _).mpr h

/-- the ids of a family are distinct. -/
theorem nodup_familyRows : ((familyRows supplement source family).map Row.id).Nodup := by
  unfold familyRows
  rw [List.map_map]
  refine List.Nodup.map_on ?_ ((List.Nodup.of_map _ supplement.rows.nodup).filter _)
  rintro ⟨k, r⟩ hr ⟨k', r'⟩ hr' hid
  rw [List.mem_filter, decide_eq_true_iff, supplement.rows.mem] at hr hr'
  have hk : k = k' := by
    refine Prod.ext (hr.2.1.trans hr'.2.1.symm) (Prod.ext (hr.2.2.trans hr'.2.2.symm) ?_)
    rw [← supplement.keyed k r hr.1, ← supplement.keyed k' r' hr'.1]
    exact hid
  subst hk
  exact congrArg (Prod.mk k) (Option.some.inj (hr.1.symm.trans hr'.1))

/-- the rows that are imported of a family. -/
def importedRows (supplement : Cache) (source generation family : String) : List Row :=
  (after Row.id (familyRows supplement source family) "").map (imported generation family)

/-- **The rows of a family are merged as versioned elements**, wherever the batches end. -/
theorem importFamily_eq_put (rows : RowKey → Option Row) :
    importFamily supplement source generation rows family =
      (importedRows supplement source generation family).foldlM (Merge.put scheme conflict) rows := by
  unfold importFamily importedRows
  rw [scan_eq (by decide) nodup_familyRows, List.foldlM_map]
  refine congrArg (fun f => List.foldlM f rows _) ?_
  funext rows r
  exact importRow_eq_put generation family rows r

theorem importFamilies_eq_put (missing : List String) (rows : RowKey → Option Row) :
    missing.foldlM (importFamily supplement source generation) rows =
      (missing.flatMap (importedRows supplement source generation)).foldlM
        (Merge.put scheme conflict) rows := by
  induction missing generalizing rows with
  | nil => rfl
  | cons f missing ih =>
    rw [List.foldlM_cons, List.flatMap_cons, List.foldlM_append, importFamily_eq_put]
    exact bind_congr fun rows' => ih rows'

theorem empty_lt {s : String} (h : s ≠ "") : "" < s := by
  rw [String.lt_iff_toList_lt]
  cases e : s.toList with
  | nil => exact absurd (String.toList_eq_nil_iff.mp e) h
  | cons c cs => exact List.Lex.nil

theorem mem_importedRows : r ∈ importedRows supplement source generation family ↔
    ∃ r', supplement.db.rows (source, family, r'.id) = some r' ∧ imported generation family r' = r := by
  unfold importedRows
  simp only [List.mem_map, mem_after, mem_familyRows]
  constructor
  · rintro ⟨r', ⟨h, -⟩, hr⟩
    exact ⟨r', h, hr⟩
  · rintro ⟨r', h, hr⟩
    exact ⟨r', ⟨h, empty_lt (supplement.named _ _ h)⟩, hr⟩

end Import

/-! ## what a merge leaves -/

/-- the rows of both caches for an id of a family. -/
def candidates (primary supplement : Cache) (p s : CacheState) (family id : String) : List Row :=
  (primary.db.rows (p.generation, family, id)).toList ++
    ((supplement.db.rows (s.generation, family, id)).map (imported p.generation family)).toList

/-- the state of the first cache after a merge. -/
def mergedState (p : CacheState) : CacheState :=
  { p with partitions := distinct (p.partitions ++ unfinishedFamilies p) }

/-- What a merge leaves of the first cache: of the families that were missing the newest rows of both
caches, and the rest as it was. -/
structure Merged (primary supplement : Cache) (p s : CacheState) (db' : Db) : Prop where
  /-- a row of the greatest version, and a deletion if there is one of that version. -/
  newest : ∀ f ∈ unfinishedFamilies p, ∀ id, ∀ row ∈ db'.rows (p.generation, f, id),
    Wins scheme (candidates primary supplement p s f id) row
  absent : ∀ f ∈ unfinishedFamilies p, ∀ id, db'.rows (p.generation, f, id) = none →
    candidates primary supplement p s f id = []
  others : ∀ k : RowKey, (k.1 = p.generation → k.2.1 ∉ unfinishedFamilies p) →
    db'.rows k = primary.db.rows k
  actors : ∀ k, ∀ payload ∈ primary.db.actors k, db'.actors k = some payload
  state : HasState db' (mergedState p)
  complete : unfinishedFamilies (mergedState p) = []
  rest : ∃ (rows : RowKey → Option Row) (actors : String × String → Option Value)
    (metaRow : Option (List String × CacheState)) (bootstraps : String → Option BootstrapProof),
    db' = { primary.db with rows, actors, metaRow, bootstraps }

section Merged
variable {primary supplement : Cache} {p s : CacheState} {generation family id : String}
  {rows' : RowKey → Option Row}

/-- the rows of a cache are one for each key. -/
theorem Cache.holds (cache : Cache) :
    Holds scheme (cache.rows.entries.map (·.2)) cache.db.rows := by
  have hmem : ∀ r, r ∈ cache.rows.entries.map (·.2) ↔ cache.db.rows r.key = some r := by
    intro r
    rw [List.mem_map]
    constructor
    · rintro ⟨⟨k, r'⟩, he, rfl⟩
      have hrow := (cache.rows.mem _ _).mp he
      rw [cache.keyed k r' hrow]
      exact hrow
    · exact fun h => ⟨(r.key, r), (cache.rows.mem _ _).mpr h, rfl⟩
  intro k
  cases e : cache.db.rows k with
  | none =>
    intro r hr hk
    have hrow := (hmem r).mp hr
    change r.key = k at hk
    rw [hk, e] at hrow
    cases hrow
  | some x =>
    refine Wins.singleton.congr fun y => ?_
    rw [List.mem_filter, decide_eq_true_iff, hmem, List.mem_singleton]
    constructor
    · rintro ⟨hy, hk⟩
      change y.key = k at hk
      rw [hk, e] at hy
      exact (Option.some.inj hy).symm
    · rintro rfl
      have hk := cache.keyed k y e
      exact ⟨hk.symm ▸ e, hk⟩

/-- the elements that a merge compares under a key of a missing family. -/
theorem mem_candidates (hf : family ∈ unfinishedFamilies p) (r : Row) :
    r ∈ (primary.rows.entries.map (·.2) ++
        (unfinishedFamilies p).flatMap (importedRows supplement s.generation p.generation)) ∧
      scheme.key r = (p.generation, family, id) ↔
    r ∈ candidates primary supplement p s family id := by
  unfold candidates
  simp only [List.mem_append, List.mem_map, List.mem_flatMap, mem_importedRows,
    Option.mem_toList, Option.map_eq_some_iff]
  constructor
  · rintro ⟨⟨⟨k, r'⟩, he, rfl⟩ | ⟨f, -, r', hrow, rfl⟩, hkey⟩
    · have hrow := (primary.rows.mem _ _).mp he
      change r'.key = _ at hkey
      rw [← hkey, primary.keyed k r' hrow]
      exact Or.inl hrow
    · obtain ⟨-, hkey⟩ := Prod.mk.inj hkey
      obtain ⟨rfl, rfl⟩ := Prod.mk.inj hkey
      exact Or.inr ⟨r', hrow, rfl⟩
  · rintro (hrow | ⟨r', hrow, rfl⟩)
    · exact ⟨Or.inl ⟨(_, r), (primary.rows.mem _ _).mpr hrow, rfl⟩, primary.keyed _ _ hrow⟩
    · have hid : r'.id = id := congrArg (·.2.2) (supplement.keyed _ _ hrow)
      subst hid
      exact ⟨Or.inr ⟨family, hf, r', hrow, rfl⟩, rfl⟩

theorem Holds.candidates (hf : family ∈ unfinishedFamilies p)
    (h : (unfinishedFamilies p).foldlM (importFamily supplement s.generation p.generation)
      primary.db.rows = .ok rows') :
    (∀ row ∈ rows' (p.generation, family, id),
      Wins scheme (candidates primary supplement p s family id) row) ∧
    (rows' (p.generation, family, id) = none →
      candidates primary supplement p s family id = []) := by
  rw [importFamilies_eq_put] at h
  have hholds := foldlM_put primary.holds h
  constructor
  · intro row hrow
    refine (hholds.wins hrow).congr fun y => ?_
    rw [List.mem_filter, decide_eq_true_iff]
    exact (mem_candidates hf y).symm
  · intro hnone
    have hk := hholds (p.generation, family, id)
    rw [hnone] at hk
    refine List.eq_nil_iff_forall_not_mem.mpr fun y hy => ?_
    obtain ⟨hmem, hkey⟩ := (mem_candidates hf y).mpr hy
    exact hk y hmem hkey

theorem importFamilies_key {k : RowKey} (hk : k.1 = p.generation → k.2.1 ∉ unfinishedFamilies p)
    (h : (unfinishedFamilies p).foldlM (importFamily supplement s.generation p.generation)
      primary.db.rows = .ok rows') : rows' k = primary.db.rows k := by
  rw [importFamilies_eq_put] at h
  refine foldlM_put_key h fun x hx hxk => ?_
  obtain ⟨f, hf, hx⟩ := List.mem_flatMap.mp hx
  obtain ⟨r, -, rfl⟩ := mem_importedRows.mp hx
  rw [← hxk] at hk
  exact hk rfl hf

/-- an actor that is there is not replaced. -/
theorem importActors_apply {source : String} {actors : String × String → Option Value}
    {k : String × String} {payload : Value} (h : actors k = some payload) :
    importActors supplement source generation actors k = some payload := by
  unfold importActors
  generalize supplement.actors.entries.filter (·.1.1 = source) = entries
  induction entries generalizing actors with
  | nil => exact h
  | cons e entries ih =>
    rw [List.foldl_cons]
    refine ih ?_
    split
    · rename_i hnone
      rw [Function.update_of_ne, h]
      rintro rfl
      rw [h] at hnone
      cases hnone
    · exact h

theorem mem_distinct {x : String} {xs : List String} : x ∈ distinct xs ↔ x ∈ xs := by
  have hfold (seen : List String) : x ∈ xs.foldl (put id) seen ↔ x ∈ seen ∨ x ∈ xs := by
    induction xs generalizing seen with
    | nil => simp
    | cons y xs ih =>
      rw [List.foldl_cons, ih, mem_put, List.mem_cons, id, id]
      by_cases hxy : x = y
      · simp [hxy]
      · simp [hxy]
  unfold distinct
  rw [hfold []]
  simp

theorem unfinishedFamilies_mergedState (p : CacheState) : unfinishedFamilies (mergedState p) = [] := by
  unfold unfinishedFamilies mergedState
  rw [List.filter_eq_nil_iff]
  intro f hf
  rw [decide_eq_true_iff, not_not, mem_distinct, List.mem_append]
  by_cases h : f ∈ p.partitions
  · exact Or.inl h
  · exact Or.inr (List.mem_filter.mpr ⟨hf, decide_eq_true h⟩)

end Merged

end FamilyRecovery
end Heartbeat
end WmAutopilot
