import Mathlib.Data.List.Perm.Basic
import WmAutopilot.CodeIntelligence.CorpusLinks

/-!
# Links that depend on the corpus alone

The linker is run over a snapshot, over a repository and over a corpus, and it never takes an edge
back: an edge that was right for the nodes of one repository stays when a second repository has a
node of the same name.

* `Corpus`, `Faithful`        the snapshots of a corpus, and what is expected of their deltas;
* `linked_corpus`             the links of a delta after the run over the corpus;
* `submitted_order`           what is submitted was linked in some order of the snapshots;
* `faithful_iff_stable`       it is as expected **exactly when** one repository alone links as the
                              corpus does, and the node that is meant is listed once;
* `link_outlives_its_reason`  a corpus where it is not.
-/

set_option autoImplicit false

namespace WmAutopilot
namespace CodeIntelligence
open Js Value

/-! ## a corpus -/

/-- The snapshots of a corpus.  The ids are those of `graph-builders`: the prefix of a repository,
and its parts, encoded. -/
structure Corpus (host : Host) where
  corpusId : String
  snapshots : List Snapshot
  same : ∀ s ∈ snapshots, s.corpusId = corpusId
  distinct : (snapshots.map (·.repositoryId)).Nodup
  /-- a file whose key starts with the id of a repository is in its snapshot. -/
  home : ∀ s ∈ snapshots, ∀ f ∈ snapshots.flatMap (·.nodes), ∀ path,
    fileKey f = some (s.repositoryId ++ ":" ++ path) → f ∈ s.nodes
  fileIds : ∀ f ∈ snapshots.flatMap (·.nodes), ∀ f' ∈ snapshots.flatMap (·.nodes), ∀ key,
    fileKey f = some key → fileKey f' = some key → f.external_id = f'.external_id
  apart : ToldApart ((snapshots.flatMap (·.nodes)).map (·.external_id))
  plain : ∀ s ∈ snapshots, ∀ e ∈ repositoryEdges host s, ∀ kind,
    ∀ x ∈ (snapshots.flatMap (·.nodes)).map (·.external_id),
    ∀ t ∈ (snapshots.flatMap (·.nodes)).map (·.external_id), e.external_id ≠ edgeId kind x t

/-- the nodes of a corpus. -/
def Corpus.nodes {host : Host} (c : Corpus host) : List GraphNode := c.snapshots.flatMap (·.nodes)

/-- the delta of a snapshot that was never linked. -/
def unlinked (host : Host) (s : Snapshot) : Delta := deltaOf host s s.edges

/-- the parser has used the id of a link. -/
def Taken (s : Snapshot) (kind : LinkKind) (x t : String) : Prop :=
  edgeId kind x t ∈ s.edges.map (·.external_id)

/-- What is expected of the deltas of a corpus. -/
structure Faithful {host : Host} (c : Corpus host) (deltas : List Delta) : Prop where
  /-- the links are those of one run over the snapshots. -/
  same : ∀ d ∈ deltas, ∀ o ∈ linkCorpusDeltas host (c.snapshots.map (unlinked host)),
    d.repository_id = o.repository_id → ∀ kind x t, Linked d kind x t ↔ Linked o kind x t
  again : linkCorpusDeltas host deltas = deltas
  /-- an action or a consumer is linked when exactly one node of the corpus is meant. -/
  unique : ∀ d ∈ deltas, ∀ kind ∈ [LinkKind.triggers, .matches_route], ∀ x,
    (∃ t, Linked d kind x t) ↔ ∃ v ∈ d.nodes, kindOf v = some kind ∧ v.external_id = x ∧
      ∃! id, ∃ n ∈ candidates c.nodes v, n.external_id = id

/-- The nodes of a repository alone link as the corpus does, and what is meant is listed once.
An action or a consumer may be listed several times under its id. -/
structure Stable {host : Host} (c : Corpus host) : Prop where
  /-- the only candidate in the repository is the only one in the corpus. -/
  kept : ∀ s ∈ c.snapshots, ∀ v ∈ s.nodes, ∀ kind ∈ [LinkKind.triggers, .matches_route],
    kindOf v = some kind → ∀ t, candidates s.nodes v = [t] →
      ¬Taken s kind v.external_id t.external_id →
      ∃ v' ∈ s.nodes, kindOf v' = some kind ∧ v'.external_id = v.external_id ∧
        ∃ t', candidates c.nodes v' = [t'] ∧ t'.external_id = t.external_id
  /-- the only node that is meant is listed once, and the parser has not linked it. -/
  single : ∀ s ∈ c.snapshots, ∀ v ∈ s.nodes, ∀ kind ∈ [LinkKind.triggers, .matches_route],
    kindOf v = some kind → (∃! id, ∃ n ∈ candidates c.nodes v, n.external_id = id) →
      ∃ v' ∈ s.nodes, kindOf v' = some kind ∧ v'.external_id = v.external_id ∧
        ∃ t, candidates c.nodes v' = [t] ∧ ¬Taken s kind v.external_id t.external_id

section
variable {host : Host} {c : Corpus host} {s : Snapshot} {kind : LinkKind} {x t : String}

theorem Corpus.mem_nodes {v : GraphNode} (hs : s ∈ c.snapshots) (hv : v ∈ s.nodes) :
    v ∈ c.nodes :=
  List.mem_flatMap.mpr ⟨s, hs, hv⟩

theorem kindOf_repositoryNodes {v : GraphNode} (h : v ∈ repositoryNodes s) :
    kindOf v = none ∧ relevant v = false := by
  unfold repositoryNodes at h
  rcases List.mem_cons.mp h with rfl | h
  · exact ⟨rfl, rfl⟩
  · rw [List.mem_singleton.mp h]
    exact ⟨rfl, rfl⟩

theorem mem_deltaOf_nodes {edges : List GraphEdge} {v : GraphNode} :
    v ∈ (deltaOf host s edges).nodes ↔ v ∈ s.nodes ∨ v ∈ repositoryNodes s := by
  show v ∈ sortNodes host _ ↔ _
  rw [sortNodes, List.mem_insertionSort, List.mem_append]

theorem alike_deltaOf {edges : List GraphEdge} : Alike (deltaOf host s edges).nodes s.nodes :=
  (Alike.of_perm (List.perm_insertionSort _ _)).trans
    (Alike.append_neutral fun _ hv => (kindOf_repositoryNodes hv).2)

/-- the nodes that a run adds to a snapshot make no links. -/
theorem resolves_deltaOf {all : List GraphNode} {edges : List GraphEdge} :
    Resolves s.repositoryId all (deltaOf host s edges).nodes kind x t ↔
      Resolves s.repositoryId all s.nodes kind x t := by
  constructor
  · rintro ⟨v, hv, hkind, rest⟩
    rcases mem_deltaOf_nodes.mp hv with hv | hv
    · exact ⟨v, hv, hkind, rest⟩
    · rw [(kindOf_repositoryNodes hv).1] at hkind
      cases hkind
  · rintro ⟨v, hv, rest⟩
    exact ⟨v, mem_deltaOf_nodes.mpr (.inl hv), rest⟩

theorem resolves_congr {all all' nodes : List GraphNode} {r : String}
    (h : ∀ v ∈ nodes, targetId r all v = targetId r all' v) :
    Resolves r all nodes kind x t ↔ Resolves r all' nodes kind x t := by
  constructor
  · rintro ⟨v, hv, hkind, hx, ht⟩
    exact ⟨v, hv, hkind, hx, (h v hv) ▸ ht⟩
  · rintro ⟨v, hv, hkind, hx, ht⟩
    exact ⟨v, hv, hkind, hx, (h v hv).symm ▸ ht⟩

theorem targetOf_mem {r : String} {all : List GraphNode} {v n : GraphNode}
    (h : targetOf r all v = some n) : n ∈ all := by
  unfold targetOf at h
  split at h
  · unfold importedFile at h
    obtain ⟨path, -, h⟩ := Option.bind_eq_some_iff.mp h
    rcases Option.or_eq_some_iff.mp h with h | ⟨-, h⟩
    · exact (fileAt_spec h).1
    · exact (fileAt_spec h).1
  · have hmem : n ∈ candidates all v := by
      rw [only_eq_some.mp h]
      exact List.mem_singleton_self n
    unfold candidates at hmem
    split at hmem
    · cases hname : v.text "target_symbol_name" with
      | none =>
        rw [hname] at hmem
        cases hmem
      | some requested =>
        rw [hname] at hmem
        dsimp only at hmem
        split at hmem <;> exact (List.mem_filter.mp hmem).1
    · split at hmem
      · exact (List.mem_filter.mp hmem).1
      · cases hmem

theorem resolves_ids (hs : s ∈ c.snapshots) {all : List GraphNode}
    (hall : ∀ v ∈ all, v ∈ c.nodes)
    (h : Resolves s.repositoryId all s.nodes kind x t) :
    x ∈ c.nodes.map (·.external_id) ∧ t ∈ c.nodes.map (·.external_id) := by
  obtain ⟨v, hv, -, rfl, ht⟩ := h
  obtain ⟨n, hn, rfl⟩ := Option.map_eq_some_iff.mp ht
  exact ⟨List.mem_map.mpr ⟨v, c.mem_nodes hs hv, rfl⟩,
    List.mem_map.mpr ⟨n, hall n (targetOf_mem hn), rfl⟩⟩

/-- a run of the linker over nodes that are alike to nodes of the corpus. -/
theorem Marked.linkDelta {G : LinkKind → String → String → Prop} {d : Delta}
    {base all : List GraphNode} (hs : s ∈ c.snapshots)
    (h : Marked (c.nodes.map (·.external_id)) (Taken s) G d.edges)
    (hrepository : d.repository_id = s.repositoryId)
    (hsources : ∀ all kind x t, Resolves s.repositoryId all d.nodes kind x t ↔
      Resolves s.repositoryId all s.nodes kind x t)
    (halike : Alike all base) (hbase : ∀ v ∈ base, v ∈ c.nodes) :
    Marked (c.nodes.map (·.external_id)) (Taken s)
      (fun kind x t => G kind x t ∨
        Resolves s.repositoryId base s.nodes kind x t ∧ ¬Taken s kind x t)
      (CodeIntelligence.linkDelta host all d).edges := by
  have hmeans : ∀ kind x t, Resolves s.repositoryId all d.nodes kind x t ↔
      Resolves s.repositoryId base s.nodes kind x t := by
    intro kind x t
    rw [hsources]
    refine resolves_congr fun v _ => (targetId_alike (List.Perm.symm halike) ?_ v).symm
    exact fun f hf f' hf' => c.fileIds f (hbase f hf) f' (hbase f' hf')
  refine h.link c.apart (generated d.repository_id all d.nodes) ?_ ?_ ?_ ?_
  · intro e he
    obtain ⟨kind, x, t, hR, hlink⟩ := resolves_of_generated he
    rw [hrepository] at hR
    exact ⟨kind, x, t, (hmeans kind x t).mp hR, hlink⟩
  · intro kind x t hR
    rw [hrepository]
    exact generated_of_resolves ((hmeans kind x t).mpr hR)
  · exact fun kind x t hR => resolves_ids hs hbase hR
  · exact fun e => mem_linkDelta

theorem marked_parsed :
    Marked (c.nodes.map (·.external_id)) (Taken s) (fun _ _ _ => False) s.edges where
  made e he hm := by
    rw [s.parsed e he] at hm
    cases hm
  has := nofun
  used kind x _ t _ := (or_false _).symm ▸ Iff.rfl

/-- the links of a delta that was never linked: none. -/
theorem marked_deltaOf (hs : s ∈ c.snapshots) {G : LinkKind → String → String → Prop}
    {edges : List GraphEdge}
    (h : Marked (c.nodes.map (·.external_id)) (Taken s) G edges) :
    Marked (c.nodes.map (·.external_id)) (Taken s) G (deltaOf host s edges).edges := by
  refine (h.append (repositoryEdges host s) ?_ (c.plain s hs)).perm ?_
  · intro e he
    unfold repositoryEdges at he
    rcases List.mem_cons.mp he with rfl | he
    · rfl
    · obtain ⟨v, -, rfl⟩ := List.mem_map.mp he
      rfl
  · intro e
    show e ∈ sortEdges host _ ↔ _
    rw [sortEdges, List.mem_insertionSort]

/-- **The links of the delta of a repository: those of its own nodes.** -/
theorem marked_repositoryDelta (hs : s ∈ c.snapshots) :
    Marked (c.nodes.map (·.external_id)) (Taken s)
      (fun kind x t => Resolves s.repositoryId s.nodes s.nodes kind x t ∧ ¬Taken s kind x t)
      (repositoryDelta host s).edges := by
  have hself : ∀ d : Delta, corpusNodes [d] d.corpus_id = d.nodes := by
    intro d
    simp [corpusNodes]
  have hmem : ∀ v ∈ s.nodes, v ∈ c.nodes := fun v => c.mem_nodes hs
  have hparse : Marked (c.nodes.map (·.external_id)) (Taken s)
      (fun kind x t => False ∨ Resolves s.repositoryId s.nodes s.nodes kind x t ∧
        ¬Taken s kind x t) (parseSnapshot host s) := by
    unfold parseSnapshot
    refine Marked.linkDelta hs marked_parsed rfl (fun _ _ _ _ => Iff.rfl) ?_ hmem
    rw [hself]
    exact List.Perm.refl _
  have halike : Alike (deltaOf host s (parseSnapshot host s)).nodes s.nodes := alike_deltaOf
  have hdelta := (marked_deltaOf hs hparse).linkDelta hs rfl
    (fun _ _ _ _ => resolves_deltaOf) halike hmem
  unfold repositoryDelta
  dsimp only
  rw [hself]
  exact hdelta.congr fun kind x t => by
    rw [false_or, or_self_iff]

/-- the nodes of the deltas are those of the corpus, up to order and nodes that do not matter. -/
theorem alike_corpusNodes {order : List Snapshot} (horder : order.Perm c.snapshots)
    (delta : Snapshot → Delta) (hcorpus : ∀ s, (delta s).corpus_id = s.corpusId)
    (hnodes : ∀ s, Alike (delta s).nodes s.nodes) :
    Alike (corpusNodes (order.map delta) c.corpusId) c.nodes := by
  have hall : (order.map delta).filter (·.corpus_id = c.corpusId) = order.map delta := by
    refine List.filter_eq_self.mpr fun d hd => ?_
    obtain ⟨s, hs, rfl⟩ := List.mem_map.mp hd
    rw [hcorpus, c.same s (horder.mem_iff.mp hs)]
    exact decide_eq_true rfl
  unfold corpusNodes
  rw [hall, List.flatMap_map]
  unfold Alike Corpus.nodes
  rw [List.filter_flatMap, List.filter_flatMap]
  have heach : (order.flatMap fun s => (delta s).nodes.filter relevant).Perm
      (order.flatMap fun s => s.nodes.filter relevant) :=
    List.Perm.flatMap_left order fun s _ => hnodes s
  exact heach.trans (horder.flatMap_right _)

/-- the links of a delta after the run over the corpus. -/
theorem linked_corpus {order : List Snapshot} (horder : order.Perm c.snapshots)
    {delta : Snapshot → Delta} (hcorpus : ∀ s, (delta s).corpus_id = s.corpusId)
    (hrepository : ∀ s, (delta s).repository_id = s.repositoryId)
    (hnodes : ∀ s, ∃ edges, (delta s).nodes = (deltaOf host s edges).nodes)
    {G : LinkKind → String → String → Prop} (hs : s ∈ c.snapshots)
    (h : Marked (c.nodes.map (·.external_id)) (Taken s) G (delta s).edges) :
    Linked (linkDelta host (corpusNodes (order.map delta) (delta s).corpus_id) (delta s))
        kind x t ↔
      G kind x t ∨ Resolves s.repositoryId c.nodes s.nodes kind x t ∧ ¬Taken s kind x t := by
  have halike : Alike (corpusNodes (order.map delta) (delta s).corpus_id) c.nodes := by
    rw [hcorpus, c.same s hs]
    refine alike_corpusNodes horder delta hcorpus fun s => ?_
    obtain ⟨edges, heq⟩ := hnodes s
    rw [heq]
    exact alike_deltaOf
  have hsources : ∀ all kind x t, Resolves s.repositoryId all (delta s).nodes kind x t ↔
      Resolves s.repositoryId all s.nodes kind x t := by
    intro all kind x t
    obtain ⟨edges, heq⟩ := hnodes s
    rw [heq]
    exact resolves_deltaOf
  exact (h.linkDelta hs (hrepository s) hsources halike fun _ hv => hv).linked rfl

/-! ## what is submitted -/

/-- the snapshot that a request indexes. -/
def IndexRequest.parsed (request : IndexRequest) : Option Snapshot :=
  match request.indexed with
  | .ok snapshot => snapshot
  | .error _ => none

/-- the snapshots that a run over repositories indexes. -/
def indexedSnapshots (mode : IndexingMode) (repositories : List Repository) : List Snapshot :=
  if (pendingSnapshots mode repositories).isEmpty then []
  else pendingSnapshots mode repositories ++
    (unchangedRequests mode repositories).filterMap IndexRequest.parsed

/-- The deltas that the engine or the pipeline gives for the snapshots of a corpus, in any order,
whatever the requests say of earlier runs. -/
def Submitted (host : Host) (c : Corpus host) (deltas : List Delta) : Prop :=
  (∃ requests, buildCorpusDeltas host requests = .ok deltas ∧
    (requests.filterMap IndexRequest.parsed).Perm c.snapshots) ∨
  ∃ mode repositories, indexCorpusSequentially host mode repositories = .ok deltas ∧
    (indexedSnapshots mode repositories).Perm c.snapshots

theorem built_deltas {requests : List IndexRequest} {results : List (Option Delta)}
    (h : requests.mapM (buildRepositoryDelta host) = .ok results) :
    results.filterMap id =
      (requests.filterMap IndexRequest.parsed).map (repositoryDelta host) := by
  induction requests generalizing results with
  | nil =>
    cases h
    rfl
  | cons request requests ih =>
    rw [List.mapM_cons] at h
    cases hindexed : request.indexed with
    | error message =>
      rw [buildRepositoryDelta, hindexed] at h
      cases h
    | ok parsed =>
      rw [buildRepositoryDelta, hindexed] at h
      cases hrest : requests.mapM (buildRepositoryDelta host) with
      | error message =>
        rw [hrest] at h
        cases h
      | ok rest =>
        rw [hrest] at h
        cases h
        have hparsed : request.parsed = parsed := by rw [IndexRequest.parsed, hindexed]
        cases parsed with
        | none => rw [List.filterMap_cons_none rfl, List.filterMap_cons_none hparsed, ih hrest]
        | some snapshot =>
          rw [List.filterMap_cons_some hparsed, List.map_cons, ← ih hrest]
          rfl

/-- **What is submitted was linked in some order of the snapshots.** -/
theorem submitted_order {deltas : List Delta} (h : Submitted host c deltas) :
    ∃ order : List Snapshot, order.Perm c.snapshots ∧
      deltas = linkCorpusDeltas host (order.map (repositoryDelta host)) := by
  rcases h with ⟨requests, hbuild, hperm⟩ | ⟨mode, repositories, hbuild, hperm⟩
  · refine ⟨_, hperm, ?_⟩
    unfold buildCorpusDeltas at hbuild
    cases hresults : requests.mapM (buildRepositoryDelta host) with
    | error message =>
      rw [hresults] at hbuild
      cases hbuild
    | ok results =>
      rw [hresults] at hbuild
      cases hbuild
      dsimp only
      rw [built_deltas hresults]
  · refine ⟨_, hperm, ?_⟩
    unfold indexCorpusSequentially at hbuild
    unfold indexedSnapshots
    split at hbuild
    · rename_i hempty
      cases hbuild
      rw [if_pos hempty]
      rfl
    · rename_i hsome
      rw [if_neg hsome]
      cases hresults : (unchangedRequests mode repositories).mapM
          (buildRepositoryDelta host) with
      | error message =>
        rw [hresults] at hbuild
        cases hbuild
      | ok results =>
        rw [hresults] at hbuild
        cases hbuild
        dsimp only
        rw [List.map_append, built_deltas hresults]

/-- every corpus is submitted, by one request for each snapshot. -/
theorem submitted_once (c : Corpus host) :
    Submitted host c (linkCorpusDeltas host (c.snapshots.map (repositoryDelta host))) := by
  refine .inl ⟨c.snapshots.map fun s => ⟨.full_rebuild, none, s.headSha, 0, .ok s⟩, ?_, ?_⟩
  · have hresults : ∀ l : List Snapshot, (l.map fun s =>
        (⟨.full_rebuild, none, s.headSha, 0, .ok s⟩ : IndexRequest)).mapM
          (buildRepositoryDelta host) = .ok (l.map fun s => some (repositoryDelta host s)) := by
      intro l
      induction l with
      | nil => rfl
      | cons s l ih =>
        rw [List.map_cons, List.mapM_cons, ih]
        rfl
    unfold buildCorpusDeltas
    rw [hresults]
    show Except.ok (linkCorpusDeltas host _) = _
    rw [List.filterMap_map]
    congr 2
    exact List.filterMap_eq_map ▸ rfl
  · rw [List.filterMap_map]
    have hsome : (IndexRequest.parsed ∘ fun s : Snapshot =>
        (⟨.full_rebuild, none, s.headSha, 0, .ok s⟩ : IndexRequest)) = some := rfl
    rw [hsome, List.filterMap_some]

/-! ## when the links are those of the corpus -/

/-- an action or a consumer is linked to its only candidate. -/
theorem resolves_iff_candidates {all : List GraphNode} {r : String}
    (hkind : kind ∈ [LinkKind.triggers, .matches_route]) :
    Resolves r all s.nodes kind x t ↔ ∃ v ∈ s.nodes, kindOf v = some kind ∧
      v.external_id = x ∧ ∃ n, candidates all v = [n] ∧ n.external_id = t := by
  have htarget : ∀ v, kindOf v = some kind → targetOf r all v = only (candidates all v) := by
    intro v hv
    unfold targetOf
    refine if_neg fun htype => ?_
    rw [kindOf, if_pos htype] at hv
    cases hv
    simp at hkind
  constructor
  · rintro ⟨v, hv, hk, hx, ht⟩
    obtain ⟨n, hn, hid⟩ := Option.map_eq_some_iff.mp ht
    rw [htarget v hk] at hn
    exact ⟨v, hv, hk, hx, n, only_eq_some.mp hn, hid⟩
  · rintro ⟨v, hv, hk, hx, n, hn, hid⟩
    refine ⟨v, hv, hk, hx, Option.map_eq_some_iff.mpr ⟨n, ?_, hid⟩⟩
    rw [htarget v hk]
    exact only_eq_some.mpr hn

/-- an import leads to the same file, whatever else is in the corpus. -/
theorem resolves_import (hs : s ∈ c.snapshots)
    (h : Resolves s.repositoryId s.nodes s.nodes .resolves_to x t) :
    Resolves s.repositoryId c.nodes s.nodes .resolves_to x t := by
  obtain ⟨v, hv, hk, hx, ht⟩ := h
  refine ⟨v, hv, hk, hx, ?_⟩
  have htype : v.node_type = "module_reference" := by
    unfold kindOf at hk
    split at hk
    · assumption
    · split at hk
      · cases hk
      · split at hk <;> cases hk
  rw [targetId, targetOf, if_pos htype] at ht ⊢
  rw [← ht]
  refine (importedFile_id (fun f path hkey => ?_) ?_ v).symm
  · exact ⟨fun hf => c.mem_nodes hs hf, fun hf => c.home s hs f hf path hkey⟩
  · exact fun f hf f' hf' => c.fileIds f (c.mem_nodes hs hf) f' (c.mem_nodes hs hf')

/-- the links of a delta that is submitted, and of one that is linked once. -/
theorem linked_submitted {order : List Snapshot} (horder : order.Perm c.snapshots) {d : Delta}
    (hd : d ∈ linkCorpusDeltas host (order.map (repositoryDelta host))) :
    ∃ s ∈ c.snapshots, d.repository_id = s.repositoryId ∧
      (∀ v, v ∈ d.nodes ↔ v ∈ s.nodes ∨ v ∈ repositoryNodes s) ∧
      ∀ kind x t, Linked d kind x t ↔
        (Resolves s.repositoryId s.nodes s.nodes kind x t ∨
          Resolves s.repositoryId c.nodes s.nodes kind x t) ∧ ¬Taken s kind x t := by
  unfold linkCorpusDeltas at hd
  rw [List.map_map] at hd
  obtain ⟨s, hs, rfl⟩ := List.mem_map.mp hd
  have hs' := horder.mem_iff.mp hs
  have hnodes : ∀ v, v ∈ (deltaOf host s (parseSnapshot host s)).nodes ↔
      v ∈ s.nodes ∨ v ∈ repositoryNodes s := fun v => mem_deltaOf_nodes
  refine ⟨s, hs', rfl, hnodes, fun kind x t => ?_⟩
  have hcorpus : ∀ s, (repositoryDelta host s).corpus_id = s.corpusId := fun _ => rfl
  refine (linked_corpus horder hcorpus (fun _ => rfl) (fun s => ⟨parseSnapshot host s, rfl⟩) hs'
    (marked_repositoryDelta hs')).trans ?_
  rw [or_and_right]

theorem linked_once {o : Delta}
    (ho : o ∈ linkCorpusDeltas host (c.snapshots.map (unlinked host))) :
    ∃ s ∈ c.snapshots, o.repository_id = s.repositoryId ∧ ∀ kind x t, Linked o kind x t ↔
      Resolves s.repositoryId c.nodes s.nodes kind x t ∧ ¬Taken s kind x t := by
  unfold linkCorpusDeltas at ho
  rw [List.map_map] at ho
  obtain ⟨s, hs, rfl⟩ := List.mem_map.mp ho
  refine ⟨s, hs, rfl, fun kind x t => ?_⟩
  have hcorpus : ∀ s, (unlinked host s).corpus_id = s.corpusId := fun _ => rfl
  refine (linked_corpus (List.Perm.refl _) hcorpus (fun _ => rfl) (fun s => ⟨s.edges, rfl⟩) hs
    (marked_deltaOf hs marked_parsed)).trans ?_
  rw [false_or]

theorem mem_linked (host : Host) {deltas : List Delta} {d : Delta} (hd : d ∈ deltas) :
    ∃ d' ∈ linkCorpusDeltas host deltas, d'.repository_id = d.repository_id :=
  ⟨_, List.mem_map.mpr ⟨d, hd, rfl⟩, rfl⟩

theorem Corpus.snapshot_eq {s s' : Snapshot} (hs : s ∈ c.snapshots) (hs' : s' ∈ c.snapshots)
    (h : s.repositoryId = s'.repositoryId) : s = s' :=
  List.inj_on_of_nodup_map c.distinct hs hs' h

/-- **What is submitted has the links of the corpus, in every order and after every history,
exactly when** the nodes of one repository alone link as the corpus does, and a node that is meant
is listed once. -/
theorem faithful_iff_stable {host : Host} (c : Corpus host) :
    (∀ deltas, Submitted host c deltas → Faithful c deltas) ↔ Stable c := by
  constructor
  · intro h
    have hf := h _ (submitted_once c)
    -- a snapshot has a delta among those submitted, and one that was linked once
    have hboth : ∀ s ∈ c.snapshots,
        ∃ d ∈ linkCorpusDeltas host (c.snapshots.map (repositoryDelta host)),
          (∀ v, v ∈ d.nodes ↔ v ∈ s.nodes ∨ v ∈ repositoryNodes s) ∧
          (∀ kind x t, Linked d kind x t ↔
            (Resolves s.repositoryId s.nodes s.nodes kind x t ∨
              Resolves s.repositoryId c.nodes s.nodes kind x t) ∧ ¬Taken s kind x t) ∧
          ∀ kind x t, Linked d kind x t →
            Resolves s.repositoryId c.nodes s.nodes kind x t ∧ ¬Taken s kind x t := by
      intro s hs
      obtain ⟨d, hd, hds⟩ := mem_linked host
        (List.mem_map.mpr ⟨s, hs, rfl⟩ : repositoryDelta host s ∈ _)
      obtain ⟨o, ho, hos⟩ := mem_linked host
        (List.mem_map.mpr ⟨s, hs, rfl⟩ : unlinked host s ∈ _)
      obtain ⟨s₁, hs₁, hd₁, hnodes, hlinks⟩ := linked_submitted (List.Perm.refl _) hd
      obtain ⟨s₂, hs₂, ho₂, honce⟩ := linked_once ho
      cases c.snapshot_eq hs₁ hs (hd₁.symm.trans hds)
      cases c.snapshot_eq hs₂ hs (ho₂.symm.trans hos)
      refine ⟨d, hd, hnodes, hlinks, fun kind x t hlinked => ?_⟩
      rw [← honce]
      exact (hf.same d hd o ho (hds.trans hos.symm) kind x t).mp hlinked
    constructor
    · intro s hs v hv kind hkind hk t hone hfree
      obtain ⟨d, -, -, hlinks, honce⟩ := hboth s hs
      have hlocal : Resolves s.repositoryId s.nodes s.nodes kind v.external_id t.external_id :=
        (resolves_iff_candidates hkind).mpr ⟨v, hv, hk, rfl, t, hone, rfl⟩
      obtain ⟨hcorpus, -⟩ := honce _ _ _ ((hlinks _ _ _).mpr ⟨.inl hlocal, hfree⟩)
      exact (resolves_iff_candidates hkind).mp hcorpus
    · intro s hs v hv kind hkind hk hunique
      obtain ⟨d, hd, hnodes, -, honce⟩ := hboth s hs
      obtain ⟨t, hlinked⟩ := (hf.unique d hd kind hkind v.external_id).mpr
        ⟨v, (hnodes v).mpr (.inl hv), hk, rfl, hunique⟩
      obtain ⟨hcorpus, hfree⟩ := honce _ _ _ hlinked
      obtain ⟨v', hv', hk', hx, n, hn, rfl⟩ := (resolves_iff_candidates hkind).mp hcorpus
      exact ⟨v', hv', hk', hx, n, hn, hfree⟩
  · intro h deltas hsub
    obtain ⟨order, horder, rfl⟩ := submitted_order hsub
    refine ⟨?_, link_link host _, ?_⟩
    · intro d hd o ho hrepository kind x t
      obtain ⟨s, hs, hds, -, hlinks⟩ := linked_submitted horder hd
      obtain ⟨s', hs', hos, hlinks'⟩ := linked_once ho
      cases c.snapshot_eq hs hs' (hds.symm.trans (hrepository.trans hos))
      rw [hlinks, hlinks']
      refine and_congr_left fun hfree => or_iff_right_of_imp fun hlocal => ?_
      cases kind with
      | resolves_to => exact resolves_import hs hlocal
      | triggers | matches_route =>
        obtain ⟨v, hv, hk, rfl, n, hn, rfl⟩ := (resolves_iff_candidates (by simp)).mp hlocal
        obtain ⟨v', hv', hk', hx, t', ht', hid⟩ := h.kept s hs v hv _ (by simp) hk n hn hfree
        exact (resolves_iff_candidates (by simp)).mpr ⟨v', hv', hk', hx, t', ht', hid⟩
    · intro d hd kind hkind x
      obtain ⟨s, hs, -, hnodes, hlinks⟩ := linked_submitted horder hd
      constructor
      · rintro ⟨t, hlinked⟩
        obtain ⟨hresolves, hfree⟩ := (hlinks kind x t).mp hlinked
        -- the link is one of the corpus: so far the condition
        have hcorpus : Resolves s.repositoryId c.nodes s.nodes kind x t := by
          rcases hresolves with hlocal | hcorpus
          · obtain ⟨v, hv, hk, rfl, n, hn, rfl⟩ := (resolves_iff_candidates hkind).mp hlocal
            obtain ⟨v', hv', hk', hx, t', ht', hid⟩ := h.kept s hs v hv kind hkind hk n hn hfree
            exact (resolves_iff_candidates hkind).mpr ⟨v', hv', hk', hx, t', ht', hid⟩
          · exact hcorpus
        obtain ⟨v, hv, hk, hx, n, hn, -⟩ := (resolves_iff_candidates hkind).mp hcorpus
        refine ⟨v, (hnodes v).mpr (.inl hv), hk, hx, n.external_id,
          ⟨n, hn ▸ List.mem_singleton_self n, rfl⟩, ?_⟩
        rintro id ⟨n', hn', rfl⟩
        rw [hn] at hn'
        rw [List.mem_singleton.mp hn']
      · rintro ⟨v, hv, hk, rfl, hunique⟩
        have hv' : v ∈ s.nodes := by
          rcases (hnodes v).mp hv with hv | hv
          · exact hv
          · rw [(kindOf_repositoryNodes hv).1] at hk
            cases hk
        obtain ⟨v', hv'', hk', hx, t, ht, hfree⟩ := h.single s hs v hv' kind hkind hk hunique
        refine ⟨t.external_id, (hlinks _ _ _).mpr ⟨.inr ?_, hfree⟩⟩
        exact (resolves_iff_candidates hkind).mpr ⟨v', hv'', hk', hx, t, ht, rfl⟩

end

/-! ## two repositories that define one name -/

/-- a host that orders texts by their characters. -/
def plainHost : Host where
  localeLe a b := decide (a ≤ b)
  localeLe_total a b := by
    rcases String.le_total a b with h | h
    · exact .inl (decide_eq_true h)
    · exact .inr (decide_eq_true h)
  localeLe_trans a b c h h' :=
    decide_eq_true (String.le_trans (of_decide_eq_true h) (of_decide_eq_true h'))
  encodeGraphId path := path

/-- a button that calls `save`. -/
def saveButton : GraphNode :=
  ⟨"c:a:file:index.html:ui-action:save", "ui_action", obj [("target_symbol_name", str "save"),
    ("path", str "index.html"), ("provenance", obj [("repository", str "a")])]⟩

/-- `save`, in a repository. -/
def saveCallable (repository : String) : GraphNode :=
  ⟨"c:" ++ repository ++ ":symbol:save.ts#save", "callable", obj [("name", str "save"),
    ("qualified_name", str "save"), ("path", str "save.ts"),
    ("provenance", obj [("repository", str repository)])]⟩

def snapshotA : Snapshot := ⟨"c", "a", "1", [saveButton, saveCallable "a"], [], nofun⟩

def snapshotB : Snapshot := ⟨"c", "b", "1", [saveCallable "b"], [], nofun⟩

/-- two repositories that define `save`, and a button of one that calls it. -/
def twoSaves : Corpus plainHost where
  corpusId := "c"
  snapshots := [snapshotA, snapshotB]
  same := by decide
  distinct := by decide
  home s _ f hf path hkey := by
    have hnone : ∀ f ∈ [snapshotA, snapshotB].flatMap (·.nodes), fileKey f = none := by
      decide +kernel
    rw [hnone f hf] at hkey
    cases hkey
  fileIds f hf f' _ key hkey := by
    have hnone : ∀ f ∈ [snapshotA, snapshotB].flatMap (·.nodes), fileKey f = none := by
      decide +kernel
    rw [hnone f hf] at hkey
    cases hkey
  apart := by
    intro kind kind'
    cases kind <;> cases kind' <;> decide +kernel
  plain := by
    have hall : ∀ s ∈ [snapshotA, snapshotB], ∀ e ∈ repositoryEdges plainHost s,
        ∀ kind ∈ [LinkKind.resolves_to, .triggers, .matches_route],
        ∀ x ∈ ([snapshotA, snapshotB].flatMap (·.nodes)).map (·.external_id),
        ∀ t ∈ ([snapshotA, snapshotB].flatMap (·.nodes)).map (·.external_id),
          e.external_id ≠ edgeId kind x t := by
      decide +kernel
    intro s hs e he kind
    exact hall s hs e he kind (by cases kind <;> simp)

/-- The button is linked to the `save` of its repository although the corpus has two. -/
theorem link_outlives_its_reason :
    ¬∀ (c : Corpus plainHost) (deltas : List Delta), Submitted plainHost c deltas →
      Faithful c deltas := by
  intro h
  have hf := h twoSaves _ (submitted_once twoSaves)
  have hlinked : ∀ d ∈ linkCorpusDeltas plainHost
        (twoSaves.snapshots.map (repositoryDelta plainHost)),
      ∀ o ∈ linkCorpusDeltas plainHost (twoSaves.snapshots.map (unlinked plainHost)),
        d.repository_id = "a" → o.repository_id = "a" →
          Linked d .triggers saveButton.external_id (saveCallable "a").external_id ∧
            ¬Linked o .triggers saveButton.external_id (saveCallable "a").external_id := by
    decide +kernel
  have hd : ∃ d ∈ linkCorpusDeltas plainHost
      (twoSaves.snapshots.map (repositoryDelta plainHost)), d.repository_id = "a" :=
    mem_linked plainHost (List.mem_cons_self : repositoryDelta plainHost snapshotA ∈ _)
  have ho : ∃ o ∈ linkCorpusDeltas plainHost (twoSaves.snapshots.map (unlinked plainHost)),
      o.repository_id = "a" :=
    mem_linked plainHost (List.mem_cons_self : unlinked plainHost snapshotA ∈ _)
  obtain ⟨d, hd, hda⟩ := hd
  obtain ⟨o, ho, hoa⟩ := ho
  obtain ⟨hyes, hno⟩ := hlinked d hd o ho hda hoa
  exact hno ((hf.same d hd o ho (hda.trans hoa.symm) _ _ _).mp hyes)

end CodeIntelligence
end WmAutopilot
