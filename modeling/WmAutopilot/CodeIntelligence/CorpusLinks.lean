import WmAutopilot.CodeIntelligence.CorpusLinker

/-!
# What a run of the linker adds

* `Alike`, `targetId_alike`   what a node is linked to depends on few of the nodes, in any order;
* `IsLink`, `Resolves`        the edges that a run makes, by the ids of their ends;
* `link_link`                 linking again changes nothing;
* `Marked`, `Marked.link`     the links among the edges, after every run of the linker.
-/

set_option autoImplicit false

namespace WmAutopilot
namespace CodeIntelligence
open Js Value

/-! ## nodes that matter -/

/-- the nodes that links lead to. -/
def relevant (v : GraphNode) : Bool :=
  v.node_type ∈ ["callable", "declaration", "http_route", "file"]

/-- the same nodes that links lead to, in any order. -/
def Alike (all all' : List GraphNode) : Prop := (all.filter relevant).Perm (all'.filter relevant)

section
variable {all all' : List GraphNode} {v : GraphNode}

theorem Alike.filter (h : Alike all all') {p : GraphNode → Bool}
    (hp : ∀ v, p v = true → relevant v = true) : (all.filter p).Perm (all'.filter p) := by
  have hboth : ∀ l : List GraphNode, (l.filter relevant).filter p = l.filter p := by
    intro l
    rw [List.filter_filter]
    refine List.filter_congr fun v _ => ?_
    cases hv : p v with
    | true => rw [hp v hv, Bool.and_true]
    | false => exact Bool.false_and _
  rw [← hboth all, ← hboth all']
  exact List.Perm.filter p h

theorem Alike.of_perm (h : all.Perm all') : Alike all all' := h.filter relevant

theorem Alike.trans {all'' : List GraphNode} (h : Alike all all') (h' : Alike all' all'') :
    Alike all all'' :=
  List.Perm.trans h h'

theorem Alike.append_neutral {extra : List GraphNode} (h : ∀ v ∈ extra, relevant v = false) :
    Alike (all ++ extra) all := by
  have hnil : extra.filter relevant = [] :=
    List.filter_eq_nil_iff.mpr fun v hv => by rw [h v hv]; exact Bool.false_ne_true
  unfold Alike
  rw [List.filter_append, hnil, List.append_nil]

theorem relevant_of_isNamed {name : String} (h : isNamed name v = true) : relevant v = true := by
  unfold isNamed at h
  unfold relevant
  simp only [Bool.and_eq_true, Bool.or_eq_true, decide_eq_true_eq] at h
  rcases h.1.1 with h | h <;> rw [h] <;> rfl

theorem relevant_of_fileKey {key : String} (h : fileKey v = some key) : relevant v = true := by
  unfold fileKey at h
  split at h
  · split at h
    · rename_i htype
      unfold relevant
      rw [htype]
      rfl
    · cases h
  · cases h

/-- the candidates do not depend on the order of the nodes. -/
theorem candidates_perm (h : Alike all all') (v : GraphNode) :
    (candidates all v).Perm (candidates all' v) := by
  have hnames : ∀ name, (symbolsByName all name).Perm (symbolsByName all' name) := fun name =>
    h.filter fun _ => relevant_of_isNamed
  have hroutes : ∀ key, (routes all key).Perm (routes all' key) := fun key =>
    h.filter fun w hw => by
      simp only [Bool.and_eq_true, decide_eq_true_eq] at hw
      unfold relevant
      rw [hw.1]
      rfl
  unfold candidates
  split
  · cases v.text "target_symbol_name" with
    | none => exact List.Perm.refl _
    | some requested =>
      dsimp only
      by_cases hnil : symbolsByName all requested = []
      · have hnil' : symbolsByName all' requested = [] := by
          have hperm := hnames requested
          rw [hnil] at hperm
          exact hperm.symm.eq_nil
        rw [if_pos hnil, if_pos hnil']
        exact hnames _
      · have hnil' : symbolsByName all' requested ≠ [] := by
          intro heq
          have hperm := hnames requested
          rw [heq] at hperm
          exact hnil hperm.eq_nil
        rw [if_neg hnil, if_neg hnil']
        exact hnames _
  · split
    · exact hroutes _
    · exact List.Perm.refl _

theorem only_eq_some {α : Type} {l : List α} {x : α} : only l = some x ↔ l = [x] := by
  match l with
  | [] => exact ⟨nofun, nofun⟩
  | [y] => exact ⟨fun h => by rw [Option.some.inj h], fun h => by cases h; rfl⟩
  | _ :: _ :: _ => exact ⟨nofun, nofun⟩

theorem only_perm {α : Type} {l l' : List α} (h : l.Perm l') : only l = only l' := by
  refine Option.ext fun x => ?_
  rw [only_eq_some, only_eq_some]
  constructor
  · intro heq
    rw [heq] at h
    exact h.symm.eq_singleton
  · intro heq
    rw [heq] at h
    exact h.eq_singleton

/-! ## files -/

theorem fileAt_spec {key : String} {f : GraphNode} (h : fileAt all key = some f) :
    f ∈ all ∧ fileKey f = some key := by
  have hmem := List.mem_filter.mp (List.mem_of_getLast? h)
  exact ⟨hmem.1, of_decide_eq_true hmem.2⟩

theorem fileAt_eq_none {key : String} (h : fileAt all key = none) :
    ∀ f ∈ all, fileKey f ≠ some key := by
  intro f hf hkey
  have hnil := List.getLast?_eq_none_iff.mp h
  have hmem : f ∈ all.filter fun v => fileKey v = some key :=
    List.mem_filter.mpr ⟨hf, decide_eq_true hkey⟩
  rw [hnil] at hmem
  cases hmem

/-- the id of the file of a key, when files of a key have one id. -/
theorem fileAt_id {key : String} (hmem : ∀ f, fileKey f = some key → (f ∈ all ↔ f ∈ all'))
    (hid : ∀ f ∈ all, ∀ f' ∈ all, fileKey f = some key → fileKey f' = some key →
      f.external_id = f'.external_id) :
    (fileAt all key).map (·.external_id) = (fileAt all' key).map (·.external_id) := by
  cases hf : fileAt all key with
  | none =>
    cases hf' : fileAt all' key with
    | none => rfl
    | some f' =>
      obtain ⟨hin, hkey⟩ := fileAt_spec hf'
      exact absurd hkey (fileAt_eq_none hf f' ((hmem f' hkey).mpr hin))
  | some f =>
    obtain ⟨hin, hkey⟩ := fileAt_spec hf
    cases hf' : fileAt all' key with
    | none => exact absurd hkey (fileAt_eq_none hf' f ((hmem f hkey).mp hin))
    | some f' =>
      obtain ⟨hin', hkey'⟩ := fileAt_spec hf'
      exact congrArg some (hid f hin f' ((hmem f' hkey').mpr hin') hkey hkey')

theorem importedFile_id {repositoryId : String}
    (hmem : ∀ f path, fileKey f = some (repositoryId ++ ":" ++ path) → (f ∈ all ↔ f ∈ all'))
    (hid : ∀ f ∈ all, ∀ f' ∈ all, ∀ key, fileKey f = some key → fileKey f' = some key →
      f.external_id = f'.external_id) (v : GraphNode) :
    (importedFile repositoryId all v).map (·.external_id) =
      (importedFile repositoryId all' v).map (·.external_id) := by
  have hfile : ∀ path, (fileAt all (repositoryId ++ ":" ++ path)).map (·.external_id) =
      (fileAt all' (repositoryId ++ ":" ++ path)).map (·.external_id) := fun path =>
    fileAt_id (hmem · path) fun f hf f' hf' => hid f hf f' hf' _
  unfold importedFile
  cases v.text "resolved_path" with
  | none => rfl
  | some path =>
    rw [Option.bind_some, Option.bind_some, Option.map_or, Option.map_or, hfile, hfile]

/-! ## what a node is linked to -/

/-- the id of what a node is linked to. -/
def targetId (repositoryId : String) (all : List GraphNode) (v : GraphNode) : Option String :=
  (targetOf repositoryId all v).map (·.external_id)

theorem targetId_alike {repositoryId : String} (h : Alike all all')
    (hid : ∀ f ∈ all, ∀ f' ∈ all, ∀ key, fileKey f = some key → fileKey f' = some key →
      f.external_id = f'.external_id) (v : GraphNode) :
    targetId repositoryId all v = targetId repositoryId all' v := by
  unfold targetId targetOf
  split
  · refine importedFile_id (fun f path hkey => ?_) hid v
    have hmem := (List.Perm.mem_iff h : f ∈ all.filter relevant ↔ f ∈ all'.filter relevant)
    rw [List.mem_filter, List.mem_filter, relevant_of_fileKey hkey] at hmem
    simpa using hmem
  · rw [only_perm (candidates_perm h v)]

end

/-! ## links -/

/-- an edge is a link of a kind between two ids. -/
structure IsLink (e : GraphEdge) (kind : LinkKind) (x t : String) : Prop where
  made : e.madeByLinker = true
  type : e.relationship_type = kind.relationship
  source : e.from_external_id = x
  target : e.to_external_id = t
  id : e.external_id = edgeId kind x t

theorem isLink_linkEdge (kind : LinkKind) (v n : GraphNode) :
    IsLink (linkEdge kind v n) kind v.external_id n.external_id := by
  refine ⟨?_, rfl, rfl, rfl, rfl⟩
  have hget : ((v.properties.get "provenance").spread [("parser", corpusLinker),
      ("confidence", num kind.confidence), ("evidence", str kind.evidence)]).get "parser" =
        corpusLinker := by
    rw [(get_spread _ _ _).1]
    rfl
  unfold GraphEdge.madeByLinker
  exact decide_eq_true hget

theorem relationship_inj {kind kind' : LinkKind} (h : kind.relationship = kind'.relationship) :
    kind = kind' := by
  cases kind <;> cases kind' <;> first | rfl | exact absurd h (by decide)

/-- a delta has a link of a kind between two ids. -/
def Linked (d : Delta) (kind : LinkKind) (x t : String) : Prop :=
  ∃ e ∈ d.edges, e.madeByLinker = true ∧ e.relationship_type = kind.relationship ∧
    e.from_external_id = x ∧ e.to_external_id = t

instance (d : Delta) (kind : LinkKind) (x t : String) : Decidable (Linked d kind x t) :=
  inferInstanceAs (Decidable (∃ e ∈ d.edges, e.madeByLinker = true ∧
    e.relationship_type = kind.relationship ∧ e.from_external_id = x ∧ e.to_external_id = t))

/-- a node of an id is linked to an id, over the nodes `all`. -/
def Resolves (repositoryId : String) (all nodes : List GraphNode) (kind : LinkKind)
    (x t : String) : Prop :=
  ∃ v ∈ nodes, kindOf v = some kind ∧ v.external_id = x ∧ targetId repositoryId all v = some t

section
variable {repositoryId : String} {all nodes : List GraphNode} {kind : LinkKind} {x t : String}

theorem mem_generated {e : GraphEdge} : e ∈ generated repositoryId all nodes ↔
    ∃ v ∈ nodes, ∃ kind n, kindOf v = some kind ∧ targetOf repositoryId all v = some n ∧
      linkEdge kind v n = e := by
  unfold generated
  rw [List.mem_filterMap]
  constructor
  · rintro ⟨v, hv, he⟩
    split at he
    · rename_i kind n hkind hn
      exact ⟨v, hv, kind, n, hkind, hn, Option.some.inj he⟩
    · cases he
  · rintro ⟨v, hv, kind, n, hkind, hn, he⟩
    exact ⟨v, hv, by rw [hkind, hn, ← he]⟩

theorem resolves_of_generated {e : GraphEdge} (h : e ∈ generated repositoryId all nodes) :
    ∃ kind x t, Resolves repositoryId all nodes kind x t ∧ IsLink e kind x t := by
  obtain ⟨v, hv, kind, n, hkind, hn, rfl⟩ := mem_generated.mp h
  exact ⟨kind, v.external_id, n.external_id,
    ⟨v, hv, hkind, rfl, by rw [targetId, hn]; rfl⟩, isLink_linkEdge kind v n⟩

theorem generated_of_resolves (h : Resolves repositoryId all nodes kind x t) :
    ∃ e ∈ generated repositoryId all nodes, IsLink e kind x t := by
  obtain ⟨v, hv, hkind, rfl, ht⟩ := h
  obtain ⟨n, hn, rfl⟩ := Option.map_eq_some_iff.mp ht
  exact ⟨linkEdge kind v n, mem_generated.mpr ⟨v, hv, kind, n, hkind, hn, rfl⟩,
    isLink_linkEdge kind v n⟩

end

theorem mem_linkDelta {host : Host} {all : List GraphNode} {d : Delta} {e : GraphEdge} :
    e ∈ (linkDelta host all d).edges ↔ e ∈ d.edges ∨
      e ∈ generated d.repository_id all d.nodes ∧
        e.external_id ∉ d.edges.map (·.external_id) := by
  show e ∈ sortEdges host _ ↔ _
  rw [sortEdges, List.mem_insertionSort, List.mem_append, List.mem_filter, decide_eq_true_iff]

/-! ## linking again -/

theorem pairwise_sortEdges (host : Host) (edges : List GraphEdge) :
    (sortEdges host edges).Pairwise
      fun a b => host.localeLe a.external_id b.external_id = true := by
  have htotal : Std.Total fun a b : GraphEdge =>
      host.localeLe a.external_id b.external_id = true :=
    ⟨fun a b => host.localeLe_total _ _⟩
  have htrans : IsTrans GraphEdge fun a b =>
      host.localeLe a.external_id b.external_id = true :=
    ⟨fun a b c => host.localeLe_trans _ _ _⟩
  exact List.pairwise_insertionSort _ _

theorem setField_setField (k : String) (v : Value) (fs : List (String × Value)) :
    setField k v (setField k v fs) = setField k v fs := by
  induction fs with
  | nil => simp [setField]
  | cons f fs ih =>
    obtain ⟨l, w⟩ := f
    unfold setField
    by_cases h : l = k
    · simp [h, setField]
    · simp [h, setField, ih]

theorem spread_spread (o : Value) (k : String) (v : Value) :
    (o.spread [(k, v)]).spread [(k, v)] = o.spread [(k, v)] := by
  have hset : ∀ fs, (((obj fs).set k v)).spread [(k, v)] = (obj fs).set k v := fun fs => by
    show (obj (setField k v (setField k v fs))) = obj (setField k v fs)
    rw [setField_setField]
  cases o <;> exact hset _

/-- **A second run over the same nodes changes nothing.** -/
theorem linkDelta_linkDelta (host : Host) (all : List GraphNode) (d : Delta) :
    linkDelta host all (linkDelta host all d) = linkDelta host all d := by
  set d' := linkDelta host all d with hd'
  have hnone : (generated d'.repository_id all d'.nodes).filter
      (fun e => e.external_id ∉ d'.edges.map (·.external_id)) = [] := by
    refine List.filter_eq_nil_iff.mpr fun e he hnew => ?_
    refine of_decide_eq_true hnew ?_
    by_cases hold : e.external_id ∈ d.edges.map (·.external_id)
    · obtain ⟨e₀, he₀, heq⟩ := List.mem_map.mp hold
      exact List.mem_map.mpr ⟨e₀, mem_linkDelta.mpr (.inl he₀), heq⟩
    · exact List.mem_map.mpr ⟨e, mem_linkDelta.mpr (.inr ⟨he, hold⟩), rfl⟩
  have hsorted : sortEdges host d'.edges = d'.edges :=
    (pairwise_sortEdges host _).insertionSort_eq
  have hparser : d'.parser_metadata.spread [("linker", corpusLinker)] = d'.parser_metadata :=
    spread_spread _ _ _
  have hindex : d'.index_metadata.spread [("corpusLinked", bool true)] = d'.index_metadata :=
    spread_spread _ _ _
  show { d' with edges := _, parser_metadata := _, index_metadata := _ } = d'
  rw [hnone, List.append_nil, hsorted, hparser, hindex]

/-- **Linking again changes nothing.** -/
theorem link_link (host : Host) (deltas : List Delta) :
    linkCorpusDeltas host (linkCorpusDeltas host deltas) = linkCorpusDeltas host deltas := by
  have hnodes : ∀ corpusId, corpusNodes (linkCorpusDeltas host deltas) corpusId =
      corpusNodes deltas corpusId := by
    intro corpusId
    unfold corpusNodes linkCorpusDeltas
    rw [List.filter_map, List.flatMap_map]
    rfl
  show (linkCorpusDeltas host deltas).map _ = _
  conv_rhs => rw [linkCorpusDeltas]
  rw [linkCorpusDeltas, List.map_map]
  refine List.map_congr_left fun d _ => ?_
  have hd := hnodes d.corpus_id
  rw [linkCorpusDeltas] at hd
  show linkDelta host (corpusNodes _ d.corpus_id) (linkDelta host _ d) = _
  rw [hd]
  exact linkDelta_linkDelta host _ d

/-! ## the links after every run -/

/-- The links among edges are those of `G`; `B` are the links whose ids the parser has used. -/
structure Marked (ids : List String) (B G : LinkKind → String → String → Prop)
    (E : List GraphEdge) : Prop where
  made : ∀ e ∈ E, e.madeByLinker = true → ∃ kind x t, G kind x t ∧ IsLink e kind x t
  has : ∀ kind x t, G kind x t → ∃ e ∈ E, IsLink e kind x t
  used : ∀ kind, ∀ x ∈ ids, ∀ t ∈ ids,
    (edgeId kind x t ∈ E.map (·.external_id) ↔ B kind x t ∨ G kind x t)

/-- the ids of links tell kind, source and target apart. -/
def ToldApart (ids : List String) : Prop :=
  ∀ kind kind', ∀ x ∈ ids, ∀ x' ∈ ids, ∀ t ∈ ids, ∀ t' ∈ ids,
    edgeId kind x t = edgeId kind' x' t' → kind = kind' ∧ x = x' ∧ t = t'

section
variable {ids : List String} {B G R : LinkKind → String → String → Prop} {E E' : List GraphEdge}

theorem Marked.perm (h : Marked ids B G E) (hp : ∀ e, e ∈ E' ↔ e ∈ E) : Marked ids B G E' where
  made e he := h.made e ((hp e).mp he)
  has kind x t hG := by
    obtain ⟨e, he, hlink⟩ := h.has kind x t hG
    exact ⟨e, (hp e).mpr he, hlink⟩
  used kind x hx t ht := by
    rw [← h.used kind x hx t ht, List.mem_map, List.mem_map]
    simp only [hp]

theorem Marked.congr (h : Marked ids B G E) (hG : ∀ kind x t, G kind x t ↔ R kind x t) :
    Marked ids B R E where
  made e he hm := by
    obtain ⟨kind, x, t, hlink, rest⟩ := h.made e he hm
    exact ⟨kind, x, t, (hG kind x t).mp hlink, rest⟩
  has kind x t hR := h.has kind x t ((hG kind x t).mpr hR)
  used kind x hx t ht := by
    rw [← hG kind x t]
    exact h.used kind x hx t ht

/-- edges that are no links, and have no id of a link. -/
theorem Marked.append (h : Marked ids B G E) (extra : List GraphEdge)
    (hmade : ∀ e ∈ extra, e.madeByLinker = false)
    (hid : ∀ e ∈ extra, ∀ kind, ∀ x ∈ ids, ∀ t ∈ ids, e.external_id ≠ edgeId kind x t) :
    Marked ids B G (E ++ extra) where
  made e he hm := by
    rcases List.mem_append.mp he with he | he
    · exact h.made e he hm
    · rw [hmade e he] at hm
      cases hm
  has kind x t hG := by
    obtain ⟨e, he, hlink⟩ := h.has kind x t hG
    exact ⟨e, List.mem_append_left _ he, hlink⟩
  used kind x hx t ht := by
    rw [← h.used kind x hx t ht, List.map_append, List.mem_append]
    refine or_iff_left fun hmem => ?_
    obtain ⟨e, he, heq⟩ := List.mem_map.mp hmem
    exact hid e he kind x hx t ht heq

/-- **A run of the linker** adds the links of its nodes whose ids are not used. -/
theorem Marked.link (h : Marked ids B G E) (hapart : ToldApart ids) (made : List GraphEdge)
    (hmade : ∀ e ∈ made, ∃ kind x t, R kind x t ∧ IsLink e kind x t)
    (hhas : ∀ kind x t, R kind x t → ∃ e ∈ made, IsLink e kind x t)
    (hids : ∀ kind x t, R kind x t → x ∈ ids ∧ t ∈ ids)
    (hE' : ∀ e, e ∈ E' ↔ e ∈ E ∨ e ∈ made ∧ e.external_id ∉ E.map (·.external_id)) :
    Marked ids B (fun kind x t => G kind x t ∨ R kind x t ∧ ¬B kind x t) E' := by
  have hfree : ∀ {kind x t e}, R kind x t → IsLink e kind x t →
      (e.external_id ∉ E.map (·.external_id) ↔ ¬(B kind x t ∨ G kind x t)) := by
    intro kind x t e hR hlink
    obtain ⟨hx, ht⟩ := hids kind x t hR
    rw [hlink.id, h.used kind x hx t ht]
  refine ⟨?_, ?_, ?_⟩
  · intro e he hm
    rcases (hE' e).mp he with he | ⟨he, hnew⟩
    · obtain ⟨kind, x, t, hG, hlink⟩ := h.made e he hm
      exact ⟨kind, x, t, .inl hG, hlink⟩
    · obtain ⟨kind, x, t, hR, hlink⟩ := hmade e he
      have hno := (hfree hR hlink).mp hnew
      exact ⟨kind, x, t, .inr ⟨hR, fun hB => hno (.inl hB)⟩, hlink⟩
  · intro kind x t hor
    by_cases hG : G kind x t
    · obtain ⟨e, he, hlink⟩ := h.has kind x t hG
      exact ⟨e, (hE' e).mpr (.inl he), hlink⟩
    · obtain ⟨hR, hB⟩ := hor.resolve_left hG
      obtain ⟨e, he, hlink⟩ := hhas kind x t hR
      have hnew := (hfree hR hlink).mpr (not_or.mpr ⟨hB, hG⟩)
      exact ⟨e, (hE' e).mpr (.inr ⟨he, hnew⟩), hlink⟩
  · intro kind x hx t ht
    constructor
    · intro hmem
      obtain ⟨e, he, hid⟩ := List.mem_map.mp hmem
      rcases (hE' e).mp he with he | ⟨he, hnew⟩
      · rcases (h.used kind x hx t ht).mp (List.mem_map.mpr ⟨e, he, hid⟩) with hB | hG
        · exact .inl hB
        · exact .inr (.inl hG)
      · obtain ⟨kind', x', t', hR, hlink⟩ := hmade e he
        obtain ⟨hx', ht'⟩ := hids kind' x' t' hR
        -- the id of the edge is that of a link, so it is the edge of this link
        obtain ⟨rfl, rfl, rfl⟩ := hapart kind' kind x' hx' x hx t' ht' t ht
          (hlink.id.symm.trans hid)
        have hno := (hfree hR hlink).mp hnew
        exact .inr (.inr ⟨hR, fun hB => hno (.inl hB)⟩)
    · intro hor
      by_cases hold : B kind x t ∨ G kind x t
      · obtain ⟨e, he, hid⟩ := List.mem_map.mp ((h.used kind x hx t ht).mpr hold)
        exact List.mem_map.mpr ⟨e, (hE' e).mpr (.inl he), hid⟩
      · obtain ⟨hB, hG⟩ := not_or.mp hold
        obtain ⟨hR, -⟩ := (hor.resolve_left hB).resolve_left hG
        obtain ⟨e, he, hlink⟩ := hhas kind x t hR
        exact List.mem_map.mpr ⟨e, (hE' e).mpr (.inr ⟨he, (hfree hR hlink).mpr hold⟩), hlink.id⟩

theorem Marked.linked (h : Marked ids B G E) {d : Delta} (hd : d.edges = E) {kind : LinkKind}
    {x t : String} : Linked d kind x t ↔ G kind x t := by
  constructor
  · rintro ⟨e, he, hmade, htype, hsource, htarget⟩
    obtain ⟨kind', x', t', hG, hlink⟩ := h.made e (hd ▸ he) hmade
    cases relationship_inj (hlink.type.symm.trans htype)
    cases hlink.source.symm.trans hsource
    cases hlink.target.symm.trans htarget
    exact hG
  · intro hG
    obtain ⟨e, he, hlink⟩ := h.has kind x t hG
    exact ⟨e, hd ▸ he, hlink.made, hlink.type, hlink.source, hlink.target⟩

end

end CodeIntelligence
end WmAutopilot
