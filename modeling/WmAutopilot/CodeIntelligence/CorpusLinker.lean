import Mathlib.Data.List.Sort
import WmAutopilot.Js.Value

/-!
# Links between the nodes of a corpus

A repository is parsed into nodes and edges.  The linker adds edges from a node that names something
to the node that is named, when exactly one node is; it runs over the nodes of a snapshot, then over
the delta of the repository, then over the deltas of all repositories of a corpus, and it only adds.

* `GraphNode`, `GraphEdge`, `Delta`   what is submitted for a repository;
* `candidates`, `targetOf`   the nodes a node may mean, and the one it is linked to;
* `linkCorpusDeltas`         the linker;
* `Snapshot`, `repositoryDelta`   a repository at a commit, as the parser gives it, and its delta;
* `buildCorpusDeltas`, `indexCorpusSequentially`   the deltas of several repositories.
-/

set_option autoImplicit false

namespace WmAutopilot
namespace CodeIntelligence
open Js Value

/-- What the code uses of its platform. -/
structure Host where
  /-- `a.localeCompare(b) <= 0` -/
  localeLe : String → String → Bool
  localeLe_total : ∀ a b, localeLe a b = true ∨ localeLe b a = true
  localeLe_trans : ∀ a b c, localeLe a b = true → localeLe b c = true → localeLe a c = true
  /-- `encodeURIComponent(path).replaceAll("%2F", "/")` -/
  encodeGraphId : String → String

structure GraphNode where
  external_id : String
  node_type : String
  properties : Value
  deriving DecidableEq

structure GraphEdge where
  external_id : String
  from_external_id : String
  to_external_id : String
  relationship_type : String
  properties : Value
  deriving DecidableEq

/-- `RepositoryDeltaPayload` -/
structure Delta where
  corpus_id : String
  repository_id : String
  head_sha : String
  parser_metadata : Value
  index_metadata : Value
  nodes : List GraphNode
  edges : List GraphEdge
  deriving DecidableEq

/-! ## the linker -/

/-- `CORPUS_LINKER` -/
def corpusLinker : Value :=
  obj [("adapter", str "code-intelligence-corpus-linker"), ("version", str "1"),
    ("pass", str "cross-file-cross-repository")]

/-- `text` -/
def text : Value → Option String
  | str s => if s = "" then none else some s
  | _ => none

/-- the text of a property of a node. -/
def GraphNode.text (v : GraphNode) (key : String) : Option String :=
  CodeIntelligence.text (v.properties.get key)

inductive LinkKind where
  | resolves_to
  | triggers
  | matches_route
  deriving DecidableEq

/-- the part of the id of an edge that is the kind of the link. -/
def LinkKind.segment : LinkKind → String
  | resolves_to => ":resolves_to:"
  | triggers => ":triggers:"
  | matches_route => ":matches:"

def LinkKind.relationship : LinkKind → String
  | resolves_to => "RESOLVES_TO"
  | triggers => "TRIGGERS"
  | matches_route => "MATCHES_ROUTE"

def LinkKind.confidence : LinkKind → ℚ
  | triggers => 92 / 100
  | _ => 98 / 100

def LinkKind.evidence : LinkKind → String
  | resolves_to => "exact repository-relative import path"
  | triggers => "unique callable name in corpus"
  | matches_route => "exact normalized method and route across corpus"

/-- the id of a link. -/
def edgeId (kind : LinkKind) (source target : String) : String := source ++ kind.segment ++ target

/-- `graphEdge(…, { provenance: provenance(node, evidence, confidence) })` -/
def linkEdge (kind : LinkKind) (source target : GraphNode) : GraphEdge where
  external_id := edgeId kind source.external_id target.external_id
  from_external_id := source.external_id
  to_external_id := target.external_id
  relationship_type := kind.relationship
  properties := obj [("provenance", (source.properties.get "provenance").spread
    [("parser", corpusLinker), ("confidence", num kind.confidence),
      ("evidence", str kind.evidence)])]

/-- whether the provenance of an edge names the linker. -/
def GraphEdge.madeByLinker (e : GraphEdge) : Bool :=
  (e.properties.get "provenance").get "parser" = corpusLinker

/-- the key of a file node in `files`. -/
def fileKey (v : GraphNode) : Option String :=
  match v.text "path", CodeIntelligence.text ((v.properties.get "provenance").get "repository") with
  | some path, some repository =>
    if v.node_type = "file" then some (repository ++ ":" ++ path) else none
  | _, _ => none

/-- `files.get(key)`: the last file of the key. -/
def fileAt (all : List GraphNode) (key : String) : Option GraphNode :=
  (all.filter fun v => fileKey v = some key).getLast?

/-- whether a node is listed under a name: its own, or its qualified one. -/
def isNamed (name : String) (v : GraphNode) : Bool :=
  (v.node_type = "callable" || v.node_type = "declaration") && (v.text "name").isSome &&
    (v.text "name" = some name || v.text "qualified_name" = some name)

/-- `symbolsByName.get(name) ?? []` -/
def symbolsByName (all : List GraphNode) (name : String) : List GraphNode :=
  all.filter (isNamed name)

/-- method and route, as the key of a route. -/
def routeKey (v : GraphNode) : String :=
  (v.text "method").getD "null" ++ " " ++ (v.text "route").getD "null"

/-- `routes.get(key) ?? []` -/
def routes (all : List GraphNode) (key : String) : List GraphNode :=
  all.filter fun v => v.node_type = "http_route" && routeKey v = key

/-- `requested.split(".").at(-1)` -/
def lastSegment (requested : String) : String :=
  String.ofList ((requested.toList.splitOn '.').getLastD [])

/-- the nodes that an action or a consumer may mean. -/
def candidates (all : List GraphNode) (v : GraphNode) : List GraphNode :=
  if v.node_type = "ui_action" then
    match v.text "target_symbol_name" with
    | none => []
    | some requested =>
      if symbolsByName all requested = [] then symbolsByName all (lastSegment requested)
      else symbolsByName all requested
  else if v.node_type = "api_consumer" then routes all (routeKey v)
  else []

/-- `path.replace(/\.ts$/, "/index.ts")` -/
def indexPath (path : String) : String :=
  if ".ts".toList <:+ path.toList then
    String.ofList (path.toList.take (path.toList.length - 3)) ++ "/index.ts"
  else path

/-- the file that an import of a repository is about. -/
def importedFile (repositoryId : String) (all : List GraphNode) (v : GraphNode) :
    Option GraphNode :=
  (v.text "resolved_path").bind fun path =>
    (fileAt all (repositoryId ++ ":" ++ path)).or
      (fileAt all (repositoryId ++ ":" ++ indexPath path))

/-- the only element of a list. -/
def only {α : Type} : List α → Option α
  | [x] => some x
  | _ => none

/-- the kind of link that a node makes. -/
def kindOf (v : GraphNode) : Option LinkKind :=
  if v.node_type = "module_reference" then some .resolves_to
  else if v.node_type = "ui_action" then some .triggers
  else if v.node_type = "api_consumer" then some .matches_route
  else none

/-- what a node is linked to. -/
def targetOf (repositoryId : String) (all : List GraphNode) (v : GraphNode) : Option GraphNode :=
  if v.node_type = "module_reference" then importedFile repositoryId all v
  else only (candidates all v)

/-- `generated` -/
def generated (repositoryId : String) (all nodes : List GraphNode) : List GraphEdge :=
  nodes.filterMap fun v =>
    match kindOf v, targetOf repositoryId all v with
    | some kind, some target => some (linkEdge kind v target)
    | _, _ => none

/-- `edges.sort((a, b) => a.external_id.localeCompare(b.external_id))` -/
def sortEdges (host : Host) (edges : List GraphEdge) : List GraphEdge :=
  edges.insertionSort fun a b => host.localeLe a.external_id b.external_id = true

def sortNodes (host : Host) (nodes : List GraphNode) : List GraphNode :=
  nodes.insertionSort fun a b => host.localeLe a.external_id b.external_id = true

/-- a delta after a run of the linker over the nodes `all`. -/
def linkDelta (host : Host) (all : List GraphNode) (delta : Delta) : Delta :=
  let existing := delta.edges.map (·.external_id)
  { delta with
    edges := sortEdges host (delta.edges ++
      (generated delta.repository_id all delta.nodes).filter (·.external_id ∉ existing))
    parser_metadata := delta.parser_metadata.spread [("linker", corpusLinker)]
    index_metadata := delta.index_metadata.spread [("corpusLinked", bool true)] }

/-- the nodes of the deltas of a corpus. -/
def corpusNodes (deltas : List Delta) (corpusId : String) : List GraphNode :=
  (deltas.filter (·.corpus_id = corpusId)).flatMap (·.nodes)

/-- `linkCorpusDeltas` -/
def linkCorpusDeltas (host : Host) (deltas : List Delta) : List Delta :=
  deltas.map fun delta => linkDelta host (corpusNodes deltas delta.corpus_id) delta

/-! ## a repository -/

/-- A repository at a commit, as the passes of the parser give it: no pass signs as the linker. -/
structure Snapshot where
  corpusId : String
  repositoryId : String
  headSha : String
  nodes : List GraphNode
  edges : List GraphEdge
  parsed : ∀ e ∈ edges, e.madeByLinker = false

/-- the provenance that the engine gives. -/
def engineProvenance (s : Snapshot) (path evidence : String) : Value :=
  obj [("repository", str s.repositoryId), ("commit", str s.headSha), ("path", str path),
    ("parser", obj [("adapter", str "typescript")]), ("confidence", num 1),
    ("evidence", str evidence)]

/-- `repoPrefix` -/
def repoPrefix (s : Snapshot) : String := s.corpusId ++ ":" ++ s.repositoryId ++ ":"

/-- the nodes of the repository and of the commit. -/
def repositoryNodes (s : Snapshot) : List GraphNode :=
  [⟨repoPrefix s ++ "repository", "repository", obj [("repository_id", str s.repositoryId),
      ("corpus_id", str s.corpusId),
      ("provenance", engineProvenance s "." "repository definition")]⟩,
    ⟨repoPrefix s ++ "commit:" ++ s.headSha, "commit", obj [("sha", str s.headSha),
      ("provenance", engineProvenance s "." "requested Git revision")]⟩]

/-- the edges between repository, commit and files. -/
def repositoryEdges (host : Host) (s : Snapshot) : List GraphEdge :=
  ⟨repoPrefix s ++ "repository:at_commit:" ++ s.headSha, repoPrefix s ++ "repository",
      repoPrefix s ++ "commit:" ++ s.headSha, "AT_COMMIT",
      obj [("provenance", engineProvenance s "." "requested Git revision")]⟩ ::
    (s.nodes.filter (·.node_type = "file")).map fun v =>
      let path := (v.text "path").getD ""
      ⟨repoPrefix s ++ "commit:" ++ s.headSha ++ ":contains:" ++ host.encodeGraphId path,
        repoPrefix s ++ "commit:" ++ s.headSha, v.external_id, "CONTAINS_FILE",
        obj [("provenance", engineProvenance s path "file present at Git revision")]⟩

/-- `parseSnapshot`: the edges, linked over the nodes of the snapshot. -/
def parseSnapshot (host : Host) (s : Snapshot) : List GraphEdge :=
  let linked : Delta := ⟨s.corpusId, s.repositoryId, s.headSha, obj [], obj [], s.nodes, s.edges⟩
  (linkDelta host (corpusNodes [linked] linked.corpus_id) linked).edges

/-- the delta of a repository with the given edges of its files. -/
def deltaOf (host : Host) (s : Snapshot) (edges : List GraphEdge) : Delta where
  corpus_id := s.corpusId
  repository_id := s.repositoryId
  head_sha := s.headSha
  parser_metadata := obj [("adapter", str "code-intelligence-passes"), ("version", str "2")]
  index_metadata := obj [("relinkStrategy", str "full_repository_snapshot")]
  nodes := sortNodes host (s.nodes ++ repositoryNodes s)
  edges := sortEdges host (edges ++ repositoryEdges host s)

/-- the delta of a repository, linked over its own nodes. -/
def repositoryDelta (host : Host) (s : Snapshot) : Delta :=
  let delta := deltaOf host s (parseSnapshot host s)
  linkDelta host (corpusNodes [delta] delta.corpus_id) delta

inductive IndexingMode where
  | incremental
  | full_rebuild
  deriving DecidableEq

/-- What is asked of a repository: `snapshot` is what git and the parser give, or an error. -/
structure IndexRequest where
  mode : IndexingMode
  previousSha : Option String
  currentSha : String
  filesChanged : ℕ
  snapshot : Except String Snapshot

/-- the snapshot that a request indexes; `none`: it is skipped. -/
def IndexRequest.indexed (request : IndexRequest) : Except String (Option Snapshot) :=
  if request.mode = .incremental ∧ request.previousSha = some request.currentSha then .ok none
  else if request.mode = .incremental ∧ request.previousSha.getD "" = "" then
    .error "previousSha is required for incremental indexing"
  else if request.mode = .incremental ∧ request.filesChanged = 0 then .ok none
  else request.snapshot.map some

/-- `buildRepositoryDelta` -/
def buildRepositoryDelta (host : Host) (request : IndexRequest) : Except String (Option Delta) :=
  request.indexed.map fun s => s.map (repositoryDelta host)

/-! ## several repositories -/

/-- `buildCorpusDeltas`: the deltas of its results. -/
def buildCorpusDeltas (host : Host) (requests : List IndexRequest) : Except String (List Delta) :=
  (requests.mapM (buildRepositoryDelta host)).map fun results =>
    linkCorpusDeltas host (results.filterMap id)

/-- A repository that a corpus is indexed with. -/
structure Repository where
  available : Bool
  /-- `gitHead(root)`, or an error -/
  headSha : Except String String
  /-- `client.getCheckpoint(definition)?.head_sha`, or an error -/
  checkpoint : Except String (Option String)
  filesChanged : ℕ
  snapshot : Except String Snapshot

/-- What the first pass finds of a repository. -/
inductive Examined where
  | skipped
  | unchanged (request : IndexRequest)
  | pending (snapshot : Snapshot)

/-- the first pass over a repository; the delta of a pending one is `repositoryDelta`. -/
def examine (mode : IndexingMode) (repository : Repository) : Examined :=
  if repository.available = false then .skipped
  else match repository.headSha, repository.checkpoint with
    | .ok headSha, .ok checkpoint =>
      if mode = .incremental ∧ checkpoint = some headSha then
        .unchanged ⟨.full_rebuild, none, headSha, 0, repository.snapshot⟩
      else if mode = .incremental ∧ checkpoint = none then .skipped
      else match IndexRequest.indexed
          ⟨mode, checkpoint, headSha, repository.filesChanged, repository.snapshot⟩ with
        | .ok (some snapshot) => .pending snapshot
        | _ => .skipped
    | _, _ => .skipped

/-- the snapshots of the repositories that are indexed in the first pass. -/
def pendingSnapshots (mode : IndexingMode) (repositories : List Repository) : List Snapshot :=
  (repositories.map (examine mode)).filterMap fun
    | .pending snapshot => some snapshot
    | _ => none

/-- the requests for the repositories that have not changed. -/
def unchangedRequests (mode : IndexingMode) (repositories : List Repository) :
    List IndexRequest :=
  (repositories.map (examine mode)).filterMap fun
    | .unchanged request => some request
    | _ => none

/-- `indexCorpusSequentially`: the deltas that are submitted. -/
def indexCorpusSequentially (host : Host) (mode : IndexingMode)
    (repositories : List Repository) : Except String (List Delta) :=
  if (pendingSnapshots mode repositories).isEmpty then .ok []
  else
    -- unchanged members of the corpus are linked anew with the others
    ((unchangedRequests mode repositories).mapM (buildRepositoryDelta host)).map fun promoted =>
      linkCorpusDeltas host ((pendingSnapshots mode repositories).map (repositoryDelta host) ++
        promoted.filterMap id)

end CodeIntelligence
end WmAutopilot
