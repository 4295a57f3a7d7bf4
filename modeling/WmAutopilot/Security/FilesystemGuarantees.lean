import WmAutopilot.Security.FilesystemBoundary

/-!
# What an authorized path promises

* `Authorized`          it lies in the directory, also when its links are followed, and so does what
                        has to be created on the way to it; it is no link;
* `Deepest`             what exists of a path and what is missing;
* `Kept`                the condition under which the promise is kept;
* `resolveFrom_climbed` the loop finds the deepest ancestor;
* `authorized_iff`      **exactly which of the returned paths keep the promise**;
* `dangling_escapes`    a link to nothing in the middle of a path is not seen.
-/

set_option autoImplicit false

namespace WmAutopilot
namespace Filesystem
open Js Posix

/-! ## the promise -/

section
variable (m : Machine)

/-- the names lead to a link, which is not followed at their end. -/
def IsLink (names : List String) : Prop := isSymbolicLink (lstat m (pathOf names)) = true

def Exists (names : List String) : Prop := ∃ loc, realpath m (pathOf names) = .ok loc

/-- What an authorized path promises. -/
structure Authorized (options : Options) (canonicalRoot : List String) (path : Path) : Prop where
  lexical : lexicalRoot m options <+: path.names
  /-- the location that it names, through every link, lies in the directory. -/
  named : ∀ loc, Names m.tree [] path.names loc → canonicalRoot <+: loc
  /-- and so does everything on the way to it that is created. -/
  created : ∀ names, names <+: path.names → ¬Exists m names →
    ∀ loc, Names m.tree [] names loc → canonicalRoot <+: loc
  notLink : ¬IsLink m path.names
  existing : options.policy = .existing → Exists m path.names

/-- The longest beginning of a path that exists, where it is, and what is missing.  What ends in a
slash has to be a directory. -/
structure Deepest (path : Path) (ancestor missing location : List String) : Prop where
  names : path.names = ancestor ++ missing
  location : realpath m { names := ancestor, slash := path.slash && missing.isEmpty } = .ok location
  longer : ∀ first rest, missing = first ++ rest → first ≠ [] → ∀ loc,
    realpath m { names := ancestor ++ first, slash := path.slash && rest.isEmpty } ≠ .ok loc

/-- The paths that keep the promise. -/
structure Kept (canonicalRoot : List String) (path : Path) : Prop where
  /-- a path that ends in a slash is no link. -/
  slash : path.slash = true → ¬IsLink m path.names
  /-- the first missing name is no link to nothing that leads out of the directory. -/
  dangling : ∀ ancestor name rest location target, Deepest m path ancestor (name :: rest) location →
    m.tree.node (location ++ [name]) = some (.link target) → ∀ names, names ≠ [] →
      names <+: name :: rest → ∀ loc, Names m.tree location names loc → canonicalRoot <+: loc
  /-- where a missing name starts with a backslash, what is missing belongs to the directory. -/
  backslash : ∀ ancestor name rest location, Deepest m path ancestor (name :: rest) location →
    (∀ target, m.tree.node (location ++ [name]) ≠ some (.link target)) →
      (∃ n ∈ name :: rest, n.toList.head? = some '\\') → canonicalRoot <+: location ++ [name]

end

section
variable {m : Machine} {options : Options} {path : Path} {loc names : List String} {name : String}

/-! ## what the functions return -/

theorem isPathContained_iff {root target : List String} (h : ∀ name ∈ target, Proper name) :
    isPathContained root target = true ↔ root <+: target := by
  rw [isPathContained, decide_eq_true_iff]
  exact relative_prefix fun name hn => (h name hn).2.2

theorem orRefuse_ok {α : Type} {message : FilesystemBoundaryError} {x : Except Errno α} {a : α}
    (h : orRefuse message x = .ok a) : x = .ok a := by
  cases x with
  | ok b => exact congrArg _ (Except.ok.inj h)
  | error e => cases h

theorem realpath_iff : realpath m path = .ok loc ↔ Walked m.tree m.links [] path.parts loc :=
  walk_iff

theorem realpath_proper (h : realpath m path = .ok loc) : ∀ name ∈ loc, Proper name :=
  (realpath_iff.mp h).proper fun _ h => absurd h List.not_mem_nil

theorem realpath_node (h : realpath m path = .ok loc) : ∃ entry, m.tree.node loc = some entry := by
  obtain ⟨entry, hentry, -⟩ := (realpath_iff.mp h).node m.tree.root id
  exact ⟨entry, hentry⟩

/-- a path that is resolved names its location. -/
theorem names_of_realpath (h : realpath m path = .ok loc) : Names m.tree [] path.names loc := by
  have hnames := (realpath_iff.mp h).names
  unfold Path.parts at hnames
  obtain ⟨mid, hmid, hrest⟩ := hnames.split rfl
  split at hrest
  · have hend : Names m.tree mid [""] mid := .skip (.inl rfl) (.done mid)
    exact hend.unique hrest ▸ hmid
  · exact (Names.done mid).unique hrest ▸ hmid

/-- the beginnings of what exists exist. -/
theorem exists_of_realpath (h : realpath m path = .ok loc) (hnames : names <+: path.names) :
    Exists m names := by
  obtain ⟨rest, hrest⟩ := hnames
  have hparts : path.parts = names ++ (rest ++ if path.slash then [""] else []) := by
    rw [Path.parts, ← hrest, List.append_assoc]
  obtain ⟨mid, hmid⟩ := (realpath_iff.mp h).beginning hparts
  refine ⟨mid, realpath_iff.mpr ?_⟩
  rwa [pathOf, Path.parts, if_neg (by simp), List.append_nil]

/-- a directory in a directory is resolved, with a slash or without. -/
theorem realpath_enter {ancestor : List String} {slash : Bool}
    (h : realpath m (pathOf ancestor) = .ok loc) (hname : Proper name)
    (hnode : m.tree.node (loc ++ [name]) = some .directory) :
    realpath m { names := ancestor ++ [name], slash } = .ok (loc ++ [name]) := by
  have hwalked := realpath_iff.mp h
  rw [pathOf, Path.parts, if_neg (by simp), List.append_nil] at hwalked
  refine realpath_iff.mpr ?_
  rw [Path.parts, List.append_assoc]
  refine hwalked.append fun n => .enter (m.tree.parent _ _ _ hnode) hname hnode id ?_
  cases slash with
  | false => exact .done n _
  | true => exact .skip hnode (.inl rfl) (.done n _)

/-- what `realpath` resolves, `lstat` reads. -/
theorem existing_of_realpath (h : realpath m path = .ok loc) :
    ∃ metadata, existing m path = .ok (metadata, loc) := by
  obtain ⟨loc', entry, hwalk, hnode⟩ := (realpath_iff.mp h).exists_entry m.tree.root
  have hlstat : lstat m path = .ok entry := by
    rw [lstat, hwalk]
    exact orThrow_ok.mpr hnode
  refine ⟨entry, ?_⟩
  rw [existing, hlstat, h]
  rfl

theorem existing_ok {metadata : Node} (h : existing m path = .ok (metadata, loc)) :
    lstat m path = .ok metadata ∧ realpath m path = .ok loc := by
  obtain ⟨metadata', hlstat, h⟩ := bind_ok.mp h
  obtain ⟨loc', hrealpath, h⟩ := bind_ok.mp h
  cases h
  exact ⟨hlstat, hrealpath⟩

/-! ## the loop -/

/-- the missing segments of names. -/
def missingSegments : List String → Bool → List String
  | [], _ => []
  | name :: rest, slash => missingSegment name (slash && rest.isEmpty) :: missingSegments rest slash

theorem isEmpty_concat {α : Type} (xs : List α) (x : α) : (xs ++ [x]).isEmpty = false := by
  cases xs <;> rfl

theorem missingSegments_concat (names : List String) (name : String) (slash : Bool) :
    missingSegments (names ++ [name]) slash =
      missingSegments names false ++ [missingSegment name slash] := by
  induction names with
  | nil => simp [missingSegments]
  | cons n names ih => simp [missingSegments, ih, isEmpty_concat]

/-- What the loop returns of a path, of which the segments `below` are missing already. -/
structure Climbed (m : Machine) (path : Path) (below : List String) (targetExists : Bool)
    (r : ResolvedTarget) (ancestor missing location : List String) : Prop where
  deepest : Deepest m path ancestor missing location
  canonicalPath : r.canonicalPath = join location (missingSegments missing path.slash ++ below)
  targetExists : r.targetExists = (targetExists && missing.isEmpty)

theorem climbed_here {below : List String} {targetExists targetIsSymlink : Bool}
    (h : realpath m path = .ok loc) :
    Climbed m path below targetExists ⟨join loc below, targetExists, targetIsSymlink⟩ path.names []
      loc := by
  refine ⟨⟨(List.append_nil _).symm, ?_, fun first rest e hfirst => ?_⟩, rfl, ?_⟩
  · rw [List.isEmpty_nil, Bool.and_true]
    exact h
  · exact absurd (List.append_eq_nil_iff.mp e.symm).1 hfirst
  · rw [List.isEmpty_nil, Bool.and_true]

/-- **One turn of the loop**: what does not exist is one missing name more. -/
theorem Climbed.up {cursor below ancestor missing location : List String} {slash targetExists : Bool}
    {r : ResolvedTarget} (hfails : ∀ loc, realpath m { names := cursor ++ [name], slash } ≠ .ok loc)
    (h : Climbed m (pathOf cursor) (missingSegment name slash :: below) false r ancestor missing
      location) :
    Climbed m { names := cursor ++ [name], slash } below targetExists r ancestor
      (missing ++ [name]) location := by
  have hnames : cursor = ancestor ++ missing := h.deepest.names
  refine ⟨⟨?_, ?_, fun first rest e hfirst loc => ?_⟩, ?_, ?_⟩
  · rw [hnames, List.append_assoc]
  · simpa [pathOf, isEmpty_concat] using h.deepest.location
  · rcases List.eq_nil_or_concat' rest with rfl | ⟨rest', last, rfl⟩
    · rw [List.append_nil] at e
      rw [← e, ← List.append_assoc, ← hnames, List.isEmpty_nil, Bool.and_true]
      exact hfails loc
    · rw [← List.append_assoc] at e
      have hlonger := h.deepest.longer first rest' (List.append_inj_left' e rfl) hfirst loc
      simpa [pathOf, isEmpty_concat] using hlonger
  · rw [h.canonicalPath, missingSegments_concat, List.append_assoc]
    rfl
  · rw [h.targetExists]
    simp

theorem resolveFrom_climbed {cursor below : List String} {slash targetExists targetIsSymlink : Bool}
    {r : ResolvedTarget}
    (h : resolveFrom m cursor slash below targetExists targetIsSymlink = .ok r) :
    ∃ ancestor missing location, Climbed m { names := cursor.reverse, slash } below targetExists r
      ancestor missing location := by
  induction cursor generalizing slash below targetExists targetIsSymlink with
  | nil =>
    rw [resolveFrom] at h
    split at h
    · rename_i metadata canonicalAncestor hexisting
      obtain rfl := Except.ok.inj h
      exact ⟨_, _, _, climbed_here (existing_ok hexisting).2⟩
    · split at h <;> cases h
  | cons name parent ih =>
    rw [resolveFrom] at h
    split at h
    · rename_i metadata canonicalAncestor hexisting
      obtain rfl := Except.ok.inj h
      exact ⟨_, _, _, climbed_here (existing_ok hexisting).2⟩
    · rename_i code hexisting
      split at h
      · cases h
      · obtain ⟨ancestor, missing, location, hclimbed⟩ := ih h
        rw [List.reverse_cons] at hexisting ⊢
        refine ⟨ancestor, missing ++ [name], location, hclimbed.up fun loc hloc => ?_⟩
        obtain ⟨metadata, hok⟩ := existing_of_realpath hloc
        rw [hok] at hexisting
        cases hexisting

/-- a link that was seen stays seen. -/
theorem resolveFrom_symlink {cursor below : List String} {slash targetExists : Bool}
    {r : ResolvedTarget} (hbelow : below ≠ [])
    (h : resolveFrom m cursor slash below targetExists true = .ok r) : r.targetIsSymlink = true := by
  have hmissing : below.isEmpty = false := by
    simpa [List.isEmpty_iff] using hbelow
  induction cursor generalizing slash below targetExists with
  | nil =>
    rw [resolveFrom] at h
    split at h
    · obtain rfl := Except.ok.inj h
      rfl
    · split at h <;> cases h
  | cons name parent ih =>
    rw [resolveFrom] at h
    split at h
    · obtain rfl := Except.ok.inj h
      rfl
    · split at h
      · cases h
      · rw [hmissing, if_neg (by simp)] at h
        exact ih (List.cons_ne_nil _ _) h rfl

/-- **A link at the end of a path is seen.** -/
theorem resolveExistingAncestor_symlink {r : ResolvedTarget}
    (h : resolveExistingAncestor m path = .ok r) (hlink : isSymbolicLink (lstat m path) = true) :
    r.targetIsSymlink = true := by
  rw [resolveExistingAncestor, resolveFrom, List.reverse_reverse] at h
  split at h
  · rename_i metadata canonicalAncestor hexisting
    obtain rfl := Except.ok.inj h
    rw [(existing_ok hexisting).1] at hlink
    simpa using hlink
  · split at h
    · cases h
    · rw [List.isEmpty_nil, if_pos rfl, hlink] at h
      dsimp only at h
      split at h
      · cases h
      · exact resolveFrom_symlink (List.cons_ne_nil _ _) h

theorem missingSegment_eq {slash : Bool} (hname : Clean name)
    (hbackslash : name.toList.head? ≠ some '\\') :
    missingSegment name slash = String.ofList (name.toList ++ if slash then ['/'] else []) := by
  unfold missingSegment
  cases hchars : name.toList with
  | nil => exact absurd (String.toList_eq_nil_iff.mp hchars) hname.1.1
  | cons c cs =>
    rw [hchars] at hbackslash
    have hslash : c ≠ '/' := by
      rintro rfl
      exact hname.2 (hchars ▸ List.mem_cons_self)
    rw [List.cons_append, List.dropWhile_cons_of_neg]
    simpa [hslash] using hbackslash

/-- **The names below what exists**, where no segment loses a backslash. -/
theorem join_missingSegments {missing : List String} {slash : Bool}
    (hclean : ∀ name ∈ missing, Clean name)
    (hbackslash : ∀ name ∈ missing, name.toList.head? ≠ some '\\') :
    join loc (missingSegments missing slash) = loc ++ missing := by
  induction missing generalizing loc with
  | nil => exact (List.append_nil loc).symm
  | cons name rest ih =>
    have hname := hclean name List.mem_cons_self
    have ih : join (loc ++ [name]) (missingSegments rest slash) = loc ++ [name] ++ rest :=
      ih (fun n hn => hclean n (List.mem_cons_of_mem _ hn))
        fun n hn => hbackslash n (List.mem_cons_of_mem _ hn)
    rw [missingSegments, missingSegment_eq hname (hbackslash name List.mem_cons_self)]
    rw [join, List.flatMap_cons]
    split
    · rename_i hlast
      obtain rfl : rest = [] := by simpa using (Bool.and_eq_true_iff.mp hlast).2
      rw [parts, Js.segments, String.toList_ofList, splitOn_before_slash hname.2]
      simp [missingSegments, normalizeNames, hname.1.1, hname.1.2.1, hname.1.2.2]
    · rw [List.append_nil, String.ofList_toList, parts_name hname.2, List.singleton_append,
        normalizeNames, if_neg (proper_ne hname.1), if_neg hname.1.2.2]
      rw [List.append_assoc] at ih
      exact ih

/-! ## what an authorized path promises -/

/-- What is checked of a path that is returned. -/
structure Accepted (m : Machine) (options : Options) (path : Path) (canonicalRoot : List String)
    (r : ResolvedTarget) : Prop where
  path : path = lexicalTarget m options
  root : realpath m (pathOf (lexicalRoot m options)) = .ok canonicalRoot
  lexical : isPathContained (lexicalRoot m options) (lexicalTarget m options).names = true
  resolved : resolveExistingAncestor m (lexicalTarget m options) = .ok r
  inside : isPathContained canonicalRoot r.canonicalPath = true
  notSymlink : r.targetIsSymlink = false
  policy : options.policy = .existing → r.targetExists = true

theorem accepted_of_ok (h : authorizeFilesystemPath m options = .ok path) :
    ∃ canonicalRoot r, Accepted m options path canonicalRoot r := by
  unfold authorizeFilesystemPath at h
  obtain ⟨_, -, h⟩ := bind_ok.mp h
  obtain ⟨_, -, h⟩ := bind_ok.mp h
  obtain ⟨_, hlexical, h⟩ := bind_ok.mp h
  obtain ⟨canonicalRoot, hroot, h⟩ := bind_ok.mp h
  obtain ⟨r, hresolved, h⟩ := bind_ok.mp h
  obtain ⟨_, hinside, h⟩ := bind_ok.mp h
  obtain ⟨_, hsymlink, h⟩ := bind_ok.mp h
  obtain ⟨_, hpolicy, h⟩ := bind_ok.mp h
  have hpolicy' := throwIf_ok.mp hpolicy
  refine ⟨canonicalRoot, r, (Except.ok.inj h).symm, orRefuse_ok hroot,
    not_not.mp (throwIf_ok.mp hlexical), orRefuse_ok hresolved,
    not_not.mp (throwIf_ok.mp hinside), ?_, fun e => ?_⟩
  · exact Bool.not_eq_true _ ▸ throwIf_ok.mp hsymlink
  · by_contra hmissing
    exact hpolicy' ⟨e, hmissing⟩

/-- the names of a target are names of entries. -/
theorem lexicalTarget_clean : ∀ name ∈ (lexicalTarget m options).names, Clean name := by
  have hroot : ∀ name ∈ lexicalRoot m options, Clean name :=
    resolve_clean (trim options.root) m.cwd_clean
  have htarget := resolve_clean (trim options.input) hroot
  have hnormal := normalize_clean (trim options.input)
  rw [lexicalTarget]
  split
  · exact hnormal
  · rw [pathOf_names]
    exact htarget

theorem Deepest.pathOf_location {ancestor missing location : List String}
    (h : Deepest m path ancestor missing location) (hmissing : missing ≠ []) :
    realpath m (pathOf ancestor) = .ok location := by
  have hlocation := h.location
  rwa [List.isEmpty_eq_false_iff.mpr hmissing, Bool.and_false] at hlocation

/-- **What an authorized path promises of what is missing**, seen from what exists. -/
theorem Authorized.below {canonicalRoot ancestor missing location first : List String}
    (h : Authorized m options canonicalRoot path) (hdeepest : Deepest m path ancestor missing location)
    (hmissing : missing ≠ []) (hfirst : first ≠ []) (hpre : first <+: missing)
    (hnames : Names m.tree location first loc) : canonicalRoot <+: loc := by
  have hancestor := names_of_realpath (hdeepest.pathOf_location hmissing)
  have hnamed : Names m.tree [] (ancestor ++ first) loc := hancestor.append hnames
  obtain ⟨rest, rfl⟩ := hpre
  cases rest with
  | nil =>
    refine h.named loc ?_
    rw [hdeepest.names, List.append_nil]
    exact hnamed
  | cons name rest =>
    refine h.created (ancestor ++ first) ?_ (fun ⟨loc, hloc⟩ => ?_) loc hnamed
    · rw [hdeepest.names, ← List.append_assoc]
      exact List.prefix_append _ _
    · have hlonger := hdeepest.longer first (name :: rest) rfl hfirst loc
      rw [List.isEmpty_cons, Bool.and_false] at hlonger
      exact hlonger hloc

theorem Authorized.kept {canonicalRoot : List String} (hclean : ∀ name ∈ path.names, Clean name)
    (h : Authorized m options canonicalRoot path) : Kept m canonicalRoot path := by
  refine ⟨fun _ => h.notLink, ?_, ?_⟩
  · intro ancestor name rest location target hdeepest _ names hne hpre loc hnames
    exact h.below hdeepest (List.cons_ne_nil _ _) hne hpre hnames
  · intro ancestor name rest location hdeepest hnode _
    have hname : Clean name :=
      hclean name (hdeepest.names ▸ List.mem_append_right _ List.mem_cons_self)
    exact h.below hdeepest (List.cons_ne_nil _ _) (List.cons_ne_nil name [])
      (List.prefix_append [name] rest) (.enter hname.1 hnode (.done _))

/-- what exists below a location is no missing name. -/
theorem Deepest.not_directory {ancestor rest location : List String}
    (h : Deepest m path ancestor (name :: rest) location) (hname : Proper name) :
    m.tree.node (location ++ [name]) ≠ some .directory := by
  intro hnode
  have hlocation := h.pathOf_location (List.cons_ne_nil _ _)
  exact h.longer [name] rest rfl (List.cons_ne_nil _ _) _ (realpath_enter hlocation hname hnode)

/-- **The first missing name belongs to the directory** when the names below what exists do. -/
theorem Deepest.prefix_first {canonicalRoot ancestor rest location : List String} {root : Path}
    (h : Deepest m path ancestor (name :: rest) location) (hname : Proper name)
    (hroot : realpath m root = .ok canonicalRoot)
    (hpre : canonicalRoot <+: location ++ name :: rest) : canonicalRoot <+: location ++ [name] := by
  have hfirst : location ++ [name] <+: location ++ name :: rest :=
    (List.prefix_append_right_inj _).mpr (List.prefix_append [name] rest)
  rcases List.prefix_or_prefix_of_prefix hpre hfirst with hin | ⟨below, hbelow⟩
  · exact hin
  · -- the root would stand below the missing name
    cases below with
    | nil =>
      rw [← hbelow, List.append_nil]
    | cons n below =>
      obtain ⟨entry, hentry⟩ := realpath_node hroot
      rw [← hbelow] at hentry
      exact absurd (Tree.directory_of_below (List.cons_ne_nil _ _) hentry) (h.not_directory hname)

/-- **Where the first missing name is no link**, the missing names lead to where they are written. -/
theorem Deepest.names_missing {ancestor rest location first : List String}
    (h : Deepest m path ancestor (name :: rest) location) (hproper : ∀ n ∈ name :: rest, Proper n)
    (hnode : ∀ target, m.tree.node (location ++ [name]) ≠ some (.link target))
    (hpre : first <+: name :: rest) : Names m.tree location first (location ++ first) := by
  refine names_below (fun n hn => hproper n (hpre.subset hn)) fun below hbelow hbelow' target => ?_
  obtain ⟨n, below, rfl⟩ := List.exists_cons_of_ne_nil hbelow
  obtain ⟨rfl, -⟩ := List.cons_prefix_cons.mp (hbelow'.trans hpre)
  cases below with
  | nil => exact hnode target
  | cons b below =>
    intro hlink
    rw [List.append_cons] at hlink
    exact h.not_directory (hproper n List.mem_cons_self)
      (Tree.directory_of_below (List.cons_ne_nil _ _) hlink)

/-- **A missing name belongs to the directory**: by the check, or by the condition. -/
theorem prefix_of_accepted {canonicalRoot ancestor rest location : List String} {r : ResolvedTarget}
    (haccepted : Accepted m options path canonicalRoot r) (hkept : Kept m canonicalRoot path)
    (hclimbed : Climbed m path [] true r ancestor (name :: rest) location)
    (hclean : ∀ n ∈ name :: rest, Clean n)
    (hnode : ∀ target, m.tree.node (location ++ [name]) ≠ some (.link target)) :
    canonicalRoot <+: location ++ [name] := by
  by_cases hbackslash : ∃ n ∈ name :: rest, n.toList.head? = some '\\'
  · exact hkept.backslash _ _ _ _ hclimbed.deepest hnode hbackslash
  · have hcanonical : r.canonicalPath = location ++ name :: rest := by
      rw [hclimbed.canonicalPath, List.append_nil]
      exact join_missingSegments hclean fun n hn e => hbackslash ⟨n, hn, e⟩
    have hproper : ∀ n ∈ r.canonicalPath, Proper n := by
      rw [hclimbed.canonicalPath]
      exact join_proper (realpath_proper hclimbed.deepest.location)
    have hinside := (isPathContained_iff hproper).mp haccepted.inside
    rw [hcanonical] at hinside
    exact hclimbed.deepest.prefix_first (hclean name List.mem_cons_self).1 haccepted.root hinside

/-- what is created on the way to an accepted path lies in the directory. -/
theorem created_of_kept {canonicalRoot ancestor missing location : List String} {r : ResolvedTarget}
    (haccepted : Accepted m options path canonicalRoot r) (hkept : Kept m canonicalRoot path)
    (hclimbed : Climbed m path [] true r ancestor missing location)
    (hclean : ∀ n ∈ path.names, Clean n) (hpre : names <+: path.names)
    (hmissing : ¬names <+: ancestor) (hnames : Names m.tree [] names loc) :
    canonicalRoot <+: loc := by
  have hdeepest := hclimbed.deepest
  have hsplit := hdeepest.names
  obtain ⟨first, rfl⟩ : ancestor <+: names := by
    rw [hsplit] at hpre
    exact (List.prefix_or_prefix_of_prefix hpre (List.prefix_append _ _)).resolve_left hmissing
  have hfirst : first <+: missing := by
    rw [hsplit] at hpre
    exact (List.prefix_append_right_inj _).mp hpre
  cases first with
  | nil =>
    rw [List.append_nil] at hmissing
    exact absurd List.prefix_rfl hmissing
  | cons name first =>
    cases missing with
    | nil => exact absurd (List.prefix_nil.mp hfirst) (List.cons_ne_nil _ _)
    | cons name' rest =>
      obtain ⟨rfl, -⟩ := List.cons_prefix_cons.mp hfirst
      have hlocation := names_of_realpath (hdeepest.pathOf_location (List.cons_ne_nil _ _))
      have hbelow := hnames.rest hlocation
      have hclean' : ∀ n ∈ name :: rest, Clean n := fun n hn =>
        hclean n (hsplit ▸ List.mem_append_right _ hn)
      by_cases hlink : ∃ target, m.tree.node (location ++ [name]) = some (.link target)
      · obtain ⟨target, hlink⟩ := hlink
        exact hkept.dangling _ _ _ _ target hdeepest hlink _ (List.cons_ne_nil _ _) hfirst _ hbelow
      · have hnode : ∀ target, m.tree.node (location ++ [name]) ≠ some (.link target) :=
          fun target e => hlink ⟨target, e⟩
        have hwritten := hdeepest.names_missing (Clean.proper hclean') hnode hfirst
        rw [hwritten.unique hbelow]
        refine (prefix_of_accepted haccepted hkept hclimbed hclean' hnode).trans ?_
        exact (List.prefix_append_right_inj _).mpr (List.prefix_append [name] first)

theorem Kept.authorized {canonicalRoot : List String} {r : ResolvedTarget}
    (haccepted : Accepted m options path canonicalRoot r) (hkept : Kept m canonicalRoot path) :
    Authorized m options canonicalRoot path := by
  have hclean : ∀ n ∈ path.names, Clean n := haccepted.path ▸ lexicalTarget_clean
  have hresolved := haccepted.resolved
  rw [← haccepted.path] at hresolved
  obtain ⟨ancestor, missing, location, hclimbed⟩ := resolveFrom_climbed hresolved
  rw [List.reverse_reverse] at hclimbed
  have hancestor : ∀ names, names <+: ancestor → Exists m names :=
    fun names => exists_of_realpath hclimbed.deepest.location
  have hcreated : ∀ names, names <+: path.names → ¬Exists m names →
      ∀ loc, Names m.tree [] names loc → canonicalRoot <+: loc := by
    intro names hpre hmissing loc hnames
    exact created_of_kept haccepted hkept hclimbed hclean hpre
      (fun h => hmissing (hancestor _ h)) hnames
  refine ⟨?_, fun loc hnamed => ?_, hcreated, fun hlink => ?_, fun hpolicy => ?_⟩
  · have hlexical := haccepted.lexical
    rw [← haccepted.path] at hlexical
    exact (isPathContained_iff (Clean.proper hclean)).mp hlexical
  · have hsplit : path.names = ancestor ++ missing := hclimbed.deepest.names
    cases missing with
    | nil =>
      have hlocation := names_of_realpath hclimbed.deepest.location
      rw [hsplit, List.append_nil] at hnamed
      rw [hlocation.unique hnamed]
      have hinside := (isPathContained_iff ?_).mp haccepted.inside
      · rwa [hclimbed.canonicalPath] at hinside
      · rw [hclimbed.canonicalPath]
        exact join_proper (realpath_proper hclimbed.deepest.location)
    | cons name rest =>
      refine created_of_kept haccepted hkept hclimbed hclean List.prefix_rfl (fun h => ?_) hnamed
      have hlength := h.length_le
      rw [hsplit, List.length_append, List.length_cons] at hlength
      omega
  · cases hslash : path.slash with
    | true => exact hkept.slash hslash hlink
    | false =>
      have hpath : path = pathOf path.names := by
        cases path
        simpa [pathOf] using hslash
      have hseen := resolveExistingAncestor_symlink (haccepted.path ▸ haccepted.resolved)
        (hpath ▸ hlink)
      rw [haccepted.notSymlink] at hseen
      cases hseen
  · have hexists := haccepted.policy hpolicy
    rw [hclimbed.targetExists, Bool.true_and] at hexists
    obtain rfl : missing = [] := by simpa using hexists
    refine hancestor _ ?_
    have hsplit : path.names = ancestor ++ [] := hclimbed.deepest.names
    rw [hsplit, List.append_nil]

/-- **Exactly which of the returned paths keep the promise.** -/
theorem authorized_iff (h : authorizeFilesystemPath m options = .ok path) :
    ∃ canonicalRoot, realpath m (pathOf (lexicalRoot m options)) = .ok canonicalRoot ∧
      (Authorized m options canonicalRoot path ↔ Kept m canonicalRoot path) := by
  obtain ⟨canonicalRoot, r, haccepted⟩ := accepted_of_ok h
  have hclean : ∀ n ∈ path.names, Clean n := haccepted.path ▸ lexicalTarget_clean
  exact ⟨canonicalRoot, haccepted.root, fun h => h.kept hclean, fun h => h.authorized haccepted⟩

end

/-! ## one tree -/

/-- the first entry at a location. -/
def lookup (entries : List (List String × Node)) (loc : List String) : Option Node :=
  (entries.find? fun entry => entry.1 = loc).map Prod.snd

/-- a tree of some entries. -/
def treeOf (entries : List (List String × Node)) (root : lookup entries [] = some .directory)
    (parent : ∀ entry ∈ entries, entry.1 ≠ [] →
      lookup entries entry.1.dropLast = some .directory) : Tree where
  node := lookup entries
  root := root
  parent dir name node h := by
    obtain ⟨entry, hentry, -⟩ := Option.map_eq_some_iff.mp h
    have hloc : entry.1 = dir ++ [name] := by simpa using List.find?_some hentry
    have hparent := parent entry (List.mem_of_find?_eq_some hentry) (by simp [hloc])
    rwa [hloc, List.dropLast_concat] at hparent

/-- an authorized directory with a directory in it and a link to nothing. -/
def someMachine : Machine where
  tree := treeOf
    [([], .directory), (["w"], .directory), (["w", "r"], .directory),
      (["w", "r", "notes"], .directory), (["w", "r", "dangling"], .link "/out/missing"),
      (["out"], .directory)] rfl (by decide)
  links := 40
  cwd := []
  cwd_clean _ h := absurd h List.not_mem_nil

def createIn (input : String) : Options :=
  { root := "/w/r", input, policy := .create, allowAbsoluteInput := some false }

theorem authorized_iff_some :
    authorizeFilesystemPath someMachine (createIn "notes/draft.md") =
        .ok (pathOf ["w", "r", "notes", "draft.md"]) ∧
      ∃ canonicalRoot, realpath someMachine (pathOf (lexicalRoot someMachine
          (createIn "notes/draft.md"))) = .ok canonicalRoot ∧
        (Authorized someMachine (createIn "notes/draft.md") canonicalRoot
            (pathOf ["w", "r", "notes", "draft.md"]) ↔
          Kept someMachine canonicalRoot (pathOf ["w", "r", "notes", "draft.md"])) :=
  ⟨by decide +kernel, authorized_iff (by decide +kernel)⟩

/-- the path through the link leads out of the directory. -/
theorem names_dangling :
    Names someMachine.tree [] ["w", "r", "dangling", "x"] ["out", "missing", "x"] := by
  have hparts : parts "/out/missing" = ["", "out", "missing"] := by decide +kernel
  have hout : Names someMachine.tree [] ["", "out", "missing", "x"] ["out", "missing", "x"] :=
    .skip (.inl rfl) (.enter_entry (by decide) rfl id (.enter_nothing (by decide) rfl
      (.enter_nothing (by decide) rfl (.done _))))
  have hlink : someMachine.tree.node ["w", "r", "dangling"] = some (.link "/out/missing") := rfl
  refine .enter_entry (by decide) rfl id (.enter_entry (by decide) rfl id
    (.follow (by decide) hlink ?_))
  rw [hparts]
  exact hout

/-- **A link to nothing in the middle of a path is not seen.** -/
theorem dangling_escapes :
    ¬∀ m options path canonicalRoot, authorizeFilesystemPath m options = .ok path →
      realpath m (pathOf (lexicalRoot m options)) = .ok canonicalRoot →
        Authorized m options canonicalRoot path := by
  intro h
  have hauthorized := h someMachine (createIn "dangling/x") (pathOf ["w", "r", "dangling", "x"])
    ["w", "r"] (by decide +kernel) (by decide +kernel)
  exact absurd (hauthorized.named _ names_dangling) (by decide)

end Filesystem
end WmAutopilot
