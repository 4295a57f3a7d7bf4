import Mathlib.Data.List.Basic
import WmAutopilot.Js.Segments

/-!
# Trees of files with symbolic links

* `Tree`            what stands at a location, which is the list of the names that lead to it from the
                    root without a link;
* `walk`            how the kernel resolves a path: through links, of which it follows a bounded
                    number, and through directories only;
* `Names`           the location that a path names, also below links to nothing: what does not exist is
                    taken as it is written;
* `Walked`          the same as a relation (`walk_iff`);
* `Walked.names`    **the kernel comes to the location that a path names**.
-/

set_option autoImplicit false

namespace Posix

/-- what stands at a location. -/
inductive Node where
  | directory
  | file
  | link (target : String)
  deriving DecidableEq, Repr

def Node.IsLink : Node → Prop
  | link _ => True
  | _ => False

/-- A tree of files. -/
structure Tree where
  node : List String → Option Node
  root : node [] = some .directory
  parent : ∀ dir name entry, node (dir ++ [name]) = some entry → node dir = some .directory

/-- why a path is not resolved. -/
inductive Errno where
  | ENOENT
  | ENOTDIR
  | ELOOP
  deriving DecidableEq, Repr

def isAbsolute (path : String) : Bool := path.toList.head? = some '/'

/-- the parts of a path between its slashes. -/
def parts (path : String) : List String := (Js.segments path).map String.ofList

/-- a name of an entry of a directory. -/
def Proper (name : String) : Prop := name ≠ "" ∧ name ≠ "." ∧ name ≠ ".."

instance (name : String) : Decidable (Proper name) := inferInstanceAs (Decidable (_ ∧ _))

/-- where the target of a link in a directory starts. -/
def targetBase (dir : List String) (target : String) : List String :=
  if isAbsolute target then [] else dir

section
variable (t : Tree) (nofollow : Bool)

/-- A path is resolved up to the first link that is followed. -/
def walkParts (follow : List String → List String → Except Errno (List String)) :
    List String → List String → Except Errno (List String)
  | dir, [] => .ok dir
  | dir, name :: rest =>
    if t.node dir ≠ some .directory then .error .ENOTDIR
    else if name = "" ∨ name = "." then walkParts follow dir rest
    else if name = ".." then walkParts follow dir.dropLast rest
    else match t.node (dir ++ [name]) with
      | none => .error .ENOENT
      | some (.link target) =>
        -- `lstat` does not follow what the whole path names
        if nofollow = true ∧ rest = [] then .ok (dir ++ [name])
        else follow (targetBase dir target) (parts target ++ rest)
      | some _ => walkParts follow (dir ++ [name]) rest

/-- A path is resolved from a directory, through at most so many links. -/
def walk : ℕ → List String → List String → Except Errno (List String)
  | 0 => walkParts t nofollow fun _ _ => .error .ELOOP
  | links + 1 => walkParts t nofollow (walk links)

end

/-- **The location that a path names** from a directory.  See the file header. -/
inductive Names (t : Tree) : List String → List String → List String → Prop where
  | done (dir : List String) : Names t dir [] dir
  | skip {dir rest loc : List String} {name : String} (hname : name = "" ∨ name = ".")
      (h : Names t dir rest loc) : Names t dir (name :: rest) loc
  | up {dir rest loc : List String} (h : Names t dir.dropLast rest loc) :
      Names t dir (".." :: rest) loc
  | follow {dir rest loc : List String} {name target : String} (hname : Proper name)
      (hlink : t.node (dir ++ [name]) = some (.link target))
      (h : Names t (targetBase dir target) (parts target ++ rest) loc) :
      Names t dir (name :: rest) loc
  | enter {dir rest loc : List String} {name : String} (hname : Proper name)
      (hnode : ∀ target, t.node (dir ++ [name]) ≠ some (.link target))
      (h : Names t (dir ++ [name]) rest loc) : Names t dir (name :: rest) loc

section
variable {t : Tree} {nofollow : Bool} {dir xs ys loc mid : List String} {name : String}

/-! ## locations -/

/-- what has something below it is a directory. -/
theorem Tree.directory_of_below {entry : Node} (hys : ys ≠ [])
    (h : t.node (xs ++ ys) = some entry) : t.node xs = some .directory := by
  induction ys using List.reverseRecOn generalizing entry with
  | nil => exact absurd rfl hys
  | append_singleton ys name ih =>
    rw [← List.append_assoc] at h
    have hparent := t.parent _ _ _ h
    cases ys with
    | nil => simpa using hparent
    | cons y ys => exact ih (List.cons_ne_nil y ys) hparent

theorem Tree.directory_dropLast (h : t.node dir = some .directory) :
    t.node dir.dropLast = some .directory := by
  rcases List.eq_nil_or_concat' dir with rfl | ⟨init, name, rfl⟩
  · exact h
  · rw [List.dropLast_concat]
    exact t.parent _ _ _ h

theorem directory_targetBase {target : String} (h : t.node dir = some .directory) :
    t.node (targetBase dir target) = some .directory := by
  unfold targetBase
  split
  · exact t.root
  · exact h

theorem proper_ne (h : Proper name) : ¬(name = "" ∨ name = ".") := fun e => e.elim h.1 h.2.1

/-! ## the location that a path names -/

theorem Names.append (h : Names t dir xs mid) (h' : Names t mid ys loc) :
    Names t dir (xs ++ ys) loc := by
  induction h with
  | done dir => exact h'
  | skip hname _ ih => exact .skip hname (ih h')
  | up _ ih => exact .up (ih h')
  | follow hname hlink _ ih => exact .follow hname hlink (List.append_assoc .. ▸ ih h')
  | enter hname hnode _ ih => exact .enter hname hnode (ih h')

theorem Names.split {zs : List String} (h : Names t dir zs loc) :
    ∀ {xs ys}, zs = xs ++ ys → ∃ mid, Names t dir xs mid ∧ Names t mid ys loc := by
  induction h with
  | done dir =>
    intro xs ys e
    obtain ⟨rfl, rfl⟩ := List.append_eq_nil_iff.mp e.symm
    exact ⟨dir, .done dir, .done dir⟩
  | @skip dir rest loc name hname h ih =>
    intro xs ys e
    cases xs with
    | nil =>
      rw [List.nil_append] at e
      exact ⟨dir, .done dir, e ▸ .skip hname h⟩
    | cons x xs =>
      obtain ⟨rfl, rfl⟩ := List.cons.inj e
      obtain ⟨mid, hx, hy⟩ := ih rfl
      exact ⟨mid, .skip hname hx, hy⟩
  | @up dir rest loc h ih =>
    intro xs ys e
    cases xs with
    | nil =>
      rw [List.nil_append] at e
      exact ⟨dir, .done dir, e ▸ .up h⟩
    | cons x xs =>
      obtain ⟨rfl, rfl⟩ := List.cons.inj e
      obtain ⟨mid, hx, hy⟩ := ih rfl
      exact ⟨mid, .up hx, hy⟩
  | @follow dir rest loc name target hname hlink h ih =>
    intro xs ys e
    cases xs with
    | nil =>
      rw [List.nil_append] at e
      exact ⟨dir, .done dir, e ▸ .follow hname hlink h⟩
    | cons x xs =>
      obtain ⟨rfl, rfl⟩ := List.cons.inj e
      obtain ⟨mid, hx, hy⟩ := ih (List.append_assoc ..).symm
      exact ⟨mid, .follow hname hlink hx, hy⟩
  | @enter dir rest loc name hname hnode h ih =>
    intro xs ys e
    cases xs with
    | nil =>
      rw [List.nil_append] at e
      exact ⟨dir, .done dir, e ▸ .enter hname hnode h⟩
    | cons x xs =>
      obtain ⟨rfl, rfl⟩ := List.cons.inj e
      obtain ⟨mid, hx, hy⟩ := ih rfl
      exact ⟨mid, .enter hname hnode hx, hy⟩

/-- **A path names one location.** -/
theorem Names.unique (h : Names t dir xs loc) : ∀ {loc'}, Names t dir xs loc' → loc' = loc := by
  induction h with
  | done dir =>
    intro loc' h'
    cases h'
    rfl
  | skip hname h ih =>
    intro loc' h'
    cases h' with
    | skip _ h' => exact ih h'
    | up _ => simp at hname
    | follow hproper _ _ => exact absurd hname (proper_ne hproper)
    | enter hproper _ _ => exact absurd hname (proper_ne hproper)
  | up h ih =>
    intro loc' h'
    cases h' with
    | skip hname _ => simp at hname
    | up h' => exact ih h'
    | follow hproper _ _ => exact absurd rfl hproper.2.2
    | enter hproper _ _ => exact absurd rfl hproper.2.2
  | follow hproper hlink h ih =>
    intro loc' h'
    cases h' with
    | skip hname _ => exact absurd hname (proper_ne hproper)
    | up _ => exact absurd rfl hproper.2.2
    | follow _ hlink' h' =>
      cases hlink.symm.trans hlink'
      exact ih h'
    | enter _ hnode _ => exact absurd hlink (hnode _)
  | enter hproper hnode h ih =>
    intro loc' h'
    cases h' with
    | skip hname _ => exact absurd hname (proper_ne hproper)
    | up _ => exact absurd rfl hproper.2.2
    | follow _ hlink _ => exact absurd hlink (hnode _)
    | enter _ _ h' => exact ih h'

theorem Names.enter_entry {entry : Node} (hname : Proper name)
    (hnode : t.node (dir ++ [name]) = some entry) (hlink : ¬entry.IsLink)
    (h : Names t (dir ++ [name]) xs loc) : Names t dir (name :: xs) loc := by
  refine .enter hname (fun target e => ?_) h
  cases hnode.symm.trans e
  exact hlink trivial

theorem Names.enter_nothing (hname : Proper name) (hnode : t.node (dir ++ [name]) = none)
    (h : Names t (dir ++ [name]) xs loc) : Names t dir (name :: xs) loc := by
  refine .enter hname (fun target e => ?_) h
  cases hnode.symm.trans e

/-- the rest of a path, when its beginning names a location. -/
theorem Names.rest (h : Names t dir (xs ++ ys) loc) (hx : Names t dir xs mid) :
    Names t mid ys loc := by
  obtain ⟨mid', hx', hy⟩ := h.split rfl
  exact hx.unique hx' ▸ hy

/-- where no link stands below a location, a path is taken as it is written. -/
theorem names_below (hproper : ∀ name ∈ xs, Proper name)
    (hnode : ∀ ys, ys ≠ [] → ys <+: xs → ∀ target, t.node (dir ++ ys) ≠ some (.link target)) :
    Names t dir xs (dir ++ xs) := by
  induction xs generalizing dir with
  | nil =>
    rw [List.append_nil]
    exact .done dir
  | cons name xs ih =>
    refine .enter (hproper name List.mem_cons_self)
      (hnode [name] (List.cons_ne_nil _ _) (List.prefix_append [name] xs)) ?_
    have h : Names t (dir ++ [name]) xs (dir ++ [name] ++ xs) :=
      ih (fun n hn => hproper n (List.mem_cons_of_mem _ hn)) fun ys hys hpre target => ?_
    · rwa [List.append_assoc] at h
    · rw [List.append_assoc]
      exact hnode (name :: ys) (List.cons_ne_nil _ _)
        (List.cons_prefix_cons.mpr ⟨rfl, hpre⟩) target

/-! ## how the kernel resolves a path -/

variable {follow : List String → List String → Except Errno (List String)} {rest : List String}
  {links : ℕ}

theorem walkParts_skip (hdir : t.node dir = some .directory) (hname : name = "" ∨ name = ".") :
    walkParts t nofollow follow dir (name :: rest) = walkParts t nofollow follow dir rest := by
  rw [walkParts, if_neg (not_not.mpr hdir), if_pos hname]

theorem walkParts_up (hdir : t.node dir = some .directory) :
    walkParts t nofollow follow dir (".." :: rest) =
      walkParts t nofollow follow dir.dropLast rest := by
  rw [walkParts, if_neg (not_not.mpr hdir), if_neg (by decide), if_pos rfl]

theorem walkParts_link {target : String} (hdir : t.node dir = some .directory) (hname : Proper name)
    (hnode : t.node (dir ++ [name]) = some (.link target)) :
    walkParts t nofollow follow dir (name :: rest) =
      if nofollow = true ∧ rest = [] then .ok (dir ++ [name])
      else follow (targetBase dir target) (parts target ++ rest) := by
  rw [walkParts, if_neg (not_not.mpr hdir), if_neg (proper_ne hname), if_neg hname.2.2]
  simp only [hnode]

theorem walkParts_enter {entry : Node} (hdir : t.node dir = some .directory) (hname : Proper name)
    (hnode : t.node (dir ++ [name]) = some entry) (hlink : ¬entry.IsLink) :
    walkParts t nofollow follow dir (name :: rest) =
      walkParts t nofollow follow (dir ++ [name]) rest := by
  rw [walkParts, if_neg (not_not.mpr hdir), if_neg (proper_ne hname), if_neg hname.2.2]
  cases entry with
  | link target => exact absurd trivial hlink
  | directory | file => simp only [hnode]

/-- **What a resolved path starts with.** -/
theorem walkParts_cases (h : walkParts t nofollow follow dir (name :: rest) = .ok loc) :
    t.node dir = some .directory ∧ ((name = "" ∨ name = ".") ∨ name = ".." ∨
      Proper name ∧ ((∃ target, t.node (dir ++ [name]) = some (.link target)) ∨
        ∃ entry, t.node (dir ++ [name]) = some entry ∧ ¬entry.IsLink)) := by
  rw [walkParts] at h
  split at h
  · cases h
  · rename_i hdir
    refine ⟨not_not.mp hdir, ?_⟩
    split at h
    · exact Or.inl ‹_›
    · rename_i hskip
      split at h
      · exact Or.inr (Or.inl ‹_›)
      · rename_i hup
        refine Or.inr (Or.inr ⟨⟨fun e => hskip (.inl e), fun e => hskip (.inr e), hup⟩, ?_⟩)
        cases hnode : t.node (dir ++ [name]) with
        | none => simp only [hnode] at h; cases h
        | some entry =>
          cases entry with
          | link target => exact Or.inl ⟨target, rfl⟩
          | directory | file => exact Or.inr ⟨_, rfl, id⟩

/-- A path is resolved with at most so many links, all of which are followed. -/
inductive Walked (t : Tree) : ℕ → List String → List String → List String → Prop where
  | done (links : ℕ) (dir : List String) : Walked t links dir [] dir
  | skip {links : ℕ} {dir rest loc : List String} {name : String}
      (hdir : t.node dir = some .directory) (hname : name = "" ∨ name = ".")
      (h : Walked t links dir rest loc) : Walked t links dir (name :: rest) loc
  | up {links : ℕ} {dir rest loc : List String} (hdir : t.node dir = some .directory)
      (h : Walked t links dir.dropLast rest loc) : Walked t links dir (".." :: rest) loc
  | follow {links : ℕ} {dir rest loc : List String} {name target : String}
      (hdir : t.node dir = some .directory) (hname : Proper name)
      (hlink : t.node (dir ++ [name]) = some (.link target))
      (h : Walked t links (targetBase dir target) (parts target ++ rest) loc) :
      Walked t (links + 1) dir (name :: rest) loc
  | enter {links : ℕ} {dir rest loc : List String} {name : String} {entry : Node}
      (hdir : t.node dir = some .directory) (hname : Proper name)
      (hnode : t.node (dir ++ [name]) = some entry) (hlink : ¬entry.IsLink)
      (h : Walked t links (dir ++ [name]) rest loc) : Walked t links dir (name :: rest) loc

theorem exists_follow (t : Tree) (nofollow : Bool) (links : ℕ) :
    ∃ follow, walk t nofollow links = walkParts t nofollow follow := by
  cases links <;> exact ⟨_, rfl⟩

theorem walked_of_walkParts
    (hfollow : ∀ dir xs, follow dir xs = .ok loc → ∃ n, n + 1 = links ∧ Walked t n dir xs loc)
    (h : walkParts t false follow dir xs = .ok loc) : Walked t links dir xs loc := by
  induction xs generalizing dir with
  | nil =>
    obtain rfl := Except.ok.inj h
    exact .done links dir
  | cons name rest ih =>
    obtain ⟨hdir, hname | rfl | ⟨hname, ⟨target, hnode⟩ | ⟨entry, hnode, hlink⟩⟩⟩ :=
      walkParts_cases h
    · rw [walkParts_skip hdir hname] at h
      exact .skip hdir hname (ih h)
    · rw [walkParts_up hdir] at h
      exact .up hdir (ih h)
    · rw [walkParts_link hdir hname hnode, if_neg (by simp)] at h
      obtain ⟨n, rfl, hwalked⟩ := hfollow _ _ h
      exact .follow hdir hname hnode hwalked
    · rw [walkParts_enter hdir hname hnode hlink] at h
      exact .enter hdir hname hnode hlink (ih h)

/-- **The relation is the function.** -/
theorem walk_iff : walk t false links dir xs = .ok loc ↔ Walked t links dir xs loc := by
  constructor
  · induction links generalizing dir xs with
    | zero => exact walked_of_walkParts fun _ _ h => by cases h
    | succ n ih => exact walked_of_walkParts fun _ _ h => ⟨n, rfl, ih h⟩
  · intro h
    induction h with
    | done links dir => cases links <;> rfl
    | @skip links dir _ _ _ hdir hname _ ih =>
      obtain ⟨follow, hfollow⟩ := exists_follow t false links
      rw [hfollow] at ih ⊢
      rw [walkParts_skip hdir hname, ih]
    | @up links dir _ _ hdir _ ih =>
      obtain ⟨follow, hfollow⟩ := exists_follow t false links
      rw [hfollow] at ih ⊢
      rw [walkParts_up hdir, ih]
    | follow hdir hname hlink _ ih =>
      rw [walk, walkParts_link hdir hname hlink, if_neg (by simp), ih]
    | @enter links dir _ _ _ _ hdir hname hnode hlink _ ih =>
      obtain ⟨follow, hfollow⟩ := exists_follow t false links
      rw [hfollow] at ih ⊢
      rw [walkParts_enter hdir hname hnode hlink, ih]

/-- **The kernel comes to the location that a path names.** -/
theorem Walked.names (h : Walked t links dir xs loc) : Names t dir xs loc := by
  induction h with
  | done links dir => exact .done dir
  | skip _ hname _ ih => exact .skip hname ih
  | up _ _ ih => exact .up ih
  | follow _ hname hlink _ ih => exact .follow hname hlink ih
  | enter _ hname hnode hlink _ ih => exact .enter_entry hname hnode hlink ih

/-- what a resolved path ends in is no link. -/
theorem Walked.node (h : Walked t links dir xs loc) {entry : Node} (hdir : t.node dir = some entry)
    (hlink : ¬entry.IsLink) : ∃ entry, t.node loc = some entry ∧ ¬entry.IsLink := by
  induction h generalizing entry with
  | done links dir => exact ⟨entry, hdir, hlink⟩
  | skip hdir' _ _ ih => exact ih hdir' id
  | up hdir' _ ih => exact ih (Tree.directory_dropLast hdir') id
  | follow hdir' _ _ _ ih =>
    exact ih (directory_targetBase hdir') id
  | enter _ _ hnode hlink' _ ih => exact ih hnode hlink'

/-- a path is resolved to names of entries. -/
theorem Walked.proper (h : Walked t links dir xs loc) (hdir : ∀ name ∈ dir, Proper name) :
    ∀ name ∈ loc, Proper name := by
  induction h with
  | done links dir => exact hdir
  | skip _ _ _ ih => exact ih hdir
  | up _ _ ih => exact ih fun n hn => hdir n (List.mem_of_mem_dropLast hn)
  | follow _ _ _ _ ih =>
    refine ih fun n hn => ?_
    unfold targetBase at hn
    split at hn
    · cases hn
    · exact hdir n hn
  | enter _ hname _ _ _ ih =>
    refine ih fun n hn => ?_
    rcases List.mem_append.mp hn with hn | hn
    · exact hdir n hn
    · exact List.mem_singleton.mp hn ▸ hname

/-- **A resolved path is followed further**, by what needs no more links. -/
theorem Walked.append (h : Walked t links dir xs mid) (h' : ∀ n, Walked t n mid ys loc) :
    Walked t links dir (xs ++ ys) loc := by
  induction h with
  | done links dir => exact h' links
  | skip hdir hname _ ih => exact .skip hdir hname (ih h')
  | up hdir _ ih => exact .up hdir (ih h')
  | follow hdir hname hlink _ ih =>
    exact .follow hdir hname hlink (List.append_assoc .. ▸ ih h')
  | enter hdir hname hnode hlink _ ih => exact .enter hdir hname hnode hlink (ih h')

/-- the beginning of a resolved path is resolved. -/
theorem Walked.beginning {zs : List String} (h : Walked t links dir zs loc) :
    ∀ {xs ys}, zs = xs ++ ys → ∃ mid, Walked t links dir xs mid := by
  induction h with
  | done links dir =>
    intro xs ys e
    obtain ⟨rfl, -⟩ := List.append_eq_nil_iff.mp e.symm
    exact ⟨dir, .done links dir⟩
  | @skip links dir rest loc name hdir hname _ ih =>
    intro xs ys e
    cases xs with
    | nil => exact ⟨dir, .done links dir⟩
    | cons x xs =>
      obtain ⟨rfl, rfl⟩ := List.cons.inj e
      obtain ⟨mid, hmid⟩ := ih rfl
      exact ⟨mid, .skip hdir hname hmid⟩
  | @up links dir rest loc hdir _ ih =>
    intro xs ys e
    cases xs with
    | nil => exact ⟨dir, .done links dir⟩
    | cons x xs =>
      obtain ⟨rfl, rfl⟩ := List.cons.inj e
      obtain ⟨mid, hmid⟩ := ih rfl
      exact ⟨mid, .up hdir hmid⟩
  | @follow links dir rest loc name target hdir hname hlink _ ih =>
    intro xs ys e
    cases xs with
    | nil => exact ⟨dir, .done _ dir⟩
    | cons x xs =>
      obtain ⟨rfl, rfl⟩ := List.cons.inj e
      obtain ⟨mid, hmid⟩ := ih (List.append_assoc ..).symm
      exact ⟨mid, .follow hdir hname hlink hmid⟩
  | @enter links dir rest loc name entry hdir hname hnode hlink _ ih =>
    intro xs ys e
    cases xs with
    | nil => exact ⟨dir, .done links dir⟩
    | cons x xs =>
      obtain ⟨rfl, rfl⟩ := List.cons.inj e
      obtain ⟨mid, hmid⟩ := ih rfl
      exact ⟨mid, .enter hdir hname hnode hlink hmid⟩

/-- a path that is resolved has an entry, also when its last link is not followed. -/
theorem Walked.exists_entry (h : Walked t links dir xs loc) {entry : Node}
    (hdir : t.node dir = some entry) :
    ∃ loc entry, walk t true links dir xs = .ok loc ∧ t.node loc = some entry := by
  induction h generalizing entry with
  | done links dir => exact ⟨dir, entry, by cases links <;> rfl, hdir⟩
  | @skip links _ _ _ _ hdir' hname _ ih =>
    obtain ⟨follow, hfollow⟩ := exists_follow t true links
    obtain ⟨loc, entry, h⟩ := ih hdir'
    rw [hfollow] at h ⊢
    exact ⟨loc, entry, by rw [walkParts_skip hdir' hname]; exact h⟩
  | @up links _ _ _ hdir' _ ih =>
    obtain ⟨follow, hfollow⟩ := exists_follow t true links
    obtain ⟨loc, entry, h⟩ := ih (Tree.directory_dropLast hdir')
    rw [hfollow] at h ⊢
    exact ⟨loc, entry, by rw [walkParts_up hdir']; exact h⟩
  | @follow links dir rest loc name target hdir' hname hlink _ ih =>
    rw [walk, walkParts_link hdir' hname hlink]
    split
    · exact ⟨_, _, rfl, hlink⟩
    · exact ih (directory_targetBase hdir')
  | @enter links _ _ _ _ _ hdir' hname hnode hlink _ ih =>
    obtain ⟨follow, hfollow⟩ := exists_follow t true links
    obtain ⟨loc, entry, h⟩ := ih hnode
    rw [hfollow] at h ⊢
    exact ⟨loc, entry, by rw [walkParts_enter hdir' hname hnode hlink]; exact h⟩

end

end Posix
