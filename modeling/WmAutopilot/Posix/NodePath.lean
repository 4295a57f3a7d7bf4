import WmAutopilot.Posix.PathWalk

/-!
# Absolute paths as Node writes them

* `Path`                      an absolute path, which may end in a slash;
* `resolve`, `normalize`, `relative`, `join`   the functions of `node:path`, on POSIX;
* `relative_prefix`           a path is relative to a root without going up **exactly when the names of
                              the root are its first names**.
-/

set_option autoImplicit false

namespace Posix

/-- An absolute path: the names between its slashes, and whether it ends in one. -/
structure Path where
  names : List String
  slash : Bool := false
  deriving DecidableEq, Repr

/-- what the kernel reads of it. -/
def Path.parts (path : Path) : List String := path.names ++ if path.slash then [""] else []

/-- `.` and nothing are dropped, and `..` takes the name before it. -/
def normalizeNames : List String → List String → List String
  | dir, [] => dir
  | dir, name :: rest =>
    if name = "" ∨ name = "." then normalizeNames dir rest
    else if name = ".." then normalizeNames dir.dropLast rest
    else normalizeNames (dir ++ [name]) rest

/-- `resolve(base, path)` -/
def resolve (base : List String) (path : String) : List String :=
  normalizeNames (if isAbsolute path then [] else base) (parts path)

/-- `normalize(path)` of an absolute path: a slash at the end is kept. -/
def normalize (path : String) : Path :=
  let names := normalizeNames [] (parts path)
  { names, slash := path.toList.getLast? = some '/' ∧ names ≠ [] }

/-- `normalize(join(base, ...paths))`, of which only the names are used. -/
def join (base : List String) (paths : List String) : List String :=
  normalizeNames base (paths.flatMap parts)

/-- `relative(root, target)` -/
def relative : List String → List String → List String
  | name :: root, name' :: target =>
    if name = name' then relative root target
    else ".." :: root.map (fun _ => "..") ++ name' :: target
  | root, target => root.map (fun _ => "..") ++ target

/-- a name that a path may contain. -/
def Clean (name : String) : Prop := Proper name ∧ '/' ∉ name.toList

section
variable {dir xs ys : List String} {name : String}

theorem Clean.proper (h : ∀ name ∈ xs, Clean name) : ∀ name ∈ xs, Proper name :=
  fun name hn => (h name hn).1

/-! ## normal paths -/

theorem normalizeNames_all {Q : String → Prop} (hdir : ∀ name ∈ dir, Q name)
    (hxs : ∀ name ∈ xs, Proper name → Q name) : ∀ name ∈ normalizeNames dir xs, Q name := by
  induction xs generalizing dir with
  | nil => exact hdir
  | cons name rest ih =>
    have hrest : ∀ name ∈ rest, Proper name → Q name := fun n hn => hxs n (List.mem_cons_of_mem _ hn)
    rw [normalizeNames]
    split
    · exact ih hdir hrest
    · rename_i hskip
      split
      · exact ih (fun n hn => hdir n (List.mem_of_mem_dropLast hn)) hrest
      · rename_i hup
        refine ih (fun n hn => ?_) hrest
        rcases List.mem_append.mp hn with hn | hn
        · exact hdir n hn
        · obtain rfl := List.mem_singleton.mp hn
          exact hxs n List.mem_cons_self ⟨fun e => hskip (.inl e), fun e => hskip (.inr e), hup⟩

theorem join_proper {paths : List String} (h : ∀ name ∈ dir, Proper name) :
    ∀ name ∈ join dir paths, Proper name := normalizeNames_all h fun _ _ h => h

theorem slash_notMem_of_mem_parts {path : String} (h : name ∈ parts path) : '/' ∉ name.toList := by
  obtain ⟨part, hpart, rfl⟩ := List.mem_map.mp h
  rw [String.toList_ofList]
  exact Js.sep_notMem_of_mem_splitOn hpart

/-- a name is the only part of itself. -/
theorem parts_name (h : '/' ∉ name.toList) : parts name = [name] := by
  unfold parts Js.segments
  rw [List.splitOn_eq_singleton h, List.map_singleton, String.ofList_toList]

/-- a name before a slash. -/
theorem splitOn_before_slash {cs : List Char} (h : '/' ∉ cs) :
    (cs ++ ['/']).splitOn '/' = [cs, []] := by
  induction cs with
  | nil => exact Js.splitOn_cons_self []
  | cons c cs ih =>
    rw [List.cons_append, Js.splitOn_cons_of_ne fun e => h (by rw [e]; exact List.mem_cons_self),
      ih fun hm => h (List.mem_cons_of_mem _ hm)]
    rfl

theorem resolve_clean (path : String) (h : ∀ name ∈ dir, Clean name) :
    ∀ name ∈ resolve dir path, Clean name := by
  refine normalizeNames_all (fun name hn => ?_) fun name hn hp => ⟨hp, slash_notMem_of_mem_parts hn⟩
  split at hn
  · cases hn
  · exact h name hn

theorem normalize_clean (path : String) : ∀ name ∈ (normalize path).names, Clean name :=
  normalizeNames_all (fun _ h => absurd h List.not_mem_nil)
    fun _ hn hp => ⟨hp, slash_notMem_of_mem_parts hn⟩

/-! ## relative paths -/

/-- **A path is relative to a root without going up** exactly when it starts as the root does. -/
theorem relative_prefix (hys : ∀ name ∈ ys, name ≠ "..") :
    (relative xs ys).head? ≠ some ".." ↔ xs <+: ys := by
  induction xs generalizing ys with
  | nil =>
    cases ys with
    | nil => simp [relative]
    | cons y ys => simpa [relative] using hys y List.mem_cons_self
  | cons x xs ih =>
    cases ys with
    | nil => simp [relative]
    | cons y ys =>
      rw [relative, List.cons_prefix_cons]
      split
      · rename_i e
        rw [ih fun n hn => hys n (List.mem_cons_of_mem _ hn)]
        exact ⟨fun h => ⟨e, h⟩, fun h => h.2⟩
      · rename_i e
        simp [e]

end

end Posix
