import WmAutopilot.Js.Throw
import WmAutopilot.Posix.NodePath

/-!
# The boundary of an authorized directory

* `resolveExistingAncestor`   from a path upwards to what exists, and the location that the path would
                              have below it;
* `authorizeFilesystemPath`   the path of an input in an authorized directory, or a refusal.
-/

set_option autoImplicit false

namespace WmAutopilot
namespace Filesystem
open Js Posix

/-! ## the file system -/

/-- what the functions read of the machine. -/
structure Machine where
  tree : Tree
  /-- how many links the kernel follows in one path. -/
  links : ℕ
  /-- `process.cwd()` -/
  cwd : List String
  cwd_clean : ∀ name ∈ cwd, Clean name

section
variable (m : Machine)

/-- `lstat(path)`: the entry, and a link is not followed. -/
def lstat (path : Path) : Except Errno Node := do
  let loc ← walk m.tree true m.links [] path.parts
  orThrow .ENOENT (m.tree.node loc)

/-- `realpath(path)` -/
def realpath (path : Path) : Except Errno (List String) :=
  walk m.tree false m.links [] path.parts

/-- the path of names, without a slash at the end. -/
def pathOf (names : List String) : Path := { names }

@[simp] theorem pathOf_names (names : List String) : (pathOf names).names = names := rfl

/-! ## the boundary -/

/-- A relative path on POSIX is never absolute. -/
def isPathContained (root target : List String) : Bool :=
  (relative root target).head? ≠ some ".."

/-- `metadata.isSymbolicLink()` of what was read. -/
def isSymbolicLink (metadata : Except Errno Node) : Bool :=
  match metadata with
  | .ok (.link _) => true
  | _ => false

structure ResolvedTarget where
  canonicalPath : List String
  targetExists : Bool
  targetIsSymlink : Bool
  deriving DecidableEq, Repr

/-- `cursor.slice(parent.length).replace(/^[/\\]+/, "")` -/
def missingSegment (name : String) (slash : Bool) : String :=
  String.ofList ((name.toList ++ if slash then ['/'] else []).dropWhile fun c => c = '/' ∨ c = '\\')

/-- `lstat(cursor)` and `realpath(cursor)`, as one `try` block runs them. -/
def existing (cursor : Path) : Except Errno (Node × List String) := do
  let metadata ← lstat m cursor
  let canonicalAncestor ← realpath m cursor
  pure (metadata, canonicalAncestor)

/-- The loop of `resolveExistingAncestor`: the names of the cursor, the last one first, and the
segments that are missing below it, the first one first. -/
def resolveFrom : (cursor : List String) → (slash : Bool) → (missingSegments : List String) →
    (targetExists targetIsSymlink : Bool) → Except Errno ResolvedTarget
  | cursor, slash, missingSegments, targetExists, targetIsSymlink =>
    let path : Path := { names := cursor.reverse, slash }
    match existing m path with
    | .ok (metadata, canonicalAncestor) => .ok
      { canonicalPath := join canonicalAncestor missingSegments
        targetExists
        targetIsSymlink :=
          targetIsSymlink || missingSegments.isEmpty && isSymbolicLink (.ok metadata) }
    | .error code =>
      if code ≠ .ENOENT ∧ code ≠ .ENOTDIR then .error code
      else
        let targetIsSymlink :=
          if missingSegments.isEmpty then isSymbolicLink (lstat m path) else targetIsSymlink
        match cursor with
        -- `parent === cursor`
        | [] => .error code
        | name :: parent => resolveFrom parent false
            (missingSegment name slash :: missingSegments) false targetIsSymlink

def resolveExistingAncestor (candidate : Path) : Except Errno ResolvedTarget :=
  resolveFrom m candidate.names.reverse candidate.slash [] true false

inductive FilesystemTargetPolicy where
  | existing
  | create
  deriving DecidableEq, Repr

/-- the message of a `FilesystemBoundaryError`. -/
abbrev FilesystemBoundaryError := String

structure Options where
  root : String
  input : String
  policy : FilesystemTargetPolicy
  allowAbsoluteInput : Option Bool := none

/-- `resolve(options.root.trim())` -/
def lexicalRoot (options : Options) : List String := resolve m.cwd (trim options.root)

/-- `isAbsolute(pathInput) ? normalize(pathInput) : resolve(lexicalRoot, pathInput)` -/
def lexicalTarget (options : Options) : Path :=
  let pathInput := trim options.input
  if isAbsolute pathInput then normalize pathInput
  else pathOf (resolve (lexicalRoot m options) pathInput)

def outside : FilesystemBoundaryError :=
  "Access outside the authorized directory is not permitted"

/-- `x.catch(() => { throw new FilesystemBoundaryError(message) })` -/
def orRefuse {α : Type} (message : FilesystemBoundaryError) (x : Except Errno α) :
    Except FilesystemBoundaryError α := x.mapError fun _ => message

def authorizeFilesystemPath (options : Options) : Except FilesystemBoundaryError Path := do
  throwIf (blank options.root ∨ blank options.input) "A filesystem path is required"
  throwIf (isAbsolute (trim options.input) ∧ options.allowAbsoluteInput = some false)
    "Absolute paths are not permitted"
  throwIf (¬isPathContained (lexicalRoot m options) (lexicalTarget m options).names) outside
  let canonicalRoot ← orRefuse "Authorized directory does not exist"
    (realpath m (pathOf (lexicalRoot m options)))
  let resolvedTarget ← orRefuse "Filesystem path could not be resolved safely"
    (resolveExistingAncestor m (lexicalTarget m options))
  throwIf (¬isPathContained canonicalRoot resolvedTarget.canonicalPath) outside
  throwIf resolvedTarget.targetIsSymlink
    "Symbolic links are not permitted as filesystem targets"
  throwIf (options.policy = .existing ∧ ¬resolvedTarget.targetExists)
    "Filesystem target does not exist"
  pure (lexicalTarget m options)

end

end Filesystem
end WmAutopilot
