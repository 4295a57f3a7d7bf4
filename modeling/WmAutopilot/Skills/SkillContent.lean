import Mathlib.Data.List.Sort
import WmAutopilot.Js.Throw

/-!
# The content of a skill

* `Node`, `HasFile`     directories as `readdir` lists them, and the regular files in them;
* `visit`               the walk over a directory;
* `streamOf`            what is hashed: paths and bytes, each with a NUL byte behind it;
* `digestDirectory`     the digest of a directory, with its files in the order of their paths.
-/

set_option autoImplicit false

namespace WmAutopilot
namespace Skills
open Js

/-- What `lstat` finds.  A link has what `validateIgnoredAlias` says against it. -/
inductive Node where
  | file (data : List UInt8) (executable : Bool)
  | directory (entries : List (String × Node))
  | link (refused : Option String)
  | other

/-- `IGNORE` -/
def IGNORE : List String := [".git", ".DS_Store"]

/-- A regular file of a directory, at a path below it. -/
inductive HasFile : List (String × Node) → String → List UInt8 → Prop where
  | file {entries : List (String × Node)} {name : String} {data : List UInt8} {executable : Bool}
      (h : (name, .file data executable) ∈ entries) (hname : name ∉ IGNORE) :
      HasFile entries name data
  | inside {entries inner : List (String × Node)} {name path : String} {data : List UInt8}
      (h : (name, .directory inner) ∈ entries) (hname : name ∉ IGNORE)
      (hinner : HasFile inner path data) : HasFile entries (name ++ "/" ++ path) data

/-- Names in a directory are distinct, and have no slash and no NUL in them. -/
inductive Tree : List (String × Node) → Prop where
  | mk {entries : List (String × Node)} (distinct : (entries.map (·.1)).Nodup)
      (names : ∀ entry ∈ entries, '/' ∉ entry.1.toList ∧ '\x00' ∉ entry.1.toList)
      (inner : ∀ name inner, (name, .directory inner) ∈ entries → Tree inner) : Tree entries

structure Entry where
  path : String
  data : List UInt8
  executable : Bool

/-- the path and the bytes. -/
def Entry.file (entry : Entry) : String × List UInt8 := (entry.path, entry.data)

mutual

/-- `visit`, with the path of the directory and a slash behind it. -/
def visit (parent : String) : List (String × Node) → Except String (List Entry)
  | [] => .ok []
  | (name, node) :: rest =>
    if name ∈ IGNORE then visit parent rest
    else do
      let found ← visitNode (parent ++ name) node
      let more ← visit parent rest
      pure (found ++ more)

/-- what is pushed for one entry. -/
def visitNode (path : String) : Node → Except String (List Entry)
  | .file data executable => .ok [{ path, data, executable }]
  | .directory entries => visit (path ++ "/") entries
  | .link none => .ok []
  | .link (some message) => .error message
  | .other => .error ("Unsupported file type: " ++ path)

end

/-- `left.localeCompare(right) <= 0` -/
structure Collation where
  le : String → String → Bool
  le_total : ∀ left right, le left right = true ∨ le right left = true
  le_trans : ∀ a b c, le a b = true → le b c = true → le a c = true

section
variable (collation : Collation)

/-- the order of files by their paths. -/
def FileLe (left right : String × List UInt8) : Prop := collation.le left.1 right.1 = true

instance : DecidableRel (FileLe collation) := fun left right =>
  inferInstanceAs (Decidable (collation.le left.1 right.1 = true))

instance : Std.Total (FileLe collation) := ⟨fun left right => collation.le_total left.1 right.1⟩

instance : IsTrans (String × List UInt8) (FileLe collation) :=
  ⟨fun a b c => collation.le_trans a.1 b.1 c.1⟩

def EntryLe (left right : Entry) : Prop := FileLe collation left.file right.file

instance : DecidableRel (EntryLe collation) := fun left right =>
  inferInstanceAs (Decidable (FileLe collation left.file right.file))

/-- the bytes of a text. -/
def utf8 (text : String) : List UInt8 := text.toList.flatMap String.utf8EncodeChar

/-- what is hashed. -/
def streamOf : List (String × List UInt8) → List UInt8
  | [] => []
  | (path, data) :: files => utf8 path ++ 0 :: (data ++ 0 :: streamOf files)

/-- what `digestDirectory` returns. -/
structure DirectoryDigest where
  digest : String
  files : List String
  executableFiles : List String
  deriving DecidableEq, Repr

/-- `sha256` gives the digest in hexadecimal. -/
def digestDirectory (sha256 : List UInt8 → String) (root : List (String × Node)) :
    Except String DirectoryDigest := do
  let entries ← visit "" root
  let sorted := entries.insertionSort (EntryLe collation)
  pure
    { digest := sha256 (streamOf (sorted.map (·.file)))
      files := sorted.map (·.path)
      executableFiles := (sorted.filter (·.executable)).map (·.path) }

end

end Skills
end WmAutopilot
