import Mathlib.Data.List.Basic
import Mathlib.Logic.Function.Basic
import WmAutopilot.Js.Sorted
import WmAutopilot.Js.Stable
import WmAutopilot.Skills.SkillContent

/-!
# What the digest of a skill tells

* `mem_visit`              the walk finds the regular files;
* `visit_distinct`         each at a path of its own, without NUL;
* `Continued`              two lists of files that are hashed alike and are not the same: at the first
                           difference one file goes on with a NUL byte where the other ends;
* `streamOf_eq_iff`        there is no other way to be hashed alike;
* `digest_tells_iff`       when equal digests mean equal files.
-/

set_option autoImplicit false

namespace WmAutopilot
namespace Skills
open Js

/-! ## bytes -/

section
variable {s t : String} {c : Char}

theorem utf8_toByteArray (s : String) : (utf8 s).toByteArray = s.toByteArray :=
  String.utf8Encode_toList

theorem utf8_injective (h : utf8 s = utf8 t) : s = t := by
  rw [← String.toByteArray_inj, ← utf8_toByteArray, h, utf8_toByteArray]

theorem ofNat_ne_zero {n k : ℕ} (h : n + k < 256) (hk : 0 < k) : UInt8.ofNat (n + k) ≠ 0 := by
  intro hzero
  have hnat := congrArg UInt8.toNat hzero
  rw [UInt8.toNat_ofNat_of_lt' h] at hnat
  have hz : (0 : UInt8).toNat = 0 := rfl
  omega

/-- a byte of a character of several bytes. -/
theorem marked_ne_zero {n m k : ℕ} (hm : 0 < m) (hk : 0 < k) (h : m + k ≤ 256) :
    UInt8.ofNat (n % m + k) ≠ 0 := by
  have hlt := Nat.mod_lt n hm
  exact ofNat_ne_zero (by omega) hk

/-- only NUL has a zero byte. -/
theorem eq_nul_of_mem (h : 0 ∈ String.utf8EncodeChar c) : c = '\x00' := by
  have hmarked : ∀ (n m k : ℕ), 0 < m → 0 < k → m + k ≤ 256 → 0 ≠ UInt8.ofNat (n % m + k) :=
    fun n m k hm hk hle => (marked_ne_zero hm hk hle).symm
  unfold String.utf8EncodeChar at h
  simp only at h
  split at h
  · next hsmall =>
    have hzero : c.val.toNat = 0 := by
      have hnat := congrArg UInt8.toNat (List.mem_singleton.mp h)
      rw [UInt8.toNat_ofNat_of_lt' (Nat.lt_of_le_of_lt hsmall (by decide))] at hnat
      exact hnat.symm
    exact Char.ext (UInt32.toNat_inj.mp hzero)
  · split at h
    · simp only [List.mem_cons, List.not_mem_nil, or_false] at h
      rcases h with h | h
      · exact absurd h (hmarked _ _ _ (by decide) (by decide) (by decide))
      · exact absurd h (hmarked _ _ _ (by decide) (by decide) (by decide))
    · split at h
      · simp only [List.mem_cons, List.not_mem_nil, or_false] at h
        rcases h with h | h | h
        · exact absurd h (hmarked _ _ _ (by decide) (by decide) (by decide))
        · exact absurd h (hmarked _ _ _ (by decide) (by decide) (by decide))
        · exact absurd h (hmarked _ _ _ (by decide) (by decide) (by decide))
      · simp only [List.mem_cons, List.not_mem_nil, or_false] at h
        rcases h with h | h | h | h
        · exact absurd h (hmarked _ _ _ (by decide) (by decide) (by decide))
        · exact absurd h (hmarked _ _ _ (by decide) (by decide) (by decide))
        · exact absurd h (hmarked _ _ _ (by decide) (by decide) (by decide))
        · exact absurd h (hmarked _ _ _ (by decide) (by decide) (by decide))

theorem zero_not_mem_utf8 (h : '\x00' ∉ s.toList) : 0 ∉ utf8 s := by
  intro hzero
  obtain ⟨c, hc, hbyte⟩ := List.mem_flatMap.mp hzero
  exact h (eq_nul_of_mem hbyte ▸ hc)

end

/-! ## streams -/

section
variable {files files' : List (String × List UInt8)}

/-- At the first difference one list has a file whose bytes are those of the other's file at the
same path, a NUL, and more: there the stream of the first goes on with the file, and the stream of
the other with the files behind it. -/
inductive Continued : List (String × List UInt8) → List (String × List UInt8) → Prop where
  | longer {path : String} {data more : List UInt8} {files files' : List (String × List UInt8)}
      (h : streamOf files = more ++ 0 :: streamOf files') :
      Continued ((path, data) :: files) ((path, data ++ 0 :: more) :: files')
  | shorter {path : String} {data more : List UInt8} {files files' : List (String × List UInt8)}
      (h : more ++ 0 :: streamOf files = streamOf files') :
      Continued ((path, data ++ 0 :: more) :: files) ((path, data) :: files')
  | later {file : String × List UInt8} {files files' : List (String × List UInt8)}
      (h : Continued files files') : Continued (file :: files) (file :: files')

/-- a text without zero bytes is read up to the first one. -/
theorem cut_at_zero {left right rest rest' : List UInt8} (hleft : 0 ∉ left) (hright : 0 ∉ right)
    (h : left ++ 0 :: rest = right ++ 0 :: rest') : left = right ∧ rest = rest' := by
  induction left generalizing right with
  | nil =>
    cases right with
    | nil => exact ⟨rfl, (List.cons.inj h).2⟩
    | cons b right => exact absurd ((List.cons.inj h).1 ▸ List.mem_cons_self) hright
  | cons b left ih =>
    cases right with
    | nil => exact absurd ((List.cons.inj h).1 ▸ List.mem_cons_self) hleft
    | cons b' right =>
      obtain ⟨rfl, htail⟩ := List.cons.inj h
      obtain ⟨rfl, hrest⟩ := ih (fun hmem => hleft (List.mem_cons_of_mem b hmem))
        (fun hmem => hright (List.mem_cons_of_mem b hmem)) htail
      exact ⟨rfl, hrest⟩

theorem Continued.streamOf_eq (h : Continued files files') : streamOf files = streamOf files' := by
  induction h with
  | longer h =>
    rw [streamOf, streamOf, h, List.append_assoc]
    rfl
  | shorter h =>
    rw [streamOf, streamOf, ← h, List.append_assoc]
    rfl
  | @later file files files' _ ih =>
    obtain ⟨path, data⟩ := file
    rw [streamOf, streamOf, ih]

theorem streamOf_cons_ne_nil (file : String × List UInt8) (files : List (String × List UInt8)) :
    streamOf (file :: files) ≠ [] := by
  obtain ⟨path, data⟩ := file
  rw [streamOf]
  exact List.append_ne_nil_of_right_ne_nil _ (List.cons_ne_nil _ _)

/-- **Lists of files are hashed alike when they are the same, or one goes on where the other
ends a file.** -/
theorem streamOf_eq_iff (hfiles : ∀ file ∈ files, '\x00' ∉ file.1.toList)
    (hfiles' : ∀ file ∈ files', '\x00' ∉ file.1.toList) :
    streamOf files = streamOf files' ↔ files = files' ∨ Continued files files' := by
  refine ⟨fun h => ?_, fun h => h.elim (fun h => congrArg streamOf h) Continued.streamOf_eq⟩
  induction files generalizing files' with
  | nil =>
    cases files' with
    | nil => exact .inl rfl
    | cons file files' => exact absurd h.symm (streamOf_cons_ne_nil file files')
  | cons file files ih =>
    cases files' with
    | nil => exact absurd h (streamOf_cons_ne_nil file files)
    | cons file' files' =>
      obtain ⟨path, data⟩ := file
      obtain ⟨path', data'⟩ := file'
      rw [streamOf, streamOf] at h
      obtain ⟨hpath, hrest⟩ := cut_at_zero (zero_not_mem_utf8 (hfiles _ List.mem_cons_self))
        (zero_not_mem_utf8 (hfiles' _ List.mem_cons_self)) h
      obtain rfl : path = path' := utf8_injective hpath
      -- one of the two files is the beginning of the other
      rcases List.append_eq_append_iff.mp hrest with ⟨more, rfl, hmore⟩ | ⟨more, rfl, hmore⟩
      · cases more with
        | nil =>
          rw [List.append_nil]
          have hsame := ih (fun file hf => hfiles file (List.mem_cons_of_mem _ hf))
            (fun file hf => hfiles' file (List.mem_cons_of_mem _ hf)) (List.cons.inj hmore).2
          exact hsame.imp (fun heq => by rw [heq]) .later
        | cons b more =>
          obtain ⟨rfl, htail⟩ := List.cons.inj hmore
          exact .inr (.longer htail)
      · cases more with
        | nil =>
          rw [List.append_nil]
          have hsame := ih (fun file hf => hfiles file (List.mem_cons_of_mem _ hf))
            (fun file hf => hfiles' file (List.mem_cons_of_mem _ hf)) (List.cons.inj hmore).2.symm
          exact hsame.imp (fun heq => by rw [heq]) .later
        | cons b more =>
          obtain ⟨rfl, htail⟩ := List.cons.inj hmore
          exact .inr (.shorter htail.symm)

/-- files without NUL bytes do not go on in each other. -/
theorem Continued.nul (h : Continued files files') : ∃ file ∈ files ++ files', 0 ∈ file.2 := by
  induction h with
  | @longer path data more files files' _ =>
    refine ⟨(path, data ++ 0 :: more), List.mem_append_right _ List.mem_cons_self, ?_⟩
    exact List.mem_append_right _ List.mem_cons_self
  | @shorter path data more files files' _ =>
    refine ⟨(path, data ++ 0 :: more), List.mem_append_left _ List.mem_cons_self, ?_⟩
    exact List.mem_append_right _ List.mem_cons_self
  | later _ ih =>
    obtain ⟨file, hfile, hnul⟩ := ih
    refine ⟨file, ?_, hnul⟩
    rcases List.mem_append.mp hfile with hfile | hfile
    · exact List.mem_append_left _ (List.mem_cons_of_mem _ hfile)
    · exact List.mem_append_right _ (List.mem_cons_of_mem _ hfile)

/-- lists of the same files do not go on in each other. -/
theorem Continued.not_perm (h : Continued files files') (hdistinct : (files.map (·.1)).Nodup) :
    ¬files.Perm files' := by
  intro hperm
  induction h with
  | @longer path data more files files' _ =>
    have hmem := hperm.mem_iff.mpr List.mem_cons_self
    have hdata := List.inj_on_of_nodup_map hdistinct hmem List.mem_cons_self rfl
    have hlength := congrArg (·.2.length) hdata
    simp only [List.length_append, List.length_cons] at hlength
    omega
  | @shorter path data more files files' _ =>
    have hmem := hperm.mem_iff.mpr List.mem_cons_self
    have hdata := List.inj_on_of_nodup_map hdistinct hmem List.mem_cons_self rfl
    have hlength := congrArg (·.2.length) hdata
    simp only [List.length_append, List.length_cons] at hlength
    omega
  | later _ ih => exact ih (List.nodup_cons.mp hdistinct).2 hperm.cons_inv

end

/-! ## the walk -/

/-- a regular file at `path`, or below it. -/
def NodeFile (path : String) (node : Node) (file : String × List UInt8) : Prop :=
  (∃ executable, node = .file file.2 executable ∧ file.1 = path) ∨
    ∃ inner rel, node = .directory inner ∧ file.1 = path ++ "/" ++ rel ∧ HasFile inner rel file.2

theorem hasFile_cons {name rel : String} {node : Node} {rest : List (String × Node)}
    {data : List UInt8} : HasFile ((name, node) :: rest) rel data ↔
      name ∉ IGNORE ∧ NodeFile name node (rel, data) ∨ HasFile rest rel data := by
  constructor
  · intro h
    cases h with
    | file h hname =>
      rcases List.mem_cons.mp h with heq | h
      · cases heq
        exact .inl ⟨hname, .inl ⟨_, rfl, rfl⟩⟩
      · exact .inr (.file h hname)
    | inside h hname hinner =>
      rcases List.mem_cons.mp h with heq | h
      · cases heq
        exact .inl ⟨hname, .inr ⟨_, _, rfl, rfl, hinner⟩⟩
      · exact .inr (.inside h hname hinner)
  · rintro (⟨hname, ⟨executable, rfl, rfl⟩ | ⟨inner, rel', rfl, rfl, hinner⟩⟩ | h)
    · exact .file List.mem_cons_self hname
    · exact .inside List.mem_cons_self hname hinner
    · cases h with
      | file h hname => exact .file (List.mem_cons_of_mem _ h) hname
      | inside h hname hinner => exact .inside (List.mem_cons_of_mem _ h) hname hinner

theorem not_hasFile_nil {rel : String} {data : List UInt8} : ¬HasFile [] rel data := by
  intro h
  cases h with
  | file h _ => exact absurd h List.not_mem_nil
  | inside h _ _ => exact absurd h List.not_mem_nil

mutual

/-- **The walk finds the regular files of a directory.** -/
theorem mem_visit {parent : String} {found : List Entry} {file : String × List UInt8} :
    ∀ {entries : List (String × Node)}, visit parent entries = .ok found →
      (file ∈ found.map (·.file) ↔ ∃ rel, file.1 = parent ++ rel ∧ HasFile entries rel file.2)
  | [], h => by
    rw [visit] at h
    cases h
    exact ⟨fun h => absurd h List.not_mem_nil, fun ⟨_, _, h⟩ => absurd h not_hasFile_nil⟩
  | (name, node) :: rest, h => by
    rw [visit] at h
    split at h
    · next hignored =>
      rw [mem_visit h]
      refine exists_congr fun rel => and_congr_right fun _ => ?_
      rw [hasFile_cons]
      exact ⟨.inr, fun h => h.resolve_left fun h => h.1 hignored⟩
    · next hname =>
      obtain ⟨first, hfirst, h⟩ := bind_ok.mp h
      obtain ⟨more, hmore, h⟩ := bind_ok.mp h
      obtain rfl := Except.ok.inj h
      rw [List.map_append, List.mem_append, mem_visitNode hfirst, mem_visit hmore]
      constructor
      · rintro (hnode | ⟨rel, hpath, hrel⟩)
        · rcases hnode with ⟨executable, rfl, hpath⟩ | ⟨inner, rel, rfl, hpath, hrel⟩
          · exact ⟨name, hpath, hasFile_cons.mpr (.inl ⟨hname, .inl ⟨executable, rfl, rfl⟩⟩)⟩
          · refine ⟨name ++ "/" ++ rel, ?_,
              hasFile_cons.mpr (.inl ⟨hname, .inr ⟨inner, rel, rfl, rfl, hrel⟩⟩)⟩
            rw [hpath, String.append_assoc, String.append_assoc, String.append_assoc]
        · exact ⟨rel, hpath, hasFile_cons.mpr (.inr hrel)⟩
      · rintro ⟨rel, hpath, hrel⟩
        rcases hasFile_cons.mp hrel with ⟨-, hnode⟩ | hrel
        · refine .inl ?_
          rcases hnode with ⟨executable, hfile, hsame⟩ | ⟨inner, rel', hdirectory, hsame, hinner⟩
          · exact .inl ⟨executable, hfile, hpath.trans (congrArg (parent ++ ·) hsame)⟩
          · refine .inr ⟨inner, rel', hdirectory, ?_, hinner⟩
            have hsame : rel = name ++ "/" ++ rel' := hsame
            rw [hpath, hsame, String.append_assoc, String.append_assoc, String.append_assoc]
        · exact .inr ⟨rel, hpath, hrel⟩

/-- what is found of one entry. -/
theorem mem_visitNode {path : String} {found : List Entry} {file : String × List UInt8} :
    ∀ {node : Node}, visitNode path node = .ok found →
      (file ∈ found.map (·.file) ↔ NodeFile path node file)
  | .file data executable, h => by
    rw [visitNode] at h
    cases h
    constructor
    · intro hmem
      cases List.mem_singleton.mp hmem
      exact .inl ⟨executable, rfl, rfl⟩
    · rintro (⟨executable, heq, hpath⟩ | ⟨inner, rel, heq, -⟩)
      · cases heq
        exact List.mem_singleton.mpr (Prod.ext hpath rfl)
      · cases heq
  | .directory entries, h => by
    rw [visitNode] at h
    rw [mem_visit h]
    constructor
    · rintro ⟨rel, hpath, hrel⟩
      exact .inr ⟨entries, rel, rfl, hpath, hrel⟩
    · rintro (⟨executable, heq, -⟩ | ⟨inner, rel, heq, hpath, hrel⟩)
      · cases heq
      · cases heq
        exact ⟨rel, hpath, hrel⟩
  | .link none, h => by
    rw [visitNode] at h
    cases h
    refine ⟨fun h => absurd h List.not_mem_nil, ?_⟩
    rintro (⟨executable, heq, -⟩ | ⟨inner, rel, heq, -⟩) <;> cases heq
  | .link (some message), h => by
    rw [visitNode] at h
    cases h
  | .other, h => by
    rw [visitNode] at h
    cases h

end

/-! ## paths -/

section
variable {entries : List (String × Node)} {rel parent : String} {data : List UInt8}

theorem Tree.tail {entry : String × Node} (h : Tree (entry :: entries)) : Tree entries := by
  cases h with
  | mk distinct names inner =>
    exact ⟨(List.nodup_cons.mp distinct).2, fun e he => names e (List.mem_cons_of_mem _ he),
      fun name es he => inner name es (List.mem_cons_of_mem _ he)⟩

/-- a path starts with a name of the directory, and then it ends or goes on with a slash. -/
theorem HasFile.start (h : HasFile entries rel data) : ∃ entry ∈ entries, ∃ tail : List Char,
    rel.toList = entry.1.toList ++ tail ∧ (tail = [] ∨ tail.head? = some '/') := by
  cases h with
  | @file _ name _ executable h _ => exact ⟨_, h, [], (List.append_nil _).symm, .inl rfl⟩
  | @inside _ inner name path _ h _ _ =>
    refine ⟨_, h, '/' :: path.toList, ?_, .inr rfl⟩
    rw [String.toList_append, String.toList_append, List.append_assoc]
    rfl

theorem HasFile.no_nul (h : HasFile entries rel data) (ht : Tree entries) :
    '\x00' ∉ rel.toList := by
  induction h with
  | file h _ =>
    cases ht with
    | mk _ names _ => exact (names _ h).2
  | inside h _ _ ih =>
    cases ht with
    | mk _ names inner =>
      rw [String.toList_append, String.toList_append, List.mem_append, List.mem_append]
      rintro ((hname | hslash) | hpath)
      · exact (names _ h).2 hname
      · exact absurd hslash (by decide)
      · exact ih (inner _ _ h) hpath

/-- the name is what stands before the first slash. -/
theorem takeWhile_name {name tail : List Char} (hname : '/' ∉ name)
    (htail : tail = [] ∨ tail.head? = some '/') :
    (name ++ tail).takeWhile (fun c => decide (c ≠ '/')) = name := by
  have hrest : tail.takeWhile (fun c => decide (c ≠ '/')) = [] := by
    rcases htail with rfl | htail
    · rfl
    · cases tail with
      | nil => rfl
      | cons c tail =>
        obtain rfl : c = '/' := Option.some.inj htail
        rfl
  rw [List.takeWhile_append_of_pos, hrest, List.append_nil]
  intro c hc
  refine decide_eq_true fun heq => hname ?_
  rw [← heq]
  exact hc

/-- the files of an entry start with its name. -/
theorem NodeFile.start {name : String} {node : Node} {file : String × List UInt8}
    (h : NodeFile (parent ++ name) node file) : ∃ tail : List Char,
      file.1.toList = parent.toList ++ (name.toList ++ tail) ∧
        (tail = [] ∨ tail.head? = some '/') := by
  rcases h with ⟨executable, -, hpath⟩ | ⟨inner, rel, -, hpath, -⟩
  · refine ⟨[], ?_, .inl rfl⟩
    rw [hpath, String.toList_append, List.append_nil]
  · refine ⟨'/' :: rel.toList, ?_, .inr rfl⟩
    rw [hpath, String.toList_append, String.toList_append, String.toList_append, List.append_assoc,
      List.append_assoc]
    rfl

end

mutual

/-- **Each file is found at a path of its own.** -/
theorem visit_distinct {parent : String} {found : List Entry} :
    ∀ {entries : List (String × Node)}, Tree entries → visit parent entries = .ok found →
      (found.map (·.path)).Nodup
  | [], _, h => by
    rw [visit] at h
    cases h
    exact List.nodup_nil
  | (name, node) :: rest, ht, h => by
    rw [visit] at h
    split at h
    · exact visit_distinct ht.tail h
    · obtain ⟨first, hfirst, h⟩ := bind_ok.mp h
      obtain ⟨more, hmore, h⟩ := bind_ok.mp h
      obtain rfl := Except.ok.inj h
      have hnode : ∀ inner, node = .directory inner → Tree inner := by
        rintro inner rfl
        cases ht with
        | mk _ _ hinner => exact hinner name inner List.mem_cons_self
      rw [List.map_append]
      refine (visitNode_distinct hnode hfirst).append (visit_distinct ht.tail hmore) ?_
      intro path hpath hpath'
      obtain ⟨entry, hentry, rfl⟩ := List.mem_map.mp hpath
      obtain ⟨entry', hentry', hsame⟩ := List.mem_map.mp hpath'
      obtain ⟨tail, hlist, htail⟩ :=
        NodeFile.start ((mem_visitNode hfirst).mp (List.mem_map_of_mem hentry))
      obtain ⟨rel, hrel, hfile⟩ := (mem_visit hmore).mp (List.mem_map_of_mem hentry')
      obtain ⟨other, hother, tail', hlist', htail'⟩ := hfile.start
      -- both paths go on with a name, so the two names are one
      have hboth : name.toList ++ tail = other.1.toList ++ tail' := by
        have hpaths : entry'.file.1.toList = entry.file.1.toList := congrArg String.toList hsame
        rw [hlist, hrel, String.toList_append, hlist'] at hpaths
        exact (List.append_cancel_left hpaths).symm
      cases ht with
      | mk distinct names _ =>
        have hnames := congrArg (List.takeWhile fun c => decide (c ≠ '/')) hboth
        rw [takeWhile_name (names _ List.mem_cons_self).1 htail,
          takeWhile_name (names _ (List.mem_cons_of_mem _ hother)).1 htail'] at hnames
        have hname : name = other.1 := String.toList_inj.mp hnames
        exact (List.nodup_cons.mp distinct).1 (List.mem_map.mpr ⟨other, hother, hname.symm⟩)

theorem visitNode_distinct {path : String} {found : List Entry} :
    ∀ {node : Node}, (∀ inner, node = .directory inner → Tree inner) →
      visitNode path node = .ok found → (found.map (·.path)).Nodup
  | .file data executable, _, h => by
    rw [visitNode] at h
    cases h
    exact List.nodup_singleton _
  | .directory entries, ht, h => by
    rw [visitNode] at h
    exact visit_distinct (ht entries rfl) h
  | .link none, _, h => by
    rw [visitNode] at h
    cases h
    exact List.nodup_nil
  | .link (some message), _, h => by
    rw [visitNode] at h
    cases h
  | .other, _, h => by
    rw [visitNode] at h
    cases h

end

/-! ## digests -/

section
variable (collation : Collation)

/-- the files in the order in which the walk reads them. -/
def filesRead (root : List (String × Node)) : List (String × List UInt8) :=
  match visit "" root with
  | .ok entries => entries.map (·.file)
  | .error _ => []

/-- the files in the order of their paths. -/
def sortedFiles (root : List (String × Node)) : List (String × List UInt8) :=
  (filesRead root).insertionSort (FileLe collation)

/-- The same paths with the same bytes. -/
def SameFiles (t u : List (String × Node)) : Prop :=
  ∀ path data, HasFile t path data ↔ HasFile u path data

/-- Files whose paths compare as equal are read in the same order. -/
def ReadAlike (t u : List (String × Node)) : Prop :=
  ∀ file, (filesRead t).filter (Tied (FileLe collation) file ·) =
    (filesRead u).filter (Tied (FileLe collation) file ·)

end

section
variable {collation : Collation} {sha256 : List UInt8 → String} {t u : List (String × Node)}
  {a b : DirectoryDigest}

/-- the digest is that of the stream of the sorted files. -/
theorem digestDirectory_ok (h : digestDirectory collation sha256 t = .ok a) :
    (∃ entries, visit "" t = .ok entries) ∧ a.digest = sha256 (streamOf (sortedFiles collation t)) := by
  unfold digestDirectory at h
  obtain ⟨entries, hentries, h⟩ := bind_ok.mp h
  obtain rfl := Except.ok.inj h
  refine ⟨⟨entries, hentries⟩, congrArg (fun files => sha256 (streamOf files)) ?_⟩
  unfold sortedFiles filesRead
  rw [hentries]
  exact List.map_insertionSort _ _ _ _ fun _ _ _ _ => Iff.rfl

theorem mem_filesRead {entries : List Entry} (h : visit "" t = .ok entries)
    (file : String × List UInt8) : file ∈ filesRead t ↔ HasFile t file.1 file.2 := by
  unfold filesRead
  rw [h, mem_visit h]
  constructor
  · rintro ⟨rel, hpath, hrel⟩
    rw [String.empty_append] at hpath
    rw [hpath]
    exact hrel
  · intro hfile
    exact ⟨file.1, (String.empty_append).symm, hfile⟩

theorem filesRead_distinct {entries : List Entry} (ht : Tree t) (h : visit "" t = .ok entries) :
    ((filesRead t).map (·.1)).Nodup := by
  unfold filesRead
  rw [h, List.map_map]
  exact visit_distinct ht h

variable (collation) in
theorem sortedFiles_perm (root : List (String × Node)) :
    (sortedFiles collation root).Perm (filesRead root) := List.perm_insertionSort _ _

theorem perm_of_sameFiles {entries entries' : List Entry} (ht : Tree t) (hu : Tree u)
    (hvisit : visit "" t = .ok entries) (hvisit' : visit "" u = .ok entries') :
    SameFiles t u ↔ (filesRead t).Perm (filesRead u) := by
  rw [List.perm_ext_iff_of_nodup (filesRead_distinct ht hvisit).of_map
    (filesRead_distinct hu hvisit').of_map]
  constructor
  · intro h file
    rw [mem_filesRead hvisit, mem_filesRead hvisit']
    exact h file.1 file.2
  · intro h path data
    have hfile := h (path, data)
    rwa [mem_filesRead hvisit, mem_filesRead hvisit'] at hfile

/-- **Equal digests mean equal files exactly when files whose paths compare as equal are read in the
same order in equal trees, and no file goes on with a NUL byte where that of the other tree ends and
its further files are what follows.** -/
theorem digest_tells_iff (hsha : Function.Injective sha256) (ht : Tree t) (hu : Tree u)
    (ha : digestDirectory collation sha256 t = .ok a)
    (hb : digestDirectory collation sha256 u = .ok b) :
    (a.digest = b.digest ↔ SameFiles t u) ↔
      (SameFiles t u → ReadAlike collation t u) ∧
        ¬Continued (sortedFiles collation t) (sortedFiles collation u) := by
  obtain ⟨⟨entries, hvisit⟩, hdigest⟩ := digestDirectory_ok ha
  obtain ⟨⟨entries', hvisit'⟩, hdigest'⟩ := digestDirectory_ok hb
  have hnul : ∀ file ∈ sortedFiles collation t, '\x00' ∉ file.1.toList := fun file hfile =>
    ((mem_filesRead hvisit file).mp ((List.mem_insertionSort _).mp hfile)).no_nul ht
  have hnul' : ∀ file ∈ sortedFiles collation u, '\x00' ∉ file.1.toList := fun file hfile =>
    ((mem_filesRead hvisit' file).mp ((List.mem_insertionSort _).mp hfile)).no_nul hu
  have hequal : a.digest = b.digest ↔ sortedFiles collation t = sortedFiles collation u ∨
      Continued (sortedFiles collation t) (sortedFiles collation u) := by
    rw [hdigest, hdigest', hsha.eq_iff, streamOf_eq_iff hnul hnul']
  have hsorted : sortedFiles collation t = sortedFiles collation u ↔ ReadAlike collation t u :=
    insertionSort_eq_iff
  have hsame := perm_of_sameFiles ht hu hvisit hvisit'
  have hcontinued : Continued (sortedFiles collation t) (sortedFiles collation u) →
      ¬SameFiles t u := by
    intro hcontinued hfiles
    have hdistinct : ((sortedFiles collation t).map (·.1)).Nodup :=
      ((sortedFiles_perm collation t).map (·.1)).nodup_iff.mpr (filesRead_distinct ht hvisit)
    refine hcontinued.not_perm hdistinct ?_
    exact (sortedFiles_perm collation t).trans
      ((hsame.mp hfiles).trans (sortedFiles_perm collation u).symm)
  have hread : ReadAlike collation t u → SameFiles t u := by
    intro halike
    have hfiles := (sortedFiles_perm collation t).symm
    rw [hsorted.mpr halike] at hfiles
    exact hsame.mpr (hfiles.trans (sortedFiles_perm collation u))
  rw [hequal, hsorted]
  constructor
  · intro h
    refine ⟨fun hfiles => ?_, fun hcont => hcontinued hcont (h.mp (.inr hcont))⟩
    exact (h.mpr hfiles).resolve_right fun hcont => hcontinued hcont hfiles
  · intro ⟨halike, hcont⟩
    exact ⟨fun h => hread (h.resolve_right hcont), fun hfiles => .inl (halike hfiles)⟩

end

/-! ## small skills -/

/-- paths in the order of their characters. -/
def charOrder : Collation where
  le := textLe
  le_total := textLe_total
  le_trans := textLe_trans

/-- a hash without collisions: the bytes as a text. -/
def bytesText (bytes : List UInt8) : String := String.ofList (bytes.map Char.ofUInt8)

theorem bytesText_injective : Function.Injective bytesText := by
  intro left right h
  have hchars : left.map Char.ofUInt8 = right.map Char.ofUInt8 := by
    rw [← String.toList_ofList (l := left.map Char.ofUInt8), ← String.toList_ofList
      (l := right.map Char.ofUInt8)]
    exact congrArg String.toList h
  refine List.map_injective_iff.mpr (fun b b' hb => ?_) hchars
  exact UInt8.toUInt32_inj.mp (congrArg Char.val hb)

def notesSkill : List (String × Node) :=
  [("SKILL.md", .file [45, 45] false), ("notes.md", .file [110] false)]

/-- the same skill, read in another order, with a file that is ignored. -/
def notesSkillReread : List (String × Node) :=
  [("notes.md", .file [110] true), (".DS_Store", .file [0] false), ("SKILL.md", .file [45, 45] false)]

/-- one file, `x NUL b NUL y`. -/
def oneFile : List (String × Node) := [("a", .file [120, 0, 98, 0, 121] false)]

/-- two files, `x` and `y`. -/
def twoFiles : List (String × Node) := [("a", .file [120] false), ("b", .file [121] false)]

/-- a directory of files alone. -/
theorem tree_of_files {entries : List (String × Node)} (distinct : (entries.map (·.1)).Nodup)
    (names : ∀ entry ∈ entries, '/' ∉ entry.1.toList ∧ '\x00' ∉ entry.1.toList)
    (files : ∀ entry ∈ entries, ∃ data executable, entry.2 = .file data executable) :
    Tree entries := by
  refine ⟨distinct, names, fun name inner h => ?_⟩
  obtain ⟨data, executable, heq⟩ := files _ h
  cases heq

theorem notesSkill_tree : Tree notesSkill := by
  refine tree_of_files (by decide +kernel) (by decide +kernel) fun entry hentry => ?_
  simp only [notesSkill, List.mem_cons, List.not_mem_nil, or_false] at hentry
  rcases hentry with rfl | rfl <;> exact ⟨_, _, rfl⟩

theorem notesSkillReread_tree : Tree notesSkillReread := by
  refine tree_of_files (by decide +kernel) (by decide +kernel) fun entry hentry => ?_
  simp only [notesSkillReread, List.mem_cons, List.not_mem_nil, or_false] at hentry
  rcases hentry with rfl | rfl | rfl <;> exact ⟨_, _, rfl⟩

/-- what is hashed of both is the same. -/
theorem notesSkill_digests : ∃ a b, digestDirectory charOrder bytesText notesSkill = .ok a ∧
    digestDirectory charOrder bytesText notesSkillReread = .ok b ∧ a.digest = b.digest :=
  ⟨_, _, rfl, rfl, by decide +kernel⟩

theorem digest_tells_iff_notes : SameFiles notesSkill notesSkillReread := by
  obtain ⟨a, b, ha, hb, hdigest⟩ := notesSkill_digests
  have hsorted : sortedFiles charOrder notesSkill = sortedFiles charOrder notesSkillReread := by
    decide +kernel
  refine ((digest_tells_iff bytesText_injective notesSkill_tree notesSkillReread_tree ha hb).mpr
    ⟨fun _ => insertionSort_eq_iff.mp hsorted, fun hcontinued => ?_⟩).mp hdigest
  obtain ⟨file, hfile, hnul⟩ := hcontinued.nul
  have hnone : ∀ file ∈ sortedFiles charOrder notesSkill ++ sortedFiles charOrder notesSkillReread,
      0 ∉ file.2 := by decide +kernel
  exact hnone file hfile hnul

/-- **One file with NUL bytes is hashed as two files.** -/
theorem oneFile_twoFiles : (∃ a b, digestDirectory charOrder bytesText oneFile = .ok a ∧
    digestDirectory charOrder bytesText twoFiles = .ok b ∧ a.digest = b.digest) ∧
      ¬SameFiles oneFile twoFiles := by
  refine ⟨⟨_, _, rfl, rfl, by decide +kernel⟩, fun hsame => ?_⟩
  have hfile : HasFile oneFile "b" [121] := by
    have hentry : ("b", .file [121] false) ∈ twoFiles := List.mem_cons_of_mem _ List.mem_cons_self
    exact (hsame "b" [121]).mpr (.file hentry (by decide +kernel))
  have hread : ("b", [121]) ∈ filesRead oneFile := (mem_filesRead rfl _).mpr hfile
  revert hread
  decide +kernel

end Skills
end WmAutopilot
