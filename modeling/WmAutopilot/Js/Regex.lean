import Mathlib.Data.List.Infix

/-!
# Regular expressions by backtracking

A pattern is tried at a place of a text, and its ways to match are listed in the order in which a
backtracking engine tries them: the first of the list is the match.  Lengths count UTF-16 code
units.

* `Regex`        the patterns: a character of a set, a greedy run of such, sequence, alternative,
                 group, and the tests that consume nothing (`(?!r)`, `(?<![p])`, `\b`);
* `Regex.run`    the ways to match at a place, given the character before it;
* `matchAll`     the matches of `s.matchAll(r)` with the `g` flag;
* `removeAll`    `s.replace(r, "")` with the `g` flag; `test` is `r.test(s)`;
* `run_split`    a way to match splits the text it was tried on;
* `infix_of_mem_matchAll`, `group_of_mem_matchAll`   what matches, and what a group took, is part
                 of the text.
-/

set_option autoImplicit false

namespace Js

/-- A pattern.  See the file header. -/
inductive Regex where
  | empty
  | set (p : Char → Bool)
  | many (p : Char → Bool) (least : ℕ) (most : Option ℕ)
  | seq (r q : Regex)
  | alt (r q : Regex)
  | group (r : Regex)
  | notBefore (r : Regex)
  | notAfter (p : Char → Bool)
  | boundary

namespace Regex

/-- the UTF-16 code units of a character. -/
def units (c : Char) : ℕ := if c.toNat < 65536 then 1 else 2

/-- a way to match: the text it takes, what the groups that took part took, and what is left. -/
structure Match where
  text : List Char
  groups : List (List Char)
  rest : List Char
  deriving DecidableEq

/-- `[A-Za-z0-9_]`, which is also `\w` -/
def isWord (c : Char) : Bool :=
  ('a' ≤ c && c ≤ 'z') || ('A' ≤ c && c ≤ 'Z') || ('0' ≤ c && c ≤ '9') || c == '_'

/-- `\d` -/
def isDigit (c : Char) : Bool := '0' ≤ c && c ≤ '9'

/-- the texts that `[p]{0,most}` takes at the front of a text, the longest first. -/
def spans (p : Char → Bool) : Option ℕ → List Char → List (List Char × List Char)
  | _, [] => [([], [])]
  | room, c :: s =>
    if p c && room.all (units c ≤ ·) then
      (spans p (room.map (· - units c)) s).map (fun x => (c :: x.1, x.2)) ++ [([], c :: s)]
    else [([], c :: s)]

/-- whether the character on exactly one side of a place is a word character. -/
def atBoundary (before : Option Char) (s : List Char) : Bool :=
  before.any isWord != s.head?.any isWord

/-- the ways to match at the front of `s`, where `before` is the character in front of it. -/
def run : Regex → Option Char → List Char → List Match
  | empty, _, s => [⟨[], [], s⟩]
  | set _, _, [] => []
  | set p, _, c :: s => if p c then [⟨[c], [], s⟩] else []
  | many p least most, _, s =>
    ((spans p most s).filter fun x => least ≤ (x.1.map units).foldl (· + ·) 0).map
      fun x => ⟨x.1, [], x.2⟩
  | seq r q, before, s =>
    (run r before s).flatMap fun m =>
      (run q (m.text.getLast?.or before) m.rest).map fun n =>
        ⟨m.text ++ n.text, m.groups ++ n.groups, n.rest⟩
  | alt r q, before, s => run r before s ++ run q before s
  | group r, before, s => (run r before s).map fun m => ⟨m.text, m.text :: m.groups, m.rest⟩
  | notBefore r, before, s => if (run r before s).isEmpty then [⟨[], [], s⟩] else []
  | notAfter p, before, s => if before.any p then [] else [⟨[], [], s⟩]
  | boundary, before, s => if atBoundary before s then [⟨[], [], s⟩] else []

/-- `r?` -/
def opt (r : Regex) : Regex := alt r empty

/-- a character as it stands. -/
def char (c : Char) : Regex := set (· == c)

/-- a text as it stands. -/
def literal (s : String) : Regex := s.toList.foldr (fun c r => seq (char c) r) empty

/-- a text in letters of either case: the `i` flag. -/
def anyCase (s : String) : Regex :=
  s.toList.foldr (fun c r => seq (set (·.toLower == c.toLower)) r) empty

/-- the patterns one after the other. -/
def all (rs : List Regex) : Regex := rs.foldr seq empty

/-- one of the patterns, tried in order. -/
def oneOf : List Regex → Regex
  | [] => set fun _ => false
  | [r] => r
  | r :: rs => alt r (oneOf rs)

/-- the matches in `s` after the next `skip` characters. -/
def matchesFrom (r : Regex) : ℕ → Option Char → List Char → List Match
  | 0, before, [] => (r.run before []).head?.toList
  | _ + 1, _, [] => []
  | skip + 1, _, c :: s => matchesFrom r skip (some c) s
  | 0, before, c :: s =>
    match (r.run before (c :: s)).head? with
    | none => matchesFrom r 0 (some c) s
    | some m => m :: matchesFrom r (m.text.length - 1) (some c) s

/-- `[...s.matchAll(r)]` -/
def matchAll (r : Regex) (s : List Char) : List Match := matchesFrom r 0 none s

/-- what is left of `s` after the next `skip` characters. -/
def removeFrom (r : Regex) : ℕ → Option Char → List Char → List Char
  | _, _, [] => []
  | skip + 1, _, c :: s => removeFrom r skip (some c) s
  | 0, before, c :: s =>
    match (r.run before (c :: s)).head? with
    | some ⟨_ :: text, _, _⟩ => removeFrom r text.length (some c) s
    | _ => c :: removeFrom r 0 (some c) s

/-- `s.replace(r, "")` -/
def removeAll (r : Regex) (s : List Char) : List Char := removeFrom r 0 none s

/-- `r.test(s)` -/
def test (r : Regex) (s : List Char) : Bool := !(matchAll r s).isEmpty

/-! ## what matches is part of the text -/

theorem spans_split {p : Char → Bool} {room : Option ℕ} {s : List Char}
    {x : List Char × List Char} (h : x ∈ spans p room s) : x.1 ++ x.2 = s := by
  induction s generalizing room x with
  | nil =>
    rw [spans, List.mem_singleton] at h
    rw [h, List.append_nil]
  | cons c s ih =>
    rw [spans] at h
    split at h
    · rcases List.mem_append.mp h with h | h
      · obtain ⟨y, hy, rfl⟩ := List.mem_map.mp h
        rw [List.cons_append, ih hy]
      · rw [List.mem_singleton.mp h, List.nil_append]
    · rw [List.mem_singleton.mp h, List.nil_append]

/-- **A way to match splits the text.** -/
theorem run_split {r : Regex} {before : Option Char} {s : List Char} {m : Match}
    (h : m ∈ r.run before s) : m.text ++ m.rest = s := by
  induction r generalizing before s m with
  | empty =>
    rw [run, List.mem_singleton] at h
    rw [h, List.nil_append]
  | set p =>
    cases s with
    | nil => exact absurd h List.not_mem_nil
    | cons c s =>
      rw [run] at h
      split at h
      · rw [List.mem_singleton.mp h]
        rfl
      · exact absurd h List.not_mem_nil
  | many p least most =>
    rw [run] at h
    obtain ⟨x, hx, rfl⟩ := List.mem_map.mp h
    exact spans_split (List.mem_filter.mp hx).1
  | seq r q ihr ihq =>
    rw [run] at h
    obtain ⟨m₁, h₁, hm⟩ := List.mem_flatMap.mp h
    obtain ⟨m₂, h₂, rfl⟩ := List.mem_map.mp hm
    show (m₁.text ++ m₂.text) ++ m₂.rest = s
    rw [List.append_assoc, ihq h₂, ihr h₁]
  | alt r q ihr ihq =>
    rw [run] at h
    rcases List.mem_append.mp h with h | h
    · exact ihr h
    · exact ihq h
  | group r ih =>
    rw [run] at h
    obtain ⟨m', hm', rfl⟩ := List.mem_map.mp h
    have hsplit := ih hm'
    exact hsplit
  | notBefore r ih | notAfter p | boundary =>
    rw [run] at h
    split at h
    · first
      | exact absurd h List.not_mem_nil
      | rw [List.mem_singleton.mp h, List.nil_append]
    · first
      | exact absurd h List.not_mem_nil
      | rw [List.mem_singleton.mp h, List.nil_append]

/-- what a group took is part of what the pattern took. -/
theorem run_groups {r : Regex} {before : Option Char} {s : List Char} {m : Match}
    (h : m ∈ r.run before s) : ∀ g ∈ m.groups, g <:+: m.text := by
  induction r generalizing before s m with
  | empty =>
    rw [run, List.mem_singleton] at h
    simp [h]
  | set p =>
    cases s with
    | nil => exact absurd h List.not_mem_nil
    | cons c s =>
      rw [run] at h
      split at h
      · simp [List.mem_singleton.mp h]
      · exact absurd h List.not_mem_nil
  | many p least most =>
    rw [run] at h
    obtain ⟨x, -, rfl⟩ := List.mem_map.mp h
    simp
  | seq r q ihr ihq =>
    rw [run] at h
    obtain ⟨m₁, h₁, hm⟩ := List.mem_flatMap.mp h
    obtain ⟨m₂, h₂, rfl⟩ := List.mem_map.mp hm
    intro g hg
    rcases List.mem_append.mp hg with hg | hg
    · exact (ihr h₁ g hg).trans (List.prefix_append _ _).isInfix
    · exact (ihq h₂ g hg).trans (List.suffix_append _ _).isInfix
  | alt r q ihr ihq =>
    rw [run] at h
    rcases List.mem_append.mp h with h | h
    · exact ihr h
    · exact ihq h
  | group r ih =>
    rw [run] at h
    obtain ⟨m', hm', rfl⟩ := List.mem_map.mp h
    intro g hg
    rcases List.mem_cons.mp hg with rfl | hg
    · exact List.infix_rfl
    · exact ih hm' g hg
  | notBefore r ih | notAfter p | boundary =>
    rw [run] at h
    split at h
    · first
      | exact absurd h List.not_mem_nil
      | simp [List.mem_singleton.mp h]
    · first
      | exact absurd h List.not_mem_nil
      | simp [List.mem_singleton.mp h]

theorem matchesFrom_inside {r : Regex} {s : List Char} {skip : ℕ} {before : Option Char}
    {m : Match} (h : m ∈ matchesFrom r skip before s) :
    m.text <:+: s ∧ ∀ g ∈ m.groups, g <:+: s := by
  -- a match of the front is part of the text with its groups
  have here : ∀ (b : Option Char) (t : List Char), (r.run b t).head? = some m →
      m.text <:+: t ∧ ∀ g ∈ m.groups, g <:+: t := by
    intro b t hm
    have hmem := List.mem_of_mem_head? hm
    have hpart : m.text <:+: t := ⟨[], m.rest, run_split hmem⟩
    exact ⟨hpart, fun g hg => (run_groups hmem g hg).trans hpart⟩
  induction s generalizing skip before with
  | nil =>
    cases skip with
    | zero =>
      rw [matchesFrom] at h
      exact here before [] (Option.mem_toList.mp h)
    | succ skip => exact absurd h List.not_mem_nil
  | cons c s ih =>
    have later : m.text <:+: s ∧ (∀ g ∈ m.groups, g <:+: s) →
        m.text <:+: c :: s ∧ ∀ g ∈ m.groups, g <:+: c :: s := by
      intro hm
      have hstep : s <:+: c :: s := (List.suffix_cons c s).isInfix
      exact ⟨hm.1.trans hstep, fun g hg => (hm.2 g hg).trans hstep⟩
    cases skip with
    | succ skip =>
      rw [matchesFrom] at h
      exact later (ih h)
    | zero =>
      rw [matchesFrom] at h
      cases hm : (r.run before (c :: s)).head? with
      | none =>
        rw [hm] at h
        exact later (ih h)
      | some m' =>
        rw [hm] at h
        rcases List.mem_cons.mp h with heq | h
        · subst heq
          exact here before (c :: s) hm
        · exact later (ih h)

/-- **A match is part of the text.** -/
theorem infix_of_mem_matchAll {r : Regex} {s : List Char} {m : Match} (h : m ∈ matchAll r s) :
    m.text <:+: s :=
  (matchesFrom_inside h).1

/-- **What a group took is part of the text.** -/
theorem group_of_mem_matchAll {r : Regex} {s : List Char} {m : Match} (h : m ∈ matchAll r s)
    {g : List Char} (hg : g ∈ m.groups) : g <:+: s :=
  (matchesFrom_inside h).2 g hg

example : removeAll (seq (char '@') (many isWord 1 none)) "a @bob c".toList = "a  c".toList := by
  decide +kernel

end Regex

end Js
