import Mathlib.Data.List.Basic
import Mathlib.Order.Basic
import WmAutopilot.Consolidation.TaskScan

/-!
# The pages that a scan counts

* `Page`, `Log`, `pagesOf`   the pages of a channel that were answered since access to it was denied;
* `Follows`, `Whole`         pages read one after the other; a whole channel;
* `Best`                     the newest row of each task;
* `collectTasks_best`        the rows of a page are added to it;
* `Counted`                  **what a result is worth**: the pages of its progress, and their rows.
-/

set_option autoImplicit false

namespace WmAutopilot
namespace Consolidation
open Js Value

/-! ## the log of a chain of scans -/

/-- a page of a channel: the cursor that was asked for, the rows and the next cursor. -/
structure Page where
  cursor : Option String
  tasks : List Value
  next : Option String

/-- the requests of a chain of scans, with their answers. -/
abbrev Log := List (Request × Except ClientError Value)

/-- status 401 or 403. -/
def ClientError.denied (e : ClientError) : Bool := e.status = num 401 ∨ e.status = num 403

/-- the channel that a request is about. -/
def Request.channel? : Request → Option (String × String)
  | .listChannels .. => none
  | .showChannel workspace channel => some (workspace, channel)
  | .listTasks workspace channel _ _ => some (workspace, channel)

/-- access to the channel was denied. -/
def denies (workspace channel : String) : Request × Except ClientError Value → Bool
  | (q, .error e) => q.channel? = some (workspace, channel) ∧ e.denied
  | _ => false

/-- a page of the channel. -/
def pageOf (workspace channel : String) : Request × Except ClientError Value → Option Page
  | (.listTasks w c _ cursor, .ok v) =>
    if w = workspace ∧ c = channel then
      match rows (v.get "tasks"), cursorOf (v.get "next_cursor") with
      | .ok tasks, .ok next => some { cursor, tasks, next }
      | _, _ => none
    else none
  | _ => none

/-- **The pages of a channel** that were answered since access to it was last denied. -/
def pagesOf (workspace channel : String) (log : Log) : List Page :=
  log.foldl (fun pages e =>
    if denies workspace channel e then [] else pages ++ (pageOf workspace channel e).toList) []

/-! ## pages in a row -/

/-- each page is asked for with the next cursor of the one before. -/
inductive Follows : Option String → List Page → Option String → Prop where
  | nil (c : Option String) : Follows c [] c
  | cons (p : Page) (ps : List Page) (c : Option String) (h : Follows p.next ps c) :
      Follows p.cursor (p :: ps) c

/-- **A whole channel**: from the first cursor to a null one. -/
def Whole (pages : List Page) : Prop :=
  ∃ qs q, pages = qs ++ [q] ∧ q.next = none ∧ (∀ p ∈ qs, p.next ≠ none) ∧ Follows none pages none

/-- what the progress of a channel counts. -/
structure Reads (pages : List Page) (p : Progress) : Prop where
  follows : Follows none pages p.cursor
  seen : pages.filterMap (·.next) = p.seen
  going : p.done = false → ∀ q ∈ pages, q.next ≠ none
  whole : p.done = true → Whole pages

theorem Follows.append {c c' : Option String} {ps : List Page} (h : Follows c ps c') (q : Page)
    (hq : q.cursor = c') : Follows c (ps ++ [q]) q.next := by
  induction h with
  | nil c => exact hq ▸ .cons q [] _ (.nil _)
  | cons p ps c _ ih => exact .cons p _ _ (ih hq)

theorem Reads.none : Reads [] {} where
  follows := .nil _
  seen := rfl
  going := by simp
  whole := by simp

/-- **One more page.** -/
theorem Reads.page {pages : List Page} {p : Progress} (h : Reads pages p) (hdone : p.done = false)
    (q : Page) (hq : q.cursor = p.cursor) : Reads (pages ++ [q])
      { cursor := q.next, done := q.next.isNone, seen := p.seen ++ q.next.toList } where
  follows := h.follows.append q hq
  seen := by
    rw [List.filterMap_append, h.seen]
    cases hn : q.next <;> simp [hn]
  going hnext p hp := by
    rcases List.mem_append.mp hp with hp | hp
    · exact h.going hdone p hp
    · obtain rfl := List.mem_singleton.mp hp
      intro hnone
      simp [hnone] at hnext
  whole hnext := by
    have hnone : q.next = .none := by simpa using hnext
    exact ⟨pages, q, rfl, hnone, h.going hdone, hnone ▸ h.follows.append q hq⟩

/-! ## the newest rows -/

/-- the version of a row is an integer. -/
def Versioned (t : Value) : Prop := ∃ z : ℤ, t.get "row_version" = num z

def version (t : Value) : ℚ := (numberOf (t.get "row_version")).getD 0

/-- **The newest row of each task**, of the rows `R`. -/
structure Best (R : Value → Prop) (tasks : List Value) : Prop where
  unique : (tasks.map (·.get "id")).Nodup
  mem : ∀ t ∈ tasks, R t
  best : ∀ r, R r → ∃ t ∈ tasks, t.get "id" = r.get "id" ∧
    t.get "channel_id" = r.get "channel_id" ∧ version r ≤ version t

theorem newer_iff {t prior : Value} (ht : Versioned t) (hp : Versioned prior) :
    newer t prior = true ↔ version prior ≤ version t := by
  obtain ⟨z, hz⟩ := ht
  obtain ⟨y, hy⟩ := hp
  simp [newer, version, hz, hy, numberOf]

section
variable {R : Value → Prop} {tasks : List Value} {t : Value}

theorem Best.none : Best (fun _ => False) [] where
  unique := by simp
  mem := by simp
  best := by simp

/-- a row of the same task is the one that is kept. -/
theorem Best.eq (h : Best R tasks) {a b : Value} (ha : a ∈ tasks) (hb : b ∈ tasks)
    (hid : a.get "id" = b.get "id") : a = b :=
  List.inj_on_of_nodup_map h.unique ha hb hid

/-- **The kept row is the newest.** -/
theorem Best.newest (h : Best R tasks) {t r : Value} (ht : t ∈ tasks) (hr : R r)
    (hid : t.get "id" = r.get "id") : version r ≤ version t := by
  obtain ⟨t', ht', hid', -, hv⟩ := h.best r hr
  obtain rfl := h.eq ht ht' (hid.trans hid'.symm)
  exact hv

/-- **One row is collected.** -/
theorem collectTask_best {tasks' : List Value} (h : Best R tasks)
    (hv : ∀ r, R r → Versioned r) (ht : Versioned t) (hc : collectTask tasks t = .ok tasks') :
    Best (fun r => R r ∨ r = t) tasks' := by
  -- `t` is kept, and every row of another task that was
  have hput : (∀ p ∈ tasks, p.get "id" = t.get "id" → p.get "channel_id" = t.get "channel_id" ∧
      version p ≤ version t) → Best (fun r => R r ∨ r = t) (putTask tasks t) := by
    intro hold
    refine ⟨nodup_put h.unique, fun x hx => ?_, ?_⟩
    · exact (eq_or_mem_of_mem_put hx).symm.imp_left (h.mem x)
    · rintro r (hr | rfl)
      · obtain ⟨p, hp, hid, hchannel, hle⟩ := h.best r hr
        by_cases hsame : p.get "id" = t.get "id"
        · obtain ⟨hch, hle'⟩ := hold p hp hsame
          exact ⟨t, mem_put_self, hsame.symm.trans hid, hch.symm.trans hchannel, hle.trans hle'⟩
        · exact ⟨p, mem_put_of_ne hp hsame, hid, hchannel, hle⟩
      · exact ⟨r, mem_put_self, rfl, rfl, le_refl _⟩
  unfold collectTask at hc
  cases hfind : tasks.find? fun p => p.get "id" = t.get "id" with
  | none =>
    rw [hfind] at hc
    obtain rfl := Except.ok.inj hc
    refine hput fun p hp hid => absurd hid ?_
    simpa using List.find?_eq_none.mp hfind p hp
  | some prior =>
    rw [hfind] at hc
    have hprior := List.mem_of_find?_eq_some hfind
    have hid : prior.get "id" = t.get "id" := by simpa using List.find?_some hfind
    dsimp only at hc
    split at hc
    · simp at hc
    · next hident =>
      have hchannel : prior.get "channel_id" = t.get "channel_id" := by
        by_contra hne
        exact hident (.inr hne)
      have hnewer := newer_iff ht (hv prior (h.mem prior hprior))
      obtain rfl := Except.ok.inj hc
      split
      · next hnew =>
        refine hput fun p hp hpid => ?_
        obtain rfl := h.eq hp hprior (hpid.trans hid.symm)
        exact ⟨hchannel, hnewer.mp hnew⟩
      · next hold =>
        refine ⟨h.unique, fun x hx => .inl (h.mem x hx), ?_⟩
        rintro r (hr | rfl)
        · exact h.best r hr
        · refine ⟨prior, hprior, hid, hchannel, ?_⟩
          exact le_of_lt (lt_of_not_ge fun hle => hold (hnewer.mpr hle))

/-- **The rows of a page are collected.** -/
theorem collectTasks_best {rows tasks' : List Value} (h : Best R tasks)
    (hv : ∀ r, R r → Versioned r) (hr : ∀ r ∈ rows, Versioned r)
    (hc : collectTasks tasks rows = .ok tasks') :
    Best (fun r => R r ∨ r ∈ rows) tasks' := by
  rw [collectTasks, putTask, foldl_put h.unique] at hc
  induction rows generalizing tasks R with
  | nil =>
    obtain rfl : tasks = tasks' := Except.ok.inj hc
    simpa using h
  | cons r rows ih =>
    obtain ⟨tasks₁, hone, hc⟩ := bind_ok.mp hc
    have hrest := ih (collectTask_best h hv (hr r List.mem_cons_self) hone) ?_
      (fun r' hr' => hr r' (List.mem_cons_of_mem _ hr')) hc
    · simpa [or_assoc] using hrest
    · rintro r' (hr' | rfl)
      · exact hv r' hr'
      · exact hr r' List.mem_cons_self

/-- the rows of a channel are dropped. -/
theorem Best.drop (h : Best R tasks) (channel : Value) :
    Best (fun r => R r ∧ r.get "channel_id" ≠ channel)
      (tasks.filter (·.get "channel_id" ≠ channel)) where
  unique := (List.filter_sublist.map _).nodup h.unique
  mem t ht := by
    obtain ⟨ht, hne⟩ := List.mem_filter.mp ht
    exact ⟨h.mem t ht, by simpa using hne⟩
  best := by
    rintro r ⟨hr, hne⟩
    obtain ⟨t, ht, hid, hchannel, hle⟩ := h.best r hr
    exact ⟨t, List.mem_filter.mpr ⟨ht, by simpa [hchannel] using hne⟩, hid, hchannel, hle⟩

theorem Best.congr {R' : Value → Prop} (h : Best R tasks) (hR : ∀ r, R r ↔ R' r) :
    Best R' tasks := by
  obtain rfl : R = R' := funext fun r => propext (hR r)
  exact h

end

/-! ## the log grows -/

section
variable {workspace channel : String} {log : Log} {e : Request × Except ClientError Value}

theorem pagesOf_append : pagesOf workspace channel (log ++ [e]) =
    if denies workspace channel e then []
    else pagesOf workspace channel log ++ (pageOf workspace channel e).toList := by
  simp [pagesOf, List.foldl_append]

/-- the pages of a channel are those of its log. -/
theorem sublist_pagesOf_append {pages : List Page} (hd : denies workspace channel e = false)
    (h : pages.Sublist (pagesOf workspace channel log)) :
    pages.Sublist (pagesOf workspace channel (log ++ [e])) := by
  rw [pagesOf_append, hd]
  exact h.trans (List.sublist_append_left _ _)

end

/-! ## what a result is worth -/

/-- **What a result is worth**: the pages of each channel that its progress counts, of those that
were answered since access was last denied, and the newest row of each task of them. -/
structure Counted (config : ScanConfig) (log : Log) (r : ScanResult) (pages : String → List Page) :
    Prop where
  sub : ∀ c, (pages c).Sublist (pagesOf config.workspace_id c log)
  unread : ∀ c, r.progress.lookup c = none → pages c = []
  reads : ∀ c p, r.progress.lookup c = some p → Reads (pages c) p
  rows : ∀ c, ∀ q ∈ pages c, ∀ t ∈ q.tasks, t.get "channel_id" = str c ∧ Versioned t
  best : Best (fun t => ∃ c, ∃ q ∈ pages c, t ∈ q.tasks) r.tasks

section
variable {config : ScanConfig} {log : Log} {r r' : ScanResult} {pages : String → List Page}
  {e : Request × Except ClientError Value} {channel : String}

theorem Counted.congr (h : Counted config log r pages) (htasks : r'.tasks = r.tasks)
    (hprogress : r'.progress = r.progress) : Counted config log r' pages where
  sub := h.sub
  unread := hprogress ▸ h.unread
  reads := hprogress ▸ h.reads
  rows := h.rows
  best := htasks ▸ h.best

/-- nothing is counted. -/
theorem Counted.nothing (htasks : r.tasks = []) (hprogress : r.progress = []) :
    Counted config log r fun _ => [] where
  sub _ := List.nil_sublist _
  unread _ _ := rfl
  reads c p h := by simp [hprogress] at h
  rows := by simp
  best := by
    rw [htasks]
    exact Best.none.congr (by simp)

/-- an answer that denies nothing. -/
theorem Counted.answered (h : Counted config log r pages)
    (he : ∀ c, denies config.workspace_id c e = false) :
    Counted config (log ++ [e]) r pages :=
  { h with sub := fun c => sublist_pagesOf_append (he c) (h.sub c) }

theorem lookup_filter_ne (xs : List (String × Progress)) (c : String) :
    (xs.filter (·.1 ≠ channel)).lookup c = if c = channel then none else xs.lookup c := by
  induction xs with
  | nil => simp
  | cons x xs ih =>
    obtain ⟨k, p⟩ := x
    by_cases hk : k = channel
    · subst hk
      rw [List.filter_cons_of_neg (by simp), ih]
      split
      · rfl
      · next hc => rw [List.lookup_cons, beq_false_of_ne hc]
    · rw [List.filter_cons_of_pos (by simpa using hk), List.lookup_cons, List.lookup_cons, ih]
      by_cases hc : c = k
      · subst hc
        simp [hk]
      · simp [beq_false_of_ne hc]

/-- **Access is denied**: nothing of the channel is kept. -/
theorem Counted.denied (h : Counted config log r pages)
    (he : ∀ c, c ≠ channel → denies config.workspace_id c e = false)
    (htasks : r'.tasks = r.tasks.filter (·.get "channel_id" ≠ str channel))
    (hprogress : r'.progress = r.progress.filter (·.1 ≠ channel)) :
    Counted config (log ++ [e]) r' (Function.update pages channel []) where
  sub c := by
    by_cases hc : c = channel
    · simp [hc]
    · rw [Function.update_of_ne hc]
      exact sublist_pagesOf_append (he c hc) (h.sub c)
  unread c := by
    rw [hprogress, lookup_filter_ne]
    by_cases hc : c = channel
    · simp [hc]
    · simpa [hc] using h.unread c
  reads c p := by
    rw [hprogress, lookup_filter_ne]
    by_cases hc : c = channel
    · simp [hc]
    · simpa [hc] using h.reads c p
  rows c := by
    by_cases hc : c = channel
    · simp [hc]
    · simpa [hc] using h.rows c
  best := by
    rw [htasks]
    refine (h.best.drop _).congr fun t => ⟨?_, ?_⟩
    · rintro ⟨⟨c, q, hq, ht⟩, hne⟩
      have hc : c ≠ channel := by
        rintro rfl
        exact hne (h.rows c q hq t ht).1
      exact ⟨c, q, by simpa [hc] using hq, ht⟩
    · rintro ⟨c, q, hq, ht⟩
      have hc : c ≠ channel := by
        rintro rfl
        simp at hq
      rw [Function.update_of_ne hc] at hq
      exact ⟨⟨c, q, hq, ht⟩, by simpa [(h.rows c q hq t ht).1] using hc⟩

/-- a channel of which nothing was read yet. -/
theorem Counted.begun (h : Counted config log r pages) (htasks : r'.tasks = r.tasks)
    (hprogress : r'.progress = if (r.progress.lookup channel).isSome then r.progress
      else r.progress ++ [(channel, ({} : Progress))]) : Counted config log r' pages := by
  by_cases hsome : (r.progress.lookup channel).isSome = true
  · exact h.congr htasks (hprogress.trans (if_pos hsome))
  · have hnone : r.progress.lookup channel = none := by
      rwa [Option.not_isSome_iff_eq_none] at hsome
    have hlookup : ∀ c, r'.progress.lookup c =
        (r.progress.lookup c).or (if c = channel then some {} else none) := by
      intro c
      rw [hprogress, if_neg hsome, List.lookup_append, List.lookup_cons]
      by_cases hc : c = channel
      · simp [hc]
      · simp [hc, beq_false_of_ne hc]
    refine ⟨h.sub, fun c hc => h.unread c ?_, fun c p hc => ?_, h.rows, htasks ▸ h.best⟩
    · rw [hlookup] at hc
      exact (Option.or_eq_none_iff.mp hc).1
    · rw [hlookup] at hc
      by_cases heq : c = channel
      · subst heq
        rw [hnone] at hc
        obtain rfl : ({} : Progress) = p := by simpa using hc
        rw [h.unread c hnone]
        exact .none
      · exact h.reads c p (by simpa [heq] using hc)

theorem lookup_replace (xs : List (String × Progress)) (p : Progress) (c : String) :
    (xs.map fun entry => if entry.1 = channel then (channel, p) else entry).lookup c =
      if c = channel then (xs.lookup c).map fun _ => p else xs.lookup c := by
  induction xs with
  | nil => simp
  | cons x xs ih =>
    obtain ⟨k, p'⟩ := x
    rw [List.map_cons]
    by_cases hk : k = channel
    · subst hk
      rw [if_pos rfl, List.lookup_cons, List.lookup_cons, ih]
      by_cases hc : c = k
      · simp [hc]
      · simp [hc, beq_false_of_ne hc]
    · rw [if_neg hk, List.lookup_cons, List.lookup_cons, ih]
      by_cases hc : c = k
      · subst hc
        simp [hk]
      · simp [beq_false_of_ne hc]

/-- **A page is counted.** -/
theorem Counted.page {p : Progress} {q : Page} (h : Counted config log r pages)
    (he : ∀ c, denies config.workspace_id c e = false)
    (hpage : pageOf config.workspace_id channel e = some q)
    (hp : r.progress.lookup channel = some p) (hdone : p.done = false) (hq : q.cursor = p.cursor)
    (hrows : ∀ t ∈ q.tasks, t.get "channel_id" = str channel ∧ Versioned t)
    (hc : collectTasks r.tasks q.tasks = .ok r'.tasks)
    (hprogress : r'.progress = r.progress.map fun entry =>
      if entry.1 = channel then (channel,
        { cursor := q.next, done := q.next.isNone, seen := p.seen ++ q.next.toList }) else entry) :
    Counted config (log ++ [e]) r' (Function.update pages channel (pages channel ++ [q])) where
  sub c := by
    by_cases hch : c = channel
    · subst hch
      rw [Function.update_self, pagesOf_append, he c, hpage]
      exact (h.sub c).append (List.Sublist.refl _)
    · rw [Function.update_of_ne hch]
      exact sublist_pagesOf_append (he c) (h.sub c)
  unread c := by
    rw [hprogress, lookup_replace]
    by_cases hch : c = channel
    · simp [hch, hp]
    · simpa [hch] using h.unread c
  reads c p' := by
    rw [hprogress, lookup_replace]
    by_cases hch : c = channel
    · subst hch
      intro heq
      obtain rfl : _ = p' := by simpa [hp] using heq
      rw [Function.update_self]
      exact (h.reads c p hp).page hdone q hq
    · simpa [hch] using h.reads c p'
  rows c q' hq' := by
    by_cases hch : c = channel
    · subst hch
      rw [Function.update_self] at hq'
      rcases List.mem_append.mp hq' with hq' | hq'
      · exact h.rows c q' hq'
      · exact List.mem_singleton.mp hq' ▸ hrows
    · rw [Function.update_of_ne hch] at hq'
      exact h.rows c q' hq'
  best := by
    have hv : ∀ t, (∃ c, ∃ q ∈ pages c, t ∈ q.tasks) → Versioned t := by
      rintro t ⟨c, q', hq', ht⟩
      exact (h.rows c q' hq' t ht).2
    refine (collectTasks_best h.best hv (fun t ht => (hrows t ht).2) hc).congr fun t => ⟨?_, ?_⟩
    · rintro (⟨c, q', hq', ht⟩ | ht)
      · by_cases hch : c = channel
        · exact ⟨c, q', by simp [hch, hch ▸ hq'], ht⟩
        · exact ⟨c, q', by simpa [hch] using hq', ht⟩
      · exact ⟨channel, q, by simp, ht⟩
    · rintro ⟨c, q', hq', ht⟩
      by_cases hch : c = channel
      · subst hch
        rw [Function.update_self] at hq'
        rcases List.mem_append.mp hq' with hq' | hq'
        · exact .inl ⟨c, q', hq', ht⟩
        · exact .inr (List.mem_singleton.mp hq' ▸ ht)
      · rw [Function.update_of_ne hch] at hq'
        exact .inl ⟨c, q', hq', ht⟩

end

end Consolidation
end WmAutopilot
