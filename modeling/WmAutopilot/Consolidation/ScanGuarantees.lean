import WmAutopilot.Async.Turns
import WmAutopilot.Consolidation.ScanPages

/-!
# What a saved scan says

* `Saved`, `World`   what was handed to `save` or returned, with the requests of the chain so far;
* `scanning`         the system: any answers, with integer row versions, and any saves;
* `Sound`            **what holds of a saved result**;
* `Going`            the invariant of a scan; `Failed` where a channel was left;
* `scan_sound`       of all chains of scans, every result that is saved or returned is sound.
-/

set_option autoImplicit false

namespace WmAutopilot
namespace Consolidation
open Js Value Async

/-- a result, with its map, whether its scan was resumed, and the requests of its chain. -/
structure Saved where
  config : ScanConfig
  resumed : Bool
  result : ScanResult
  log : Log

/-- the scan that runs, and the results so far. -/
structure World where
  config : ScanConfig
  resumed : Bool := false
  log : Log := []
  saved : List Saved := []

def World.save (w : World) (result : ScanResult) : World :=
  { w with saved := ⟨w.config, w.resumed, result, w.log⟩ :: w.saved }

/-- the rows of a page have integer versions. -/
def VersionedAnswer (q : Request) (r : Except ClientError Value) : Prop :=
  ∀ workspace channel q', pageOf workspace channel (q, r) = some q' → ∀ t ∈ q'.tasks, Versioned t

inductive Performs : (o : Op) → World → o.Ans → World → Prop where
  | request (q : Request) (w : World) (r : Except ClientError Value) (hr : VersionedAnswer q r) :
      Performs (.request q) w r { w with log := w.log ++ [(q, r)] }
  | save (result : ScanResult) (w : World) (saved : Bool) :
      Performs (.save result) w saved (w.save result)
  | returned (result : ScanResult) (w : World) : Performs (.returned result) w () (w.save result)

/-- a scan whose result the caller has. -/
def scanCall (signature : ScanConfig → String) (input : ScanInput) : Scanning Unit := do
  let result ← scanTasks signature input
  Exc.op (A := api) (Op.returned result)

/-- a scan that is new or goes on from a result. -/
inductive Started (signature : ScanConfig → String) : World → Prog api Unit → World → Prop where
  | fresh (w : World) (input : ScanInput) (hfresh : input.resume = none) :
      Started signature w (scanCall signature input).detach
        { w with config := input.config, resumed := false, log := [] }
  | resumed (w : World) (input : ScanInput) (x : Saved) (hx : x ∈ w.saved)
      (hresume : input.resume = some x.result) :
      Started signature w (scanCall signature input).detach
        { w with config := input.config, resumed := true, log := x.log }

/-! ## what a result says -/

/-- **What holds of a result.** -/
structure Sound (signature : ScanConfig → String) (x : Saved) : Prop where
  signature : x.result.config_signature = signature x.config
  complete : x.result.complete = true → x.resumed = false ∧ x.result.gaps = [] ∧
    ∀ c ∈ x.config.channels, ∃ pages,
      pages.Sublist (pagesOf x.config.workspace_id c.id x.log) ∧ Whole pages
  continuation : x.result.continuation_complete = some true → x.resumed = true ∧
    ∀ c ∈ x.config.channels, ∃ pages,
      pages.Sublist (pagesOf x.config.workspace_id c.id x.log) ∧ Whole pages
  counted : ∃ pages, Counted x.config x.log x.result pages

/-- the discipline of scans: what is saved or returned is sound. -/
def scanDiscipline (signature : ScanConfig → String) : Discipline api World where
  toSystem := System.alone Performs
  Inv w := ∀ x ∈ w.saved, Sound signature x
  may _ o w := match o with
    | .request _ => True
    | .save result | .returned result => Sound signature ⟨w.config, w.resumed, result, w.log⟩

section
variable {signature : ScanConfig → String}

theorem scan_perform {κ : ℕ} {o : Op} {w w' : World} {r : o.Ans}
    (hi : (scanDiscipline signature).Inv w) (hmay : (scanDiscipline signature).may κ o w)
    (ho : (scanDiscipline signature).perform κ o w r w') : (scanDiscipline signature).Inv w' := by
  obtain ⟨-, ho⟩ := ho
  cases ho with
  | request => exact hi
  | save result w saved =>
    intro x hx
    rcases List.mem_cons.mp hx with rfl | hx
    · exact hmay
    · exact hi x hx
  | returned result w =>
    intro x hx
    rcases List.mem_cons.mp hx with rfl | hx
    · exact hmay
    · exact hi x hx

/-! ## the invariant of a scan -/

/-- the world of a scan with this input. -/
structure Here (input : ScanInput) (log : Log) (w : World) : Prop where
  config : w.config = input.config
  resumed : w.resumed = input.resume.isSome
  log : w.log = log

/-- nothing is claimed yet. -/
structure Open (signature : ScanConfig → String) (input : ScanInput) (r : ScanResult) : Prop where
  signature : r.config_signature = signature input.config
  complete : r.complete = false
  continuation : r.continuation_complete = none

/-- **A scan that goes on**: what it counts was answered. -/
def Going (signature : ScanConfig → String) (input : ScanInput) (s : Scan) (w : World) : Prop :=
  ∃ log, Here input log w ∧ Open signature input s.result ∧
    ∃ pages, Counted input.config log s.result pages

/-- a channel was left: when access was denied, without what was kept of it. -/
def Failed (signature : ScanConfig → String) (input : ScanInput) (channel : String)
    (f : Fault × Scan) (w : World) : Prop :=
  ∀ e, f.1 = .thrown e → Going signature input (if e.denied then f.2.drop channel else f.2) w

/-- an error after which nothing is kept. -/
def Left (signature : ScanConfig → String) (input : ScanInput) (f : Fault × Scan) (w : World) :
    Prop :=
  f.1 ≠ .persistence → ∃ log, Here input log w ∧ Open signature input f.2.result

variable {input : ScanInput} {budget : Budget} {s : Scan} {log : Log} {channel : String}

theorem alone_scan : Alone (scanDiscipline signature).toSystem := System.alone_alone _

/-- **One request.** -/
theorem request_spec (q : Request) :
    Triple (scanDiscipline signature) 0 (Here input log) (request budget q s)
      (fun r w => r.2 = s.asked ∧ r.1.isPlainObject = true ∧
        Here input (log ++ [(q, .ok r.1)]) w ∧ VersionedAnswer q (.ok r.1))
      (fun f w => (f = (.error "request_budget", s) ∧ Here input log w) ∨ f.2 = s.asked ∧
        ((∃ e, f.1 = .thrown e ∧ Here input (log ++ [(q, .error e)]) w) ∨
          ∃ v, f.1 = .error "Invalid record" ∧ Here input (log ++ [(q, .ok v)]) w)) := by
  refine .ite (fun _ => .throw fun w _ h => .inl ⟨rfl, h⟩) fun _ => ?_
  refine .bind (R := fun r w => VersionedAnswer q r ∧ Here input (log ++ [(q, r)]) w)
    (.op (.alone alone_scan) (fun _ _ _ => trivial) ?_) fun r => ?_
  · rintro w r w' - h ⟨-, ho⟩ -
    cases ho with
    | request q w r hr => exact ⟨hr, h.config, h.resumed, congrArg (· ++ [(q, r)]) h.log⟩
  · cases r with
    | error e => exact .throw fun w _ h => .inr ⟨rfl, .inl ⟨e, rfl, h.2⟩⟩
    | ok v =>
      refine .ite (fun hv => .pure fun w _ h => ⟨rfl, hv, h.2, h.1⟩) fun _ => ?_
      exact .throw fun w _ h => .inr ⟨rfl, .inr ⟨v, rfl, h.2⟩⟩

theorem denies_ok (workspace c : String) (q : Request) (v : Value) :
    denies workspace c (q, .ok v) = false := rfl

/-- **A request that failed** leaves its channel. -/
theorem failed_of_request {q : Request} {f : Fault × Scan} {w : World}
    {pages : String → List Page} (hq : q.channel? = some (input.config.workspace_id, channel))
    (ho : Open signature input s.result) (hc : Counted input.config log s.result pages)
    (h : (f = (.error "request_budget", s) ∧ Here input log w) ∨ f.2 = s.asked ∧
      ((∃ e, f.1 = .thrown e ∧ Here input (log ++ [(q, .error e)]) w) ∨
        ∃ v, f.1 = .error "Invalid record" ∧ Here input (log ++ [(q, .ok v)]) w)) :
    Failed signature input channel f w := by
  rintro e he
  have hasked : Open signature input s.asked.result := ⟨ho.signature, ho.complete, ho.continuation⟩
  rcases h with ⟨rfl, hw⟩ | ⟨hs, ⟨e', he', hw⟩ | ⟨v, hv, hw⟩⟩
  · obtain rfl := Fault.thrown.inj he
    exact ⟨log, hw, ho, pages, hc⟩
  · obtain rfl := Fault.thrown.inj (he'.symm.trans he)
    rw [hs]
    cases hd : e'.denied with
    | true =>
      refine ⟨_, hw, ⟨ho.signature, ho.complete, ho.continuation⟩, _, hc.denied ?_ rfl rfl⟩
      intro c hne
      simp [denies, hq, hne.symm]
    | false =>
      refine ⟨_, hw, hasked, pages, (hc.answered fun c => ?_).congr rfl rfl⟩
      simp [denies, hd]
  · obtain rfl := Fault.thrown.inj (hv.symm.trans he)
    rw [hs]
    exact ⟨_, hw, hasked, pages, (hc.answered fun c => denies_ok _ c q v).congr rfl rfl⟩

/-- an error of a guard leaves the channel as it is. -/
theorem failed_of_going {w : World} (h : Going signature input s w) (message : String) :
    Failed signature input channel (.error message, s) w := by
  rintro e he
  obtain rfl := Fault.thrown.inj he
  exact h

theorem Open.sound {pages : String → List Page} (ho : Open signature input s.result)
    (hc : Counted input.config log s.result pages) :
    Sound signature ⟨input.config, input.resume.isSome, s.result, log⟩ where
  signature := ho.signature
  complete h := by simp [ho.complete] at h
  continuation h := by simp [ho.continuation] at h
  counted := ⟨pages, hc⟩

/-- **A save** of what is sound. -/
theorem save_spec (hs : Sound signature ⟨input.config, input.resume.isSome, s.result, log⟩) :
    Triple (scanDiscipline signature) 0 (Here input log) (save input s)
      (fun _ w => Here input log w) (fun f _ => f.1 = .persistence) := by
  refine .ite (fun _ => ?_) fun _ => .pure fun w _ h => h
  refine .bind (R := fun _ w => Here input log w) (.op (.alone alone_scan) ?_ ?_) fun saved => ?_
  · rintro w - h
    change Sound signature ⟨w.config, w.resumed, s.result, w.log⟩
    rw [h.config, h.resumed, h.log]
    exact hs
  · rintro w saved w' - h ⟨-, ho⟩ -
    cases ho
    exact ⟨h.config, h.resumed, h.log⟩
  · exact .ite (fun _ => .pure fun w _ h => h) fun _ => .throw fun w _ _ => rfl

/-- a save of a scan that goes on. -/
theorem save_going : Triple (scanDiscipline signature) 0 (Going signature input s) (save input s)
    (fun _ w => Going signature input s w) (fun f _ => f.1 = .persistence) := by
  refine .ofExists fun log => .pre (.assume fun h => ?_) fun w _ h => h
  obtain ⟨ho, pages, hc⟩ := h
  exact (save_spec (ho.sound hc)).post (fun _ w _ hw => ⟨log, hw, ho, pages, hc⟩) fun _ _ _ h => h

/-! ## one page -/

theorem checkPage_ok {workspace : String} {pageSize : ℕ} {seen : List String} {page : Value}
    {tasks : List Value} {next cursor : Option String}
    (h : checkPage workspace channel pageSize seen page = .ok (tasks, next)) (n : ℕ) :
    pageOf workspace channel (.listTasks workspace channel n cursor, .ok page) =
        some { cursor, tasks, next } ∧
      ∀ t ∈ tasks, t.get "channel_id" = str channel := by
  obtain ⟨tasks', htasks, h⟩ := bind_ok.mp h
  obtain ⟨u, hscope, h⟩ := bind_ok.mp h
  obtain ⟨next', hnext, h⟩ := bind_ok.mp h
  obtain ⟨u', hmore, h⟩ := bind_ok.mp h
  obtain ⟨rfl, rfl⟩ := Prod.ext_iff.mp (Except.ok.inj h)
  refine ⟨by simp [pageOf, htasks, hnext], fun t ht => ?_⟩
  have hall := throwIf_ok.mp hscope
  simp only [not_or, List.any_eq_true, not_exists, not_and, decide_eq_true_eq] at hall
  exact not_not.mp (hall.2.2 t ht).2.2

/-- **A page that is counted.** -/
theorem readPage_going {page : Value} {progress progress' : Progress} {s' : Scan} {n : ℕ}
    {pages : String → List Page} (hc : Counted input.config log s.result pages)
    (hp : s.result.progress.lookup channel = some progress) (hdone : progress.done = false)
    (hv : VersionedAnswer (.listTasks input.config.workspace_id channel n progress.cursor)
      (.ok page))
    (h : readPage input budget channel s progress page = .ok (s', progress')) :
    (∃ pages', Counted input.config
      (log ++ [(.listTasks input.config.workspace_id channel n progress.cursor, .ok page)])
      s'.result pages') ∧
    s'.result.progress.lookup channel = some progress' ∧
    (Open signature input s.result → Open signature input s'.result) := by
  obtain ⟨⟨tasks, next⟩, hcheck, h⟩ := bind_ok.mp h
  obtain ⟨collected, hcollect, h⟩ := bind_ok.mp h
  obtain ⟨rfl, rfl⟩ := Prod.ext_iff.mp (Except.ok.inj h)
  obtain ⟨hpage, hchannel⟩ := checkPage_ok hcheck n
  refine ⟨⟨_, hc.page (fun c => rfl) hpage hp hdone rfl (fun t ht => ?_) hcollect rfl⟩, ?_, ?_⟩
  · exact ⟨hchannel t ht, hv _ _ _ hpage t ht⟩
  · simp [Scan.paged, lookup_replace, hp]
  · exact fun ho => ⟨ho.signature, ho.complete, ho.continuation⟩

/-- **The pages of a channel.** -/
theorem readPages_spec (left : ℕ) (progress : Progress)
    (hp : s.result.progress.lookup channel = some progress) :
    Triple (scanDiscipline signature) 0 (Going signature input s)
      (readPages input budget channel left s progress)
      (fun s' w => Going signature input s' w) (Failed signature input channel) := by
  induction left generalizing s progress with
  | zero =>
    unfold readPages
    exact .ite (fun _ => .pure fun w _ h => h) fun _ => .throw fun w _ h => failed_of_going h _
  | succ left ih =>
    unfold readPages
    refine .ite (fun _ => .pure fun w _ h => h) fun hdone => ?_
    refine .ofExists fun log => .pre (.assume fun h => ?_) fun w _ h => h
    obtain ⟨ho, pages, hc⟩ := h
    refine .bind ((request_spec _).post (fun _ _ _ h => h)
      fun f w _ h => failed_of_request rfl ho hc h) fun r => ?_
    obtain ⟨page, s₁⟩ := r
    refine .pre (.assume (P := Here input (log ++ [(_, .ok page)])) (p := s₁ = s.asked ∧ _)
      fun h => ?_) fun w _ h => ⟨h.2.2.1, h.1, h.2.2.2⟩
    obtain ⟨rfl, hv⟩ := h
    have ho₁ : Open signature input s.asked.result :=
      ⟨ho.signature, ho.complete, ho.continuation⟩
    have hc₁ : Counted input.config log s.asked.result pages := hc.congr rfl rfl
    dsimp only
    cases hread : readPage input budget channel s.asked progress page with
    | error message =>
      refine .throw fun w _ hw => failed_of_going ⟨_, hw, ho₁, pages, ?_⟩ _
      exact hc₁.answered fun c => rfl
    | ok r =>
      obtain ⟨s₂, progress₂⟩ := r
      obtain ⟨⟨pages', hc₂⟩, hp₂, ho₂⟩ :=
        readPage_going hc₁ hp (by simpa using hdone) hv hread
      refine .bind (R := fun _ => Going signature input s₂) ?_ fun _ => ih progress₂ hp₂
      refine (save_going.pre fun w _ hw => ⟨_, hw, ho₂ ho₁, pages', hc₂⟩).post
        (fun _ _ _ h => h) ?_
      rintro f w - hf e he
      simp [hf] at he

/-! ## channels -/

/-- **One channel.** -/
theorem scanChannel_spec (approved : ApprovedChannel) :
    Triple (scanDiscipline signature) 0 (Going signature input s)
      (scanChannel input budget approved s) (fun s' w => Going signature input s' w)
      (Failed signature input approved.id) := by
  refine .ofExists fun log => .pre (.assume fun h => ?_) fun w _ h => h
  obtain ⟨ho, pages, hc⟩ := h
  refine .bind ((request_spec _).post (fun _ _ _ h => h)
    fun f w _ h => failed_of_request rfl ho hc h) fun r => ?_
  obtain ⟨shown, s₁⟩ := r
  refine .pre (.assume (P := Here input (log ++ [(_, .ok shown)])) (p := s₁ = s.asked)
    fun h => ?_) fun w _ h => ⟨h.2.2.1, h.1⟩
  obtain rfl := h
  have ho₁ : Open signature input s.asked.result := ⟨ho.signature, ho.complete, ho.continuation⟩
  have hc₁ : Counted input.config log s.asked.result pages := hc.congr rfl rfl
  have hgoing : ∀ w, Here input (log ++ [(.showChannel input.config.workspace_id approved.id,
      .ok shown)]) w → Going signature input s.asked w :=
    fun w hw => ⟨_, hw, ho₁, pages, hc₁.answered fun c => rfl⟩
  refine .ite (fun _ => .throw fun w _ hw => failed_of_going (hgoing w hw) _) fun _ => ?_
  refine .ite (fun _ => .throw fun w _ hw => failed_of_going (hgoing w hw) _) fun _ => ?_
  refine (readPages_spec _ _ ?_).pre fun w _ hw => ?_
  · cases hp : s.asked.result.progress.lookup approved.id with
    | none => simp [Scan.checked, hp, List.lookup_append]
    | some p => simp [Scan.checked, hp]
  · exact ⟨_, hw, ⟨ho.signature, ho.complete, ho.continuation⟩, pages,
      (hc₁.answered fun c => rfl).begun rfl rfl⟩

/-- the reason of a denial. -/
theorem channelReason_denied (e : ClientError) :
    channelReason e = "access_denied" ↔ e.denied = true := by
  have hknown : reasonOf ["request_budget", "page_budget", "channel_scope_mismatch",
      "task_scope_mismatch", "task_identity_mismatch", "invalid_or_repeated_cursor"]
      "request_failed" e ≠ "access_denied" := by
    unfold reasonOf
    split
    · split
      · next h => rintro rfl; simp at h
      · decide
    · decide
  unfold channelReason ClientError.denied
  split
  · next h => simp [h]
  · next h =>
    split
    · simp [h]
    · split
      · simp [h]
      · simp [h, hknown]

/-- **The channels**, one after the other. -/
theorem scanChannels_spec (channels : List ApprovedChannel) :
    Triple (scanDiscipline signature) 0 (Going signature input s)
      (scanChannels input budget channels s) (fun s' w => Going signature input s' w)
      (fun f _ => f.1 = .persistence) := by
  induction channels generalizing s with
  | nil => exact .pure fun w _ h => h
  | cons approved rest ih =>
    unfold scanChannels
    refine .bind (.attempt (Q := fun r w => match r with
      | .ok s' => Going signature input s' w
      | .error f => Failed signature input approved.id f w) (scanChannel_spec approved)) fun r => ?_
    cases r with
    | ok s' => exact ih
    | error f =>
      obtain ⟨fault, s'⟩ := f
      cases fault with
      | persistence => exact .throw fun w _ _ => rfl
      | thrown e =>
        have hfailed : ∀ w, Failed signature input approved.id (.thrown e, s') w →
            Going signature input (s'.failed approved.id (channelReason e)) w := by
          intro w h
          obtain ⟨log, hw, ho, pages, hc⟩ := h e rfl
          refine ⟨log, hw, ?_⟩
          unfold Scan.failed
          by_cases hd : e.denied = true
          · rw [if_pos hd] at ho hc
            rw [if_pos ((channelReason_denied e).mpr hd)]
            exact ⟨⟨ho.signature, ho.complete, ho.continuation⟩, pages, hc.congr rfl rfl⟩
          · rw [if_neg hd] at ho hc
            rw [if_neg fun h => hd ((channelReason_denied e).mp h)]
            exact ⟨⟨ho.signature, ho.complete, ho.continuation⟩, pages, hc.congr rfl rfl⟩
        refine .bind (R := fun _ => Going signature input
          (s'.failed approved.id (channelReason e))) (save_going.pre fun w _ h => hfailed w h)
          fun _ => ?_
        exact .ite (fun _ => .pure fun w _ h => h) fun _ => ih

/-- **The map and its channels.** -/
theorem scanMap_spec : Triple (scanDiscipline signature) 0 (Going signature input s)
    (scanMap input budget s) (fun s' w => Going signature input s' w)
    (Left signature input) := by
  refine .ofExists fun log => .pre (.assume fun h => ?_) fun w _ h => h
  obtain ⟨ho, pages, hc⟩ := h
  have ho₁ : Open signature input s.asked.result := ⟨ho.signature, ho.complete, ho.continuation⟩
  have hc₁ : Counted input.config log s.asked.result pages := hc.congr rfl rfl
  refine .bind ((request_spec _).post (fun _ _ _ h => h) ?_) fun r => ?_
  · rintro f w - (⟨rfl, hw⟩ | ⟨hs, ⟨e, -, hw⟩ | ⟨v, -, hw⟩⟩) -
    · exact ⟨_, hw, ho⟩
    · exact ⟨_, hw, hs ▸ ho₁⟩
    · exact ⟨_, hw, hs ▸ ho₁⟩
  · obtain ⟨enumeration, s₁⟩ := r
    refine .pre (.assume (P := Here input (log ++ [(_, .ok enumeration)])) (p := s₁ = s.asked)
      fun h => ?_) fun w _ h => ⟨h.2.2.1, h.1⟩
    obtain rfl := h
    dsimp only
    cases checkChannels input.config enumeration with
    | error message => exact .throw fun w _ hw _ => ⟨_, hw, ho₁⟩
    | ok u =>
      refine ((scanChannels_spec _).pre fun w _ hw => ?_).post (fun _ _ _ h => h)
        fun f w _ hf hne => absurd hf hne
      exact ⟨_, hw, ho₁, pages, hc₁.answered fun c => rfl⟩

/-! ## the end -/

/-- the pages of a channel that is done. -/
theorem whole_of_done {pages : String → List Page}
    (hc : Counted input.config log s.result pages) {c : String}
    (hdone : (s.result.progress.lookup c).any (·.done) = true) :
    ∃ ps, ps.Sublist (pagesOf input.config.workspace_id c log) ∧ Whole ps := by
  cases hp : s.result.progress.lookup c with
  | none => simp [hp] at hdone
  | some p => exact ⟨pages c, hc.sub c, (hc.reads c p hp).whole (by simpa [hp] using hdone)⟩

/-- **The result of a scan** is sound. -/
theorem finished_sound {pages : String → List Page} (ho : Open signature input s.result)
    (hc : Counted input.config log s.result pages) :
    Sound signature ⟨input.config, input.resume.isSome, (s.finished input).result, log⟩ := by
  unfold Scan.finished
  dsimp only
  split
  · next h =>
    refine ⟨ho.signature, fun hcomplete => ?_, fun _ => ⟨h.1, fun c hch => ?_⟩, pages,
      hc.congr rfl rfl⟩
    · simp [Scan.gap, ho.complete] at hcomplete
    · exact whole_of_done hc (h.2.2 c hch)
  · next h =>
    refine ⟨ho.signature, fun hcomplete => ?_, fun hcontinued => ?_, pages, hc.congr rfl rfl⟩
    · have hall := of_decide_eq_true hcomplete
      refine ⟨?_, hall.1, fun c hch => whole_of_done hc (hall.2 c hch)⟩
      by_contra hresume
      exact h ⟨by simpa [Option.isSome_iff_ne_none] using hresume, hall⟩
    · simp [ho.continuation] at hcontinued

/-- **A scan**, from a result of its chain or from nothing. -/
theorem scanTasks_spec (hgoing : (∀ resume, input.resume = some resume →
      resume.resumes input.config (signature input.config)) → ∀ w, Here input log w →
      Going signature input { result := input.initial (signature input.config) } w) :
    Triple (scanDiscipline signature) 0 (Here input log) (scanTasks signature input)
      (fun r w => Sound signature ⟨w.config, w.resumed, r, w.log⟩) Any₂ := by
  unfold scanTasks
  cases input.budget with
  | none => exact .throw fun w _ _ => trivial
  | some budget =>
    refine .ite (fun _ => .throw fun w _ _ => trivial) fun _ => ?_
    refine .ite (fun _ => .throw fun w _ _ => trivial) fun hsame => ?_
    have hresumes : ∀ resume, input.resume = some resume →
        resume.resumes input.config (signature input.config) := by
      intro resume hresume
      by_contra hnot
      exact hsame ⟨resume, hresume, hnot⟩
    refine .bind (.attempt (Q := fun r w => match r with
      | .ok s' => Going signature input s' w
      | .error f => Left signature input f w) (scanMap_spec.pre fun w _ hw => hgoing hresumes w hw))
      fun r => ?_
    refine .bind (R := fun s' w => Going signature input s' w) ?_ fun s' => ?_
    · cases r with
      | ok s' => exact .pure fun w _ h => h
      | error f =>
        obtain ⟨fault, s'⟩ := f
        cases fault with
        | persistence => exact .throw fun w _ _ => trivial
        | thrown e =>
          refine .pure fun w _ h => ?_
          obtain ⟨log, hw, ho⟩ := h (by simp)
          exact ⟨log, hw, ⟨ho.signature, ho.complete, ho.continuation⟩, _, .nothing rfl rfl⟩
    · refine .ofExists fun log => .pre (.assume fun h => ?_) fun w _ h => h
      obtain ⟨ho, pages, hc⟩ := h
      have hsound := finished_sound ho hc
      refine .bind ((save_spec hsound).post (fun _ _ _ h => h) fun _ _ _ _ => trivial) fun _ => ?_
      refine .pure fun w _ hw => ?_
      rw [hw.config, hw.resumed, hw.log]
      exact hsound

theorem scanCall_keeps (hgoing : (∀ resume, input.resume = some resume →
      resume.resumes input.config (signature input.config)) → ∀ w, Here input log w →
      Going signature input { result := input.initial (signature input.config) } w) {w : World}
    (hi : (scanDiscipline signature).Inv w) (hw : Here input log w) :
    wp (scanDiscipline signature) 0 (scanCall signature input).detach (fun _ _ => True) w := by
  have hcall : Triple (scanDiscipline signature) 0 (Here input log) (scanCall signature input)
      Any₂ Any₂ :=
    .bind (scanTasks_spec hgoing) fun r =>
      .op (.alone alone_scan) (fun w _ h => h) fun _ _ _ _ _ _ _ => trivial
  exact hcall.detachFrom hi hw

/-- what a new scan or one that goes on starts from. -/
theorem started_keeps (hsig : Function.Injective signature) {w w' : World} {p : Prog api Unit}
    (hi : (scanDiscipline signature).Inv w) (h : Started signature w p w') :
    (scanDiscipline signature).Inv w' ∧
      wp (scanDiscipline signature) 0 p (fun _ _ => True) w' := by
  cases h with
  | fresh input hfresh =>
    have hstart : Here input [] { w with config := input.config, resumed := false, log := [] } :=
      ⟨rfl, by simp [hfresh], rfl⟩
    refine ⟨hi, scanCall_keeps (fun _ w hw => ?_) hi hstart⟩
    simp only [ScanInput.initial, hfresh]
    exact ⟨[], hw, ⟨rfl, rfl, rfl⟩, _, .nothing rfl rfl⟩
  | resumed input x hx hresume =>
    have hstart : Here input x.log
        { w with config := input.config, resumed := true, log := x.log } :=
      ⟨rfl, by simp [hresume], rfl⟩
    refine ⟨hi, scanCall_keeps (fun hresumes w hw => ?_) hi hstart⟩
    obtain ⟨hsigx, -, -, pages, hc⟩ := hi x hx
    have hconfig : x.config = input.config :=
      hsig (hsigx.symm.trans (hresumes x.result hresume).1)
    simp only [ScanInput.initial, hresume]
    exact ⟨x.log, hw, ⟨(hresumes x.result hresume).1, rfl, rfl⟩, pages,
      (hconfig ▸ hc).congr rfl rfl⟩

end

/-- texts in a row, each with its end. -/
def encode (texts : List String) : List Char :=
  texts.flatMap fun s => s.toList.flatMap (fun c => ['x', c]) ++ ['.']

theorem encode_cons (s : String) (texts : List String) :
    encode (s :: texts) = s.toList.flatMap (fun c => ['x', c]) ++ '.' :: encode texts := by
  simp [encode]

theorem marked_inj {xs ys : List Char} {us vs : List Char}
    (h : xs.flatMap (fun c => ['x', c]) ++ '.' :: us =
      ys.flatMap (fun c => ['x', c]) ++ '.' :: vs) : xs = ys ∧ us = vs := by
  induction xs generalizing ys with
  | nil =>
    cases ys with
    | nil => exact ⟨rfl, by simpa using h⟩
    | cons y ys => simp at h
  | cons x xs ih =>
    cases ys with
    | nil => simp at h
    | cons y ys =>
      simp only [List.flatMap_cons, List.cons_append, List.nil_append, List.cons.injEq,
        true_and] at h
      obtain ⟨rfl, hrest⟩ := ih h.2
      exact ⟨by rw [h.1], hrest⟩

theorem encode_injective : Function.Injective encode := by
  intro xs
  induction xs with
  | nil =>
    intro ys h
    cases ys with
    | nil => rfl
    | cons y ys => simp [encode] at h
  | cons x xs ih =>
    intro ys h
    cases ys with
    | nil => simp [encode] at h
    | cons y ys =>
      rw [encode_cons, encode_cons] at h
      obtain ⟨hxy, hrest⟩ := marked_inj h
      rw [String.toList_inj.mp hxy, ih hrest]

/-- a signature that tells all maps apart. -/
def plainSignature (config : ScanConfig) : String :=
  String.ofList (encode (config.workspace_id :: config.scope_id ::
    config.channels.flatMap fun c => [c.id, c.name, c.scope_id]))

theorem plainSignature_injective : Function.Injective plainSignature := by
  rintro ⟨w, s, cs⟩ ⟨w', s', cs'⟩ h
  obtain ⟨rfl, rfl, hcs⟩ := by
    simpa using encode_injective (String.ofList_injective h)
  have hflat : ∀ cs cs' : List ApprovedChannel,
      (cs.flatMap fun c => [c.id, c.name, c.scope_id]) =
        (cs'.flatMap fun c => [c.id, c.name, c.scope_id]) → cs = cs' := by
    intro cs
    induction cs with
    | nil =>
      intro cs' h
      cases cs' with
      | nil => rfl
      | cons c cs' => simp at h
    | cons c cs ih =>
      intro cs' h
      cases cs' with
      | nil => simp at h
      | cons c' cs' =>
        obtain ⟨id, name, scope⟩ := c
        obtain ⟨id', name', scope'⟩ := c'
        simp only [List.flatMap_cons, List.cons_append, List.nil_append, List.cons.injEq] at h
        obtain ⟨rfl, rfl, rfl, hrest⟩ := h
        rw [ih cs' hrest]
  rw [hflat cs cs' hcs]

def oneChannel : ScanConfig :=
  { workspace_id := "w", scope_id := "s", channels := [{ id := "a", name := "bugs", scope_id := "s" }] }

def channelRow : Value :=
  obj [("id", str "a"), ("name", str "bugs"), ("workspace_id", str "w"), ("scope_id", str "s")]

def taskRow : Value :=
  obj [("id", str "t"), ("workspace_id", str "w"), ("channel_id", str "a"), ("row_version", num 3)]

/-- what Tower answers. -/
def towerAnswer : Request → Except ClientError Value
  | .listChannels .. => .ok (obj [("channels", arr [channelRow])])
  | .showChannel .. => .ok (obj [("channel", channelRow)])
  | .listTasks .. => .ok (obj [("tasks", arr [taskRow]), ("channel_id", str "a"),
      ("next_cursor", null), ("has_more", bool false)])

def towerAns : (o : Op) → World → o.Ans
  | .request q, _ => towerAnswer q
  | .save _, _ => true
  | .returned _, _ => ()

def towerEffect : Op → World → World
  | .request q, w => { w with log := w.log ++ [(q, towerAnswer q)] }
  | .save result, w | .returned result, w => w.save result

theorem towerAnswer_versioned (q : Request) : VersionedAnswer q (towerAnswer q) := by
  intro workspace channel page hpage t ht
  cases q with
  | listChannels => simp [pageOf] at hpage
  | showChannel => simp [pageOf] at hpage
  | listTasks w c n cursor =>
    have hrow : t = taskRow := by
      simp only [pageOf, towerAnswer] at hpage
      split at hpage
      · obtain rfl := Option.some.inj hpage
        simpa using ht
      · simp at hpage
    exact ⟨3, by rw [hrow]; rfl⟩

end Consolidation
end WmAutopilot
