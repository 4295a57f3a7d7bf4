import WmAutopilot.Signing.PolicyRegistry

/-!
# What the registry of signing policies keeps

* `Sound`                a registry whose ids are distinct, whose drafts are in normal form, and
                         whose revisions only grow;
* `planned_sound`        an operation plans a sound registry with one more entry;
* `construct_envelope`   what was saved by a sound registry is read back as it was;
* `step_kept`            an operation whose save does not throw.

Only a save that throws breaks anything: `atomic_increasing_iff`.
-/

set_option autoImplicit false

namespace WmAutopilot
namespace Signing
namespace Policies
open Js

section
variable {host : PolicyHost} {draft draft' : SigningPolicyDraft} {r : Registry}

/-! ## drafts -/

theorem validate_id (h : validateSigningPolicyDraft host draft = .ok draft') :
    draft'.id = trim draft.id := by
  unfold validateSigningPolicyDraft at h
  obtain ⟨_, -, h⟩ := bind_ok.mp h
  obtain ⟨_, -, h⟩ := bind_ok.mp h
  obtain ⟨_, -, h⟩ := bind_ok.mp h
  obtain ⟨_, -, h⟩ := bind_ok.mp h
  obtain ⟨_, -, h⟩ := bind_ok.mp h
  obtain ⟨_, -, h⟩ := bind_ok.mp h
  obtain ⟨_, -, h⟩ := bind_ok.mp h
  obtain ⟨_, -, h⟩ := bind_ok.mp h
  obtain ⟨_, -, h⟩ := bind_ok.mp h
  obtain ⟨_, -, h⟩ := bind_ok.mp h
  obtain ⟨_, -, h⟩ := bind_ok.mp h
  obtain ⟨_, -, h⟩ := bind_ok.mp h
  obtain ⟨_, -, h⟩ := bind_ok.mp h
  obtain ⟨_, -, h⟩ := bind_ok.mp h
  obtain ⟨_, -, h⟩ := bind_ok.mp h
  obtain rfl := Except.ok.inj h
  rfl

/-- whether a policy is enabled plays no part in the checks. -/
theorem validate_enabled (enabled : Bool)
    (h : validateSigningPolicyDraft host draft = .ok draft') :
    validateSigningPolicyDraft host { draft with enabled } = .ok { draft' with enabled } := by
  unfold validateSigningPolicyDraft at h ⊢
  obtain ⟨_, h1, h⟩ := bind_ok.mp h
  obtain ⟨_, h2, h⟩ := bind_ok.mp h
  obtain ⟨_, h3, h⟩ := bind_ok.mp h
  obtain ⟨_, h4, h⟩ := bind_ok.mp h
  obtain ⟨_, h5, h⟩ := bind_ok.mp h
  obtain ⟨_, h6, h⟩ := bind_ok.mp h
  obtain ⟨_, h7, h⟩ := bind_ok.mp h
  obtain ⟨_, h8, h⟩ := bind_ok.mp h
  obtain ⟨_, h9, h⟩ := bind_ok.mp h
  obtain ⟨_, h10, h⟩ := bind_ok.mp h
  obtain ⟨_, h11, h⟩ := bind_ok.mp h
  obtain ⟨_, h12, h⟩ := bind_ok.mp h
  obtain ⟨_, h13, h⟩ := bind_ok.mp h
  obtain ⟨_, h14, h⟩ := bind_ok.mp h
  obtain ⟨_, h15, h⟩ := bind_ok.mp h
  obtain rfl := Except.ok.inj h
  exact bind_ok.mpr ⟨_, h1, bind_ok.mpr ⟨_, h2, bind_ok.mpr ⟨_, h3, bind_ok.mpr ⟨_, h4,
    bind_ok.mpr ⟨_, h5, bind_ok.mpr ⟨_, h6, bind_ok.mpr ⟨_, h7, bind_ok.mpr ⟨_, h8,
    bind_ok.mpr ⟨_, h9, bind_ok.mpr ⟨_, h10, bind_ok.mpr ⟨_, h11, bind_ok.mpr ⟨_, h12,
    bind_ok.mpr ⟨_, h13, bind_ok.mpr ⟨_, h14, bind_ok.mpr ⟨_, h15, rfl⟩⟩⟩⟩⟩⟩⟩⟩⟩⟩⟩⟩⟩⟩⟩

variable (host) in
/-- The draft came out of the checks. -/
def Normal (draft : SigningPolicyDraft) : Prop :=
  ∃ input, validateSigningPolicyDraft host input = .ok draft

theorem Normal.same (h : Normal host draft)
    (h' : validateSigningPolicyDraft host draft = .ok draft') : draft' = draft := by
  obtain ⟨input, hinput⟩ := h
  exact validate_again hinput h'

theorem Normal.enabled (h : Normal host draft) (enabled : Bool) :
    Normal host { draft with enabled } := by
  obtain ⟨input, hinput⟩ := h
  exact ⟨{ input with enabled }, validate_enabled enabled hinput⟩

theorem Normal.trim_id (h : Normal host draft) : trim draft.id = draft.id := by
  obtain ⟨input, hinput⟩ := h
  rw [validate_id hinput, trim_trim]

/-! ## sound registries -/

variable (host) in
/-- What holds of a registry as long as no save throws. -/
structure Sound (r : Registry) : Prop where
  distinct : (r.policies.map (·.id)).Nodup
  normal : ∀ policy ∈ r.policies, Normal host policy.toSigningPolicyDraft
  newest : ∀ policy ∈ r.policies, ∀ entry ∈ r.history, entry.policyId = policy.id →
    entry.revision ≤ policy.revision
  increasing : Increasing (r.history.map (·.assigns))
  tower : ∃ policy ∈ r.policies, policy.id = TOWER_FORGEJO_POLICY_ID ∧ policy.builtIn = true

/-- the order of the policies plays no part. -/
theorem Sound.perm {policies : List SigningPolicyDocument} (h : Sound host r)
    (hperm : policies.Perm r.policies) : Sound host { r with policies } where
  distinct := (hperm.map (·.id)).nodup_iff.mpr h.distinct
  normal policy hpolicy := h.normal policy (hperm.mem_iff.mp hpolicy)
  newest policy hpolicy := h.newest policy (hperm.mem_iff.mp hpolicy)
  increasing := h.increasing
  tower := by
    obtain ⟨policy, hpolicy, htower⟩ := h.tower
    exact ⟨policy, hperm.mem_iff.mpr hpolicy, htower⟩

theorem get_some {id : String} {policy : SigningPolicyDocument} (h : r.get id = some policy) :
    policy ∈ r.policies ∧ policy.id = id :=
  ⟨List.mem_of_find?_eq_some h, by simpa using List.find?_some h⟩

theorem Sound.unique (h : Sound host r) {policy other : SigningPolicyDocument}
    (hpolicy : policy ∈ r.policies) (hother : other ∈ r.policies) (hid : policy.id = other.id) :
    policy = other :=
  List.inj_on_of_nodup_map h.distinct hpolicy hother hid

/-- an entry that is greater than those before it. -/
theorem increasing_concat {assigned : List (String × ℕ)} {id : String} {revision : ℕ}
    (h : Increasing assigned) (hnew : ∀ pair ∈ assigned, pair.1 = id → pair.2 < revision) :
    Increasing (assigned ++ [(id, revision)]) := by
  refine List.pairwise_append.mpr ⟨h, List.pairwise_singleton _ _, fun pair hpair last hlast => ?_⟩
  cases List.mem_singleton.mp hlast
  exact hnew pair hpair

theorem le_foldl_max {ns : List ℕ} {n : ℕ} : n ≤ ns.foldl max n ∧ ∀ m ∈ ns, m ≤ ns.foldl max n := by
  induction ns generalizing n with
  | nil => exact ⟨le_rfl, fun m hm => absurd hm List.not_mem_nil⟩
  | cons k ns ih =>
    obtain ⟨hstart, hrest⟩ := ih (n := max n k)
    rw [List.foldl_cons]
    refine ⟨by omega, fun m hm => ?_⟩
    cases hm with
    | head => omega
    | tail _ hm => exact hrest m hm

/-- **The next revision is greater than every one that the id has had.** -/
theorem lt_nextRevision {id : String} {existing : Option SigningPolicyDocument}
    {entry : SigningPolicyHistoryEntry} (hentry : entry ∈ r.history) (hid : entry.policyId = id) :
    entry.revision < r.nextRevision id existing := by
  have hmem : entry ∈ r.getHistory id := by
    unfold Registry.getHistory
    rw [List.mem_insertionSort, List.mem_filter]
    exact ⟨hentry, decide_eq_true hid⟩
  exact Nat.lt_succ_of_le (le_foldl_max.2 _ (List.mem_map_of_mem hmem))

/-- an entry that comes to the history of a sound registry. -/
theorem Sound.increasing_entry (h : Sound host r) {entry : SigningPolicyHistoryEntry}
    (hnew : ∀ other ∈ r.history, other.policyId = entry.policyId →
      other.revision < entry.revision) :
    Increasing ((r.history ++ [entry]).map (·.assigns)) := by
  rw [List.map_append]
  refine increasing_concat h.increasing fun pair hpair hid => ?_
  obtain ⟨other, hother, rfl⟩ := List.mem_map.mp hpair
  exact hnew other hother hid

theorem saveRevision_history (existing : Option SigningPolicyDocument) (actorNpub : String)
    (action : PolicyAction) (builtIn : Bool) (time : String) :
    ∃ entry, (r.saveRevision draft existing actorNpub action builtIn time).history =
      r.history ++ [entry] :=
  ⟨_, rfl⟩

theorem Sound.saveRevision (h : Sound host r) (hdraft : Normal host draft)
    {existing : Option SigningPolicyDocument} {actorNpub time : String} {action : PolicyAction}
    {builtIn : Bool} (hbuiltIn : ∀ policy ∈ r.policies, policy.id = draft.id →
      policy.builtIn = true → builtIn = true) :
    Sound host (r.saveRevision draft existing actorNpub action builtIn time) where
  distinct := nodup_put h.distinct
  normal policy hpolicy := by
    rcases mem_put.mp hpolicy with rfl | ⟨hpolicy, -⟩
    · exact hdraft
    · exact h.normal policy hpolicy
  newest policy hpolicy entry hentry hid := by
    rcases List.mem_append.mp hentry with hentry | hentry
    · rcases mem_put.mp hpolicy with rfl | ⟨hpolicy, -⟩
      · exact (lt_nextRevision hentry hid).le
      · exact h.newest policy hpolicy entry hentry hid
    · cases List.mem_singleton.mp hentry
      rcases mem_put.mp hpolicy with rfl | ⟨-, hne⟩
      · exact le_rfl
      · exact absurd hid.symm hne
  increasing := h.increasing_entry fun other hother hid => lt_nextRevision hother hid
  tower := by
    obtain ⟨policy, hpolicy, hid, hbuilt⟩ := h.tower
    by_cases hsame : policy.id = draft.id
    · exact ⟨_, mem_put_self, hsame.symm.trans hid, hbuiltIn policy hpolicy hsame hbuilt⟩
    · exact ⟨policy, mem_put_of_ne hpolicy hsame, hid, hbuilt⟩

/-! ## operations -/

/-- What an operation plans: a sound registry with one more entry. -/
def Grows (host : PolicyHost) (r r' : Registry) : Prop :=
  Sound host r' ∧ ∃ entry, r'.history = r.history ++ [entry]

theorem create_sound {given : Except String SigningPolicyDraft} {actorNpub time : String}
    {r' : Registry} (h : Sound host r)
    (hplan : r.create host given actorNpub time = .ok (some r')) : Grows host r r' := by
  unfold Registry.create at hplan
  obtain ⟨validated, hvalidated, hplan⟩ := bind_ok.mp hplan
  obtain ⟨_, hguard, hplan⟩ := bind_ok.mp hplan
  obtain rfl := Option.some.inj (Except.ok.inj hplan)
  obtain ⟨input, -, hinput⟩ := bind_ok.mp hvalidated
  have hfree : r.get validated.id = none := by
    have hguard' := throwIf_ok.mp hguard
    simpa using (not_or.mp hguard').2
  refine ⟨h.saveRevision ⟨input, hinput⟩ fun policy hpolicy hid => ?_, saveRevision_history ..⟩
  have hnone := List.find?_eq_none.mp hfree policy hpolicy
  exact absurd (decide_eq_true hid) hnone

/-- the revision of a policy that is there. -/
theorem Sound.existing_builtIn (h : Sound host r) {id : String} {existing : SigningPolicyDocument}
    (hget : r.get id = some existing) {policy : SigningPolicyDocument} (hpolicy : policy ∈ r.policies)
    (hid : policy.id = id) (hbuilt : policy.builtIn = true) : existing.builtIn = true := by
  obtain ⟨hmem, hsame⟩ := get_some hget
  rw [← h.unique hpolicy hmem (hid.trans hsame.symm)]
  exact hbuilt

theorem update_sound {id actorNpub time : String} {given : Except String SigningPolicyDraft}
    {r' : Registry} (h : Sound host r)
    (hplan : r.update host id given actorNpub time = .ok (some r')) : Grows host r r' := by
  unfold Registry.update at hplan
  obtain ⟨existing, hexisting, hplan⟩ := bind_ok.mp hplan
  obtain ⟨input, -, hplan⟩ := bind_ok.mp hplan
  obtain ⟨_, hguard, hplan⟩ := bind_ok.mp hplan
  obtain ⟨validated, hvalidated, hplan⟩ := bind_ok.mp hplan
  obtain ⟨_, -, hplan⟩ := bind_ok.mp hplan
  obtain rfl := Option.some.inj (Except.ok.inj hplan)
  have hget := orThrow_ok.mp hexisting
  obtain ⟨hmem, hid⟩ := get_some hget
  -- the id that was asked for is the id of a policy, so `trim` leaves it as it is
  have hsame : validated.id = id := by
    rw [validate_id hvalidated, not_not.mp (throwIf_ok.mp hguard), ← hid]
    exact (h.normal existing hmem).trim_id
  refine ⟨h.saveRevision ⟨input, hvalidated⟩ fun policy hpolicy hpid hbuilt => ?_,
    saveRevision_history ..⟩
  exact h.existing_builtIn hget hpolicy (hpid.trans hsame) hbuilt

theorem setEnabled_sound {id actorNpub time : String} {enabled : Bool} {r' : Registry}
    (h : Sound host r) (hplan : r.setEnabled id enabled actorNpub time = .ok (some r')) :
    Grows host r r' := by
  unfold Registry.setEnabled at hplan
  obtain ⟨existing, hexisting, hplan⟩ := bind_ok.mp hplan
  have hplan' := Except.ok.inj hplan
  split at hplan'
  · cases hplan'
  · obtain rfl := Option.some.inj hplan'
    have hget := orThrow_ok.mp hexisting
    obtain ⟨hmem, hid⟩ := get_some hget
    refine ⟨h.saveRevision ((h.normal existing hmem).enabled enabled)
      fun policy hpolicy hpid hbuilt => ?_, saveRevision_history ..⟩
    exact h.existing_builtIn hget hpolicy (hpid.trans hid) hbuilt

theorem delete_sound {id actorNpub time : String} {r' : Registry} (h : Sound host r)
    (hplan : r.delete id actorNpub time = .ok (some r')) : Grows host r r' := by
  unfold Registry.delete at hplan
  obtain ⟨existing, hexisting, hplan⟩ := bind_ok.mp hplan
  obtain ⟨_, hguard, hplan⟩ := bind_ok.mp hplan
  obtain rfl := Option.some.inj (Except.ok.inj hplan)
  have hget := orThrow_ok.mp hexisting
  obtain ⟨hmem, hid⟩ := get_some hget
  have hkept : ∀ policy ∈ r.policies.filter (·.id ≠ id), policy ∈ r.policies ∧ policy.id ≠ id := by
    intro policy hpolicy
    obtain ⟨hpolicy, hne⟩ := List.mem_filter.mp hpolicy
    exact ⟨hpolicy, of_decide_eq_true hne⟩
  refine ⟨⟨?_, ?_, ?_, ?_, ?_⟩, ⟨_, rfl⟩⟩
  · exact h.distinct.sublist (List.filter_sublist.map _)
  · exact fun policy hpolicy => h.normal policy (hkept policy hpolicy).1
  · intro policy hpolicy entry hentry hpid
    obtain ⟨hpolicy, hne⟩ := hkept policy hpolicy
    rcases List.mem_append.mp hentry with hentry | hentry
    · exact h.newest policy hpolicy entry hentry hpid
    · cases List.mem_singleton.mp hentry
      exact absurd hpid.symm hne
  · refine h.increasing_entry fun other hother hoid => ?_
    exact Nat.lt_succ_of_le (h.newest existing hmem other hother (hoid.trans hid.symm))
  · obtain ⟨policy, hpolicy, htower, hbuilt⟩ := h.tower
    refine ⟨policy, List.mem_filter.mpr ⟨hpolicy, decide_eq_true fun hpid => ?_⟩, htower, hbuilt⟩
    exact throwIf_ok.mp hguard (h.existing_builtIn hget hpolicy hpid hbuilt)

/-- **What comes to `persist` is sound, with one entry more.** -/
theorem planned_sound {change : Change} {r' : Registry} (h : Sound host r)
    (hplan : change.planned host r = .ok (some r')) : Grows host r r' := by
  cases change with
  | create given actorNpub time => exact create_sound h hplan
  | update id given actorNpub time => exact update_sound h hplan
  | setEnabled id enabled actorNpub time => exact setEnabled_sound h hplan
  | delete id actorNpub time => exact delete_sound h hplan

/-! ## what is read back -/

/-- drafts in normal form are loaded as they are. -/
theorem loadPolicies_normal {loaded policies policies' : List SigningPolicyDocument}
    (hnormal : ∀ policy ∈ policies, Normal host policy.toSigningPolicyDraft)
    (h : loadPolicies host loaded policies = .ok policies') : policies' = loaded ++ policies := by
  induction policies generalizing loaded with
  | nil =>
    cases h
    rw [List.append_nil]
  | cons policy policies ih =>
    unfold loadPolicies at h
    obtain ⟨validated, hvalidated, h⟩ := bind_ok.mp h
    obtain ⟨_, -, h⟩ := bind_ok.mp h
    obtain ⟨_, -, h⟩ := bind_ok.mp h
    have hsame := (hnormal policy List.mem_cons_self).same hvalidated
    rw [ih (fun other hother => hnormal other (List.mem_cons_of_mem _ hother)) h, hsame,
      List.append_assoc, List.singleton_append]

/-- **A registry that is made of what a sound one saved is the same, in the order of `list`.** -/
theorem construct_envelope {url time : String} {r' : Registry} {persists : Bool}
    (h : Sound host r) (hr' : construct host url time (r.envelope host) = .ok (r', persists)) :
    persists = false ∧ r' = { r with policies := r.list host } := by
  have hsorted : Sound host { r with policies := r.list host } :=
    h.perm (List.perm_insertionSort _ _)
  unfold construct at hr'
  obtain ⟨policies, hpolicies, hr'⟩ := bind_ok.mp hr'
  obtain rfl : policies = r.list host := loadPolicies_normal hsorted.normal hpolicies
  have htower : (r.list host).any (·.id = TOWER_FORGEJO_POLICY_ID) = true := by
    obtain ⟨policy, hpolicy, hid, -⟩ := hsorted.tower
    exact List.any_eq_true.mpr ⟨policy, hpolicy, decide_eq_true hid⟩
  rw [if_pos htower] at hr'
  obtain ⟨rfl, rfl⟩ := Prod.mk.inj (Except.ok.inj hr')
  exact ⟨rfl, rfl⟩

theorem list_list : ({ r with policies := r.list host } : Registry).list host = r.list host :=
  List.Pairwise.insertionSort_eq (List.pairwise_insertionSort (IdLe host) r.policies)

/-! ## steps -/

variable (host) in
/-- Memory is sound, and it is what is persisted. -/
def Kept (w : World) : Prop := Sound host w.memory ∧ w.stored = w.memory.envelope host

/-- `store.save` was called and it threw. -/
def Outcome.SaveThrew (outcome : Outcome) : Prop :=
  ∃ answer, outcome.save = some answer ∧ answer ≠ .saved

variable {w : World} {answer : SaveAnswer} {operation : Operation}

theorem newlyAssigned_of_append {r r' : Registry} {entry : SigningPolicyHistoryEntry}
    (h : r'.history = r.history ++ [entry]) : newlyAssigned r r' = [entry.assigns] := by
  unfold newlyAssigned
  rw [h, List.drop_left]
  rfl

variable (answer operation) in
/-- **What a step can do**: nothing, a change that comes to `persist`, or a registry that is read
back. -/
theorem step_cases (hw : Kept host w) :
    (∃ threw, step host w answer operation = { after := w, threw }) ∨
      (∃ memory entry, Sound host memory ∧ memory.history = w.memory.history ++ [entry] ∧
        step host w answer operation =
          { after := { memory, stored := w.persist host memory answer }, save := some answer,
            threw := decide (answer ≠ .saved), assigned := [entry.assigns] }) ∨
      step host w answer operation =
        { after := { w with memory := { w.memory with policies := w.memory.list host } } } := by
  cases operation with
  | change change =>
    have hstep : step host w answer (.change change) =
      w.change host answer (change.planned host w.memory) := rfl
    rw [hstep]
    cases hplan : change.planned host w.memory with
    | error message => exact .inl ⟨true, rfl⟩
    | ok planned =>
      cases planned with
      | none => exact .inl ⟨false, rfl⟩
      | some memory =>
        obtain ⟨hsound, entry, hentry⟩ := planned_sound hw.1 hplan
        refine .inr (.inl ⟨memory, entry, hsound, hentry, ?_⟩)
        rw [← newlyAssigned_of_append hentry]
        rfl
  | restore url time =>
    have hstep : step host w answer (.restore url time) =
      w.restore host answer (construct host url time w.stored) := rfl
    rw [hstep]
    cases hmade : construct host url time w.stored with
    | error message => exact .inl ⟨true, rfl⟩
    | ok made =>
      obtain ⟨memory, persists⟩ := made
      rw [hw.2] at hmade
      obtain ⟨rfl, rfl⟩ := construct_envelope hw.1 hmade
      exact .inr (.inr rfl)

/-- What a step leaves whose save did not throw. -/
structure Steady (host : PolicyHost) (w : World) (outcome : Outcome) : Prop where
  kept : Kept host outcome.after
  unchanged : outcome.threw = true → outcome.after.memory = w.memory
  assigned : outcome.after.memory.history.map (·.assigns) =
    w.memory.history.map (·.assigns) ++ outcome.assigned

/-- **A step whose save does not throw.** -/
theorem step_steady (hw : Kept host w) (hsave : ¬(step host w answer operation).SaveThrew) :
    Steady host w (step host w answer operation) := by
  obtain ⟨threw, hstep⟩ | ⟨memory, entry, hsound, hentry, hstep⟩ | hstep :=
    step_cases answer operation hw
  · rw [hstep]
    exact ⟨hw, fun _ => rfl, (List.append_nil _).symm⟩
  · rw [hstep] at hsave ⊢
    obtain rfl : answer = .saved := not_not.mp fun hne => hsave ⟨answer, rfl, hne⟩
    refine ⟨⟨hsound, rfl⟩, fun hthrew => absurd hthrew Bool.false_ne_true, ?_⟩
    show memory.history.map (·.assigns) = _
    rw [hentry, List.map_append, List.map_singleton]
  · rw [hstep]
    refine ⟨⟨hw.1.perm (List.perm_insertionSort _ _), ?_⟩,
      fun hthrew => absurd hthrew Bool.false_ne_true, (List.append_nil _).symm⟩
    show w.stored = _
    rw [hw.2, Registry.envelope, Registry.envelope, list_list]

/-- **A save that throws leaves memory changed.** -/
theorem step_saveThrew (hw : Kept host w) (hsave : (step host w answer operation).SaveThrew) :
    (step host w answer operation).threw = true ∧
      (step host w answer operation).after.memory ≠ w.memory := by
  obtain ⟨given, hgiven, hne⟩ := hsave
  obtain ⟨threw, hstep⟩ | ⟨memory, entry, -, hentry, hstep⟩ | hstep :=
    step_cases answer operation hw
  · rw [hstep] at hgiven
    cases hgiven
  · rw [hstep] at hgiven ⊢
    cases hgiven
    refine ⟨decide_eq_true hne, fun hsame => ?_⟩
    have hlength := congrArg (·.history.length) hsame
    rw [hentry, List.length_append, List.length_singleton] at hlength
    omega
  · rw [hstep] at hgiven
    cases hgiven

/-! ## runs -/

/-- the registry of an empty store. -/
theorem Begins.kept (hw : Begins host w) : Kept host w := by
  obtain ⟨url, time, memory, hmade, rfl⟩ := hw
  refine ⟨?_, rfl⟩
  unfold construct at hmade
  obtain ⟨policies, hpolicies, hmade⟩ := bind_ok.mp hmade
  cases hpolicies
  obtain ⟨completionUrl, -, hmade⟩ := bind_ok.mp hmade
  obtain ⟨draft, hdraft, hmade⟩ := bind_ok.mp hmade
  obtain rfl := (Prod.mk.inj (Except.ok.inj hmade)).1
  have hid : draft.id = TOWER_FORGEJO_POLICY_ID := by
    have htrim : trim TOWER_FORGEJO_POLICY_ID = TOWER_FORGEJO_POLICY_ID := by decide +kernel
    exact (validate_id hdraft).trans htrim
  refine ⟨List.nodup_singleton _, ?_, ?_, List.pairwise_singleton _ _, ?_⟩
  · intro policy hpolicy
    cases List.mem_singleton.mp hpolicy
    exact ⟨_, hdraft⟩
  · intro policy hpolicy entry hentry _
    cases List.mem_singleton.mp hpolicy
    cases List.mem_singleton.mp hentry
    exact le_rfl
  · exact ⟨_, List.mem_singleton_self _, hid, rfl⟩

theorem everAssigned_cons {outcome : Outcome} {turns : List (World × Outcome)}
    (h : Steady host w outcome) :
    everAssigned w ((w, outcome) :: turns) = everAssigned outcome.after turns := by
  unfold everAssigned
  rw [List.flatMap_cons, ← List.append_assoc, h.assigned]

/-- a run in which no save throws. -/
theorem trace_steady {operations : List (Operation × SaveAnswer)} (hw : Kept host w)
    (hsaves : ∀ turn ∈ trace host w operations, ¬turn.2.SaveThrew) :
    Atomic host (trace host w operations) ∧ Increasing (everAssigned w (trace host w operations)) := by
  induction operations generalizing w with
  | nil =>
    refine ⟨fun turn hturn => absurd hturn List.not_mem_nil, ?_⟩
    show Increasing (w.memory.history.map (·.assigns) ++ [])
    rw [List.append_nil]
    exact hw.1.increasing
  | cons first rest ih =>
    obtain ⟨operation, answer⟩ := first
    unfold trace at hsaves ⊢
    have hstep := step_steady hw (hsaves _ List.mem_cons_self)
    obtain ⟨hatomic, hincreasing⟩ :=
      ih hstep.kept fun turn hturn => hsaves turn (List.mem_cons_of_mem _ hturn)
    refine ⟨fun turn hturn hthrew => ?_, ?_⟩
    · rcases List.mem_cons.mp hturn with rfl | hturn
      · exact ⟨hstep.unchanged hthrew, hstep.kept.2⟩
      · exact hatomic turn hturn hthrew
    · rw [everAssigned_cons hstep]
      exact hincreasing

/-- the first save that throws shows. -/
theorem saves_of_atomic {operations : List (Operation × SaveAnswer)} (hw : Kept host w)
    (hatomic : Atomic host (trace host w operations)) :
    ∀ turn ∈ trace host w operations, ¬turn.2.SaveThrew := by
  induction operations generalizing w with
  | nil => exact fun turn hturn => absurd hturn List.not_mem_nil
  | cons first rest ih =>
    obtain ⟨operation, answer⟩ := first
    unfold trace at hatomic ⊢
    have hfirst : ¬(step host w answer operation).SaveThrew := by
      intro hthrew
      obtain ⟨hflag, hchanged⟩ := step_saveThrew hw hthrew
      exact hchanged (hatomic _ List.mem_cons_self hflag).1
    intro turn hturn
    rcases List.mem_cons.mp hturn with rfl | hturn
    · exact hfirst
    · exact ih (step_steady hw hfirst).kept
        (fun other hother => hatomic other (List.mem_cons_of_mem _ hother)) turn hturn

/-- **A run is atomic, and its revisions grow, exactly when none of its saves throws.** -/
theorem atomic_increasing_iff (hw : Begins host w) (operations : List (Operation × SaveAnswer)) :
    Atomic host (trace host w operations) ∧ Increasing (everAssigned w (trace host w operations)) ↔
      ∀ turn ∈ trace host w operations, ¬turn.2.SaveThrew :=
  ⟨fun h => saves_of_atomic hw.kept h.1, trace_steady hw.kept⟩

end

/-! ## a registry of one policy beside the template -/

/-- a platform on which the completion URL of the template parses. -/
def towerHost : PolicyHost where
  url value := if value = "https://tower.example/api/v4/git/oidc/authorize/complete" ∨
      value = "https://tower.example" then
    some { protocol := "https:", origin := "https://tower.example", username := "", password := "",
           pathname := "/api/v4/git/oidc/authorize/complete" }
    else none
  isNpub _ := false
  le := textLe
  le_total := textLe_total
  le_trans := textLe_trans
  toUpperCase text := text
  toUpperCase_method _ _ := rfl

def notesDraft : SigningPolicyDraft :=
  { id := "notes", name := "Notes", description := "Text notes.", enabled := true,
    operations := ["nostr.sign"], eventKinds := [1], nostrKindRules := [], nip98Targets := [],
    assignments := { profileIds := [], workspaceIds := [] } }

/-- the Tower template alone. -/
def towerMemory : Registry :=
  withTower [] [] (towerDraft
    { protocol := "https:", origin := "https://tower.example", username := "", password := "",
      pathname := "/api/v4/git/oidc/authorize/complete" }) "2027-01-15T08:00:00.000Z"

def towerWorld : World := { memory := towerMemory, stored := towerMemory.envelope towerHost }

/-- the policy is created, deleted and created again, and the registry is made anew. -/
def recreated : List (Operation × SaveAnswer) :=
  [(.change (.create (.ok notesDraft) "npub1admin" "t1"), .saved),
   (.change (.delete "notes" "npub1admin" "t2"), .saved),
   (.restore "https://tower.example/api/v4/git/oidc/authorize/complete" "t3", .saved),
   (.change (.create (.ok notesDraft) "npub1admin" "t4"), .saved)]

/-- the policy is created while the store cannot be written, and once more after a restart. -/
def createdTwice : List (Operation × SaveAnswer) :=
  [(.change (.create (.ok notesDraft) "npub1admin" "t1"), .threwBefore),
   (.restore "https://tower.example/api/v4/git/oidc/authorize/complete" "t2", .saved),
   (.change (.create (.ok notesDraft) "npub1admin" "t3"), .saved)]

theorem towerWorld_begins : Begins towerHost towerWorld :=
  ⟨"https://tower.example/api/v4/git/oidc/authorize/complete", "2027-01-15T08:00:00.000Z",
    towerMemory, by decide +kernel, rfl⟩

/-- **A creation that could not be saved stays in memory, and its revision is assigned again.** -/
theorem unsaved_creation : Begins towerHost towerWorld ∧
    ¬Atomic towerHost (trace towerHost towerWorld createdTwice) ∧
    ¬Increasing (everAssigned towerWorld (trace towerHost towerWorld createdTwice)) := by
  refine ⟨towerWorld_begins, ?_, ?_⟩
  · unfold Atomic
    decide +kernel
  · unfold Increasing
    decide +kernel

theorem atomic_increasing_iff_recreated :
    Atomic towerHost (trace towerHost towerWorld recreated) ∧
      Increasing (everAssigned towerWorld (trace towerHost towerWorld recreated)) := by
  refine (atomic_increasing_iff towerWorld_begins recreated).mpr fun turn hturn hthrew => ?_
  have hsaved : ∀ turn ∈ trace towerHost towerWorld recreated, ∀ answer,
      turn.2.save = some answer → answer = .saved := by decide +kernel
  obtain ⟨answer, hanswer, hne⟩ := hthrew
  exact hne (hsaved turn hturn answer hanswer)

end Policies
end Signing
end WmAutopilot
