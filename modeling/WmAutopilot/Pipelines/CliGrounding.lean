import WmAutopilot.Pipelines.CliInterpreter

/-!
# Grounded selections

* `Spoken`            a span stands in the request or in a message before it;
* `Grounded`          what is asked of a selection: its names are declared, its arguments are there,
                      in range, and read off the request;
* `prepare_read`      a prepared state has spoken candidates;
* `checkSelection_ok` what the checks of a selection leave open: names that every object has;
* `Validated.grounded_iff`   what passed the checks is grounded when its names are declared.

A dictionary is asked with `contract.operations[key]`, `key in downstreamOptions` and
`args[name] === undefined`: all three find what an object inherits.
-/

set_option autoImplicit false

namespace WmAutopilot
namespace Pipelines
namespace Cli
open Js Value BirdRetrieval

/-! ## grounded selections -/

/-- the text of a request, and the messages before it. -/
def textsOf (input : Value) : List String :=
  (textOf (input.get "request")).getD "" :: bodies (input.get "threadContext")

/-- a span stands in one of the texts, as it is or without its routing mentions. -/
def Spoken (input : Value) (span : String) : Prop :=
  ∃ text ∈ textsOf input, span.toList <:+: text.toList ∨
    span.toList <:+: (stripRoutingMentions text).toList

/-- a number in its range; anything else the value of a candidate that was spoken. -/
def GroundedValue (input : Value) (candidates : Candidates) (name : String) (arg : CliArgument)
    (value : CliValue) : Prop :=
  if arg.kind = .number then
    ∃ n : ℤ, value = .num (.finite n) ∧ (∀ least ∈ arg.min, least ≤ n) ∧
      ∀ most ∈ arg.max, (n : ℚ) ≤ most
  else ∃ candidate ∈ candidatesOf candidates name,
    candidate.value = value ∧ Spoken input candidate.span

/-- What is asked of a selection.  See the file header. -/
structure Grounded (contract : CliContract) (input : Value) (candidates : Candidates)
    (selection : CliSelection) : Prop where
  operation : selection.operation ∈ contract.operations.map (·.1)
  downstream : selection.downstream ∈ downstreamOptions
  required : ∀ name ∈ (contract.required.lookup selection.operation).getD [],
    ∃ value, (name, value) ∈ selection.args
  applicable : ∀ entry ∈ selection.args,
    entry.1 ∈ (contract.applicable.lookup selection.operation).getD []
  value : ∀ entry ∈ selection.args, ∃ arg, contract.arguments.lookup entry.1 = some arg ∧
    GroundedValue input candidates entry.1 arg entry.2

/-- the candidates of every argument that is no number are spoken. -/
def SpokenCandidates (contract : CliContract) (input : Value) (candidates : Candidates) : Prop :=
  ∀ name arg, contract.arguments.lookup name = some arg → arg.kind ≠ .number →
    ∀ candidate ∈ candidatesOf candidates name, Spoken input candidate.span

/-- what a state knows of its input. -/
structure ReadFrom (contract : CliContract) (input : Value) (state : CliInterpretation) :
    Prop where
  contractId : state.contractId = contract.id
  request : state.request = requestOf input
  context : ∀ body ∈ bodies state.threadContext, body ∈ bodies (input.get "threadContext")
  spoken : SpokenCandidates contract input state.candidates

/-- the arrays of handles and of quoted texts are spoken. -/
def SpokenArrays (input : Value) (arrays : Arrays) : Prop :=
  ∀ kind, kind ≠ .number → ∀ candidate ∈ arrays.of kind, Spoken input candidate.span

section
variable {host : Host} {contracts : List CliContract} {contract : CliContract} {input : Value}
  {arrays : Arrays} {candidate : Candidate} {kind : ArgumentKind} {known known' : Arrays × ℕ}
  {now : ℤ} {state prepared : CliInterpretation}

/-! ## a prepared state -/

theorem extract_spoken {text : String} (h : text ∈ textsOf input) :
    SpokenArrays input (extractCandidates host (stripRoutingMentions text)) := by
  intro kind hkind candidate hmem
  exact ⟨text, h, .inr (mem_extract_spoken hkind hmem)⟩

theorem push_spoken (h : SpokenArrays input arrays)
    (hcandidate : kind ≠ .number → Spoken input candidate.span) :
    SpokenArrays input (arrays.push candidate kind) := by
  intro other hother c hc
  cases kind <;> cases other
  case number.number | handle.number | query.number => exact absurd rfl hother
  case number.handle | number.query | handle.query | query.handle => exact h _ hother c hc
  case handle.handle | query.query =>
    rcases List.mem_append.mp hc with hc | hc
    · exact h _ hother c hc
    · obtain rfl := List.mem_singleton.mp hc
      exact hcandidate hother

theorem addEarlier_spoken (h : SpokenArrays input known.1)
    (hcandidate : kind ≠ .number → Spoken input candidate.span) :
    SpokenArrays input (addEarlier kind known candidate).1 := by
  unfold addEarlier
  split
  · exact h
  · split
    · exact push_spoken h hcandidate
    · exact h

theorem addMessage_spoken {historical : Arrays} (hnew : SpokenArrays input historical)
    (h : SpokenArrays input known.1) :
    SpokenArrays input (addMessage contract historical known).1 := by
  have hkeeps : ∀ entry : String × CliArgument, ∀ known : Arrays × ℕ,
      SpokenArrays input known.1 → SpokenArrays input
        ((historical.of entry.2.kind).foldl (addEarlier entry.2.kind) known).1 := by
    intro entry known hknown
    refine List.foldlRecOn (motive := fun known : Arrays × ℕ => SpokenArrays input known.1)
      _ _ hknown ?_
    intro known hknown candidate hmem
    exact addEarlier_spoken hknown fun hkind => hnew _ hkind candidate hmem
  exact List.foldlRecOn (motive := fun known : Arrays × ℕ => SpokenArrays input known.1)
    _ _ h fun known hknown entry _ => hkeeps entry known hknown

theorem mem_bodies {context : Value} {messages : List Value} {message : Value} {body : String}
    (hmessages : context.get "messages" = arr messages) (hmem : message ∈ messages)
    (hbody : message.get "body" = str body) : body ∈ bodies context := by
  unfold bodies
  rw [hmessages]
  exact List.mem_filterMap.mpr ⟨message, hmem, by rw [hbody]; rfl⟩

theorem readContext_spoken {context : Value} (hcontext : context = input.get "threadContext")
    (h : SpokenArrays input arrays) (hread : readContext host contract arrays context = .ok known) :
    SpokenArrays input known.1 := by
  unfold readContext at hread
  split at hread
  · next messages hmessages =>
    obtain ⟨_, -, hread⟩ := bind_ok.mp hread
    refine foldlM_keeps (P := fun known : Arrays × ℕ => SpokenArrays input known.1) ?_ h hread
    intro message hmem known known' hknown hmessage
    unfold readMessage at hmessage
    split at hmessage
    · next body hbody =>
      obtain rfl := Except.ok.inj hmessage
      have hspoken : body ∈ bodies (input.get "threadContext") :=
        hcontext ▸ mem_bodies hmessages (List.mem_reverse.mp hmem) hbody
      exact addMessage_spoken (extract_spoken (List.mem_cons_of_mem _ hspoken)) hknown
    · cases hmessage
  · cases hread

theorem lookup_byName (name : String) :
    (byName contract arrays).lookup name =
      (contract.arguments.lookup name).map fun arg => arrays.of arg.kind := by
  unfold byName
  induction contract.arguments with
  | nil => rfl
  | cons entry entries ih =>
    rw [List.map_cons, List.lookup_cons, List.lookup_cons, ih]
    split <;> rfl

theorem byName_spoken (h : SpokenArrays input arrays) :
    SpokenCandidates contract input (byName contract arrays) := by
  intro name arg harg hkind candidate hmem
  unfold candidatesOf at hmem
  rw [lookup_byName, harg] at hmem
  exact h arg.kind hkind candidate hmem

theorem withContext_read (h : withContext host contract now (requestOf input)
    (input.get "threadContext") = .ok state) :
    ReadFrom contract input state ∧ state.selection = none ∧ state.verdict = .ready := by
  have hrequest : SpokenArrays input (extractCandidates host (requestOf input)) :=
    extract_spoken List.mem_cons_self
  unfold withContext at h
  split at h
  · obtain ⟨⟨arrays', omitted⟩, hread, h⟩ := bind_ok.mp h
    obtain rfl := Except.ok.inj h
    have hspoken := readContext_spoken rfl hrequest hread
    exact ⟨⟨rfl, rfl, fun _ hbody => hbody, byName_spoken hspoken⟩, rfl, rfl⟩
  · obtain rfl := Except.ok.inj h
    refine ⟨⟨rfl, rfl, fun body hbody => ?_, byName_spoken hrequest⟩, rfl, rfl⟩
    exact absurd hbody List.not_mem_nil

/-- **A prepared state has spoken candidates.** -/
theorem prepare_read (hcontract : cliContract contracts (host.text (input.get "contractId")) =
      .ok contract)
    (h : prepareCliInterpretation host contracts now input = .ok prepared) :
    ReadFrom contract input prepared ∧ prepared.selection = none ∧
      (prepared.verdict = .ready ∨ prepared.verdict = .needs_clarification) := by
  unfold prepareCliInterpretation at h
  rw [hcontract] at h
  obtain ⟨_, hcontract', h⟩ := bind_ok.mp h
  obtain rfl := Except.ok.inj hcontract'
  obtain ⟨state, hstate, h⟩ := bind_ok.mp h
  obtain rfl := Except.ok.inj h
  obtain ⟨hread, hselection, hverdict⟩ := withContext_read hstate
  split
  · exact ⟨⟨hread.contractId, hread.request, hread.context, hread.spoken⟩, hselection, .inr rfl⟩
  · exact ⟨hread, hselection, .inl hverdict⟩

end

/-! ## what the checks leave open -/

/-- What the checks have seen of a selection. -/
structure Validated (contract : CliContract) (candidates : Candidates) (selection : CliSelection) :
    Prop where
  operation : selection.operation ∈ contract.operations.map (·.1) ∨ Inherited selection.operation
  downstream : selection.downstream ∈ downstreamOptions ∨ Inherited selection.downstream
  args : ∀ entry ∈ selection.args, ∃ arg, contract.arguments.lookup entry.1 = some arg ∧
    entry.1 ∈ (contract.applicable.lookup selection.operation).getD [] ∧
      checkValue candidates entry.1 arg entry.2 = .ok ()
  required : ∀ name ∈ (contract.required.lookup selection.operation).getD [],
    (∃ value, (name, value) ∈ selection.args) ∨ Inherited name

/-- Names that are not only those that every object has. -/
structure Declared (contract : CliContract) (operation downstream : String)
    (given : String → Prop) : Prop where
  known : operation ∈ contract.operations.map (·.1)
  offered : downstream ∈ downstreamOptions
  required : ∀ name ∈ (contract.required.lookup operation).getD [], Inherited name → given name

section
variable {host : Host} {contract : CliContract} {input : Value} {candidates : Candidates}
  {request name : String} {selection : CliSelection} {arg : CliArgument} {value : CliValue}

theorem mem_keys_of_lookup {β : Type} {entries : List (String × β)} {key : String} {b : β}
    (h : entries.lookup key = some b) : key ∈ entries.map (·.1) := by
  induction entries with
  | nil => cases h
  | cons entry entries ih =>
    rw [List.lookup_cons] at h
    split at h
    · next heq => exact List.mem_cons.mpr (.inl (eq_of_beq heq))
    · exact List.mem_cons_of_mem _ (ih h)

theorem knows_iff (h : contract.knows name = true) :
    name ∈ contract.operations.map (·.1) ∨ Inherited name := by
  unfold CliContract.knows at h
  split at h
  · next hlookup => exact .inl (mem_keys_of_lookup hlookup)
  · exact .inr (of_decide_eq_true h)

theorem includes_ok {record : List (String × List String)} {key : String} {found : Bool}
    (h : includes host record key name = .ok found) :
    found = true ↔ name ∈ (record.lookup key).getD [] := by
  unfold includes at h
  split at h
  · next names hlookup =>
    obtain rfl := Except.ok.inj h
    rw [hlookup]
    exact decide_eq_true_iff
  · next hlookup =>
    split at h
    · cases h
    · obtain rfl := Except.ok.inj h
      rw [hlookup]
      exact ⟨fun hfalse => absurd hfalse Bool.false_ne_true,
        fun hmem => absurd hmem List.not_mem_nil⟩

theorem present_iff {args : CliArgs} (h : present args name = true) :
    (∃ value, (name, value) ∈ args) ∨ Inherited name := by
  rcases Bool.or_eq_true_iff.mp h with h | h
  · obtain ⟨⟨other, value⟩, hmem, hname⟩ := List.any_eq_true.mp h
    obtain rfl : other = name := of_decide_eq_true hname
    exact .inl ⟨value, hmem⟩
  · exact .inr (of_decide_eq_true h)

theorem checkArgument_ok {operation : String} {entry : String × CliValue}
    (h : checkArgument host contract candidates operation entry = .ok ()) :
    ∃ arg, contract.arguments.lookup entry.1 = some arg ∧
      entry.1 ∈ (contract.applicable.lookup operation).getD [] ∧
        checkValue candidates entry.1 arg entry.2 = .ok () := by
  obtain ⟨arg, harg, h⟩ := bind_ok.mp h
  obtain ⟨applicable, happlicable, h⟩ := bind_ok.mp h
  obtain ⟨_, hguard, h⟩ := bind_ok.mp h
  obtain rfl : applicable = true := by simpa using throwIf_ok.mp hguard
  exact ⟨arg, orThrow_ok.mp harg, (includes_ok happlicable).mp rfl, h⟩

theorem checkRequired_ok {operation : String} {args : CliArgs}
    (h : checkRequired host contract operation args = .ok ()) :
    ∀ name ∈ (contract.required.lookup operation).getD [],
      (∃ value, (name, value) ∈ args) ∨ Inherited name := by
  intro name hname
  unfold checkRequired at h
  split at h
  · next names hlookup =>
    rw [hlookup] at hname
    by_contra hmissing
    refine throwIf_ok.mp h (List.any_eq_true.mpr ⟨name, hname, ?_⟩)
    cases hpresent : present args name with
    | true => exact absurd (present_iff hpresent) hmissing
    | false => rfl
  · next hlookup =>
    rw [hlookup] at hname
    exact absurd hname List.not_mem_nil

/-- **The checks leave open only names that every object has.** -/
theorem checkSelection_ok (h : checkSelection host contract request candidates selection = .ok ()) :
    Validated contract candidates selection := by
  unfold checkSelection at h
  obtain ⟨_, hnames, h⟩ := bind_ok.mp h
  obtain ⟨_, -, h⟩ := bind_ok.mp h
  obtain ⟨_, hargs, h⟩ := bind_ok.mp h
  obtain ⟨_, hrequired, -⟩ := bind_ok.mp h
  have hnames := throwIf_ok.mp hnames
  rw [not_or, not_not, Bool.not_eq_false] at hnames
  exact ⟨knows_iff hnames.1, hnames.2, fun entry hentry => checkArgument_ok
    (ok_of_forM_ok hargs entry hentry), checkRequired_ok hrequired⟩

/-! ## grounded or not -/

theorem inRange_ok {least most : Option ℚ} {n : CliNumber} (h : inRange least most n = true) :
    ∃ k : ℤ, n = .finite k ∧ (∀ m ∈ least, m ≤ k) ∧ ∀ m ∈ most, (k : ℚ) ≤ m := by
  cases n with
  | finite q =>
    unfold inRange at h
    obtain ⟨h, hmost⟩ := Bool.and_eq_true_iff.mp h
    obtain ⟨hwhole, hleast⟩ := Bool.and_eq_true_iff.mp h
    have hq : (q.num : ℚ) = q := (Rat.den_eq_one_iff q).mp (of_decide_eq_true hwhole)
    refine ⟨q.num, by rw [hq], ?_, ?_⟩
    · rintro m rfl
      rw [hq]
      exact of_decide_eq_true hleast
    · rintro m rfl
      rw [hq]
      exact of_decide_eq_true hmost
  | infinity _ | nan => cases h

/-- a value that is no number is that of a candidate. -/
theorem checkValue_candidate (hkind : arg.kind ≠ .number)
    (h : checkValue candidates name arg value = .ok ()) :
    ∃ candidate ∈ candidatesOf candidates name, candidate.value = value := by
  unfold checkValue at h
  split at h
  · next heq => exact absurd heq hkind
  · next heq => exact absurd heq hkind
  · cases h
  · next s _ =>
    by_contra hnone
    refine throwIf_ok.mp h (List.all_eq_true.mpr fun candidate hmem => decide_eq_true ?_)
    exact fun hvalue => hnone ⟨candidate, hmem, hvalue⟩

theorem checkValue_number (hkind : arg.kind = .number)
    (h : checkValue candidates name arg value = .ok ()) :
    ∃ n, value = .num n ∧ inRange arg.min arg.max n = true := by
  unfold checkValue at h
  rw [hkind] at h
  cases value with
  | num n =>
    refine ⟨n, rfl, ?_⟩
    have hguard : ¬inRange arg.min arg.max n = false := throwIf_ok.mp h
    rwa [Bool.not_eq_false] at hguard
  | str s => cases h

theorem checkValue_ok (hspoken : SpokenCandidates contract input candidates)
    (harg : contract.arguments.lookup name = some arg)
    (h : checkValue candidates name arg value = .ok ()) :
    GroundedValue input candidates name arg value := by
  unfold GroundedValue
  split
  · next hkind =>
    obtain ⟨n, rfl, hrange⟩ := checkValue_number hkind h
    obtain ⟨k, rfl, hleast, hmost⟩ := inRange_ok hrange
    exact ⟨k, rfl, hleast, hmost⟩
  · next hkind =>
    obtain ⟨candidate, hmem, hvalue⟩ := checkValue_candidate hkind h
    exact ⟨candidate, hmem, hvalue, hspoken name arg harg hkind candidate hmem⟩

/-- **What passed the checks is grounded when its names are declared.** -/
theorem Validated.grounded_iff (h : Validated contract candidates selection)
    (hspoken : SpokenCandidates contract input candidates) :
    Grounded contract input candidates selection ↔
      Declared contract selection.operation selection.downstream
        fun name => ∃ value, (name, value) ∈ selection.args := by
  constructor
  · intro hgrounded
    exact ⟨hgrounded.operation, hgrounded.downstream, fun name hname _ =>
      hgrounded.required name hname⟩
  · intro hdeclared
    refine ⟨hdeclared.known, hdeclared.offered, fun name hname => ?_, fun entry hentry => ?_,
      fun entry hentry => ?_⟩
    · rcases h.required name hname with hgiven | hinherited
      · exact hgiven
      · exact hdeclared.required name hname hinherited
    · obtain ⟨arg, -, happlicable, -⟩ := h.args entry hentry
      exact happlicable
    · obtain ⟨arg, harg, -, hvalue⟩ := h.args entry hentry
      exact ⟨arg, harg, checkValue_ok hspoken harg hvalue⟩

end

end Cli
end Pipelines
end WmAutopilot
