import SalesDashboard.NpsFollowup.Edit

/-! Runs of edits on a follow-up case: what its times, its reason and its notes say
about its stage, whatever edits were made. -/

namespace SalesDashboard.NpsFollowup.Service
open Accounts Marcom

/-! ## Accepted edits -/

theorem bind_ok {ε α β : Type} {x : Except ε α} {f : α → Except ε β} {b : β} (h : x >>= f = .ok b) :
    ∃ a, x = .ok a ∧ f a = .ok b := by
  cases x with
  | error e => cases h
  | ok a => exact ⟨a, rfl, h⟩

theorem refuse_ok {ε : Type} {when : Bool} {e : ε} {u : Unit} (h : refuse when e = .ok u) : when = false := by
  unfold refuse at h
  split at h
  · cases h
  · next hwhen => exact eq_false_of_ne_true hwhen

/-- A time that can be read, at the rating or after it, and not far ahead. -/
structure TimeOk (ratedAt : Option Clock) (now : Clock) (v : Wall) : Prop where
  rated : ∀ r, ratedAt = some r → r.time.le v = true
  ahead : v.Readable → v.seconds ≤ now.time.seconds + 900

theorem hoursBetween_eq {a b : Wall} (ha : a.Readable) (hb : b.Readable) :
    hoursBetween a b = some (((b.seconds - a.seconds : ℤ) : ℚ) / 3600) := by
  unfold hoursBetween wall
  rw [if_pos ha, if_pos hb]
  rfl

theorem checkTime_ok {ratedAt : Option Clock} {now : Clock} {field label : String} {value : Option Wall} {u : Unit}
    (h : checkTime ratedAt now field label value = .ok u) : ∀ v, value = some v → TimeOk ratedAt now v := by
  rintro v rfl
  simp only [checkTime] at h
  obtain ⟨_, hrated, h⟩ := bind_ok h
  have hahead := refuse_ok h
  constructor
  · rintro r rfl
    exact Wall.not_lt_iff.mp (ne_true_of_eq_false (refuse_ok hrated))
  · intro hread
    rw [hoursBetween_eq now.calendar.readable hread, Option.any_some, decide_eq_false_iff_not, not_lt,
      div_le_div_iff₀ (by norm_num) (by norm_num)] at hahead
    have hle : (v.seconds - now.time.seconds) * 4 ≤ 1 * 3600 := by exact_mod_cast hahead
    omega

theorem fieldAfter_ok {α : Type} {existing a : α} {v : Option Given}
    {read : Given → Except FollowupValidationError α} (h : fieldAfter existing v read = .ok a) :
    a = existing ∨ ∃ g, read g = .ok a := by
  cases v with
  | none => exact .inl (Except.ok.inj h).symm
  | some g => exact .inr ⟨g, h⟩

theorem wallInput_ok {v : Given} {field label : String} {w : Wall}
    (h : wallInput v field label = .ok (some w)) : w.Readable := by
  unfold wallInput at h
  split at h
  · cases h
  · split at h
    · split at h
      · next hread =>
        obtain rfl := Option.some.inj (Except.ok.inj h)
        exact hread
      · cases h
    · cases h

theorem stageInput_ok {toUpperCase : String → String} {v : Given} {stage : Stage}
    (h : stageInput toUpperCase v = .ok stage) : stage ≠ .historical := by
  unfold stageInput at h
  split at h
  · split at h
    · next hedit =>
      obtain rfl := Except.ok.inj h
      rintro rfl
      exact absurd hedit (by decide)
    · cases h
  · cases h

/-- What an accepted edit makes of a case. -/
structure Accepted (existing : FollowupCase) (input : CaseInput) (now : Clock) (reason : Option ReasonRule)
    (next : Edited) : Prop where
  chosen : nextReasonId existing input = .ok next.reasonId
  stage : next.stage = existing.stage ∨ next.stage ≠ .historical
  resolved : next.stage = .resolved ↔ next.resolvedAt ≠ none
  reasoned : next.stage = .resolved → next.reasonId ≠ none
  rejected : next.rejectedAt =
    if next.stage = .rejected then
      some (if existing.stage = .rejected then existing.rejectedAt.getD now.time else now.time)
    else none
  notes : next.stage = .rejected → isBlank next.notes = false
  note : next.reasonNote ≠ none → next.reasonId ≠ none ∧ ∀ r, reason = some r → r.requiresNote = true
  contactedAt : ∀ v, next.contactedAt = some v → TimeOk existing.ratedAt now v
  contactedRead : ∀ v, next.contactedAt = some v → existing.contactedAt = some v ∨ v.Readable
  resolvedAt : ∀ v, next.resolvedAt = some v → TimeOk existing.ratedAt now v
  resolvedRead : ∀ v, next.resolvedAt = some v → existing.resolvedAt = some v ∨ v.Readable
  ordered : ∀ c r, next.contactedAt = some c → next.resolvedAt = some r → c.le r = true

theorem applyEdit_ok {toUpperCase : String → String} {existing : FollowupCase} {input : CaseInput} {now : Clock}
    {reason : Option ReasonRule} {next : Edited} (h : applyEdit toUpperCase existing input now reason = .ok next) :
    Accepted existing input now reason next := by
  unfold applyEdit at h
  obtain ⟨_, -, h⟩ := bind_ok h
  obtain ⟨_, -, h⟩ := bind_ok h
  obtain ⟨stage, hstage, h⟩ := bind_ok h
  obtain ⟨reasonId, hreasonId, h⟩ := bind_ok h
  obtain ⟨reasonNote, -, h⟩ := bind_ok h
  obtain ⟨ownerName, -, h⟩ := bind_ok h
  obtain ⟨contactedAt, hcontacted, h⟩ := bind_ok h
  obtain ⟨resolvedAt, hresolved, h⟩ := bind_ok h
  obtain ⟨rootCause, -, h⟩ := bind_ok h
  obtain ⟨actionTaken, -, h⟩ := bind_ok h
  obtain ⟨notes, -, h⟩ := bind_ok h
  obtain ⟨_, -, h⟩ := bind_ok h
  obtain ⟨_, hreason, h⟩ := bind_ok h
  obtain ⟨_, hnotes, h⟩ := bind_ok h
  obtain ⟨_, -, h⟩ := bind_ok h
  obtain ⟨_, hcheckContacted, h⟩ := bind_ok h
  obtain ⟨_, hcheckResolved, h⟩ := bind_ok h
  obtain ⟨_, hordered, h⟩ := bind_ok h
  obtain rfl := Except.ok.inj h
  have hread : ∀ {value : Option Wall} {v : Option Given} {old : Option Wall} {field label : String},
      fieldAfter old v (fun g => wallInput g field label) = .ok value →
      ∀ w, value = some w → old = some w ∨ w.Readable := by
    intro value v old field label hvalue w hw
    subst hw
    rcases fieldAfter_ok hvalue with heq | ⟨g, hg⟩
    · exact .inl heq.symm
    · exact .inr (wallInput_ok hg)
  constructor
  · exact hreasonId
  · rcases fieldAfter_ok hstage with heq | ⟨g, hg⟩
    · exact .inl heq
    · exact .inr (stageInput_ok hg)
  · dsimp only
    split
    · next hs => simp [hs]
    · next hs => simp [hs]
  · intro hs hnone
    have hfalse := refuse_ok hreason
    simp only at hs hnone
    simp [hs, hnone] at hfalse
  · rfl
  · intro hs
    have hfalse := refuse_ok hnotes
    simp only at hs
    simpa [hs] using hfalse
  · intro hnote
    simp only at hnote
    split at hnote
    · exact absurd rfl hnote
    · next hkeep =>
      rw [not_or] at hkeep
      refine ⟨hkeep.1, ?_⟩
      rintro r rfl
      simpa using hkeep.2
  · exact checkTime_ok hcheckContacted
  · intro w hw
    simp only at hw
    split at hw
    · obtain rfl := Option.some.inj hw
      exact .inr now.calendar.readable
    · exact hread hcontacted w hw
  · exact checkTime_ok hcheckResolved
  · intro w hw
    simp only at hw
    split at hw
    · obtain rfl := Option.some.inj hw
      cases resolvedAt with
      | none => exact .inr now.calendar.readable
      | some old => exact hread hresolved old rfl
    · cases hw
  · intro c r hc hr
    have hfalse := refuse_ok hordered
    simp only at hc hr
    rw [hc, hr] at hfalse
    exact Wall.not_lt_iff.mp (by simpa using hfalse)

theorem mapError_ok {ε ε' α : Type} {x : Except ε α} {f : ε → ε'} {a : α} (h : x.mapError f = .ok a) :
    x = .ok a := by
  cases x with
  | error e => cases h
  | ok b => exact congrArg _ (Except.ok.inj h)

theorem ruleOf_ok {reasons : List FollowupReason} {before : Option Nat} {id : Nat} {rule : Option ReasonRule}
    (h : ruleOf reasons before (some id) = .ok rule) :
    ∃ reason ∈ reasons, reason.reasonId = id ∧ rule = some ⟨reason.requiresNote⟩ := by
  unfold ruleOf at h
  dsimp only at h
  split at h
  · cases h
  · next reason hfind =>
    obtain ⟨_, -, h⟩ := bind_ok h
    exact ⟨reason, List.mem_of_find?_eq_some hfind, of_decide_eq_true (List.find?_some hfind :),
      (Except.ok.inj h).symm⟩

theorem updateCase_ok {toUpperCase : String → String} {c after : FollowupCase} {r : Request}
    (h : updateCase toUpperCase c r = .ok after) : ∃ rule next,
      Accepted c r.input r.now rule next ∧ after = written c next ∧ ∀ id, next.reasonId = some id →
        ∃ reason ∈ r.reasons, reason.reasonId = id ∧ rule = some ⟨reason.requiresNote⟩ := by
  unfold updateCase at h
  obtain ⟨version, -, h⟩ := bind_ok h
  obtain ⟨_, -, h⟩ := bind_ok h
  obtain ⟨_, -, h⟩ := bind_ok h
  obtain ⟨reasonId, hreasonId, h⟩ := bind_ok h
  obtain ⟨rule, hrule, h⟩ := bind_ok h
  obtain ⟨next, hnext, h⟩ := bind_ok h
  have hedit := applyEdit_ok (mapError_ok hnext)
  refine ⟨rule, next, hedit, (Except.ok.inj h).symm, fun id hid => ?_⟩
  have hsame : reasonId = next.reasonId := Except.ok.inj ((mapError_ok hreasonId).symm.trans hedit.chosen)
  rw [hsame, hid] at hrule
  exact ruleOf_ok (mapError_ok hrule)

/-! ## Runs -/

/-- An accepted edit. -/
structure Entry where
  before : FollowupCase
  after : FollowupCase
  now : Clock

section
variable (toUpperCase : String → String)

/-- The case after a request, with the accepted edits, the last one first. -/
def step (s : FollowupCase × List Entry) (r : Request) : FollowupCase × List Entry :=
  match updateCase toUpperCase s.1 r with
  | .ok after => (after, ⟨s.1, after, r.now⟩ :: s.2)
  | .error _ => s

def run (c : FollowupCase) (rs : List Request) : FollowupCase × List Entry :=
  rs.foldl (step toUpperCase) (c, [])

end

/-- When a field last changed. -/
def lastSet (field : FollowupCase → Option Wall) (h : List Entry) : Option Clock :=
  (h.find? fun e => decide (field e.before ≠ field e.after)).map (·.now)

/-- When the case last became rejected. -/
def lastRejected (h : List Entry) : Option Clock :=
  (h.find? fun e => decide (e.before.stage ≠ .rejected ∧ e.after.stage = .rejected)).map (·.now)

/-- A case as the ETL creates it. -/
structure Untouched (c : FollowupCase) : Prop where
  stage : c.stage = .new ∨ c.stage = .historical
  reasonId : c.reasonId = none
  reasonNote : c.reasonNote = none
  ownerName : c.ownerName = none
  contactedAt : c.contactedAt = none
  resolvedAt : c.resolvedAt = none
  rejectedAt : c.rejectedAt = none
  rootCause : c.rootCause = none
  actionTaken : c.actionTaken = none
  notes : c.notes = none

/-- A time not before the rating, as a text and as an instant, and at most 15 minutes
after the edit that set it. -/
structure TimeKept (ratedAt setBy : Option Clock) (v : Wall) : Prop where
  readable : v.Readable
  rated : ∀ r, ratedAt = some r → r.time.le v = true ∧ r.time.seconds ≤ v.seconds
  ahead : ∃ now, setBy = some now ∧ v.seconds ≤ now.time.seconds + 900

/-- What holds of a case after the accepted edits of its history; `requires` tells which
reasons require a note. -/
structure CaseInvariant (requires : Nat → Bool) (c : FollowupCase) (h : List Entry) : Prop where
  resolved : c.stage = .resolved ↔ c.resolvedAt ≠ none
  reasoned : c.stage = .resolved → c.reasonId ≠ none
  rejected : c.stage = .rejected ↔ c.rejectedAt ≠ none
  explained : c.stage = .rejected → ∃ notes, c.notes = some notes ∧ notes ≠ ""
  rejectedAt : c.stage = .rejected → ∃ now, lastRejected h = some now ∧ c.rejectedAt = some now.time
  note : c.reasonNote ≠ none → ∃ id, c.reasonId = some id ∧ requires id = true
  contactedAt : ∀ v, c.contactedAt = some v → TimeKept c.ratedAt (lastSet (·.contactedAt) h) v
  resolvedAt : ∀ v, c.resolvedAt = some v → TimeKept c.ratedAt (lastSet (·.resolvedAt) h) v
  ordered : ∀ contacted resolved, c.contactedAt = some contacted → c.resolvedAt = some resolved →
    contacted.le resolved = true ∧ (contacted.Calendar → contacted.seconds ≤ resolved.seconds)
  historical : c.stage = .historical → ∀ e ∈ h, e.before.stage = .historical ∧ e.after.stage = .historical

theorem Untouched.invariant {c : FollowupCase} (h : Untouched c) (requires : Nat → Bool) :
    CaseInvariant requires c [] := by
  have hresolved : c.stage ≠ .resolved := by
    rcases h.stage with hs | hs <;> rw [hs] <;> decide
  have hrejected : c.stage ≠ .rejected := by
    rcases h.stage with hs | hs <;> rw [hs] <;> decide
  constructor
  · simp [hresolved, h.resolvedAt]
  · exact fun hs => absurd hs hresolved
  · simp [hrejected, h.rejectedAt]
  · exact fun hs => absurd hs hrejected
  · exact fun hs => absurd hs hrejected
  · exact fun hnote => absurd h.reasonNote hnote
  · intro v hv
    rw [h.contactedAt] at hv
    cases hv
  · intro v hv
    rw [h.resolvedAt] at hv
    cases hv
  · intro contacted resolved hcontacted
    rw [h.contactedAt] at hcontacted
    cases hcontacted
  · exact fun _ => List.forall_mem_nil _

/-- A time that stays was set before; a new one is set by this edit. -/
theorem TimeKept.step {field : FollowupCase → Option Wall} {c after : FollowupCase} {now : Clock} {h : List Entry}
    (hold : ∀ v, field c = some v → TimeKept c.ratedAt (lastSet field h) v) {v : Wall}
    (hv : field after = some v) (hok : TimeOk c.ratedAt now v) (hread : field c = some v ∨ v.Readable) :
    TimeKept c.ratedAt (lastSet field (⟨c, after, now⟩ :: h)) v := by
  unfold lastSet
  by_cases hsame : field c = some v
  · rw [List.find?_cons_of_neg (by simp [hsame, hv])]
    exact hold v hsame
  · have hreadable := hread.resolve_left hsame
    rw [List.find?_cons_of_pos (by simpa [hv] using hsame)]
    exact ⟨hreadable, fun r hr => ⟨hok.rated r hr, r.calendar.seconds_le hreadable (hok.rated r hr)⟩,
      now, rfl, hok.ahead hreadable⟩

/-- An accepted edit keeps the invariant. -/
theorem CaseInvariant.step {requires : Nat → Bool} {c after : FollowupCase} {h : List Entry}
    (hinv : CaseInvariant requires c h) {toUpperCase : String → String} {r : Request}
    (hkeep : ∀ reason ∈ r.reasons, reason.requiresNote = requires reason.reasonId)
    (hok : updateCase toUpperCase c r = .ok after) :
    CaseInvariant requires after (⟨c, after, r.now⟩ :: h) := by
  obtain ⟨rule, next, hedit, rfl, hrule⟩ := updateCase_ok hok
  have hcontacted : ∀ v, next.contactedAt = some v →
      TimeKept c.ratedAt (lastSet (·.contactedAt) (⟨c, written c next, r.now⟩ :: h)) v := fun v hv =>
    .step hinv.contactedAt hv (hedit.contactedAt v hv) (hedit.contactedRead v hv)
  have hresolved : ∀ v, next.resolvedAt = some v →
      TimeKept c.ratedAt (lastSet (·.resolvedAt) (⟨c, written c next, r.now⟩ :: h)) v := fun v hv =>
    .step hinv.resolvedAt hv (hedit.resolvedAt v hv) (hedit.resolvedRead v hv)
  have hrejected : next.rejectedAt = _ := hedit.rejected
  constructor
  · exact hedit.resolved
  · exact hedit.reasoned
  · rw [show (written c next).rejectedAt = next.rejectedAt from rfl, hrejected]
    show next.stage = .rejected ↔ _
    split
    · next hs => simp [hs]
    · next hs => simp [hs]
  · intro hs
    have hblank := hedit.notes hs
    show ∃ notes, next.notes = some notes ∧ notes ≠ ""
    cases hnotes : next.notes with
    | none =>
      rw [hnotes] at hblank
      cases hblank
    | some notes =>
      rw [hnotes] at hblank
      exact ⟨notes, rfl, of_decide_eq_false hblank⟩
  · intro hs
    have hs' : next.stage = .rejected := hs
    rw [if_pos hs'] at hrejected
    unfold lastRejected
    by_cases hbefore : c.stage = .rejected
    · obtain ⟨now, hnow, hat⟩ := hinv.rejectedAt hbefore
      rw [List.find?_cons_of_neg (by simp [hbefore])]
      exact ⟨now, hnow, by
        show next.rejectedAt = _
        rw [hrejected, if_pos hbefore, hat, Option.getD_some]⟩
    · rw [List.find?_cons_of_pos (by simp [hbefore, hs])]
      exact ⟨r.now, rfl, by
        show next.rejectedAt = _
        rw [hrejected, if_neg hbefore]⟩
  · intro hnote
    obtain ⟨hsome, hrequires⟩ := hedit.note hnote
    obtain ⟨id, hid⟩ := Option.ne_none_iff_exists'.mp hsome
    obtain ⟨reason, hmem, hreason, hruleEq⟩ := hrule id hid
    refine ⟨id, hid, ?_⟩
    rw [← hreason, ← hkeep reason hmem]
    exact hrequires _ hruleEq
  · exact hcontacted
  · exact hresolved
  · intro contacted resolved hc hr
    have hle := hedit.ordered contacted resolved hc hr
    exact ⟨hle, fun hcalendar => hcalendar.seconds_le (hresolved resolved hr).readable hle⟩
  · intro hs
    have hs' : next.stage = .historical := hs
    have hbefore : c.stage = .historical := by
      rcases hedit.stage with heq | hne
      · rw [← heq, hs']
      · exact absurd hs' hne
    exact List.forall_mem_cons.mpr ⟨⟨hbefore, hs⟩, hinv.historical hbefore⟩

theorem run_append (toUpperCase : String → String) (c : FollowupCase) (rs : List Request) (r : Request) :
    run toUpperCase c (rs ++ [r]) = step toUpperCase (run toUpperCase c rs) r := by
  unfold run
  rw [List.foldl_append]
  rfl

/-- **The follow-up case invariant**: it holds after any edits, and a refused edit leaves
the case as it was. -/
theorem case_invariant (toUpperCase : String → String) {c : FollowupCase} (hnew : Untouched c)
    (requires : Nat → Bool) (rs : List Request)
    (hkeep : ∀ r ∈ rs, ∀ reason ∈ r.reasons, reason.requiresNote = requires reason.reasonId) :
    CaseInvariant requires (run toUpperCase c rs).1 (run toUpperCase c rs).2 ∧
      ∀ r refusal, updateCase toUpperCase (run toUpperCase c rs).1 r = .error refusal →
        run toUpperCase c (rs ++ [r]) = run toUpperCase c rs := by
  constructor
  · induction rs using List.reverseRecOn with
    | nil => exact hnew.invariant requires
    | append_singleton rs r ih =>
      have hinv := ih fun r' hr' => hkeep r' (List.mem_append_left _ hr')
      rw [run_append]
      unfold Service.step
      cases hok : updateCase toUpperCase (run toUpperCase c rs).1 r with
      | error refusal => exact hinv
      | ok after => exact hinv.step (hkeep r (List.mem_append_right _ (List.mem_singleton_self r))) hok
  · intro r refusal hrefused
    rw [run_append]
    unfold Service.step
    rw [hrefused]

/-! ### A case that is resolved on the next morning, and then rejected -/

def evening : Clock := ⟨⟨2026, 3, 4, 18, 30, 0⟩, by decide⟩

def morning : Clock := ⟨⟨2026, 3, 5, 10, 0, 0⟩, by decide⟩

def ratedCase : FollowupCase :=
  { ratedAt := some evening, stage := .new, reasonId := none, reasonNote := none, ownerUserId := none
    ownerName := none, contactedAt := none, resolvedAt := none, rejectedAt := none, rootCause := none
    actionTaken := none, notes := none, version := 1 }

def otherReason : FollowupReason := ⟨9, none, true, true, true⟩

/-- A request of that morning for a stage, with nothing else in it. -/
def moveTo (version : Int) (stage : String) : Request where
  input :=
    { version := some (.other (toString version) (some version)), stage := some (.text stage none), status := none
      reasonId := none, reasonNote := none, owner := none, contactedAt := none, resolvedAt := none
      rejectedAt := none, rootCause := none, actionTaken := none, notes := none }
  now := morning
  reasons := [otherReason]
  shown := true

/-- Contacted, resolved for another reason, sent once more by mistake, and rejected. -/
def morningEdits : List Request :=
  let contacted := moveTo 1 "CONTACTED"
  let resolved := moveTo 2 "RESOLVED"
  let rejected := moveTo 3 "REJECTED"
  [{ contacted with input := { contacted.input with contactedAt := some (.text "2026-03-05T09:15" none) } },
    { resolved with input := { resolved.input with
        reasonId := some (.text "9" (some 9)), reasonNote := some (.text " Wrong goods " none) } },
    resolved,
    { rejected with input := { rejected.input with notes := some (.text " Wrong number " none) } }]

/-- On the stages' names here, what `toUpperCase` makes of them. -/
def sameCase (s : String) : String := s

theorem case_invariant_sample :
    (run sameCase ratedCase (morningEdits.take 2)).1.stage = .resolved ∧
      (run sameCase ratedCase morningEdits).1.stage = .rejected ∧
      CaseInvariant (fun id => decide (id = 9)) (run sameCase ratedCase morningEdits).1
        (run sameCase ratedCase morningEdits).2 := by
  refine ⟨by decide +kernel, by decide +kernel, (case_invariant sameCase ?_ _ _ ?_).1⟩
  · exact ⟨.inl rfl, rfl, rfl, rfl, rfl, rfl, rfl, rfl, rfl, rfl⟩
  · decide

end SalesDashboard.NpsFollowup.Service
