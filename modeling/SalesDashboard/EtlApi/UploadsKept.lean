import SalesDashboard.EtlApi.InputFiles

/-! What uploads leave on the disk: in every order of their statements, failures, crashes and
runs a workbook is the one that was there or one that was uploaded and passed validation,
whole, and each workbook that was replaced is whole in the backup folder. A run writes over
BlockedCustomers.xlsx only where it was absent at the start, so this is said of the four other
workbooks, and of that one where it was there. -/

namespace SalesDashboard.EtlApi.InputFiles
open Transition Files

variable {Summary : Type} {env : Env Summary} {s t : State Summary} {u v : Upload Summary}
  {settled : String → Prop}

/-- No run writes the workbook `name`: it is not BlockedCustomers.xlsx, or that was there at
the start. -/
def Settled (env : Env Summary) (files : Disk FilePath Bytes) (name : String) : Prop :=
  name = "BlockedCustomers.xlsx" → read files (target env name) ≠ none

/-! ## Paths that differ -/

theorem stagingFile_ne_target {name other : String} (h : name ∈ SLOT_NAMES) :
    target env name ≠ stagingFile env other := by
  intro heq
  have hname : name = "." ++ other ++ ".uploading" := by simpa [target, stagingFile] using heq
  have hhead : name.toList.head? = some '.' := by
    rw [hname]
    simp
  have hslots : ∀ n ∈ SLOT_NAMES, n.toList.head? ≠ some '.' := by decide
  exact hslots name h hhead

theorem backupFile_ne {file part : String} (h : ¬ env.inputs <+: env.backups) :
    backupFile env file ≠ env.inputs ++ [part] := by
  intro heq
  have hdirs : env.backups = env.inputs := (List.append_inj' heq rfl).1
  exact h (hdirs ▸ List.prefix_rfl)

theorem backupFile_inj {file other : String} (h : backupFile env file = backupFile env other) : file = other := by
  simpa [backupFile] using h

theorem target_inj {name other : String} (h : target env name = target env other) : name = other := by
  simpa [target] using h

/-! ## What each phase has established -/

/-- Between the checks before the lock and the end. -/
def Phase.passed : Phase Summary → Bool
  | .received | .done _ => false
  | _ => true

/-- The backup that is being written. -/
def Upload.copyingTo (u : Upload Summary) : Option String :=
  match u.phase with
  | .copyOpen | .copying _ => u.backup
  | _ => none

/-- The workbook, if there is one, is whole in the upload's backup. -/
def Upload.BackedUp (env : Env Summary) (files : Disk FilePath Bytes) (u : Upload Summary) : Prop :=
  ∀ c, read files (target env u.name) = some c → ∃ f, u.backup = some f ∧ read files (backupFile env f) = some c

/-- What an upload's phase says of the disk; of a workbook that a run may write it says no
more than that it is there. -/
def Upload.Holds (settled : String → Prop) (env : Env Summary) (files : Disk FilePath Bytes) (u : Upload Summary) :
    Prop :=
  match u.phase with
  | .compared => (u.previous ≠ none → read files (target env u.name) ≠ none) ∧
      (settled u.name → u.previous = read files (target env u.name))
  | .copyOpen => ∃ f c, u.backup = some f ∧ read files (target env u.name) = some c ∧
      read files (backupFile env f) = none
  | .copying written => ∃ f c, u.backup = some f ∧ read files (target env u.name) = some c ∧
      (settled u.name → read files (backupFile env f) = some (c.take written))
  | .staging => settled u.name → u.BackedUp env files
  | .writing written => (settled u.name → u.BackedUp env files) ∧
      read files (stagingFile env u.name) = some (u.content.take written)
  | .written => (settled u.name → u.BackedUp env files) ∧ read files (stagingFile env u.name) = some u.content
  | _ => True

/-- What an upload past the first checks has been found to be. -/
structure Passed (env : Env Summary) (u : Upload Summary) : Prop where
  slot : u.name ∈ SLOT_NAMES
  separate : ¬ env.inputs <+: env.backups
  valid : ∃ summary, u.summary = some summary ∧ env.validateFile u.name u.content = .ok summary

theorem passed_of_checkUpload {mounted : Bool} {summary : Summary} (hsummary : u.summary = some summary)
    (h : checkUpload env mounted u.name u.content = .ok summary) : Passed env u := by
  unfold checkUpload at h
  split at h
  · cases h
  · next hslot =>
    split at h
    · cases h
    · split at h
      · cases h
      · split at h
        · cases h
        · next hseparate =>
          split at h
          · cases h
          · exact ⟨not_not.mp hslot, hseparate, summary, hsummary, h⟩

/-- Nothing is said of an upload outside the lock. -/
theorem holds_of_outside (h : u.phase.critical = false) (files : Disk FilePath Bytes) : u.Holds settled env files := by
  unfold Upload.Holds
  cases hphase : u.phase <;> first | trivial | (rw [hphase] at h; cases h)

/-! ## What a statement does -/

/-- Phases of which nothing is said. -/
def Phase.quiet : Phase Summary → Bool
  | .checked | .leaving _ | .swapped | .done _ => true
  | _ => false

theorem copyingTo_of_quiet {phase : Phase Summary} (h : phase.quiet = true) :
    ({ u with phase := phase } : Upload Summary).copyingTo = none := by
  cases phase with
  | checked | leaving outcome | swapped | done answer => rfl
  | received | validated | readOnly | waiting | locked | compared | copyOpen | copying written | staging
  | writing written | written | cleaning outcome => cases h

theorem holds_of_quiet {phase : Phase Summary} (h : phase.quiet = true) (files : Disk FilePath Bytes) :
    ({ u with phase := phase } : Upload Summary).Holds settled env files := by
  cases phase with
  | checked | leaving outcome | swapped | done answer => trivial
  | received | validated | readOnly | waiting | locked | compared | copyOpen | copying written | staging
  | writing written | written | cleaning outcome => cases h

/-- Everything a statement can be. -/
inductive Statement (env : Env Summary) (s : State Summary) (u : Upload Summary) :
    Disk FilePath Bytes → Upload Summary → Prop
  | outside (u' : Upload Summary) (hout : u.phase.critical = false) (hout' : u'.phase.critical = false)
      (hname : u'.name = u.name) (hcontent : u'.content = u.content)
      (hpassed : u'.phase.passed = true → u.phase.passed = true ∧ u'.summary = u.summary ∨ Passed env u') :
      Statement env s u s.files u'
  | enter (hphase : u.phase = .waiting) (hfree : s.locked = false) :
      Statement env s u s.files { u with phase := .locked }
  | quiet (phase : Phase Summary) (hin : u.phase.critical = true) (hquiet : phase.quiet = true)
      (hpast : phase.pastCheck = true → s.running = false) : Statement env s u s.files { u with phase := phase }
  | look (hphase : u.phase = .checked) :
      Statement env s u s.files { u with previous := read s.files (target env u.name), phase := .compared }
  | noBackup (hphase : u.phase = .compared) (hprevious : u.previous = none) :
      Statement env s u s.files { u with phase := .staging }
  | nameBackup (f : String) (previous : Bytes) (hphase : u.phase = .compared) (hprevious : u.previous = some previous)
      (hfree : read s.files (backupFile env f) = none) :
      Statement env s u s.files { u with backup := some f, phase := .copyOpen }
  | copy (f : String) (b : Bytes) (written : Nat) (hf : u.copyingTo = some f)
      (hb : ∀ c, read s.files (target env u.name) = some c → b = c.take written) :
      Statement env s u (write s.files (backupFile env f) b) { u with phase := .copying written }
  | copied (c : Bytes) (written : Nat) (hphase : u.phase = .copying written)
      (hc : read s.files (target env u.name) = some c) (hall : c.length ≤ written) :
      Statement env s u s.files { u with phase := .staging }
  | stage (written : Nat) (hphase : u.phase = .staging ∨ ∃ before, u.phase = .writing before) :
      Statement env s u (write s.files (stagingFile env u.name) (u.content.take written))
        { u with phase := .writing written }
  | staged (written : Nat) (hphase : u.phase = .writing written) (hall : u.content.length ≤ written) :
      Statement env s u s.files { u with phase := .written }
  | swap (staged : Bytes) (hphase : u.phase = .written)
      (hstaged : read s.files (stagingFile env u.name) = some staged) :
      Statement env s u (write (remove s.files (stagingFile env u.name)) (target env u.name) staged)
        { u with phase := .cleaning .swapped }
  | clean (outcome : Outcome) (hphase : u.phase = .cleaning outcome) :
      Statement env s u (remove s.files (stagingFile env u.name)) { u with phase := .leaving outcome }

section
variable {stamp : String} {chunk : Nat} {files' : Disk FilePath Bytes} {u' : Upload Summary}

theorem uploadStep_cases (h : uploadStep env s stamp chunk u = some (files', u')) : Statement env s u files' u' := by
  unfold uploadStep at h
  cases hphase : u.phase with
  | received =>
    simp only [hphase] at h
    split at h
    · cases h
      exact .outside _ (by simp [hphase, Phase.critical]) rfl rfl rfl fun hpassed => (by cases hpassed)
    · next hcheck =>
      cases h
      exact .outside _ (by simp [hphase, Phase.critical]) rfl rfl rfl fun _ => .inr (passed_of_checkUpload rfl hcheck)
  | validated =>
    simp only [hphase] at h
    cases h
    refine .outside _ (by simp [hphase, Phase.critical]) ?_ rfl rfl fun _ => .inl ⟨by simp [hphase, Phase.passed], rfl⟩
    cases s.writable <;> rfl
  | waiting =>
    simp only [hphase] at h
    split at h
    · cases h
    · next hfree =>
      cases h
      exact .enter hphase (Bool.not_eq_true _ ▸ hfree)
  | readOnly | swapped =>
    simp only [hphase] at h
    obtain ⟨summary, -, heq⟩ := Option.map_eq_some_iff.mp h
    cases heq
    exact .outside _ (by simp [hphase, Phase.critical]) rfl rfl rfl fun hpassed => (by cases hpassed)
  | locked =>
    simp only [hphase] at h
    cases h
    refine .quiet _ (by simp [hphase, Phase.critical]) ?_ ?_
    · cases s.running <;> rfl
    · cases s.running <;> simp [Phase.pastCheck]
  | checked =>
    simp only [hphase] at h
    cases h
    exact .look hphase
  | compared =>
    simp only [hphase] at h
    split at h
    · next hprevious =>
      cases h
      exact .noBackup hphase hprevious
    · next previous hprevious =>
      split at h
      · cases h
        exact .quiet _ (by simp [hphase, Phase.critical]) rfl (by simp [Phase.pastCheck])
      · obtain ⟨counter, hcounter, heq⟩ := Option.map_eq_some_iff.mp h
        cases heq
        exact .nameBackup _ previous hphase hprevious (read_firstFree hcounter)
  | copyOpen =>
    simp only [hphase] at h
    obtain ⟨f, hf, heq⟩ := Option.map_eq_some_iff.mp h
    cases heq
    exact .copy f [] 0 (by simp [Upload.copyingTo, hphase, hf]) fun c _ => c.take_zero.symm
  | copying written =>
    simp only [hphase] at h
    obtain ⟨f, hf, h⟩ := Option.bind_eq_some_iff.mp h
    obtain ⟨c, hc, heq⟩ := Option.map_eq_some_iff.mp h
    split at heq
    · cases heq
      refine .copy f _ _ (by simp [Upload.copyingTo, hphase, hf]) fun c' hc' => ?_
      rw [hc] at hc'
      cases hc'
      rfl
    · next hall =>
      cases heq
      exact .copied c written hphase hc (Nat.le_of_not_lt hall)
  | staging =>
    simp only [hphase] at h
    cases h
    exact .stage 0 (.inl hphase)
  | writing written =>
    simp only [hphase] at h
    split at h
    · cases h
      exact .stage _ (.inr ⟨written, hphase⟩)
    · next hall =>
      cases h
      exact .staged written hphase (Nat.le_of_not_lt hall)
  | written =>
    simp only [hphase] at h
    obtain ⟨staged, hstaged, heq⟩ := Option.map_eq_some_iff.mp h
    cases heq
    exact .swap staged hphase hstaged
  | cleaning outcome =>
    simp only [hphase] at h
    cases h
    exact .clean outcome hphase
  | leaving outcome =>
    cases outcome <;>
      (simp only [hphase] at h; cases h
       exact .quiet _ (by simp [hphase, Phase.critical]) rfl (by simp [Phase.pastCheck]))
  | done answer =>
    simp only [hphase] at h
    cases h

/-- What a statement leaves of a file. -/
inductive Touches (env : Env Summary) (u : Upload Summary) (files files' : Disk FilePath Bytes) (p : FilePath) : Prop
  | same (h : read files' p = read files p)
  | staging (h : p = stagingFile env u.name)
  | copying (f : String) (hf : u.copyingTo = some f) (h : p = backupFile env f)
  | swap (h : p = target env u.name) (hphase : u.phase = .written)
      (hread : read files' p = read files (stagingFile env u.name))

theorem Statement.touches (h : Statement env s u files' u') (p : FilePath) : Touches env u s.files files' p := by
  cases h with
  | outside u' hout hout' hname hcontent hpassed => exact .same rfl
  | enter hphase hfree => exact .same rfl
  | quiet phase hin hquiet hpast => exact .same rfl
  | look hphase => exact .same rfl
  | noBackup hphase hprevious => exact .same rfl
  | nameBackup f previous hphase hprevious hfree => exact .same rfl
  | copied c written hphase hc hall => exact .same rfl
  | staged written hphase hall => exact .same rfl
  | copy f b written hf hb =>
    by_cases hp : p = backupFile env f
    · exact .copying f hf hp
    · exact .same (read_write_ne hp _)
  | stage written hphase =>
    by_cases hp : p = stagingFile env u.name
    · exact .staging hp
    · exact .same (read_write_ne hp _)
  | swap staged hphase hstaged =>
    by_cases hp : p = target env u.name
    · exact .swap hp hphase (by rw [hp, read_write_self, hstaged])
    · by_cases hp' : p = stagingFile env u.name
      · exact .staging hp'
      · exact .same ((read_write_ne hp _).trans (read_remove_ne hp'))
  | clean outcome hphase =>
    by_cases hp : p = stagingFile env u.name
    · exact .staging hp
    · exact .same (read_remove_ne hp)

/-- Only what is inside the lock writes. -/
theorem Statement.files_of_outside (h : Statement env s u files' u') (hout : u.phase.critical = false) :
    files' = s.files := by
  cases h with
  | outside u' hout hout' hname hcontent hpassed => rfl
  | enter hphase hfree => rfl
  | quiet phase hin hquiet hpast => rfl
  | look hphase => rfl
  | noBackup hphase hprevious => rfl
  | nameBackup f previous hphase hprevious hfree => rfl
  | copied c written hphase hc hall => rfl
  | staged written hphase hall => rfl
  | copy f b written hf hb =>
    unfold Upload.copyingTo at hf
    split at hf
    · next hphase =>
      rw [hphase] at hout
      cases hout
    · next hphase =>
      rw [hphase] at hout
      cases hout
    · cases hf
  | stage written hphase =>
    rcases hphase with hphase | ⟨before, hphase⟩ <;> (rw [hphase] at hout; cases hout)
  | swap staged hphase hstaged =>
    rw [hphase] at hout
    cases hout
  | clean outcome hphase =>
    rw [hphase] at hout
    cases hout

/-- What an upload keeps, and how it comes to the lock and to a backup. -/
structure Keeps (env : Env Summary) (s : State Summary) (u u' : Upload Summary) : Prop where
  name : u'.name = u.name
  content : u'.content = u.content
  critical : u'.phase.critical = true → u.phase.critical = true ∨ s.locked = false
  passed : u'.phase.passed = true → u.phase.passed = true ∧ u'.summary = u.summary ∨ Passed env u'
  past : u'.phase.pastCheck = true → u.phase.pastCheck = true ∨ s.running = false
  copying : ∀ f, u'.copyingTo = some f → u.copyingTo = some f ∨ read s.files (backupFile env f) = none

theorem phase_of_copyingTo {f : String} (h : u.copyingTo = some f) :
    u.backup = some f ∧ (u.phase = .copyOpen ∨ ∃ written, u.phase = .copying written) := by
  unfold Upload.copyingTo at h
  split at h
  · next hphase => exact ⟨h, .inl hphase⟩
  · next written hphase => exact ⟨h, .inr ⟨written, hphase⟩⟩
  · cases h

theorem passed_of_critical {phase : Phase Summary} (h : phase.critical = true) : phase.passed = true := by
  cases phase <;> first | rfl | cases h

theorem critical_of_copyingTo {f : String} (h : u.copyingTo = some f) : u.phase.critical = true := by
  rcases (phase_of_copyingTo h).2 with hphase | ⟨written, hphase⟩ <;> rw [hphase] <;> rfl

theorem critical_of_pastCheck {phase : Phase Summary} (h : phase.pastCheck = true) : phase.critical = true := by
  cases phase <;> first | rfl | cases h

theorem pastCheck_of_copyingTo {f : String} (h : u.copyingTo = some f) : u.phase.pastCheck = true := by
  rcases (phase_of_copyingTo h).2 with hphase | ⟨written, hphase⟩ <;> rw [hphase] <;> rfl

theorem Statement.keeps (h : Statement env s u files' u') : Keeps env s u u' := by
  have inside : ∀ {v : Upload Summary}, u.phase.critical = true → v.name = u.name → v.content = u.content →
      v.summary = u.summary → (v.phase.pastCheck = true → u.phase.pastCheck = true ∨ s.running = false) →
      (∀ f, v.copyingTo = some f → u.copyingTo = some f ∨ read s.files (backupFile env f) = none) →
      Keeps env s u v := fun hin hname hcontent hsummary hpast hcopying =>
    ⟨hname, hcontent, fun _ => .inl hin, fun _ => .inl ⟨passed_of_critical hin, hsummary⟩, hpast, hcopying⟩
  cases h with
  | outside u' hout hout' hname hcontent hpassed =>
    refine ⟨hname, hcontent, fun hin => ?_, hpassed, fun hpast => ?_, fun f hf => ?_⟩
    · rw [hout'] at hin
      cases hin
    · rw [critical_of_pastCheck hpast] at hout'
      cases hout'
    · rw [critical_of_copyingTo hf] at hout'
      cases hout'
  | enter hphase hfree =>
    refine ⟨rfl, rfl, fun _ => .inr hfree, fun _ => .inl ⟨by simp [hphase, Phase.passed], rfl⟩,
      fun hpast => (by cases hpast), fun f hf => (by cases hf)⟩
  | quiet phase hin hquiet hpast =>
    refine inside hin rfl rfl rfl (fun h => .inr (hpast h)) fun f hf => ?_
    rw [copyingTo_of_quiet hquiet] at hf
    cases hf
  | look hphase =>
    have hpast : u.phase.pastCheck = true := by rw [hphase]; rfl
    exact inside (critical_of_pastCheck hpast) rfl rfl rfl (fun _ => .inl hpast) fun f hf => by cases hf
  | noBackup hphase hprevious =>
    have hpast : u.phase.pastCheck = true := by rw [hphase]; rfl
    exact inside (critical_of_pastCheck hpast) rfl rfl rfl (fun _ => .inl hpast) fun f hf => by cases hf
  | nameBackup f previous hphase hprevious hfree =>
    have hpast : u.phase.pastCheck = true := by rw [hphase]; rfl
    refine inside (critical_of_pastCheck hpast) rfl rfl rfl (fun _ => .inl hpast) fun f' hf' => .inr ?_
    cases hf'
    exact hfree
  | copy f b written hf hb =>
    refine inside (critical_of_copyingTo hf) rfl rfl rfl (fun _ => .inl (pastCheck_of_copyingTo hf)) fun f' hf' => ?_
    refine .inl ?_
    rw [hf, ← hf']
    exact (phase_of_copyingTo hf).1.symm
  | copied c written hphase hc hall =>
    have hpast : u.phase.pastCheck = true := by rw [hphase]; rfl
    exact inside (critical_of_pastCheck hpast) rfl rfl rfl (fun _ => .inl hpast) fun f hf => by cases hf
  | stage written hphase =>
    have hpast : u.phase.pastCheck = true := by rcases hphase with hphase | ⟨before, hphase⟩ <;> rw [hphase] <;> rfl
    exact inside (critical_of_pastCheck hpast) rfl rfl rfl (fun _ => .inl hpast) fun f hf => by cases hf
  | staged written hphase hall =>
    have hpast : u.phase.pastCheck = true := by rw [hphase]; rfl
    exact inside (critical_of_pastCheck hpast) rfl rfl rfl (fun _ => .inl hpast) fun f hf => by cases hf
  | swap staged hphase hstaged =>
    exact inside (by simp [hphase, Phase.critical]) rfl rfl rfl (fun hpast => (by cases hpast)) fun f hf => by cases hf
  | clean outcome hphase =>
    exact inside (by simp [hphase, Phase.critical]) rfl rfl rfl (fun hpast => (by cases hpast)) fun f hf => by cases hf

/-- While a run is active an upload that swaps is past its check no more. -/
theorem Statement.of_written (h : Statement env s u files' u') (hrun : s.running = true) (hw : u.phase = .written) :
    u'.phase.pastCheck = false := by
  cases h with
  | outside u' hout hout' hname hcontent hpassed =>
    rw [hw] at hout
    cases hout
  | quiet phase hin hquiet hpast =>
    rw [← Bool.not_eq_true]
    intro hp
    rw [hpast hp] at hrun
    cases hrun
  | copy f b written hf hb =>
    rcases (phase_of_copyingTo hf).2 with hphase | ⟨before, hphase⟩ <;> (rw [hw] at hphase; cases hphase)
  | stage written hphase =>
    rcases hphase with hphase | ⟨before, hphase⟩ <;> (rw [hw] at hphase; cases hphase)
  | swap staged hphase hstaged => rfl
  | enter hphase hfree => rfl
  | look hphase => rw [hw] at hphase; cases hphase
  | noBackup hphase hprevious => rw [hw] at hphase; cases hphase
  | nameBackup f previous hphase hprevious hfree => rw [hw] at hphase; cases hphase
  | copied c written hphase hc hall => rw [hw] at hphase; cases hphase
  | staged written hphase hall => rw [hw] at hphase; cases hphase
  | clean outcome hphase => rw [hw] at hphase; cases hphase

/-- What is said of an upload holds after its next statement. -/
theorem Statement.holds (h : Statement env s u files' u') (hslot : u.phase.critical = true → Passed env u)
    (htold : u.Holds settled env s.files) : u'.Holds settled env files' := by
  cases h with
  | outside u' hout hout' hname hcontent hpassed => exact holds_of_outside hout' _
  | enter hphase hfree => trivial
  | quiet phase hin hquiet hpast => exact holds_of_quiet hquiet _
  | look hphase => exact ⟨id, fun _ => rfl⟩
  | noBackup hphase hprevious =>
    rw [Upload.Holds, hphase] at htold
    intro hsettled c hc
    have hlooked := htold.2 hsettled
    rw [hprevious] at hlooked
    exact absurd (hlooked.trans hc) (by simp)
  | nameBackup f previous hphase hprevious hfree =>
    rw [Upload.Holds, hphase] at htold
    obtain ⟨c, hc⟩ := Option.ne_none_iff_exists'.mp (htold.1 (by simp [hprevious]))
    exact ⟨f, c, rfl, hc, hfree⟩
  | copy f b written hf hb =>
    obtain ⟨hbackup, hphase⟩ := phase_of_copyingTo hf
    have hpassed := hslot (critical_of_copyingTo hf)
    have htarget : ∃ c, read s.files (target env u.name) = some c := by
      rcases hphase with hphase | ⟨before, hphase⟩
      · rw [Upload.Holds, hphase] at htold
        obtain ⟨f', c, -, hc, -⟩ := htold
        exact ⟨c, hc⟩
      · rw [Upload.Holds, hphase] at htold
        obtain ⟨f', c, -, hc, -⟩ := htold
        exact ⟨c, hc⟩
    obtain ⟨c, hc⟩ := htarget
    refine ⟨f, c, hbackup, ?_, fun _ => ?_⟩
    · exact (read_write_ne (backupFile_ne hpassed.separate).symm _).trans hc
    · rw [read_write_self, hb c hc]
  | copied c written hphase hc hall =>
    rw [Upload.Holds, hphase] at htold
    obtain ⟨f, c', hf, hc', hread⟩ := htold
    intro hsettled d hd
    rw [hc] at hc'
    cases hc'
    obtain rfl : c = d := Option.some.inj (hc.symm.trans hd)
    exact ⟨f, hf, by rw [hread hsettled, List.take_of_length_le hall]⟩
  | stage written hphase =>
    have hin : u.phase.critical = true := by
      rcases hphase with hphase | ⟨before, hphase⟩ <;> rw [hphase] <;> rfl
    have hpassed := hslot hin
    have hbacked : settled u.name → u.BackedUp env s.files := by
      rcases hphase with hphase | ⟨before, hphase⟩
      · rw [Upload.Holds, hphase] at htold
        exact htold
      · rw [Upload.Holds, hphase] at htold
        exact htold.1
    refine ⟨fun hsettled c hc => ?_, read_write_self _ _ _⟩
    rw [read_write_ne (stagingFile_ne_target hpassed.slot)] at hc
    obtain ⟨f, hf, hread⟩ := hbacked hsettled c hc
    exact ⟨f, hf, (read_write_ne (backupFile_ne hpassed.separate) _).trans hread⟩
  | staged written hphase hall =>
    rw [Upload.Holds, hphase] at htold
    refine ⟨htold.1, ?_⟩
    rw [← List.take_of_length_le hall]
    exact htold.2
  | swap staged hphase hstaged => trivial
  | clean outcome hphase => trivial

end

/-! ## Uploads together -/

/-- One upload at most is inside the lock, what its phase says of the disk holds, and no run
writes a settled workbook. -/
structure Inv (settled : String → Prop) (env : Env Summary) (as : List Action) (s : State Summary) : Prop where
  one : ∀ (i j : Nat) (u v : Upload Summary), s.uploads[i]? = some u → s.uploads[j]? = some v →
    u.phase.critical = true → v.phase.critical = true → i = j
  holds : ∀ (i : Nat) (u : Upload Summary), s.uploads[i]? = some u → u.Holds settled env s.files
  passed : ∀ (i : Nat) (u : Upload Summary), s.uploads[i]? = some u → u.phase.passed = true → Passed env u
  sent : ∀ (i : Nat) (u : Upload Summary), s.uploads[i]? = some u → Action.upload u.name u.content ∈ as
  blocked : settled "BlockedCustomers.xlsx" → s.creating = false ∧ read s.files (blockedCustomersPath env) ≠ none

/-- One upload, and the disk, after a step of it. -/
structure Moves (env : Env Summary) (s t : State Summary) (i : Nat) (u u' : Upload Summary) : Prop where
  at_i : s.uploads[i]? = some u
  uploads : t.uploads = s.uploads.set i u'
  keeps : Keeps env s u u'
  files : u.phase.critical = false → t.files = s.files
  touches : ∀ p, Touches env u s.files t.files p
  holds : ∀ settled : String → Prop, (u.phase.critical = true → Passed env u) → u.Holds settled env s.files →
    u'.Holds settled env t.files
  written : s.running = true → u.phase = .written → u'.phase.pastCheck = false

/-- Everything a step can be. -/
inductive StepCase (env : Env Summary) (s t : State Summary) (a : Action) : Prop
  | upload (name : String) (content : Bytes) (ha : a = .upload name content) (hfiles : t.files = s.files)
      (huploads : t.uploads = s.uploads ++ [⟨name, content, none, none, none, .received⟩])
  | move (i : Nat) (u u' : Upload Summary) (h : Moves env s t i u u')
  | create (template : Bytes) (hcreating : s.creating = true)
      (hfiles : t.files = write s.files (blockedCustomersPath env) template) (huploads : t.uploads = s.uploads)
  | crash (hfiles : t.files = s.files) (huploads : t.uploads = [])
  | still (hfiles : t.files = s.files) (huploads : t.uploads = s.uploads)

/-- What a failing statement leaves to do. -/
theorem failStep_cases {exc : String} {u' : Upload Summary} (h : failStep exc u = some u') :
    ∃ phase, u' = { u with phase := phase } ∧ (phase.critical = true → u.phase.critical = true) ∧
      (phase.passed = true → u.phase.passed = true) ∧ phase.pastCheck = false ∧
      (phase.quiet = true ∨ ∃ outcome, phase = .cleaning outcome) := by
  unfold failStep at h
  cases hphase : u.phase with
  | received | validated | readOnly | swapped =>
    simp only [hphase, Option.some.injEq] at h
    exact ⟨_, h.symm, fun hin => (by cases hin), fun hp => (by cases hp), rfl, .inl rfl⟩
  | locked | checked | compared | copyOpen | copying written | cleaning outcome =>
    simp only [hphase, Option.some.injEq] at h
    exact ⟨_, h.symm, fun _ => rfl, fun _ => rfl, rfl, .inl rfl⟩
  | staging | writing written | written =>
    simp only [hphase, Option.some.injEq] at h
    exact ⟨_, h.symm, fun _ => rfl, fun _ => rfl, rfl, .inr ⟨_, rfl⟩⟩
  | waiting | leaving outcome | done answer =>
    simp only [hphase] at h
    cases h

theorem failStep_moves {i : Nat} {exc : String} {u' : Upload Summary} (hi : s.uploads[i]? = some u)
    (h : failStep exc u = some u') : Moves env s { s with uploads := s.uploads.set i u' } i u u' := by
  obtain ⟨phase, rfl, hcritical, hpassed, hpast, hquiet⟩ := failStep_cases h
  have hcopying : ({ u with phase := phase } : Upload Summary).copyingTo = none := by
    rcases hquiet with hquiet | ⟨outcome, rfl⟩
    · exact copyingTo_of_quiet hquiet
    · rfl
  have hholds : ∀ settled, ({ u with phase := phase } : Upload Summary).Holds settled env s.files := by
    intro settled
    rcases hquiet with hquiet | ⟨outcome, rfl⟩
    · exact holds_of_quiet hquiet _
    · trivial
  refine ⟨hi, rfl, ⟨rfl, rfl, fun hin => .inl (hcritical hin), fun hp => .inl ⟨hpassed hp, rfl⟩, fun hp => ?_,
    fun f hf => ?_⟩, fun _ => rfl, fun p => .same rfl, fun settled _ _ => hholds settled, fun _ _ => hpast⟩
  · rw [hpast] at hp
    cases hp
  · rw [hcopying] at hf
    cases hf

theorem step_cases {a : Action} (h : step env s a = some t) : StepCase env s t a := by
  cases a with
  | upload name content =>
    cases h
    exact .upload name content rfl rfl rfl
  | advance i stamp chunk =>
    simp only [step] at h
    split at h
    · cases h
    · next u hi =>
      obtain ⟨next, hnext, rfl⟩ := Option.map_eq_some_iff.mp h
      have hcase := uploadStep_cases hnext
      exact .move i u next.2 ⟨hi, rfl, hcase.keeps, hcase.files_of_outside, hcase.touches,
        fun _ => hcase.holds, hcase.of_written⟩
  | fail i exc =>
    simp only [step] at h
    split at h
    · cases h
    · next u hi =>
      obtain ⟨u', hu', rfl⟩ := Option.map_eq_some_iff.mp h
      exact .move i u u' (failStep_moves hi hu')
  | crash =>
    cases h
    exact .crash rfl rfl
  | runBegins =>
    simp only [step] at h
    split at h
    · cases h
    · cases h
      exact .still rfl rfl
  | runLooks =>
    simp only [step] at h
    split at h
    · cases h
      exact .still rfl rfl
    · cases h
  | runWrites template more =>
    simp only [step] at h
    split at h
    · next hcreating =>
      cases h
      exact .create template hcreating rfl rfl
    · cases h
  | runEnds =>
    cases h
    exact .still rfl rfl
  | access writable =>
    cases h
    exact .still rfl rfl

/-- A run writes only after it has found no BlockedCustomers.xlsx. -/
theorem step_creating {a : Action} (h : step env s a = some t) (hcreating : t.creating = true) :
    s.creating = true ∨ read s.files (blockedCustomersPath env) = none := by
  cases a with
  | upload name content =>
    cases h
    exact .inl hcreating
  | advance i stamp chunk =>
    simp only [step] at h
    split at h
    · cases h
    · obtain ⟨next, -, rfl⟩ := Option.map_eq_some_iff.mp h
      exact .inl hcreating
  | fail i exc =>
    simp only [step] at h
    split at h
    · cases h
    · obtain ⟨u', -, rfl⟩ := Option.map_eq_some_iff.mp h
      exact .inl hcreating
  | runBegins =>
    simp only [step] at h
    split at h
    · cases h
    · cases h
      exact .inl hcreating
  | runLooks =>
    simp only [step] at h
    split at h
    · cases h
      exact .inr (of_decide_eq_true hcreating)
    · cases h
  | runWrites template more =>
    simp only [step] at h
    split at h
    · next hbefore => exact .inl hbefore
    · cases h
  | crash | runEnds =>
    cases h
    cases hcreating
  | access writable =>
    cases h
    exact .inl hcreating

section
variable {as : List Action} {a : Action}

theorem Inv.critical (hi : Inv settled env as s) {i : Nat} (hu : s.uploads[i]? = some u)
    (hin : u.phase.critical = true) : Passed env u :=
  hi.passed i u hu (passed_of_critical hin)

theorem not_critical_of_free (hfree : s.locked = false) {i : Nat} (hu : s.uploads[i]? = some u) :
    u.phase.critical = false := by
  rw [State.locked, List.any_eq_false] at hfree
  exact Bool.not_eq_true _ ▸ hfree u (List.mem_of_getElem? hu)

/-- What a step of an upload does to the workbooks. -/
theorem Moves.workbooks (hi : Inv settled env as s) {i : Nat} {u' : Upload Summary} (h : Moves env s t i u u') :
    (∀ name ∈ SLOT_NAMES, read t.files (target env name) = read s.files (target env name)) ∨
      u.phase = .written ∧ read t.files (target env u.name) = read s.files (stagingFile env u.name) ∧
        ∀ name ∈ SLOT_NAMES, name ≠ u.name → read t.files (target env name) = read s.files (target env name) := by
  have hcases : ∀ name ∈ SLOT_NAMES, read t.files (target env name) = read s.files (target env name) ∨
      name = u.name ∧ u.phase = .written ∧ read t.files (target env name) = read s.files (stagingFile env u.name) := by
    intro name hname
    cases h.touches (target env name) with
    | same hsame => exact .inl hsame
    | staging heq => exact absurd heq (stagingFile_ne_target hname)
    | copying f hf heq =>
      have hpassed := hi.critical h.at_i (critical_of_copyingTo hf)
      exact absurd heq.symm (backupFile_ne hpassed.separate)
    | swap heq hphase hread => exact .inr ⟨target_inj heq, hphase, hread⟩
  by_cases hself : u.phase = .written ∧ read t.files (target env u.name) = read s.files (stagingFile env u.name)
  · refine .inr ⟨hself.1, hself.2, fun name hname hne => ?_⟩
    exact (hcases name hname).resolve_right fun hswap => hne hswap.1
  · refine .inl fun name hname => (hcases name hname).resolve_right ?_
    rintro ⟨rfl, hswap⟩
    exact hself hswap

/-- A workbook that is there stays there. -/
theorem Inv.blocked_step (hi : Inv settled env as s) (h : step env s a = some t)
    (hsettled : settled "BlockedCustomers.xlsx") :
    t.creating = false ∧ read t.files (blockedCustomersPath env) ≠ none := by
  obtain ⟨hidle, hthere⟩ := hi.blocked hsettled
  constructor
  · rw [← Bool.not_eq_true]
    intro hcreating
    rcases step_creating h hcreating with hbefore | hnone
    · rw [hidle] at hbefore
      cases hbefore
    · exact hthere hnone
  · cases step_cases h with
    | upload name content ha hfiles huploads => exact hfiles ▸ hthere
    | create template hcreating hfiles huploads => simp [hfiles]
    | crash hfiles huploads => exact hfiles ▸ hthere
    | still hfiles huploads => exact hfiles ▸ hthere
    | move i u u' h =>
      rcases h.workbooks hi with hsame | ⟨hphase, hread, hother⟩
      · exact (hsame "BlockedCustomers.xlsx" (by decide)) ▸ hthere
      · by_cases hname : u.name = "BlockedCustomers.xlsx"
        · have hholds := hi.holds i u h.at_i
          rw [Upload.Holds, hphase] at hholds
          rw [hholds.2, hname] at hread
          exact ne_of_eq_of_ne hread (by simp)
        · exact (hother "BlockedCustomers.xlsx" (by decide) (Ne.symm hname)) ▸ hthere

/-- A run that writes BlockedCustomers.xlsx changes no other file, and it writes no settled
workbook. -/
theorem Inv.read_create (hi : Inv settled env as s) (hcreating : s.creating = true) {name : String}
    (hsettled : settled name) (template : Bytes) :
    read (write s.files (blockedCustomersPath env) template) (target env name) = read s.files (target env name) := by
  refine read_write_ne (fun heq => ?_) template
  have hname : name = "BlockedCustomers.xlsx" := target_inj heq
  have hidle := (hi.blocked (hname ▸ hsettled)).1
  rw [hcreating] at hidle
  cases hidle

theorem Inv.holds_create (hi : Inv settled env as s) (hcreating : s.creating = true) {i : Nat}
    (hu : s.uploads[i]? = some u) (template : Bytes) :
    u.Holds settled env (write s.files (blockedCustomersPath env) template) := by
  cases hin : u.phase.critical with
  | false => exact holds_of_outside hin _
  | true =>
    have hpassed := hi.critical hu hin
    have hholds := hi.holds i u hu
    have hbackup : ∀ f, read (write s.files (blockedCustomersPath env) template) (backupFile env f) =
        read s.files (backupFile env f) := fun f => read_write_ne (backupFile_ne hpassed.separate) template
    have hstaging : read (write s.files (blockedCustomersPath env) template) (stagingFile env u.name) =
        read s.files (stagingFile env u.name) := read_write_ne (stagingFile_ne_target (by decide)).symm template
    have hthere : read s.files (target env u.name) ≠ none →
        read (write s.files (blockedCustomersPath env) template) (target env u.name) ≠ none := by
      intro hthere
      by_cases heq : target env u.name = blockedCustomersPath env
      · simp [heq]
      · rwa [read_write_ne heq]
    have hbacked : (settled u.name → u.BackedUp env s.files) → settled u.name →
        u.BackedUp env (write s.files (blockedCustomersPath env) template) := by
      intro hbacked hsettled c hc
      rw [hi.read_create hcreating hsettled] at hc
      exact (hbacked hsettled c hc).imp fun f hf => ⟨hf.1, (hbackup f).trans hf.2⟩
    unfold Upload.Holds at hholds ⊢
    cases hphase : u.phase with
    | compared =>
      simp only [hphase] at hholds ⊢
      refine ⟨fun hprevious => hthere (hholds.1 hprevious), fun hsettled => ?_⟩
      rw [hi.read_create hcreating hsettled]
      exact hholds.2 hsettled
    | copyOpen =>
      simp only [hphase] at hholds ⊢
      obtain ⟨f, c, hf, hc, hfree⟩ := hholds
      obtain ⟨c', hc'⟩ := Option.ne_none_iff_exists'.mp (hthere (by simp [hc]))
      exact ⟨f, c', hf, hc', (hbackup f).trans hfree⟩
    | copying written =>
      simp only [hphase] at hholds ⊢
      obtain ⟨f, c, hf, hc, hcopied⟩ := hholds
      obtain ⟨c', hc'⟩ := Option.ne_none_iff_exists'.mp (hthere (by simp [hc]))
      refine ⟨f, c', hf, hc', fun hsettled => ?_⟩
      rw [hi.read_create hcreating hsettled, hc] at hc'
      cases hc'
      exact (hbackup f).trans (hcopied hsettled)
    | staging =>
      simp only [hphase] at hholds ⊢
      exact hbacked hholds
    | writing written =>
      simp only [hphase] at hholds ⊢
      exact ⟨hbacked hholds.1, hstaging.trans hholds.2⟩
    | written =>
      simp only [hphase] at hholds ⊢
      exact ⟨hbacked hholds.1, hstaging.trans hholds.2⟩
    | received | validated | readOnly | waiting | locked | checked | cleaning outcome | leaving outcome | swapped
    | done answer => trivial

theorem Inv.move (hi : Inv settled env as s) {i : Nat} {u' : Upload Summary} (h : Moves env s t i u u')
    (hblocked : settled "BlockedCustomers.xlsx" → t.creating = false ∧ read t.files (blockedCustomersPath env) ≠ none) :
    Inv settled env (as ++ [a]) t where
  blocked := hblocked
  one j k v w hj hk hv hw := by
    rw [h.uploads] at hj hk
    have hother : ∀ (k : Nat) (w : Upload Summary), s.uploads[k]? = some w → w.phase.critical = true →
        u'.phase.critical = true → i = k := by
      intro k w hk hw hu'
      rcases h.keeps.critical hu' with hin | hfree
      · exact hi.one i k u w h.at_i hk hin hw
      · rw [not_critical_of_free hfree hk] at hw
        cases hw
    rcases Calls.get_set hj with ⟨rfl, rfl⟩ | ⟨-, hold⟩
    · rcases Calls.get_set hk with ⟨rfl, rfl⟩ | ⟨-, hold⟩
      · rfl
      · exact hother k w hold hw hv
    · rcases Calls.get_set hk with ⟨rfl, rfl⟩ | ⟨-, hold'⟩
      · exact (hother j v hold hv hw).symm
      · exact hi.one j k v w hold hold' hv hw
  holds j v hj := by
    rw [h.uploads] at hj
    rcases Calls.get_set hj with ⟨rfl, rfl⟩ | ⟨hne, hj⟩
    · exact h.holds settled (hi.critical h.at_i) (hi.holds _ u h.at_i)
    · cases hin : u.phase.critical with
      | false => exact h.files hin ▸ hi.holds j v hj
      | true =>
        refine holds_of_outside ?_ _
        rw [← Bool.not_eq_true]
        exact fun hv => hne (hi.one j i v u hj h.at_i hv hin)
  passed j v hj hpassed := by
    rw [h.uploads] at hj
    rcases Calls.get_set hj with ⟨rfl, rfl⟩ | ⟨-, hj⟩
    · rcases h.keeps.passed hpassed with ⟨hold, hsummary⟩ | hnew
      · have hu := hi.passed _ u h.at_i hold
        refine ⟨h.keeps.name ▸ hu.slot, hu.separate, ?_⟩
        rw [hsummary, h.keeps.name, h.keeps.content]
        exact hu.valid
      · exact hnew
    · exact hi.passed j v hj hpassed
  sent j v hj := by
    rw [h.uploads] at hj
    rcases Calls.get_set hj with ⟨rfl, rfl⟩ | ⟨-, hj⟩
    · rw [h.keeps.name, h.keeps.content]
      exact List.mem_append_left _ (hi.sent _ u h.at_i)
    · exact List.mem_append_left _ (hi.sent j v hj)

theorem Inv.step (hi : Inv settled env as s) (h : step env s a = some t) : Inv settled env (as ++ [a]) t := by
  have hblocked := hi.blocked_step h
  cases step_cases h with
  | upload name content ha hfiles huploads =>
    refine ⟨fun j k v w hj hk hv hw => ?_, fun j v hj => ?_, fun j v hj hpassed => ?_, fun j v hj => ?_, hblocked⟩
    · rw [huploads] at hj hk
      rcases Calls.get_concat hj with hj | ⟨-, rfl⟩
      · rcases Calls.get_concat hk with hk | ⟨-, rfl⟩
        · exact hi.one j k v w hj hk hv hw
        · cases hw
      · cases hv
    · rw [huploads] at hj
      rcases Calls.get_concat hj with hj | ⟨-, rfl⟩
      · exact hfiles ▸ hi.holds j v hj
      · trivial
    · rw [huploads] at hj
      rcases Calls.get_concat hj with hj | ⟨-, rfl⟩
      · exact hi.passed j v hj hpassed
      · cases hpassed
    · rw [huploads] at hj
      rcases Calls.get_concat hj with hj | ⟨-, rfl⟩
      · exact List.mem_append_left _ (hi.sent j v hj)
      · exact List.mem_append_right _ (ha ▸ List.mem_singleton_self _)
  | move i u u' h => exact hi.move h hblocked
  | create template hcreating hfiles huploads =>
    refine ⟨fun j k v w hj hk => ?_, fun j v hj => ?_, fun j v hj => ?_, fun j v hj => ?_, hblocked⟩
    · rw [huploads] at hj hk
      exact hi.one j k v w hj hk
    · rw [huploads] at hj
      exact hfiles ▸ hi.holds_create hcreating hj template
    · rw [huploads] at hj
      exact hi.passed j v hj
    · rw [huploads] at hj
      exact List.mem_append_left _ (hi.sent j v hj)
  | crash hfiles huploads =>
    have hnone : ∀ (j : Nat) (v : Upload Summary), t.uploads[j]? ≠ some v := by simp [huploads]
    exact ⟨fun j k v w hj => absurd hj (hnone j v), fun j v hj => absurd hj (hnone j v),
      fun j v hj => absurd hj (hnone j v), fun j v hj => absurd hj (hnone j v), hblocked⟩
  | still hfiles huploads =>
    refine ⟨fun j k v w hj hk => ?_, fun j v hj => ?_, fun j v hj => ?_, fun j v hj => ?_, hblocked⟩
    · rw [huploads] at hj hk
      exact hi.one j k v w hj hk
    · rw [huploads] at hj
      exact hfiles ▸ hi.holds j v hj
    · rw [huploads] at hj
      exact hi.passed j v hj
    · rw [huploads] at hj
      exact List.mem_append_left _ (hi.sent j v hj)

/-! ## Backups last, and workbooks are backed up -/

/-- A file of the backup folder, which is outside the input folder, that no upload is writing. -/
def Lasting (env : Env Summary) (f : String) (c : Bytes) (s : State Summary) : Prop :=
  ¬ env.inputs <+: env.backups ∧ read s.files (backupFile env f) = some c ∧
    ∀ (i : Nat) (u : Upload Summary), s.uploads[i]? = some u → u.copyingTo ≠ some f

theorem Lasting.step {f : String} {c : Bytes} (hl : Lasting env f c s)
    (h : InputFiles.step env s a = some t) : Lasting env f c t := by
  obtain ⟨hseparate, hread, hcopying⟩ := hl
  refine ⟨hseparate, ?_⟩
  cases step_cases h with
  | upload name content ha hfiles huploads =>
    refine ⟨hfiles ▸ hread, fun j v hj => ?_⟩
    rw [huploads] at hj
    rcases Calls.get_concat hj with hj | ⟨-, rfl⟩
    · exact hcopying j v hj
    · exact fun hf => by cases hf
  | move i u u' h =>
    refine ⟨?_, fun j v hj => ?_⟩
    · cases hin : u.phase.critical with
      | false => exact h.files hin ▸ hread
      | true =>
        cases h.touches (backupFile env f) with
        | same hsame => exact hsame.trans hread
        | staging heq => exact absurd heq (backupFile_ne hseparate)
        | copying f' hf' heq =>
          rw [backupFile_inj heq] at hcopying
          exact absurd hf' (hcopying i u h.at_i)
        | swap heq hphase hstaged => exact absurd heq (backupFile_ne hseparate)
    · rw [h.uploads] at hj
      rcases Calls.get_set hj with ⟨rfl, rfl⟩ | ⟨-, hj⟩
      · intro hf
        rcases h.keeps.copying f hf with hf | hfree
        · exact hcopying _ u h.at_i hf
        · rw [hread] at hfree
          cases hfree
      · exact hcopying j v hj
  | create template hcreating hfiles huploads =>
    refine ⟨?_, fun j v hj => ?_⟩
    · rw [hfiles]
      exact (read_write_ne (backupFile_ne hseparate) template).trans hread
    · rw [huploads] at hj
      exact hcopying j v hj
  | crash hfiles huploads =>
    refine ⟨hfiles ▸ hread, fun j v hj => ?_⟩
    simp [huploads] at hj
  | still hfiles huploads =>
    refine ⟨hfiles ▸ hread, fun j v hj => ?_⟩
    rw [huploads] at hj
    exact hcopying j v hj

/-- Since the workbook `c`: it is there or in a lasting backup, and what is there is it or
an upload that passed validation. -/
structure Kept (env : Env Summary) (name : String) (c : Bytes) (as : List Action) (s : State Summary) : Prop where
  current : ∃ c', read s.files (target env name) = some c' ∧ (c' = c ∨ Action.upload name c' ∈ as ∧
    ∃ summary, env.validateFile name c' = .ok summary)
  backup : read s.files (target env name) = some c ∨ ∃ f, Lasting env f c s

theorem Kept.of_same {name : String} {c : Bytes} (hk : Kept env name c as s)
    (h : InputFiles.step env s a = some t) (hsame : read t.files (target env name) = read s.files (target env name)) :
    Kept env name c (as ++ [a]) t := by
  obtain ⟨c', hc', hfrom⟩ := hk.current
  refine ⟨⟨c', hsame.trans hc', hfrom.imp_right fun hup => ⟨List.mem_append_left _ hup.1, hup.2⟩⟩, ?_⟩
  rcases hk.backup with hthere | ⟨f, hlasting⟩
  · exact .inl (hsame.trans hthere)
  · exact .inr ⟨f, hlasting.step h⟩

/-- The upload at the swap is the only one inside the lock, so nobody writes its backup. -/
theorem Kept.of_swap {c : Bytes} {i : Nat} (hsettled : settled u.name) (hk : Kept env u.name c as s)
    (hi : Inv settled env as s)
    (h : InputFiles.step env s a = some t) (hu : s.uploads[i]? = some u) (hphase : u.phase = .written)
    (hstaged : read t.files (target env u.name) = read s.files (stagingFile env u.name)) :
    Kept env u.name c (as ++ [a]) t := by
  have hin : u.phase.critical = true := by rw [hphase]; rfl
  have hpassed := hi.critical hu hin
  have hholds := hi.holds i u hu
  rw [Upload.Holds, hphase] at hholds
  obtain ⟨hbacked, hcontent⟩ := hholds
  refine ⟨⟨u.content, hstaged.trans hcontent, .inr ⟨?_, hpassed.valid.imp fun _ hv => hv.2⟩⟩, ?_⟩
  · exact List.mem_append_left _ (hi.sent i u hu)
  rcases hk.backup with hthere | ⟨f, hlasting⟩
  · obtain ⟨f, -, hf⟩ := hbacked hsettled c hthere
    have hlasting : Lasting env f c s := by
      refine ⟨hpassed.separate, hf, fun j v hj hcopying => ?_⟩
      obtain rfl := hi.one j i v u hj hu (critical_of_copyingTo hcopying) hin
      rw [hu] at hj
      cases hj
      rcases (phase_of_copyingTo hcopying).2 with hp | ⟨written, hp⟩ <;> (rw [hphase] at hp; cases hp)
    exact .inr ⟨f, hlasting.step h⟩
  · exact .inr ⟨f, hlasting.step h⟩

theorem Kept.step {name : String} (hname : name ∈ SLOT_NAMES) (hsettled : settled name) {c : Bytes}
    (hi : Inv settled env as s) (hk : Kept env name c as s) (h : InputFiles.step env s a = some t) :
    Kept env name c (as ++ [a]) t := by
  cases step_cases h with
  | upload name content ha hfiles huploads => exact hk.of_same h (by rw [hfiles])
  | create template hcreating hfiles huploads =>
    exact hk.of_same h (by rw [hfiles, hi.read_create hcreating hsettled])
  | crash hfiles huploads => exact hk.of_same h (by rw [hfiles])
  | still hfiles huploads => exact hk.of_same h (by rw [hfiles])
  | move i u u' hmove =>
    rcases hmove.workbooks hi with hsame | ⟨hphase, hstaged, hother⟩
    · exact hk.of_same h (hsame name hname)
    · by_cases hne : name = u.name
      · subst hne
        exact hk.of_swap hsettled hi h hmove.at_i hphase hstaged
      · exact hk.of_same h (hother name hname hne)

end

theorem noUploads_inv (files : Disk FilePath Bytes) (mounted writable : Bool) :
    Inv (Settled env files) env [] (noUploads files mounted writable : State Summary) where
  one i j u v hu := by simp [noUploads] at hu
  holds i u hu := by simp [noUploads] at hu
  passed i u hu := by simp [noUploads] at hu
  sent i u hu := by simp [noUploads] at hu
  blocked hsettled := ⟨rfl, hsettled rfl⟩

theorem run_inv {files : Disk FilePath Bytes} {mounted writable : Bool} {as : List Action}
    (h : FreeRun (step env) (noUploads files mounted writable) as s) : Inv (Settled env files) env as s := by
  have htraced := h.traced (Inv (Settled env files) env) (fun _ _ _ _ hi _ hstep => hi.step hstep)
    (noUploads_inv files mounted writable)
  rwa [List.nil_append] at htraced

/-- **No workbook is lost**: in every order of uploads, failures, crashes and runs, a
workbook that is in the input folder and that no run creates is later still there, or is
whole in the backup folder and a whole upload of its name that passed validation is there;
and a backup that no upload is writing stays as it is. -/
theorem uploads_kept {files : Disk FilePath Bytes} {mounted writable : Bool} {as bs : List Action}
    (h : FreeRun (step env) (noUploads files mounted writable) as s) (h' : FreeRun (step env) s bs t) :
    (∀ name ∈ SLOT_NAMES, Settled env files name → ∀ c, read s.files (target env name) = some c →
      ∃ c', read t.files (target env name) = some c' ∧
        (c' = c ∨ (∃ f, read t.files (backupFile env f) = some c) ∧
          Action.upload name c' ∈ as ++ bs ∧ ∃ summary, env.validateFile name c' = .ok summary)) ∧
    (¬ env.inputs <+: env.backups → ∀ f c, read s.files (backupFile env f) = some c →
      (∀ u ∈ s.uploads, u.copyingTo ≠ some f) → read t.files (backupFile env f) = some c) := by
  have hi := run_inv h
  refine ⟨fun name hname hsettled c hc => ?_, fun hseparate f c hc hcopying => ?_⟩
  · have hboth := h'.traced (fun as s => Inv (Settled env files) env as s ∧ Kept env name c as s)
      (fun _ _ _ _ hi _ hstep => ⟨hi.1.step hstep, hi.2.step hname hsettled hi.1 hstep⟩)
      ⟨hi, ⟨⟨c, hc, .inl rfl⟩, .inl hc⟩⟩
    obtain ⟨c', hc', hfrom⟩ := hboth.2.current
    refine ⟨c', hc', ?_⟩
    rcases hfrom with heq | hup
    · exact .inl heq
    · rcases hboth.2.backup with hthere | ⟨f, hlasting⟩
      · exact .inl (Option.some.inj (hc'.symm.trans hthere))
      · exact .inr ⟨⟨f, hlasting.2.1⟩, hup⟩
  · have hboth := h'.traced (fun as s => Inv (Settled env files) env as s ∧ Lasting env f c s)
      (fun _ _ _ _ hi _ hstep => ⟨hi.1.step hstep, hi.2.step hstep⟩)
      ⟨hi, hseparate, hc, fun i u hu => hcopying u (List.mem_of_getElem? hu)⟩
    exact hboth.2.2.1

/-! ### One upload -/

/-- Every workbook is valid, and the hash of a workbook is its first byte. -/
def plainEnv : Env Unit where
  inputs := ["input"]
  backups := ["input_backups"]
  nameRepr := id
  pathText := "/".intercalate
  validateFile _ _ := .ok ()
  sha256 c := toString ((c.headD 0).toNat)

def twoWorkbooks : Disk FilePath Bytes :=
  [(target plainEnv "SalesTeam.xlsx", [1]), (target plainEnv "BlockedCustomers.xlsx", [0])]

def inputFolder : State Unit := noUploads twoWorkbooks true true

/-- Uploads of both workbooks up to their answers, between two runs. -/
def replaceWorkbooks : List Action :=
  [.runBegins, .runLooks, .runEnds, .upload "SalesTeam.xlsx" [2], .upload "BlockedCustomers.xlsx" [3]] ++
    List.replicate 16 (.advance 0 "20260101T000000Z" 1) ++ List.replicate 16 (.advance 1 "20260101T000000Z" 1) ++
    [.runBegins, .runLooks]

theorem uploads_kept_replace : ∃ t, FreeRun (step plainEnv) inputFolder replaceWorkbooks t ∧
    read t.files (target plainEnv "BlockedCustomers.xlsx") = some [3] ∧
    ∃ f, read t.files (backupFile plainEnv f) = some [0] := by
  have hrun : (exec (step plainEnv) (fun _ _ => True) inputFolder replaceWorkbooks).map (fun t =>
      decide (read t.files (target plainEnv "BlockedCustomers.xlsx") = some [3])) = some true := by decide +kernel
  obtain ⟨t, ht, hrun⟩ := Option.map_eq_some_iff.mp hrun
  have htarget := of_decide_eq_true hrun
  have hfree := (exec_eq_some _ _ _ _ _).mp ht
  have hsettled : Settled plainEnv twoWorkbooks "BlockedCustomers.xlsx" := fun _ => by decide
  have hkept := (uploads_kept (.nil inputFolder) hfree).1 "BlockedCustomers.xlsx" (by decide)
    hsettled [0] (by decide)
  obtain ⟨c', hc', hfrom⟩ := hkept
  obtain rfl : [3] = c' := Option.some.inj (htarget.symm.trans hc')
  exact ⟨t, hfree, htarget, (hfrom.resolve_left (by decide)).1⟩

end SalesDashboard.EtlApi.InputFiles
