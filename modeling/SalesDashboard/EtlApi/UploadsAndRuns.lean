import SalesDashboard.EtlApi.UploadsKept

/-! Uploads while the ETL runs. The check that no run is active is made under the lock of the
uploads, which the start of a run does not take: but for the BlockedCustomers.xlsx that it
writes itself where there is none, a run sees at most the one workbook change whose upload had
passed the check when the run began. No upload gets stuck. -/

namespace SalesDashboard.EtlApi.InputFiles
open Transition Files

variable {Summary : Type} {env : Env Summary} {s t : State Summary} {u v : Upload Summary}
  {settled : String → Prop}

/-! ## No upload gets stuck -/

theorem backupName_injective (name stamp : String) : Function.Injective (backupName name stamp) := by
  intro n m h
  unfold backupName at h
  dsimp only at h
  split at h
  · next hn =>
    split at h
    · next hm => rw [hn, hm]
    · have := congrArg String.length h
      simp only [String.length_append] at this
      have hdash : "-".length = 1 := rfl
      omega
  · split at h
    · have := congrArg String.length h
      simp only [String.length_append] at this
      have hdash : "-".length = 1 := rfl
      omega
    · exact Nat.repr_injective ((String.append_right_inj _).mp ((String.append_left_inj _).mp h))

theorem backupPath_injective (env : Env Summary) (name stamp : String) :
    Function.Injective fun counter => backupFile env (backupName name stamp counter) :=
  fun _ _ h => backupName_injective name stamp (backupFile_inj h)

/-- An upload inside the lock has a next statement. -/
theorem critical_moves {as : List Action} (hi : Inv settled env as s) {i : Nat} (hu : s.uploads[i]? = some u)
    (hin : u.phase.critical = true) (stamp : String) (chunk : Nat) : uploadStep env s stamp chunk u ≠ none := by
  have hholds := hi.holds i u hu
  unfold Upload.Holds at hholds
  unfold uploadStep
  cases hphase : u.phase with
  | locked | checked | staging | cleaning outcome => simp
  | compared =>
    dsimp only
    obtain ⟨counter, hcounter⟩ := exists_firstFree s.files (backupPath_injective env u.name stamp)
    split
    · simp
    · split
      · simp
      · simp [hcounter]
  | copyOpen =>
    simp only [hphase] at hholds ⊢
    obtain ⟨f, c, hf, -⟩ := hholds
    simp [hf]
  | copying written =>
    simp only [hphase] at hholds ⊢
    obtain ⟨f, c, hf, hc, -⟩ := hholds
    simp [hf, hc]
  | writing written =>
    dsimp only
    split <;> simp
  | written =>
    simp only [hphase] at hholds ⊢
    simp [hholds.2]
  | leaving outcome => cases outcome <;> simp
  | received | validated | readOnly | waiting | swapped | done answer =>
    rw [hphase] at hin
    cases hin

/-- **No upload gets stuck**: in every state that is reached, an upload that has no answer has
a next statement, or waits for the lock while the upload inside it has one. -/
theorem upload_moves {files : Disk FilePath Bytes} {mounted writable : Bool} {as : List Action}
    (h : FreeRun (step env) (noUploads files mounted writable) as s) {i : Nat} (hu : s.uploads[i]? = some u)
    (hdone : ∀ answer, u.phase ≠ .done answer) (stamp : String) (chunk : Nat) :
    uploadStep env s stamp chunk u ≠ none ∨
      u.phase = .waiting ∧ ∃ v ∈ s.uploads, v.phase.critical = true ∧ uploadStep env s stamp chunk v ≠ none := by
  have hi := run_inv h
  cases hphase : u.phase with
  | locked | checked | compared | copyOpen | copying written | staging | writing written | written
  | cleaning outcome | leaving outcome => exact .inl (critical_moves hi hu (by rw [hphase]; rfl) stamp chunk)
  | received =>
    refine .inl ?_
    unfold uploadStep
    simp only [hphase]
    split <;> simp
  | validated =>
    refine .inl ?_
    unfold uploadStep
    simp [hphase]
  | readOnly | swapped =>
    obtain ⟨summary, hsummary, -⟩ := (hi.passed i u hu (by rw [hphase]; rfl)).valid
    refine .inl ?_
    unfold uploadStep
    simp [hphase, hsummary]
  | waiting =>
    cases hlocked : s.locked with
    | false =>
      refine .inl ?_
      unfold uploadStep
      simp [hphase, hlocked]
    | true =>
      obtain ⟨v, hv, hin⟩ := List.any_eq_true.mp hlocked
      obtain ⟨j, hj⟩ := List.mem_iff_getElem?.mp hv
      exact .inr ⟨rfl, v, hv, hin, critical_moves hi hj hin stamp chunk⟩
  | done answer => exact absurd hphase (hdone answer)

/-- Two uploads of one workbook: the first is inside the lock, the second waits. -/
def twoUploads : List Action :=
  [.upload "SalesTeam.xlsx" [2], .upload "SalesTeam.xlsx" [3]] ++
    List.replicate 3 (.advance 0 "20260101T000000Z" 1) ++ List.replicate 2 (.advance 1 "20260101T000000Z" 1)

theorem upload_moves_two : ∃ s u, FreeRun (step plainEnv) inputFolder twoUploads s ∧ s.uploads[1]? = some u ∧
    (uploadStep plainEnv s "20260101T000000Z" 1 u ≠ none ∨ u.phase = .waiting ∧
      ∃ v ∈ s.uploads, v.phase.critical = true ∧ uploadStep plainEnv s "20260101T000000Z" 1 v ≠ none) := by
  have hrun : (exec (step plainEnv) (fun _ _ => True) inputFolder twoUploads).map (fun s =>
      decide (s.uploads[1]?.map Upload.phase = some .waiting)) = some true := by decide +kernel
  obtain ⟨s, hs, hrun⟩ := Option.map_eq_some_iff.mp hrun
  obtain ⟨u, hu, hphase⟩ := Option.map_eq_some_iff.mp (of_decide_eq_true hrun)
  have hfree := (exec_eq_some _ _ _ _ _).mp hs
  have hdone : ∀ answer, u.phase ≠ .done answer := fun answer h => by
    rw [hphase] at h
    cases h
  exact ⟨s, u, hfree, hu, upload_moves hfree hu hdone _ _⟩

/-! ## What a run sees -/

/-- No action ends the runs. -/
def Goes (a : Action) : Prop := a ≠ .runEnds ∧ a ≠ .crash

instance (a : Action) : Decidable (Goes a) := inferInstanceAs (Decidable (_ ∧ _))

theorem step_running {a : Action} (ha : Goes a) (hrun : s.running = true) (h : step env s a = some t) :
    t.running = true := by
  cases a with
  | upload name content =>
    cases h
    exact hrun
  | advance i stamp chunk =>
    simp only [step] at h
    split at h
    · cases h
    · obtain ⟨next, -, rfl⟩ := Option.map_eq_some_iff.mp h
      exact hrun
  | fail i exc =>
    simp only [step] at h
    split at h
    · cases h
    · obtain ⟨u', -, rfl⟩ := Option.map_eq_some_iff.mp h
      exact hrun
  | crash => exact absurd rfl ha.2
  | runBegins =>
    simp only [step, hrun, if_true] at h
    cases h
  | runLooks =>
    simp only [step, hrun, if_true] at h
    cases h
    rfl
  | runWrites template more =>
    simp only [step] at h
    split at h
    · cases h
      exact hrun
    · cases h
  | runEnds => exact absurd rfl ha.1
  | access writable =>
    cases h
    exact hrun

/-- The settled workbooks of `s` are those of `t`. -/
def SameWorkbooks (settled : String → Prop) (env : Env Summary) (s t : State Summary) : Prop :=
  ∀ name ∈ SLOT_NAMES, settled name → read t.files (target env name) = read s.files (target env name)

/-- The settled workbooks are those of `s`, but for one that an upload of `s` past its check
brought. -/
def OneSwap (settled : String → Prop) (env : Env Summary) (s t : State Summary) : Prop :=
  ∃ u ∈ s.uploads, u.phase.pastCheck = true ∧ u.name ∈ SLOT_NAMES ∧ settled u.name ∧
    read t.files (target env u.name) = some u.content ∧
    ∀ name ∈ SLOT_NAMES, settled name → name ≠ u.name →
      read t.files (target env name) = read s.files (target env name)

/-- Since the run was seen at `s`: as long as nothing has changed, the uploads past their
check were past it at `s`; after the change there are none. -/
structure Seen (settled : String → Prop) (env : Env Summary) (s t : State Summary) : Prop where
  running : t.running = true
  seen : (SameWorkbooks settled env s t ∧ ∀ (i : Nat) (v : Upload Summary), t.uploads[i]? = some v →
      v.phase.pastCheck = true → ∃ u ∈ s.uploads, u.phase.pastCheck = true ∧ u.name = v.name ∧ u.content = v.content) ∨
    OneSwap settled env s t ∧ ∀ (i : Nat) (v : Upload Summary), t.uploads[i]? = some v → v.phase.pastCheck = false

section
variable {as : List Action} {a : Action} {s₀ : State Summary}

/-- A step that changes no workbook and brings no upload past its check. -/
theorem Seen.of_same (hs : Seen settled env s₀ s) (hrun : t.running = true) (hsame : SameWorkbooks settled env s t)
    (huploads : ∀ (i : Nat) (v : Upload Summary), t.uploads[i]? = some v → v.phase.pastCheck = true →
      ∃ w, s.uploads[i]? = some w ∧ w.phase.pastCheck = true ∧ w.name = v.name ∧ w.content = v.content) :
    Seen settled env s₀ t := by
  refine ⟨hrun, ?_⟩
  rcases hs.seen with ⟨hno, hpast⟩ | ⟨⟨u, hu, hupast, hslot, hsettled, hcontent, hother⟩, hnone⟩
  · refine .inl ⟨fun name hname hset => (hsame name hname hset).trans (hno name hname hset), fun i v hv hvpast => ?_⟩
    obtain ⟨w, hw, hwpast, hname, hcontent⟩ := huploads i v hv hvpast
    obtain ⟨u, hu, hupast, hname', hcontent'⟩ := hpast i w hw hwpast
    exact ⟨u, hu, hupast, hname'.trans hname, hcontent'.trans hcontent⟩
  · refine .inr ⟨⟨u, hu, hupast, hslot, hsettled, (hsame u.name hslot hsettled).trans hcontent,
      fun name hname hset hne => ?_⟩, fun i v hv => ?_⟩
    · exact (hsame name hname hset).trans (hother name hname hset hne)
    · rw [← Bool.not_eq_true]
      intro hvpast
      obtain ⟨w, hw, hwpast, -⟩ := huploads i v hv hvpast
      rw [hnone i w hw] at hwpast
      cases hwpast

/-- An upload swaps a settled workbook: it was past its check, and it was the only one. -/
theorem Seen.of_swap (hi : Inv settled env as s) (hs : Seen settled env s₀ s) (hrun : t.running = true) {i : Nat}
    {u' : Upload Summary} (h : Moves env s t i u u') (hsettled : settled u.name) (hphase : u.phase = .written)
    (hnot : u'.phase.pastCheck = false)
    (hread : read t.files (target env u.name) = read s.files (stagingFile env u.name))
    (hother : ∀ name ∈ SLOT_NAMES, name ≠ u.name →
      read t.files (target env name) = read s.files (target env name)) : Seen settled env s₀ t := by
  have hpast : u.phase.pastCheck = true := by rw [hphase]; rfl
  have hin := critical_of_pastCheck hpast
  have hholds := hi.holds i u h.at_i
  rw [Upload.Holds, hphase] at hholds
  refine ⟨hrun, .inr ⟨?_, fun j v hj => ?_⟩⟩
  · rcases hs.seen with ⟨hno, hbefore⟩ | ⟨-, hnone⟩
    · obtain ⟨w, hw, hwpast, hname, hcontent⟩ := hbefore i u h.at_i hpast
      refine ⟨w, hw, hwpast, hname ▸ (hi.critical h.at_i hin).slot, hname ▸ hsettled, ?_,
        fun name hslot hset hne => ?_⟩
      · rw [hname, hcontent, hread, hholds.2]
      · rw [hname] at hne
        exact (hother name hslot hne).trans (hno name hslot hset)
    · rw [hnone i u h.at_i] at hpast
      cases hpast
  · rw [h.uploads] at hj
    rcases Calls.get_set hj with ⟨rfl, rfl⟩ | ⟨hne, hj⟩
    · exact hnot
    · rw [← Bool.not_eq_true]
      exact fun hv => hne (hi.one j i v u hj h.at_i (critical_of_pastCheck hv) hin)

theorem Seen.step (hi : Inv settled env as s) (hs : Seen settled env s₀ s) (ha : Goes a)
    (h : InputFiles.step env s a = some t) : Seen settled env s₀ t := by
  have hrun := step_running ha hs.running h
  cases step_cases h with
  | upload name content ha hfiles huploads =>
    refine hs.of_same hrun (fun name _ _ => by rw [hfiles]) fun i v hv hpast => ?_
    rw [huploads] at hv
    rcases Calls.get_concat hv with hv | ⟨-, rfl⟩
    · exact ⟨v, hv, hpast, rfl, rfl⟩
    · cases hpast
  | create template hcreating hfiles huploads =>
    refine hs.of_same hrun (fun name _ hset => ?_) fun i v hv hpast => ?_
    · rw [hfiles]
      exact hi.read_create hcreating hset template
    · rw [huploads] at hv
      exact ⟨v, hv, hpast, rfl, rfl⟩
  | crash hfiles huploads =>
    refine hs.of_same hrun (fun name _ _ => by rw [hfiles]) fun i v hv => ?_
    simp [huploads] at hv
  | still hfiles huploads =>
    refine hs.of_same hrun (fun name _ _ => by rw [hfiles]) fun i v hv hpast => ?_
    rw [huploads] at hv
    exact ⟨v, hv, hpast, rfl, rfl⟩
  | move i u u' hmove =>
    have hpasses : ∀ (j : Nat) (v : Upload Summary), t.uploads[j]? = some v → v.phase.pastCheck = true →
        ∃ w, s.uploads[j]? = some w ∧ w.phase.pastCheck = true ∧ w.name = v.name ∧ w.content = v.content := by
      intro j v hj hpast
      rw [hmove.uploads] at hj
      rcases Calls.get_set hj with ⟨rfl, rfl⟩ | ⟨-, hj⟩
      · rcases hmove.keeps.past hpast with hbefore | hidle
        · exact ⟨u, hmove.at_i, hbefore, hmove.keeps.name.symm, hmove.keeps.content.symm⟩
        · rw [hs.running] at hidle
          cases hidle
      · exact ⟨v, hj, hpast, rfl, rfl⟩
    rcases hmove.workbooks hi with hsame | ⟨hphase, hread, hother⟩
    · exact hs.of_same hrun (fun name hname _ => hsame name hname) hpasses
    · by_cases hsettled : settled u.name
      · exact hs.of_swap hi hrun hmove hsettled hphase (hmove.written hs.running hphase) hread hother
      · refine hs.of_same hrun (fun name hname hset => hother name hname fun heq => ?_) hpasses
        exact hsettled (heq ▸ hset)

end

/-- **A run sees one change at most**: from any state with an active run, for as long as no
run ends, the workbooks that no run creates stay as they are, or one of them becomes the
upload of it that was past its check then, and the others stay as they are. -/
theorem workbooks_in_run {files : Disk FilePath Bytes} {mounted writable : Bool} {as bs : List Action}
    (h : FreeRun (step env) (noUploads files mounted writable) as s) (hrun : s.running = true)
    (h' : FreeRun (step env) s bs t) (hgoes : ∀ a ∈ bs, Goes a) :
    SameWorkbooks (Settled env files) env s t ∨ OneSwap (Settled env files) env s t := by
  have hi := run_inv h
  have hstart : Seen (Settled env files) env s s := ⟨hrun, .inl ⟨fun _ _ _ => rfl, fun i v hv hpast =>
    ⟨v, List.mem_of_getElem? hv, hpast, rfl, rfl⟩⟩⟩
  have hboth := (h'.strengthen hgoes).traced
    (fun as t => Inv (Settled env files) env as t ∧ Seen (Settled env files) env s t)
    (fun _ _ _ _ hi ha hstep => ⟨hi.1.step hstep, hi.2.step hi.1 ha.2 hstep⟩) ⟨hi, hstart⟩
  exact hboth.2.seen.imp And.left And.left

/-! ### A workbook that changes under a run -/

/-- An upload that has passed its check when a run begins. -/
def checkedThenRun : List Action :=
  .upload "SalesTeam.xlsx" [2] :: List.replicate 4 (.advance 0 "20260101T000000Z" 1) ++ [.runBegins, .runLooks]

/-- The rest of the upload. -/
def swapInRun : List Action := List.replicate 11 (.advance 0 "20260101T000000Z" 1)

theorem workbooks_in_run_swap : ∃ s t, FreeRun (step plainEnv) inputFolder checkedThenRun s ∧
    FreeRun (step plainEnv) s swapInRun t ∧ s.running = true ∧
    ¬ SameWorkbooks (Settled plainEnv twoWorkbooks) plainEnv s t ∧
    OneSwap (Settled plainEnv twoWorkbooks) plainEnv s t := by
  have hrun : (exec (step plainEnv) (fun _ _ => True) inputFolder checkedThenRun).bind (fun s =>
      (exec (step plainEnv) (fun _ _ => True) s swapInRun).map fun t => decide (s.running = true) &&
        decide (read s.files (target plainEnv "SalesTeam.xlsx") = some [1]) &&
        decide (read t.files (target plainEnv "SalesTeam.xlsx") = some [2])) = some true := by decide +kernel
  obtain ⟨s, hs, hrun⟩ := Option.bind_eq_some_iff.mp hrun
  obtain ⟨t, ht, hrun⟩ := Option.map_eq_some_iff.mp hrun
  rw [Bool.and_eq_true, Bool.and_eq_true, decide_eq_true_eq, decide_eq_true_eq, decide_eq_true_eq] at hrun
  obtain ⟨⟨hrunning, hbefore⟩, hafter⟩ := hrun
  have hfree := (exec_eq_some _ _ _ _ _).mp hs
  have hfree' := (exec_eq_some _ _ _ _ _).mp ht
  have hchanged : ¬ SameWorkbooks (Settled plainEnv twoWorkbooks) plainEnv s t := by
    intro hsame
    have := hsame "SalesTeam.xlsx" (by decide) fun h => absurd h (by decide)
    rw [hbefore, hafter] at this
    exact absurd this (by decide)
  have hor := workbooks_in_run hfree hrunning hfree' (by decide)
  exact ⟨s, t, hfree, hfree', hrunning, hchanged, hor.resolve_left hchanged⟩

end SalesDashboard.EtlApi.InputFiles
