import ScriptForge.Proofs.Pipeline.Protocol

/-!
# More retries

A run whose candidate has been accepted by both loops has not used up its retries, or it has been
accepted with the last of them. Either way it would not have used more of them, so the same run with
more retries does the same (`run_withRetries`).

Nothing but counting attempts reads the caps of a run, so the two runs stay abreast up to there
(`actionsCapped`). A loop counts the same attempts where its counter has not reached the cap, and it
ends at the same candidate where it ends by accepting one.
-/

namespace ScriptForge.Pipeline

/-- The setup with other numbers of retries. -/
def Setup.withRetries (setup : Setup) (review validation : Nat) : Setup :=
  { setup with
    config := { setup.config with reviewRetries := review, validationRetries := validation } }

theorem Setup.cap_le_withRetries (setup : Setup) {review validation : Nat}
    (hreview : setup.config.reviewRetries ≤ review)
    (hvalidation : setup.config.validationRetries ≤ validation) (rejection : Rejection) :
    setup.config.cap rejection ≤ (setup.withRetries review validation).config.cap rejection := by
  cases rejection <;> simp only [Config.cap, Setup.withRetries] <;> omega

/-- The state with the caps of a configuration. -/
def RunState.capped (s : RunState) (config : Config) : RunState :=
  { s with budget := ⟨⟨s.budget.review.used, config.cap .review⟩,
      ⟨s.budget.validation.used, config.cap .validation⟩⟩ }

/-- The second state is the first with the caps of a configuration. -/
def Capped (config : Config) (s t : RunState) : Prop :=
  t = s.capped config

namespace RunM

variable {setup : Setup} {input : RunInput} {review validation : Nat} {s s' : RunState}

theorem happen_capped (config : Config) (happening : Happening) :
    Abreast (Capped config) (Capped config) (happen happening) (happen happening) := by
  rintro s _ rfl
  exact .ok () rfl

theorem step_capped (setup : Setup) (review validation : Nat) (config : Config) (slot : Slot) :
    Abreast (Capped config) (Capped config) (step setup slot)
      (step (setup.withRetries review validation) slot) := by
  refine .step ?_ ?_ ?_
  · rintro s _ rfl
    rfl
  · rintro s _ rfl
    rfl
  · rintro s _ output rfl
    cases slot <;> rfl

theorem write_capped (config : Config) (stats : RoundStats) :
    Abreast (Capped config) (Capped config) (write setup stats)
      (write (setup.withRetries review validation) stats) := by
  refine .write rfl ?_ (fun _ _ h => h) (fun stats => happen_capped config _) stats
  rintro s _ rfl
  rfl

theorem actionsCapped (setup : Setup) (review validation : Nat) (config : Config) :
    ActionsAbreast setup (setup.withRetries review validation) (Capped config) (Capped config) where
  classifier := rfl
  validator := rfl
  repackages := rfl
  step slot _ := step_capped setup review validation config slot
  package _ := step_capped setup review validation config .package
  emit := by
    rintro s _ rfl event
    exact happen_capped config _
  diagnose name value := by
    rintro s _ rfl
    exact .ok () rfl
  direct directive := by
    rintro s _ rfl
    exact .ok () rfl
  advanceRound := by
    refine .advanceRound ?_ ?_ ?_ (write_capped config) fun round reason => happen_capped config _
    · rintro s _ rfl
      rfl
    · rintro s _ rfl
      rfl
    · rintro s _ round ledger rfl
      rfl

/-! ## The loops -/

/-- Where the counter of a loop has not reached its cap, more retries count the same attempt. -/
theorem run_countAttempt_capped {p : Point} (h : Reaches setup input p s) (rejection : Rejection)
    {config : Config} (hspare : p.counted rejection < setup.config.cap rejection)
    (hmore : setup.config.cap rejection ≤ config.cap rejection) :
    (countAttempt rejection).run s = (.ok (p.counted rejection + 1), s.counted rejection) ∧
      (countAttempt rejection).run (s.capped config) =
        (.ok (p.counted rejection + 1), (s.counted rejection).capped config) := by
  have hbudget := h.budget_eq
  have hcap := Nat.min_eq_left hspare
  have hcap' := Nat.min_eq_left (hspare.trans_le hmore)
  have hcount : (s.budget.record rejection).used rejection = p.counted rejection + 1 := by
    rw [hbudget]
    cases rejection <;> exact hcap
  have hcount' : ((s.capped config).budget.record rejection).used rejection =
      p.counted rejection + 1 := by
    simp only [RunState.capped, hbudget]
    cases rejection <;> exact hcap'
  have hstate : (s.capped config).counted rejection = (s.counted rejection).capped config := by
    simp only [RunState.counted, RunState.capped, hbudget]
    cases rejection <;> simp [Budget.record, Counter.record, hcap, hcap']
  exact ⟨Prod.ext (congrArg Except.ok hcount) rfl, Prod.ext (congrArg Except.ok hcount') hstate⟩

/-- A review loop that accepts its candidate does the same with more retries. -/
theorem reviewLoop_withRetries {k more : Nat} {s s' : RunState} {settled : Settled} (spare : Nat)
    (h : Reaches setup input (.draft k) s)
    (hspare : k + 1 + spare = setup.config.cap .review) (hmore : spare ≤ more)
    (hcap : setup.config.cap .review ≤ (setup.withRetries review validation).config.cap .review)
    (hrun : (reviewLoop setup spare).run s = (.ok settled, s')) (haccepted : settled.accepted) :
    (reviewLoop (setup.withRetries review validation) more).run
      (s.capped (setup.withRetries review validation).config) =
        (.ok settled, s'.capped (setup.withRetries review validation).config) := by
  have hactions :=
    actionsCapped setup review validation (setup.withRetries review validation).config
  have hcounted : (Point.draft k).counted .review < setup.config.cap .review := h.within.1
  obtain ⟨hcount, hcount'⟩ := run_countAttempt_capped h .review hcounted hcap
  unfold reviewLoop at hrun ⊢
  rw [run_bind_of_ok hcount] at hrun
  rw [run_bind_of_ok hcount']
  obtain ⟨⟨script, review?⟩, s₁, hcandidate, hrun⟩ := exists_of_run_bind_ok hrun
  obtain ⟨_, hcandidate', rfl⟩ := hactions.reviewedCandidate.exists_of_run_ok rfl hcandidate
  rw [run_bind_of_ok hcandidate']
  have h₁ := (reviewedCandidate_reaches h.draft).of_run_ok hcandidate
  cases review? with
  | none =>
    cases hrun
    rfl
  | some review =>
    cases spare with
    | zero =>
      -- the candidate is kept without having been accepted
      cases hrun
      cases haccepted
    | succ spare =>
      obtain ⟨more, rfl⟩ : ∃ more', more = more' + 1 := ⟨more - 1, by omega⟩
      obtain ⟨_, s₂, hback, hrun⟩ := exists_of_run_bind_ok hrun
      obtain ⟨_, hback', rfl⟩ := (hactions.goBack review script).exists_of_run_ok rfl hback
      have h₂ := (goBack_reaches h₁ (by omega)).of_run_ok hback
      change (goBack _ review script >>= fun _ => reviewLoop _ more).run _ = _
      rw [run_bind_of_ok hback']
      exact reviewLoop_withRetries spare h₂ (by omega) (by omega) hcap hrun haccepted

/-- A validation loop that accepts its script does the same with more retries. -/
theorem validationLoop_withRetries {passed : Bool} {k m more : Nat} {script : String}
    {s s' : RunState} {settled : Settled} (spare : Nat)
    (h : Reaches setup input (.validate passed k m script) s)
    (hspare : m + 1 + spare = setup.config.cap .validation) (hmore : spare ≤ more)
    (hcap : setup.config.cap .validation ≤
      (setup.withRetries review validation).config.cap .validation)
    (hrun : (validationLoop setup spare script).run s = (.ok settled, s'))
    (haccepted : settled.accepted) :
    (validationLoop (setup.withRetries review validation) more script).run
      (s.capped (setup.withRetries review validation).config) =
        (.ok settled, s'.capped (setup.withRetries review validation).config) := by
  have hactions :=
    actionsCapped setup review validation (setup.withRetries review validation).config
  have hcounted : (Point.validate passed k m script).counted .validation <
      setup.config.cap .validation := h.within.2
  obtain ⟨hcount, hcount'⟩ := run_countAttempt_capped h .validation hcounted hcap
  unfold validationLoop at hrun ⊢
  rw [run_bind_of_ok hcount] at hrun
  rw [run_bind_of_ok hcount']
  obtain ⟨verdict, s₁, hvalidated, hrun⟩ := exists_of_run_bind_ok hrun
  obtain ⟨_, hvalidated', rfl⟩ := (hactions.validated script).exists_of_run_ok rfl hvalidated
  rw [run_bind_of_ok hvalidated']
  obtain ⟨rfl, h₁⟩ := (validated_reaches h).of_run_ok hvalidated
  split at h₁
  · rw [if_pos ‹_›] at hrun ⊢
    cases hrun
    rfl
  · rw [if_neg ‹_›] at hrun ⊢
    cases spare with
    | zero =>
      -- the script is kept without having been accepted
      cases hrun
      cases haccepted
    | succ spare =>
      obtain ⟨more, rfl⟩ : ∃ more', more = more' + 1 := ⟨more - 1, by omega⟩
      obtain ⟨next, s₂, hagain, hrun⟩ := exists_of_run_bind_ok hrun
      obtain ⟨_, hagain', rfl⟩ := (hactions.regenerate _ script).exists_of_run_ok rfl hagain
      have h₂ := (regenerate_reaches h₁ (by omega)).of_run_ok hagain
      change (regenerate _ _ script >>= fun next => validationLoop _ more next).run _ = _
      rw [run_bind_of_ok hagain']
      exact validationLoop_withRetries spare h₂ (by omega) (by omega) hcap hrun haccepted

/-- A generation fork whose loops accept does the same with more retries. -/
theorem generation_withRetries {s s' : RunState} {script : String} {outcome : Outcome}
    (hreview : setup.config.reviewRetries ≤ review)
    (hvalidation : setup.config.validationRetries ≤ validation)
    (h : Reaches setup input (.draft 0) s)
    (hrun : (generation setup).run s = (.ok (script, outcome), s'))
    (hpassed : outcome.reviewPassed) (hvalid : outcome.scriptValid) :
    (generation (setup.withRetries review validation)).run
      (s.capped (setup.withRetries review validation).config) =
        (.ok (script, outcome), s'.capped (setup.withRetries review validation).config) := by
  have hcap := setup.cap_le_withRetries hreview hvalidation
  have hspare : s.budget.max .review = setup.config.cap .review :=
    congrArg (·.max .review) h.budget_eq
  unfold generation at hrun ⊢
  rw [run_get_bind, hspare] at hrun
  rw [run_get_bind]
  obtain ⟨reviewed, s₁, hreviewed, hrun⟩ := exists_of_run_bind_ok hrun
  obtain ⟨k, hk, h₁⟩ :=
    (reviewLoop_reaches _ h (Nat.add_sub_of_le h.within.1)).of_run_ok hreviewed
  have hspare₁ : s₁.budget.max .validation = setup.config.cap .validation :=
    congrArg (·.max .validation) h₁.budget_eq
  rw [run_get_bind, hspare₁] at hrun
  obtain ⟨validated, s₂, hvalidated, hrun⟩ := exists_of_run_bind_ok hrun
  cases hrun
  have hreviewed' := reviewLoop_withRetries _ h (Nat.add_sub_of_le h.within.1)
    (Nat.sub_le_sub_right (hcap .review) 1) (hcap .review) hreviewed hpassed
  have hvalidated' := validationLoop_withRetries _ h₁ (Nat.add_sub_of_le h₁.within.2)
    (Nat.sub_le_sub_right (hcap .validation) 1) (hcap .validation) hvalidated hvalid
  exact (run_bind_of_ok hreviewed').trans
    ((run_get_bind _ _).trans (run_bind_of_ok hvalidated'))

/-! ## The whole run -/

theorem forks_withRetries {s s' : RunState} {script : String} {outcome : Outcome}
    (hreview : setup.config.reviewRetries ≤ review)
    (hvalidation : setup.config.validationRetries ≤ validation)
    (h : Reaches setup input (.encapsulated setup.config 0) s)
    (hrun : (forks setup).run s = (.ok (script, outcome), s'))
    (hpassed : outcome.reviewPassed) (hvalid : outcome.scriptValid) :
    (forks (setup.withRetries review validation)).run
      (s.capped (setup.withRetries review validation).config) =
        (.ok (script, outcome), s'.capped (setup.withRetries review validation).config) := by
  rw [Point.encapsulated] at h
  rw [forks] at hrun ⊢
  change (if setup.config.concurrentForks then forksTogether _ else forksInTurn _).run _ = _
  split at h
  · rw [if_pos ‹_›] at hrun ⊢
    obtain ⟨output, after, hpackage, hgenerated, rfl⟩ := exists_of_run_forksTogether_ok hrun
    have hgenerated' :=
      generation_withRetries hreview hvalidation h.fork hgenerated hpassed hvalid
    have hpackage' : ((setup.withRetries review validation).stages
        ((s.capped (setup.withRetries review validation).config).stepCall .package)).result =
          .ok output := hpackage
    exact run_forksTogether hpackage' hgenerated'
  · rw [if_neg ‹_›] at hrun ⊢
    obtain ⟨_, s₁, hpackage, hrun⟩ := exists_of_run_bind_ok hrun
    obtain ⟨_, hpackage', rfl⟩ := (step_capped setup review validation
      (setup.withRetries review validation).config .package).exists_of_run_ok rfl hpackage
    have h₁ := (step_reaches h (.package 0)).of_run_ok hpackage
    exact (run_bind_of_ok hpackage').trans
      (generation_withRetries hreview hvalidation h₁ hrun hpassed hvalid)

theorem finish_capped (setup : Setup) (review validation : Nat) (config : Config) (script : String)
    (outcome : Outcome) :
    Abreast (Capped config) (Capped config) (finish setup script outcome)
      (finish (setup.withRetries review validation) script outcome) := by
  have hflush : Abreast (Capped config) (Capped config) (flushAll setup)
      (flushAll (setup.withRetries review validation)) := by
    refine .read ?_
    rintro s _ rfl
    refine (Abreast.change ?_).bind fun _ => .writeAll (write_capped config) _
    rintro t _ rfl
    rfl
  refine hflush.bind fun _ => .read ?_
  rintro s _ rfl
  exact (happen_capped config _).bind fun _ => .ret _

theorem start_capped (setup : Setup) (input : RunInput) (review validation : Nat) :
    Capped (setup.withRetries review validation).config (.start setup.config input)
      (.start (setup.withRetries review validation).config input) := by
  simp [Capped, RunState.capped, RunState.start, Config.budget, Budget.ofCaps, Counter.ofCap,
    Config.cap, Nat.max_comm]

theorem whole_withRetries {s' : RunState} {output : RunOutput}
    (hreview : setup.config.reviewRetries ≤ review)
    (hvalidation : setup.config.validationRetries ≤ validation)
    (hrun : (whole setup).run (.start setup.config input) = (.ok output, s'))
    (hpassed : output.outcome.reviewPassed) (hvalid : output.outcome.scriptValid) :
    (whole (setup.withRetries review validation)).run
      (.start (setup.withRetries review validation).config input) =
        (.ok output, s'.capped (setup.withRetries review validation).config) := by
  have hactions :=
    actionsCapped setup review validation (setup.withRetries review validation).config
  obtain ⟨_, s₁, hstarted, hrun⟩ := exists_of_run_bind_ok hrun
  obtain ⟨_, s₂, hidentified, hrun⟩ := exists_of_run_bind_ok hrun
  obtain ⟨_, s₃, hencapsulated, hrun⟩ := exists_of_run_bind_ok hrun
  obtain ⟨⟨script, outcome⟩, s₄, hforks, hfinish⟩ := exists_of_run_bind_ok hrun
  obtain ⟨rfl, -⟩ := (ends_finish script outcome s₄).of_run_ok hfinish
  have h₁ : Reaches setup input (.identify 0) s₁ := by
    cases hstarted
    exact .start
  have h₂ := (step_reaches h₁ (.identify 0)).of_run_ok hidentified
  have h₃ := (step_reaches h₂ (.encapsulate 0)).of_run_ok hencapsulated
  obtain ⟨_, hstarted', rfl⟩ := (happen_capped _ _).exists_of_run_ok
    (start_capped setup input review validation) hstarted
  obtain ⟨_, hidentified', rfl⟩ :=
    (hactions.step .identify (by decide)).exists_of_run_ok rfl hidentified
  obtain ⟨_, hencapsulated', rfl⟩ :=
    (hactions.step .encapsulate (by decide)).exists_of_run_ok rfl hencapsulated
  have hforks' := forks_withRetries hreview hvalidation h₃ hforks hpassed hvalid
  obtain ⟨_, hfinish', rfl⟩ := (finish_capped setup review validation
    (setup.withRetries review validation).config script outcome).exists_of_run_ok rfl hfinish
  rw [whole]
  exact (run_bind_of_ok hstarted').trans <| (run_bind_of_ok hidentified').trans <|
    (run_bind_of_ok hencapsulated').trans <| (run_bind_of_ok hforks').trans hfinish'

end RunM

/-- **More retries.** A run that returns with its candidate accepted by both loops makes the same
calls, tells the same events and returns the same with more retries, and no budget is exhausted. -/
theorem run_withRetries (setup : Setup) (input : RunInput) {output : RunOutput}
    {review validation : Nat} (hreview : setup.config.reviewRetries ≤ review)
    (hvalidation : setup.config.validationRetries ≤ validation)
    (hok : (run setup input).result = .ok output) (hpassed : output.outcome.reviewPassed)
    (hvalid : output.outcome.scriptValid) :
    run (setup.withRetries review validation) input = run setup input ∧
      (run setup input).trace.events.filterMap Event.exhausted? = [] := by
  constructor
  · have hcode := isBlank_of_run_ok hok
    obtain ⟨other, s, hrun, hreport⟩ | ⟨error, s, hrun, hreport⟩ := run_cases setup hcode
    · rw [hreport] at hok ⊢
      cases hok
      rw [run, hcode, RunM.whole_withRetries hreview hvalidation hrun hpassed hvalid]
      rfl
    · rw [hreport] at hok
      cases hok
  · obtain ⟨passed, valid, k, m, script, after, s, h, hjoins, htrace, rfl⟩ := finished_of_run_ok hok
    rw [htrace, (hjoins.tellsOutput h).exhausted]
    cases hpassed
    cases hvalid
    rfl

/-- The first review rejects its candidate and the second accepts it, with the last attempt that is
allowed. -/
def Setup.acceptingSecond : Setup :=
  { Setup.constant { reviewRetries := 2, validationRetries := 1 } "" with
    stages := fun call => ⟨1, .ok ⟨
      if call.slot = .combine then "service s{}"
      else if .review ∈ call.earlier then "VERDICT: pass" else "VERDICT: fail", .zero⟩⟩
    validator := ⟨.grammar⟩ }

theorem more_retries_after_second_candidate :
    let input : RunInput := { code := "fn main() {}" }
    ∃ output, (run .acceptingSecond input).result = .ok output ∧
      output.outcome = ⟨true, true, 2, 1⟩ ∧
      run (Setup.acceptingSecond.withRetries 5 3) input = run .acceptingSecond input ∧
      (run .acceptingSecond input).trace.events.filterMap Event.exhausted? = [] := by
  intro input
  have hcode : input.isBlank = false := by decide
  have htaken : Setup.acceptingSecond.NothingRefused := by
    intro sink hsink
    cases hsink
  obtain ⟨output, hok⟩ := exists_run_ok hcode (fun _ => ⟨_, rfl⟩) htaken
  have houtcome : (run .acceptingSecond input).result.toOption.map RunOutput.outcome =
      some ⟨true, true, 2, 1⟩ := by
    decide +kernel
  rw [hok] at houtcome
  have houtcome : output.outcome = ⟨true, true, 2, 1⟩ := Option.some.inj houtcome
  exact ⟨output, hok, houtcome, run_withRetries .acceptingSecond input (by decide) (by decide) hok
    (by rw [houtcome]) (by rw [houtcome])⟩

end ScriptForge.Pipeline
