import ScriptForge.Proofs.Pipeline.Ends

/-!
# The calls of a run

A run whose forks are run in turn calls the stages of an *itinerary*: the opening, then candidates
that are generated, combined and reviewed, each but the last followed by the way back to the source,
then candidates that are generated and combined only. How many there are of either kind is up to the
verdicts of the reviews and validations, within the retries of the configuration.

`Course` is what a trace shows of this. Each part of a run adds its own course to that of the run
(`reviewLoop_course`, `validationLoop_course`); a part that ends with an error has called the first
few slots of its course. `whole_course` puts the parts together.
-/

namespace ScriptForge.Pipeline

/-! ## Itineraries -/

namespace Itinerary

/-- The slots called before the first candidate. -/
def opening : List Slot := [.identify, .encapsulate, .package]

/-- The slots called to make a candidate and review it. -/
def candidate : List Slot := [.generate, .combine, .review]

/-- The slots called to make a candidate after the validation has rejected one. -/
def redraft : List Slot := [.generate, .combine]

/-- The slots called between a review that rejects a candidate and the next candidate. -/
def wayBack (repackage : Bool) : List Slot :=
  [.identify, .encapsulate] ++ if repackage then [.package] else []

/-- The slots called to review `n` candidates. -/
def reviews (repackage : Bool) (n : Nat) : List Slot :=
  (wayBack repackage).intercalate (List.replicate n candidate)

/-- The slots called for `n` more candidates that are validated only. -/
def redrafts (n : Nat) : List Slot :=
  (List.replicate n redraft).flatten

theorem reviews_one (repackage : Bool) : reviews repackage 1 = candidate := by
  simp [reviews]

theorem reviews_succ (repackage : Bool) (n : Nat) :
    reviews repackage (n + 2) =
      candidate ++ (wayBack repackage ++ reviews repackage (n + 1)) := by
  simp [reviews, List.replicate_succ, List.intercalate]

theorem redrafts_succ (n : Nat) : redrafts (n + 1) = redraft ++ redrafts n := by
  simp [redrafts, List.replicate_succ]

end Itinerary

open Itinerary in
/-- The slots that a run calls to review `reviewed` candidates and to validate `validated` scripts,
the first of which is the last reviewed candidate. -/
def itinerary (repackage : Bool) (reviewed validated : Nat) : List Slot :=
  opening ++ reviews repackage reviewed ++ redrafts (validated - 1)

/-- Whether a run packages again on the way back. -/
def Config.repackages (config : Config) : Bool :=
  config.repackageOnRetry && !config.concurrentForks

/-! ## Courses -/

/-- What a trace shows of the course of a run. -/
structure Course where
  /-- The slots that were called. -/
  slots : List Slot
  /-- The texts of the combining stage. -/
  scripts : List String
  /-- The texts of the reviewing stage. -/
  reviews : List String
  verdicts : List ReviewVerdict
  validities : List Bool

namespace Course

instance : Append Course where
  append a b := ⟨a.slots ++ b.slots, a.scripts ++ b.scripts, a.reviews ++ b.reviews,
    a.verdicts ++ b.verdicts, a.validities ++ b.validities⟩

theorem append_mk (a b : Course) :
    a ++ b = ⟨a.slots ++ b.slots, a.scripts ++ b.scripts, a.reviews ++ b.reviews,
      a.verdicts ++ b.verdicts, a.validities ++ b.validities⟩ := rfl

theorem append_assoc (a b c : Course) : a ++ b ++ c = a ++ (b ++ c) := by
  simp [append_mk]

/-- Nothing. -/
def empty : Course := ⟨[], [], [], [], []⟩

@[simp] theorem append_empty (a : Course) : a ++ empty = a := by
  simp [append_mk, empty]

/-- The course of slots that are called where their texts do not matter. -/
def ofSlots (slots : List Slot) : Course := ⟨slots, [], [], [], []⟩

/-- The course of one stage that returns a text. -/
def ofStep (slot : Slot) (text : String) : Course :=
  ⟨[slot], if slot = .combine then [text] else [], if slot = .review then [text] else [], [], []⟩

/-- The course of one event. -/
def ofEvent : Event → Course
  | .reviewed _ _ verdict => ⟨[], [], [], [verdict], []⟩
  | .validated _ _ valid _ => ⟨[], [], [], [], [valid]⟩
  | _ => empty

end Course

/-- The course that a trace shows. -/
def Trace.course (stages : Stages) (trace : Trace) : Course :=
  ⟨trace.slots, trace.texts stages .combine, trace.texts stages .review, trace.verdicts,
    trace.validities⟩

@[simp] theorem Trace.course_append (stages : Stages) (first second : Trace) :
    Trace.course stages (first ++ second) = first.course stages ++ second.course stages := by
  simp [course, Course.append_mk]

/-- The course of a run up to a state. -/
def RunState.course (s : RunState) (setup : Setup) : Course :=
  s.trace.course setup.stages

theorem RunState.course_emitted (s : RunState) (setup : Setup) (event : Event) :
    (s.happened (.emitted event)).course setup = s.course setup ++ .ofEvent event := by
  simp only [course, happened_trace, Trace.course_append]
  cases event <;> rfl

theorem RunState.course_wrote (s : RunState) (setup : Setup) (stats : RoundStats) :
    (s.happened (.wrote stats)).course setup = s.course setup := by
  simp only [course, happened_trace, Trace.course_append]
  exact Course.append_empty _

namespace RunM

variable {setup : Setup} {s : RunState}

/-! ## The course of each part of a run -/

theorem step_course (slot : Slot) :
    Ends (step setup slot) s
      (fun text s' => s'.course setup = s.course setup ++ .ofStep slot text ∧ s'.budget = s.budget)
      (fun _ s' => s'.trace.slots = s.trace.slots ++ [slot]) := by
  refine ends_step (fun error _ => ?_) (fun output h => ⟨?_, s.stepped_budget setup slot output⟩)
  · simp [Trace.slots]
  · simp only [RunState.course, RunState.stepped_trace, RunState.replied_trace, Trace.course_append]
    cases slot <;> simp [Trace.course, Trace.slots, Trace.texts, Trace.verdicts,
      Trace.validities, Course.append_mk, Course.ofStep, Reply.text?_of_ok h]

/-- Statistics do not show in the course. -/
theorem writeAll_course (rounds : List RoundStats) :
    Ends (writeAll setup rounds) s (fun _ s' => s'.course setup = s.course setup)
      (fun _ s' => s'.trace.slots = s.trace.slots) := by
  have hwrite : ∀ stats, Keeps (fun s' => s'.course setup = s.course setup)
      (fun _ s' => s'.trace.slots = s.trace.slots) (write setup stats) := by
    intro stats s' hs'
    exact ends_write (fun _ => hs') (fun _ _ _ _ => congrArg Course.slots hs')
      (fun _ _ _ => (s'.course_wrote setup stats).trans hs')
  exact Keeps.writeAll hwrite rounds s rfl

theorem advanceRound_course (reason : Rejection) :
    Ends (advanceRound setup reason) s (fun _ s' => s'.course setup = s.course setup)
      (fun _ s' => s'.trace.slots = s.trace.slots) := by
  simp only [advanceRound, flushBefore, ends_bind, ends_modify, ends_get, ends_emit]
  refine (writeAll_course _).imp (fun _ s' h => ?_) (fun _ _ h => h)
  rw [RunState.course_emitted, h]
  exact Course.append_empty _

/-- An error within a plan: only its first few slots have been called. -/
def Within (plan : List Slot) : PipelineError → RunState → Prop :=
  fun _ s' => s'.trace.slots <+: plan

theorem Within.append {plan more : List Slot} {error : PipelineError} {s' : RunState}
    (h : Within plan error s') : Within (plan ++ more) error s' :=
  h.trans (List.prefix_append plan more)

/-- A step whose slot is the next one of a plan, and what comes after it. -/
theorem ends_step_bind {slot : Slot} {rest : List Slot} {f : String → RunM α}
    {ok : α → RunState → Prop}
    (hf : ∀ text s', s'.course setup = s.course setup ++ .ofStep slot text → s'.budget = s.budget →
      Ends (f text) s' ok (Within (s'.trace.slots ++ rest))) :
    Ends (step setup slot >>= f) s ok (Within (s.trace.slots ++ slot :: rest)) := by
  rw [ends_bind]
  refine (step_course slot).imp (fun text s' h => ?_) (fun _ s' h => ?_)
  · obtain ⟨h, hbudget⟩ := h
    have hslots : s'.trace.slots = s.trace.slots ++ [slot] := congrArg Course.slots h
    simpa [hslots] using hf text s' h hbudget
  · exact ⟨rest, by simp [h]⟩

theorem reviewedCandidate_course :
    Ends (reviewedCandidate setup) s
      (fun (script, review?) s' => ∃ review,
        s'.course setup = s.course setup ++
          ⟨Itinerary.candidate, [script], [review], [setup.classifier review], []⟩ ∧
        review? = if (setup.classifier review).passed then none else some review)
      (Within (s.trace.slots ++ Itinerary.candidate)) := by
  refine ends_step_bind fun _ s₁ h₁ _ => ends_step_bind fun script s₂ h₂ _ =>
    ends_step_bind fun review s₃ h₃ _ => ?_
  have hcourse : (s₃.happened (.emitted (.reviewed setup.runId s₃.round
      (setup.classifier review)))).course setup = s.course setup ++
        ⟨Itinerary.candidate, [script], [review], [setup.classifier review], []⟩ := by
    rw [RunState.course_emitted, h₃, h₂, h₁, Course.append_assoc, Course.append_assoc,
      Course.append_assoc]
    rfl
  simp only [ends_bind, ends_get, ends_emit, ends_diagnose]
  split
  · exact ⟨review, hcourse, by simp [*]⟩
  · exact ⟨review, hcourse, by simp [*]⟩

theorem goBack_course (review script : String) :
    Ends (goBack setup review script) s
      (fun _ s' => s'.course setup = s.course setup ++
        .ofSlots (Itinerary.wayBack setup.config.repackages))
      (Within (s.trace.slots ++ Itinerary.wayBack setup.config.repackages)) := by
  rw [goBack, ends_bind, ends_direct, ends_bind]
  refine (advanceRound_course .review).imp (fun _ s₁ h₁ => ?_) (fun _ s₁ h₁ => ?_)
  · have hslots : s₁.trace.slots = s.trace.slots := congrArg Course.slots h₁
    rw [← hslots]
    change s₁.course setup = s.course setup at h₁
    refine ends_step_bind fun _ s₂ h₂ _ => ends_step_bind fun _ s₃ h₃ _ => ?_
    change Ends (if setup.config.repackages = true then _ else _) s₃ _ _
    split
    · refine ends_step_bind fun _ s₄ h₄ _ => ?_
      rw [ends_pure, h₄, h₃, h₂, h₁, Course.append_assoc, Course.append_assoc]
      simp only [Itinerary.wayBack, *]
      rfl
    · rw [ends_pure, h₃, h₂, h₁, Course.append_assoc]
      simp only [Itinerary.wayBack, *]
      rfl
  · rw [Within, h₁]
    exact List.prefix_append _ _

/-- How the review loop settles after `rejected + 1` candidates: all reviews but the last fail, and
the last one passes or there is no retry to spare. -/
structure Reviewed (setup : Setup) (spare rejected : Nat) (settled : Settled) (course : Course) :
    Prop where
  within : rejected ≤ spare
  slots : course.slots = Itinerary.reviews setup.config.repackages (rejected + 1)
  scripts : ∃ earlier, course.scripts = earlier ++ [settled.script] ∧ earlier.length = rejected
  verdicts : course.verdicts = course.reviews.map setup.classifier
  last : ∃ last, course.verdicts = List.replicate rejected .fail ++ [last] ∧
    (last = .pass ∨ rejected = spare)
  validities : course.validities = []

theorem Reviewed.one {spare : Nat} {settled : Settled} (review : String)
    (h : setup.classifier review = .pass ∨ spare = 0) :
    Reviewed setup spare 0 settled
      ⟨Itinerary.candidate, [settled.script], [review], [setup.classifier review], []⟩ where
  within := Nat.zero_le _
  slots := (Itinerary.reviews_one _).symm
  scripts := ⟨[], rfl, rfl⟩
  verdicts := rfl
  last := ⟨_, rfl, h.imp_right Eq.symm⟩
  validities := rfl

theorem Reviewed.next {spare rejected : Nat} {settled : Settled} (script : String)
    {review : String} {course : Course} (hreview : setup.classifier review = .fail)
    (h : Reviewed setup spare rejected settled course) :
    Reviewed setup (spare + 1) (rejected + 1) settled
      (⟨Itinerary.candidate, [script], [review], [setup.classifier review], []⟩ ++
        (.ofSlots (Itinerary.wayBack setup.config.repackages) ++ course)) := by
  obtain ⟨earlier, hscripts, hlength⟩ := h.scripts
  obtain ⟨last, hverdicts, hlast⟩ := h.last
  exact {
    within := Nat.succ_le_succ h.within
    slots := by
      rw [Itinerary.reviews_succ, ← h.slots]
      rfl
    scripts := ⟨script :: earlier, by simp [Course.append_mk, Course.ofSlots, hscripts],
      by simp [hlength]⟩
    verdicts := by simp [Course.append_mk, Course.ofSlots, h.verdicts]
    last := ⟨last,
      by simp [Course.append_mk, Course.ofSlots, hverdicts, hreview, List.replicate_succ],
      hlast.imp_right (congrArg _)⟩
    validities := by simp [Course.append_mk, Course.ofSlots, h.validities] }

theorem reviewLoop_course (spare : Nat) (s : RunState) :
    Ends (reviewLoop setup spare) s
      (fun settled s' => ∃ rejected course, s'.course setup = s.course setup ++ course ∧
        Reviewed setup spare rejected settled course)
      (fun error s' => ∃ rejected ≤ spare,
        Within (s.trace.slots ++ Itinerary.reviews setup.config.repackages (rejected + 1)) error
          s') := by
  unfold reviewLoop
  rw [ends_bind, ends_countAttempt, ends_bind]
  refine reviewedCandidate_course.imp (fun candidate s₁ h₁ => ?_)
    (fun _ _ h => ⟨0, Nat.zero_le _, by rwa [Itinerary.reviews_one]⟩)
  obtain ⟨script, review?⟩ := candidate
  obtain ⟨review, hcourse, rfl⟩ := h₁
  change s₁.course setup = s.course setup ++ _ at hcourse
  have hslots : s₁.trace.slots = s.trace.slots ++ Itinerary.candidate :=
    congrArg Course.slots hcourse
  cases hverdict : setup.classifier review with
  | pass => exact ⟨0, _, hcourse, .one review (.inl hverdict)⟩
  | fail =>
    cases spare with
    | zero =>
      refine ⟨0, _, ?_, .one review (.inr rfl)⟩
      exact (s₁.course_emitted setup _).trans ((Course.append_empty _).trans hcourse)
    | succ spare =>
      change Ends (goBack setup review script >>= fun _ => reviewLoop setup spare) s₁ _ _
      rw [ends_bind]
      refine (goBack_course review script).imp (fun _ s₂ h₂ => ?_) (fun error s₂ h₂ => ?_)
      · have hslots₂ :
            s₂.trace.slots = s₁.trace.slots ++ Itinerary.wayBack setup.config.repackages :=
          congrArg Course.slots h₂
        refine (reviewLoop_course spare s₂).imp (fun settled s₃ h₃ => ?_) (fun error s₃ h₃ => ?_)
        · obtain ⟨rejected, course, hc, h⟩ := h₃
          refine ⟨rejected + 1, _, ?_, h.next script hverdict⟩
          rw [hc, h₂, hcourse, Course.append_assoc, Course.append_assoc]
        · obtain ⟨rejected, hle, h⟩ := h₃
          refine ⟨rejected + 1, Nat.succ_le_succ hle, ?_⟩
          rwa [Itinerary.reviews_succ, ← List.append_assoc, ← List.append_assoc, ← hslots,
            ← hslots₂]
      · refine ⟨1, Nat.succ_le_succ (Nat.zero_le _), ?_⟩
        rw [Itinerary.reviews_succ, ← List.append_assoc, ← List.append_assoc, ← hslots]
        exact h₂.append

/-! ## The validation loop -/

theorem validated_course (script : String) :
    Ends (validated setup script) s
      (fun verdict s' => verdict = setup.validator.validate script ∧
        s'.course setup = s.course setup ++ ⟨[], [], [], [], [verdict.valid]⟩)
      (fun _ _ => False) := by
  simp only [validated, ends_bind, ends_get, ends_emit, ends_diagnose, ends_pure, true_and]
  exact s.course_emitted setup _

theorem regenerate_course (verdict : Quality.Verdict) (script : String) :
    Ends (regenerate setup verdict script) s
      (fun next s' => s'.course setup = s.course setup ++ ⟨Itinerary.redraft, [next], [], [], []⟩)
      (Within (s.trace.slots ++ Itinerary.redraft)) := by
  rw [regenerate, ends_bind, ends_direct, ends_bind]
  refine (advanceRound_course .validation).imp (fun _ s₁ h₁ => ?_) (fun _ s₁ h₁ => ?_)
  · have hslots : s₁.trace.slots = s.trace.slots := congrArg Course.slots h₁
    rw [← hslots]
    change s₁.course setup = s.course setup at h₁
    refine ends_step_bind fun _ s₂ h₂ _ => ?_
    refine (step_course .combine).imp (fun next s₃ h₃ => ?_) (fun _ s₃ h₃ => ?_)
    · rw [h₃.1, h₂, h₁, Course.append_assoc]
      rfl
    · exact ⟨[], (List.append_nil _).trans h₃⟩
  · rw [Within, h₁]
    exact List.prefix_append _ _

/-- How the validation loop settles after `rejected + 1` scripts, the first of which is `script`:
all but the last are invalid, and the last one is valid or there is no retry to spare. -/
structure Validated (setup : Setup) (spare rejected : Nat) (script : String) (settled : Settled)
    (course : Course) : Prop where
  within : rejected ≤ spare
  slots : course.slots = Itinerary.redrafts rejected
  scripts : course.scripts.length = rejected
  validities : course.validities =
    (script :: course.scripts).map fun script => (setup.validator.validate script).valid
  last : ∃ last, course.validities = List.replicate rejected false ++ [last] ∧
    (last = true ∨ rejected = spare)
  reviews : course.reviews = []
  verdicts : course.verdicts = []

theorem Validated.one {spare : Nat} {settled : Settled} (script : String)
    (h : (setup.validator.validate script).valid = true ∨ spare = 0) :
    Validated setup spare 0 script settled
      ⟨[], [], [], [], [(setup.validator.validate script).valid]⟩ where
  within := Nat.zero_le _
  slots := rfl
  scripts := rfl
  validities := rfl
  last := ⟨_, rfl, h.imp_right Eq.symm⟩
  reviews := rfl
  verdicts := rfl

theorem Validated.next {spare rejected : Nat} {settled : Settled} {script next : String}
    {course : Course} (hscript : (setup.validator.validate script).valid = false)
    (h : Validated setup spare rejected next settled course) :
    Validated setup (spare + 1) (rejected + 1) script settled
      (⟨[], [], [], [], [(setup.validator.validate script).valid]⟩ ++
        (⟨Itinerary.redraft, [next], [], [], []⟩ ++ course)) := by
  obtain ⟨last, hvalidities, hlast⟩ := h.last
  exact {
    within := Nat.succ_le_succ h.within
    slots := by
      rw [Itinerary.redrafts_succ, ← h.slots]
      rfl
    scripts := by simp [Course.append_mk, h.scripts]
    validities := by simp [Course.append_mk, h.validities]
    last := ⟨last, by simp [Course.append_mk, hvalidities, hscript, List.replicate_succ],
      hlast.imp_right (congrArg _)⟩
    reviews := by simp [Course.append_mk, h.reviews]
    verdicts := by simp [Course.append_mk, h.verdicts] }

theorem validationLoop_course (spare : Nat) (script : String) (s : RunState) :
    Ends (validationLoop setup spare script) s
      (fun settled s' => ∃ rejected course, s'.course setup = s.course setup ++ course ∧
        Validated setup spare rejected script settled course)
      (fun error s' => ∃ rejected ≤ spare,
        Within (s.trace.slots ++ Itinerary.redrafts rejected) error s') := by
  unfold validationLoop
  rw [ends_bind, ends_countAttempt, ends_bind]
  refine (validated_course script).imp (fun verdict s₁ h₁ => ?_) (fun _ _ h => h.elim)
  obtain ⟨rfl, hcourse⟩ := h₁
  change s₁.course setup = s.course setup ++ _ at hcourse
  have hslots : s₁.trace.slots = s.trace.slots ++ [] := congrArg Course.slots hcourse
  split
  · exact ⟨0, _, hcourse, .one script (.inl ‹_›)⟩
  · rename_i hinvalid
    rw [Bool.not_eq_true] at hinvalid
    cases spare with
    | zero =>
      refine ⟨0, _, ?_, .one script (.inr rfl)⟩
      exact (s₁.course_emitted setup _).trans ((Course.append_empty _).trans hcourse)
    | succ spare =>
      rw [ends_bind]
      refine (regenerate_course _ script).imp (fun next s₂ h₂ => ?_) (fun error s₂ h₂ => ?_)
      · have hslots₂ : s₂.trace.slots = s₁.trace.slots ++ Itinerary.redraft :=
          congrArg Course.slots h₂
        refine (validationLoop_course spare next s₂).imp (fun settled s₃ h₃ => ?_)
          (fun error s₃ h₃ => ?_)
        · obtain ⟨rejected, course, hc, h⟩ := h₃
          refine ⟨rejected + 1, _, ?_, h.next hinvalid⟩
          rw [hc, h₂, hcourse, Course.append_assoc, Course.append_assoc]
        · obtain ⟨rejected, hle, h⟩ := h₃
          refine ⟨rejected + 1, Nat.succ_le_succ hle, ?_⟩
          rwa [Itinerary.redrafts_succ, ← List.append_assoc, ← List.append_nil s.trace.slots,
            ← hslots, ← hslots₂]
      · refine ⟨1, Nat.succ_le_succ (Nat.zero_le _), ?_⟩
        rw [Itinerary.redrafts_succ, ← List.append_assoc, ← List.append_nil s.trace.slots, ← hslots]
        exact h₂.append

/-! ## The whole run -/

/-- The caps of the budget never change. -/
theorem budget_max_kept (setup : Setup) (rejection : Rejection) (n : Nat) :
    ActionsKeep setup (fun s => s.budget.max rejection = n) (fun _ _ => True) where
  step slot s hs := ends_step (fun _ _ => trivial) (fun _ _ => by simpa using hs)
  emit _ _ hs := hs
  diagnose _ _ _ hs := hs
  countAttempt other s hs := by
    rw [ends_countAttempt]
    cases rejection <;> cases other <;> exact hs
  direct _ _ hs := hs
  advanceRound := .advanceRound (fun _ _ _ hs => hs)
    (fun _ _ hs => ends_write (fun _ => hs) (fun _ _ _ _ => trivial) fun _ _ _ => hs)
    fun _ _ hs => hs

theorem generation_course :
    Ends (generation setup) s
      (fun _ s' => ∃ rejected invalid reviewed validated course course',
        s'.course setup = s.course setup ++ (course ++ course') ∧
        Reviewed setup (s.budget.max .review - 1) rejected reviewed course ∧
        Validated setup (s.budget.max .validation - 1) invalid reviewed.script validated course')
      (fun error s' => ∃ rejected ≤ s.budget.max .review - 1,
        ∃ invalid ≤ s.budget.max .validation - 1,
        Within (s.trace.slots ++ Itinerary.reviews setup.config.repackages (rejected + 1) ++
          Itinerary.redrafts invalid) error s') := by
  simp only [generation, ends_bind, ends_get, ends_pure]
  have hbudget := (budget_max_kept setup .validation (s.budget.max .validation)).reviewLoop
    (s.budget.max .review - 1) s rfl
  refine ((reviewLoop_course _ s).and hbudget).imp (fun reviewed s₁ h₁ => ?_)
    (fun error s₁ h₁ => ?_)
  · obtain ⟨⟨rejected, course, hc, hreviewed⟩, hmax⟩ := h₁
    have hslots : s₁.trace.slots =
        s.trace.slots ++ Itinerary.reviews setup.config.repackages (rejected + 1) :=
      (congrArg Course.slots hc).trans (congrArg _ hreviewed.slots)
    rw [hmax]
    refine (validationLoop_course _ reviewed.script s₁).imp (fun validated s₂ h₂ => ?_)
      (fun error s₂ h₂ => ?_)
    · obtain ⟨invalid, course', hc', hvalidated⟩ := h₂
      refine ⟨rejected, invalid, reviewed, validated, course, course', ?_, hreviewed, hvalidated⟩
      rw [hc', hc, Course.append_assoc]
    · obtain ⟨invalid, hle, h⟩ := h₂
      exact ⟨rejected, hreviewed.within, invalid, hle, by rwa [← hslots]⟩
  · obtain ⟨⟨rejected, hle, h⟩, -⟩ := h₁
    exact ⟨rejected, hle, 0, Nat.zero_le _, h.append⟩

theorem finish_course (script : String) (outcome : Outcome) :
    Ends (finish setup script outcome) s (fun _ s' => s'.course setup = s.course setup)
      (fun _ s' => s'.trace.slots = s.trace.slots) := by
  simp only [finish, flushAll, ends_bind, ends_get, ends_modify, ends_emit, ends_pure]
  refine (writeAll_course _).imp (fun _ s' h => ?_) (fun _ _ h => h)
  rw [RunState.course_emitted, h]
  exact Course.append_empty _

open Itinerary in
theorem whole_course (hturn : setup.config.concurrentForks = false) (input : RunInput) :
    Ends (whole setup) (.start setup.config input)
      (fun _ s' => ∃ rejected invalid reviewed validated course course',
        s'.course setup = .ofSlots opening ++ (course ++ course') ∧
        Reviewed setup (setup.config.budget.max .review - 1) rejected reviewed course ∧
        Validated setup (setup.config.budget.max .validation - 1) invalid reviewed.script validated
          course')
      (fun error s' => ∃ rejected ≤ setup.config.budget.max .review - 1,
        ∃ invalid ≤ setup.config.budget.max .validation - 1,
        Within (opening ++ reviews setup.config.repackages (rejected + 1) ++ redrafts invalid)
          error s') := by
  have hbad : ∀ error s', Within opening error s' →
      ∃ rejected ≤ setup.config.budget.max .review - 1,
      ∃ invalid ≤ setup.config.budget.max .validation - 1,
      Within (opening ++ reviews setup.config.repackages (rejected + 1) ++ redrafts invalid)
        error s' :=
    fun error s' h => ⟨0, Nat.zero_le _, 0, Nat.zero_le _, h.append.append⟩
  rw [whole, ends_bind, ends_emit, ends_bind]
  refine (step_course .identify).imp (fun _ s₁ h => ?_)
    (fun error s₁ h₁ => hbad error s₁ ⟨[.encapsulate, .package], congrArg (· ++ _) h₁⟩)
  obtain ⟨h₁, hb₁⟩ := h
  have hslots₁ : s₁.trace.slots = [.identify] := congrArg Course.slots h₁
  rw [ends_bind]
  refine (step_course .encapsulate).imp (fun _ s₂ h => ?_)
    (fun error s₂ h₂ => hbad error s₂ ⟨[.package], by simp [h₂, hslots₁, opening]⟩)
  obtain ⟨h₂, hb₂⟩ := h
  have hslots₂ : s₂.trace.slots = [.identify, .encapsulate] := by
    rw [← List.singleton_append, ← hslots₁]
    exact congrArg Course.slots h₂
  rw [ends_bind, forks, hturn]
  change Ends (forksInTurn setup) s₂ _ _
  rw [forksInTurn, ends_bind]
  refine (step_course .package).imp (fun _ s₃ h => ?_)
    (fun error s₃ h₃ => hbad error s₃ ⟨[], by simp [h₃, hslots₂, opening]⟩)
  obtain ⟨h₃, hb₃⟩ := h
  have hbudget : s₃.budget = setup.config.budget := by rw [hb₃, hb₂, hb₁]; rfl
  have hcourse : s₃.course setup = .ofSlots opening := by rw [h₃, h₂, h₁]; rfl
  have hslots₃ : s₃.trace.slots = opening := congrArg Course.slots hcourse
  rw [← hbudget, ← hcourse, ← hslots₃]
  refine generation_course.imp (fun generated s₄ h₄ => ?_) (fun _ _ h => h)
  obtain ⟨script, outcome⟩ := generated
  obtain ⟨rejected, invalid, reviewed, validated, course, course', hc, hreviewed, hvalidated⟩ := h₄
  refine (finish_course script outcome).imp (fun _ s₅ h₅ => ?_) (fun error s₅ h₅ => ?_)
  · exact ⟨rejected, invalid, reviewed, validated, course, course', h₅.trans hc, hreviewed,
      hvalidated⟩
  · refine ⟨rejected, hreviewed.within, invalid, hvalidated.within, ?_⟩
    rw [Within, h₅, List.append_assoc, ← hreviewed.slots, ← hvalidated.slots]
    exact ⟨[], (List.append_nil _).trans (congrArg Course.slots hc)⟩

end RunM

end ScriptForge.Pipeline
