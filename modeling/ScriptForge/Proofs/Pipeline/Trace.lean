import Mathlib.Data.List.DropRight
import Mathlib.Data.List.Induction
import ScriptForge.Pipeline.Run

/-!
# Views of a trace

Every view of a trace picks some of its moments and keeps their order, so the view of two traces one
after the other is the two views one after the other. Beside the views that the pipeline itself
reads there are the slots that were called, the texts that the stages of a slot returned, the
verdicts of the reviews, the outcomes of the validations and the reasons why rounds were started.

`sinceCall` is what has happened since a slot was called last. `EachCall` relates each call to what
has happened before it.
-/

namespace ScriptForge.Pipeline

/-- The text that a stage replies with, if it does not fail. -/
def Reply.text? (reply : Reply) : Option String :=
  match reply.result with
  | .ok output => some output.text
  | .error _ => none

theorem Reply.text?_of_ok {reply : Reply} {output : StageOutput} (h : reply.result = .ok output) :
    reply.text? = some output.text := by
  rw [Reply.text?, h]

/-- Whether a stage of a slot is called at a moment. -/
def Moment.calls (moment : Moment) (slot : Slot) : Bool :=
  match moment.happening with
  | .called call => call.slot = slot
  | _ => false

namespace Trace

/-- The slots of the calls. -/
def slots (trace : Trace) : List Slot :=
  trace.calls.map Call.slot

/-- The texts that the calls of a slot returned. -/
def texts (stages : Stages) (slot : Slot) (trace : Trace) : List String :=
  trace.calls.filterMap fun call => if call.slot = slot then (stages call).text? else none

/-- The verdicts of the reviews. -/
def verdicts (trace : Trace) : List ReviewVerdict :=
  trace.events.filterMap fun
    | .reviewed _ _ verdict => some verdict
    | _ => none

/-- Whether the validated scripts were valid. -/
def validities (trace : Trace) : List Bool :=
  trace.events.filterMap fun
    | .validated _ _ valid _ => some valid
    | _ => none

/-- What has happened since a slot was called last. -/
def sinceCall (slot : Slot) (trace : Trace) : Trace :=
  trace.rtakeWhile (!·.calls slot)

/-- Why rounds have been started. -/
def rejections (trace : Trace) : List Rejection :=
  trace.events.filterMap fun
    | .roundAdvanced _ _ reason => some reason
    | _ => none

/-- Each call of a trace is in a relation to what has happened before it. -/
def EachCall (relation : Trace → Call → Prop) (trace : Trace) : Prop :=
  ∀ before time call after, trace = before ++ ⟨time, .called call⟩ :: after → relation before call

variable (trace first second : Trace) (time : Nat)

/-! ## The empty trace and traces one after the other -/

@[simp] theorem calls_nil : calls [] = [] := rfl

@[simp] theorem events_nil : events [] = [] := rfl

@[simp] theorem written_nil : written [] = [] := rfl

@[simp] theorem calls_append : calls (first ++ second) = first.calls ++ second.calls :=
  List.filterMap_append

@[simp] theorem events_append : events (first ++ second) = first.events ++ second.events :=
  List.filterMap_append

@[simp] theorem written_append : written (first ++ second) = first.written ++ second.written :=
  List.filterMap_append

@[simp] theorem slots_append : slots (first ++ second) = first.slots ++ second.slots := by
  simp [slots]

@[simp] theorem texts_append (stages : Stages) (slot : Slot) :
    texts stages slot (first ++ second) = first.texts stages slot ++ second.texts stages slot := by
  simp [texts]

@[simp] theorem verdicts_append :
    verdicts (first ++ second) = first.verdicts ++ second.verdicts := by
  simp [verdicts]

@[simp] theorem validities_append :
    validities (first ++ second) = first.validities ++ second.validities := by
  simp [validities]

@[simp] theorem rejections_append :
    rejections (first ++ second) = first.rejections ++ second.rejections := by
  simp [rejections]

/-! ## One moment -/

@[simp] theorem calls_called (call : Call) :
    calls (⟨time, .called call⟩ :: trace) = call :: trace.calls := rfl

@[simp] theorem calls_emitted (event : Event) :
    calls (⟨time, .emitted event⟩ :: trace) = trace.calls := rfl

@[simp] theorem calls_wrote (stats : RoundStats) :
    calls (⟨time, .wrote stats⟩ :: trace) = trace.calls := rfl

@[simp] theorem events_called (call : Call) :
    events (⟨time, .called call⟩ :: trace) = trace.events := rfl

@[simp] theorem events_emitted (event : Event) :
    events (⟨time, .emitted event⟩ :: trace) = event :: trace.events := rfl

@[simp] theorem events_wrote (stats : RoundStats) :
    events (⟨time, .wrote stats⟩ :: trace) = trace.events := rfl

@[simp] theorem written_called (call : Call) :
    written (⟨time, .called call⟩ :: trace) = trace.written := rfl

@[simp] theorem written_emitted (event : Event) :
    written (⟨time, .emitted event⟩ :: trace) = trace.written := rfl

@[simp] theorem written_wrote (stats : RoundStats) :
    written (⟨time, .wrote stats⟩ :: trace) = stats :: trace.written := rfl

/-! ## A trace cut at a time -/

theorem before_append_since : before time trace ++ since time trace = trace :=
  List.takeWhile_append_dropWhile

end Trace

/-! ## Since a call -/

theorem append_eq_append_cons {α : Type} {first more before after : List α} {a : α}
    (h : first ++ more = before ++ a :: after) :
    (∃ rest, first = before ++ a :: rest) ∨
      ∃ between, before = first ++ between ∧ more = between ++ a :: after := by
  rcases List.append_eq_append_iff.mp h with ⟨between, hbefore, hmore⟩ | ⟨rest, hfirst, hafter⟩
  · exact .inr ⟨between, hbefore, hmore⟩
  · cases rest with
    | nil => exact .inr ⟨[], by simpa using hfirst.symm, hafter.symm⟩
    | cons b rest =>
      obtain ⟨rfl, -⟩ := List.cons.inj hafter
      exact .inl ⟨rest, hfirst⟩

namespace Trace

variable {slot : Slot} {trace first rest more : Trace}

@[simp] theorem moment_calls_called (slot : Slot) (time : Nat) (call : Call) :
    Moment.calls ⟨time, .called call⟩ slot = decide (call.slot = slot) := rfl

@[simp] theorem moment_calls_emitted (slot : Slot) (time : Nat) (event : Event) :
    Moment.calls ⟨time, .emitted event⟩ slot = false := rfl

theorem calls_eq_false_of_not_mem (h : slot ∉ trace.slots) :
    ∀ moment ∈ trace, moment.calls slot = false := by
  rintro ⟨time, call | event | stats⟩ hmoment
  · refine decide_eq_false fun hslot => h ?_
    exact hslot ▸ List.mem_map_of_mem (List.mem_filterMap.mpr ⟨_, hmoment, rfl⟩)
  · rfl
  · rfl

theorem sinceCall_append (h : slot ∉ more.slots) :
    (trace ++ more).sinceCall slot = trace.sinceCall slot ++ more := by
  have hmore : ∀ moment ∈ more.reverse, (!moment.calls slot) = true := by
    simpa using calls_eq_false_of_not_mem h
  rw [sinceCall, sinceCall, List.rtakeWhile, List.rtakeWhile, List.reverse_append,
    List.takeWhile_append_of_pos hmore, List.reverse_append, List.reverse_reverse]

theorem sinceCall_concat {moment : Moment} :
    sinceCall slot (trace ++ [moment]) =
      if moment.calls slot then [] else trace.sinceCall slot ++ [moment] := by
  rw [sinceCall, List.rtakeWhile_concat]
  cases moment.calls slot <;> rfl

/-- A moment that is put in before others shows up in what has happened since a call, or it comes
before the call. -/
theorem sinceCall_insert {moment : Moment} (hmoment : moment.calls slot = false)
    (first rest : Trace) :
    ∃ earlier later, sinceCall slot (first ++ rest) = earlier ++ later ∧
      (sinceCall slot (first ++ moment :: rest) = earlier ++ moment :: later ∨
        sinceCall slot (first ++ moment :: rest) = earlier ++ later) := by
  induction rest using List.reverseRecOn with
  | nil =>
    refine ⟨first.sinceCall slot, [], by simp, .inl ?_⟩
    rw [sinceCall_concat, hmoment]
    rfl
  | append_singleton rest last ih =>
    rw [← List.append_assoc, ← List.cons_append, ← List.append_assoc, sinceCall_concat,
      sinceCall_concat]
    split
    · exact ⟨[], [], rfl, .inr rfl⟩
    · obtain ⟨earlier, later, hsince, hinserted | hinserted⟩ := ih
      · exact ⟨earlier, later ++ [last], by simp [hsince], .inl (by simp [hinserted])⟩
      · exact ⟨earlier, later ++ [last], by simp [hsince], .inr (by simp [hinserted])⟩

/-! ## All calls of a trace -/

variable {relation : Trace → Call → Prop}

theorem EachCall.of_prefix (h : EachCall relation trace) (hfirst : first <+: trace) :
    EachCall relation first := by
  obtain ⟨rest, rfl⟩ := hfirst
  rintro before time call after rfl
  exact h before time call (after ++ rest) (by simp)

theorem EachCall.append (h : EachCall relation trace)
    (hmore : ∀ between time call after, more = between ++ ⟨time, .called call⟩ :: after →
      relation (trace ++ between) call) : EachCall relation (trace ++ more) := by
  intro before time call after heq
  rcases append_eq_append_cons heq with ⟨rest, htrace⟩ | ⟨between, rfl, hbetween⟩
  · exact h before time call rest htrace
  · exact hmore between time call after hbetween

theorem EachCall.append_of_calls (h : EachCall relation trace) (hmore : more.calls = []) :
    EachCall relation (trace ++ more) := by
  refine h.append fun between time call after heq => ?_
  simp [heq] at hmore

/-- An event that is put in changes nothing if it changes nothing for the calls after it. -/
theorem EachCall.insert (h : EachCall relation (first ++ rest)) {time : Nat} {event : Event}
    (hinsert : ∀ first rest call, relation (first ++ rest) call →
      relation (first ++ ⟨time, .emitted event⟩ :: rest) call) :
    EachCall relation (first ++ ⟨time, .emitted event⟩ :: rest) := by
  intro before time' call after heq
  rcases append_eq_append_cons heq with ⟨rest', rfl⟩ | ⟨between, rfl, hbetween⟩
  · exact h before time' call (rest' ++ rest) (by simp)
  · cases between with
    | nil => cases hbetween
    | cons moment between =>
      obtain ⟨rfl, rfl⟩ := List.cons.inj hbetween
      exact hinsert first between call (h (first ++ between) time' call after (by simp))

end Trace

end ScriptForge.Pipeline
