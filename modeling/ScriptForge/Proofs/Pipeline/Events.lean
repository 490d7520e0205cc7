import Mathlib.Data.List.Chain
import ScriptForge.Proofs.Pipeline.Executions

/-!
# The events of the main fork

A run tells its observers when stages start and finish, how candidates are judged, when a round
starts and when a budget is exhausted. `Orderly` is the order that the events of the main fork keep,
also when the run is cut short; `Announced` ties the events to the calls that they are about.

Which rounds have been started and which budgets are exhausted is told by the point that the main
fork has come to, so `Reaches.shows` is one induction: an event or a stage at a time, the events go
on as the point does.
-/

namespace ScriptForge.Pipeline

namespace Event

/-- The slot of an event about a stage. -/
def slot? : Event → Option Slot
  | stageStarted _ slot _ | stageFinished _ slot _ _ _ => some slot
  | _ => none

/-- Whether an event is about a packaging stage that runs in a fork of its own. -/
def beside (config : Config) (event : Event) : Bool :=
  event.slot?.any config.beside

/-- The slot that is announced to start. -/
def started? : Event → Option Slot
  | stageStarted _ slot _ => some slot
  | _ => none

/-- Whether a stage has finished. -/
def finishes : Event → Bool
  | stageFinished .. => true
  | _ => false

/-- Whether the run itself starts or finishes. -/
def frames : Event → Bool
  | runStarted _ | runFinished _ _ => true
  | _ => false

/-- The round in which a stage runs or a candidate is judged. -/
def round? : Event → Option Nat
  | stageStarted _ _ round | stageFinished _ _ round _ _ | reviewed _ round _
  | validated _ round _ _ => some round
  | _ => none

/-- The round that starts, and why. -/
def advance? : Event → Option (Rejection × Nat)
  | roundAdvanced _ round reason => some (reason, round)
  | _ => none

/-- The loop that has used up its attempts, and how many they were. -/
def exhausted? : Event → Option (Rejection × Nat)
  | budgetExhausted _ rejection attempts => some (rejection, attempts)
  | _ => none

/-- What comes after what among the events of a fork: the end of a stage follows its start, and
nothing else does. -/
inductive Precedes : Event → Event → Prop
  | stage (id : String) (slot : Slot) (round latency : Nat) (usage : Usage) :
      Precedes (.stageStarted id slot round) (.stageFinished id slot round latency usage)
  | other {event next : Event} (hevent : event.started? = none) (hnext : next.finishes = false) :
      Precedes event next

variable {event : Event}

theorem started?_of_slot? (h : event.slot? = none) : event.started? = none := by
  cases event <;> first | rfl | cases h

theorem finishes_of_slot? (h : event.slot? = none) : event.finishes = false := by
  cases event <;> first | rfl | cases h

theorem beside_of_slot? (config : Config) (h : event.slot? = none) :
    event.beside config = false := by
  rw [beside, h]
  rfl

end Event

/-- The event that tells of an execution. -/
def Record.finished (id : String) (record : Record) : Event :=
  .stageFinished id record.slot record.round record.latency record.usage

namespace Trace

/-- The events of the main fork. -/
def ownEvents (config : Config) (trace : Trace) : List Event :=
  trace.events.filter (!·.beside config)

/-- The events of a packaging stage that runs in a fork of its own. -/
def besideEvents (config : Config) (trace : Trace) : List Event :=
  trace.events.filter (·.beside config)

variable (config : Config) (first second : Trace)

@[simp] theorem ownEvents_append :
    ownEvents config (first ++ second) = first.ownEvents config ++ second.ownEvents config := by
  simp [ownEvents]

@[simp] theorem besideEvents_append : besideEvents config (first ++ second) =
    first.besideEvents config ++ second.besideEvents config := by
  simp [besideEvents]

variable {config first second}

theorem ownEvents_append_of_silent (h : second.events = []) :
    ownEvents config (first ++ second) = first.ownEvents config := by
  simp [ownEvents, h]

theorem besideEvents_append_of_silent (h : second.events = []) :
    besideEvents config (first ++ second) = first.besideEvents config := by
  simp [besideEvents, h]

variable (config)

theorem events_mono (h : first <+: second) : first.events <+: second.events :=
  h.filterMap _

theorem ownEvents_mono (h : first <+: second) :
    first.ownEvents config <+: second.ownEvents config :=
  (events_mono h).filter _

theorem besideEvents_mono (h : first <+: second) :
    first.besideEvents config <+: second.besideEvents config :=
  (events_mono h).filter _

end Trace

/-! ## The order of events -/

/-- The latest round that has been started; the first one needs no start. -/
def latestRound (events : List Event) : Nat :=
  ((events.filterMap Event.advance?).map Prod.snd).getLast?.getD 1

/-- Each stage runs in the latest round, and each candidate is judged in it. -/
def Stamped (events : List Event) : Prop :=
  ∀ before event after, events = before ++ event :: after →
    ∀ round ∈ event.round?, round = latestRound before

/-- The reasons of rounds `k` of which start after a review and then `m` after a validation. -/
def Rejection.inTurn (k m : Nat) : List Rejection :=
  List.replicate k .review ++ List.replicate m .validation

/-- The order of the events of a fork, of all of them or of the first few. -/
structure Orderly (config : Config) (events : List Event) : Prop where
  /-- The rounds are numbered from the second on, and the review loop comes first. -/
  advances : ∃ k m, events.filterMap Event.advance? = (Rejection.inTurn k m).zipIdx 2
  stamped : Stamped events
  paired : events.IsChain Event.Precedes
  exhausted : (events.filterMap Event.exhausted?).Sublist
    [(.review, config.cap .review), (.validation, config.cap .validation)]

section Lists

variable {config : Config} {events first : List Event} {event : Event}

theorem take_zipIdx {α : Type} (l : List α) (start n : Nat) :
    (l.zipIdx start).take n = (l.take n).zipIdx start := by
  induction l generalizing start n with
  | nil => simp
  | cons a l ih => cases n <;> simp [ih]

theorem latestRound_eq {reasons : List Rejection}
    (h : events.filterMap Event.advance? = reasons.zipIdx 2) :
    latestRound events = reasons.length + 1 := by
  rw [latestRound, h, List.zipIdx_map_snd, List.getLast?_range']
  split
  · simp_all
  · change 2 + _ - 1 = _
    omega

theorem Stamped.of_prefix (h : Stamped events) (hfirst : first <+: events) : Stamped first := by
  obtain ⟨rest, rfl⟩ := hfirst
  rintro before event after rfl
  exact h before event (after ++ rest) (by simp)

theorem Stamped.concat (h : Stamped events)
    (hevent : ∀ round ∈ event.round?, round = latestRound events) :
    Stamped (events ++ [event]) := by
  intro before other after heq
  rcases append_eq_append_cons heq with ⟨rest, hevents⟩ | ⟨between, rfl, hbetween⟩
  · exact h before other rest hevents
  · cases between with
    | nil =>
      obtain ⟨rfl, -⟩ := List.cons.inj hbetween
      simpa using hevent
    | cons _ between => simp at hbetween

theorem Orderly.of_prefix (h : Orderly config events) (hfirst : first <+: events) :
    Orderly config first where
  advances := by
    obtain ⟨k, m, hadvances⟩ := h.advances
    have hshort := hfirst.filterMap Event.advance?
    rw [hadvances] at hshort
    rw [List.prefix_iff_eq_take.mp hshort]
    generalize (first.filterMap Event.advance?).length = n
    refine ⟨min n k, min (n - k) m, ?_⟩
    rw [take_zipIdx, Rejection.inTurn, List.take_append, List.take_replicate, List.take_replicate,
      List.length_replicate]
    rfl
  stamped := h.stamped.of_prefix hfirst
  paired := h.paired.prefix hfirst
  exhausted := (hfirst.filterMap _).sublist.trans h.exhausted

end Lists

/-! ## The events up to a point -/

namespace Point

/-- The budgets that have been exhausted, and the attempts they allowed. -/
def exhausted (config : Config) : Point → List (Rejection × Nat)
  | .validate passed _ _ _ | .invalid passed _ _ _ | .regenerate passed _ _
  | .recombine passed _ _ => if passed then [] else [(.review, config.cap .review)]
  | .settled passed valid _ _ _ =>
    (if passed then [] else [(.review, config.cap .review)]) ++
      if valid then [] else [(.validation, config.cap .validation)]
  | _ => []

theorem exhausted_sublist (config : Config) (p : Point) : (p.exhausted config).Sublist
    [(.review, config.cap .review), (.validation, config.cap .validation)] := by
  cases p with
  | validate passed k m script | invalid passed k m script | regenerate passed k m
  | recombine passed k m => cases passed <;> simp [exhausted]
  | settled passed valid k m script => cases passed <;> cases valid <;> simp [exhausted]
  | _ => simp [exhausted]

theorem exhausted_encapsulated (config : Config) (k : Nat) :
    (encapsulated config k).exhausted config = [] := by
  cases k <;> simp only [encapsulated] <;> split <;> rfl

theorem Calls.exhausted_next {config : Config} {p : Point} {slot : Slot} {next : String → Point}
    (h : p.Calls config slot next) (text : String) :
    (next text).exhausted config = p.exhausted config := by
  cases h with
  | encapsulate k => exact exhausted_encapsulated config k
  | _ => rfl

end Point

/-- The events of the main fork up to a point. -/
structure Tells (config : Config) (p : Point) (events : List Event) : Prop where
  advances : events.filterMap Event.advance? = (Rejection.inTurn p.back p.again).zipIdx 2
  stamped : Stamped events
  paired : events.IsChain Event.Precedes
  exhausted : events.filterMap Event.exhausted? = p.exhausted config

namespace Tells

variable {config : Config} {p q : Point} {events : List Event} {event : Event}

theorem orderly (h : Tells config p events) : Orderly config events where
  advances := ⟨_, _, h.advances⟩
  stamped := h.stamped
  paired := h.paired
  exhausted := h.exhausted ▸ p.exhausted_sublist config

theorem latestRound_eq (h : Tells config p events) : latestRound events = p.round := by
  rw [ScriptForge.Pipeline.latestRound_eq h.advances]
  simp [Rejection.inTurn, Point.round]

/-- An event takes the main fork from a point to the next. -/
theorem concat (h : Tells config p events) (hlast : ∀ last ∈ events.getLast?, last.Precedes event)
    (hround : ∀ round ∈ event.round?, round = p.round)
    (hadvance : (Rejection.inTurn q.back q.again).zipIdx 2 =
      (Rejection.inTurn p.back p.again).zipIdx 2 ++ event.advance?.toList)
    (hexhausted : q.exhausted config = p.exhausted config ++ event.exhausted?.toList) :
    Tells config q (events ++ [event]) where
  advances := by
    rw [List.filterMap_append, h.advances, hadvance]
    cases event <;> rfl
  stamped := h.stamped.concat (by rwa [h.latestRound_eq])
  paired := List.isChain_append.mpr ⟨h.paired, .singleton event, by simpa using hlast⟩
  exhausted := by
    rw [List.filterMap_append, h.exhausted, hexhausted]
    cases event <;> rfl

end Tells

/-! ## Announcements -/

/-- Stages are announced and called at the same time, and no stage is announced otherwise. -/
inductive Announced : Trace → Prop
  | nil : Announced []
  | stage {id : String} {slot : Slot} {round time : Nat} {call : Call} {trace : Trace}
      (hslot : call.slot = slot) (h : Announced trace) :
      Announced (⟨time, .emitted (.stageStarted id slot round)⟩ :: ⟨time, .called call⟩ :: trace)
  | told {time : Nat} {event : Event} {trace : Trace} (hevent : event.started? = none)
      (h : Announced trace) : Announced (⟨time, .emitted event⟩ :: trace)
  | wrote {time : Nat} {stats : RoundStats} {trace : Trace} (h : Announced trace) :
      Announced (⟨time, .wrote stats⟩ :: trace)

namespace Announced

variable {trace first more : Trace}

theorem append (h : Announced first) (hmore : Announced more) : Announced (first ++ more) := by
  induction h with
  | nil => exact hmore
  | stage hslot h ih => exact .stage hslot ih
  | told hevent h ih => exact .told hevent ih
  | wrote h ih => exact .wrote ih

theorem of_append (hfirst : Announced first) (h : Announced (first ++ more)) : Announced more := by
  induction hfirst with
  | nil => exact h
  | stage hslot hfirst ih =>
    cases h with
    | stage _ h => exact ih h
    | told hevent h => cases hevent
  | @told time event trace hevent hfirst ih =>
    rw [List.cons_append] at h
    generalize hrest : trace ++ more = rest at h
    cases h with
    | stage _ h => cases hevent
    | told _ h => exact ih (hrest ▸ h)
  | wrote hfirst ih =>
    cases h with
    | wrote h => exact ih h

/-- A stage is not separated from its announcement. -/
theorem before (h : Announced trace) (time : Nat) : Announced (trace.before time) := by
  induction h with
  | nil => exact .nil
  | @stage id slot round now call trace hslot h ih =>
    -- both moments have the same time
    by_cases hnow : now < time
    · simpa [Trace.before, hnow] using ih.stage hslot
    · simpa [Trace.before, hnow] using nil
  | @told now event trace hevent h ih =>
    by_cases hnow : now < time
    · simpa [Trace.before, hnow] using ih.told hevent
    · simpa [Trace.before, hnow] using nil
  | @wrote now stats trace h ih =>
    by_cases hnow : now < time
    · simpa [Trace.before, hnow] using ih.wrote
    · simpa [Trace.before, hnow] using nil

theorem of_calls (hcalls : trace.calls = []) (hevents : ∀ event ∈ trace.events,
    event.started? = none) : Announced trace := by
  induction trace with
  | nil => exact .nil
  | cons moment trace ih =>
    obtain ⟨time, call | event | stats⟩ := moment
    · simp at hcalls
    · simp only [Trace.events_emitted, List.forall_mem_cons] at hevents
      exact .told hevents.1 (ih hcalls hevents.2)
    · exact .wrote (ih hcalls hevents)

/-- The announced stages are those that are called. -/
theorem slots_eq (h : Announced trace) :
    trace.events.filterMap Event.started? = trace.slots := by
  induction h with
  | nil => rfl
  | stage hslot h ih => exact hslot ▸ congrArg _ ih
  | told hevent h ih =>
    rw [Trace.events_emitted, List.filterMap_cons_none hevent, ih]
    rfl
  | wrote h ih => exact ih

end Announced

/-! ## The events along a run -/

/-- The events up to a point that the main fork has come to in a state. -/
structure Shows (setup : Setup) (p : Point) (s : RunState) : Prop where
  own : Tells setup.config p (s.trace.ownEvents setup.config)
  /-- No stage of the main fork is running. -/
  idle : ∀ last ∈ (s.trace.ownEvents setup.config).getLast?, last.started? = none
  finished : (s.trace.ownEvents setup.config).filter Event.finishes =
    s.context.history.map (Record.finished setup.runId)
  beside : s.trace.besideEvents setup.config =
    if setup.config.concurrentForks && p.parted then [.stageStarted setup.runId .package 1] else []
  opened : ∃ middle, (∀ event ∈ middle, event.frames = false) ∧
    s.trace.events = .runStarted setup.runId :: middle
  announced : Announced s.trace

theorem Rejection.inTurn_back (k : Nat) :
    (inTurn (k + 1) 0).zipIdx 2 = (inTurn k 0).zipIdx 2 ++ [(.review, k + 2)] := by
  simp [inTurn, List.replicate_succ', List.zipIdx_append, Nat.add_comm]

theorem Rejection.inTurn_again (k m : Nat) :
    (inTurn k (m + 1)).zipIdx 2 = (inTurn k m).zipIdx 2 ++ [(.validation, k + m + 2)] := by
  rw [inTurn, List.replicate_succ', ← List.append_assoc, List.zipIdx_append]
  simp [inTurn, Nat.add_comm]

namespace Shows

variable {setup : Setup} {p q : Point} {s s' : RunState}

/-- A stage starts; nothing else is running. -/
theorem started (h : Shows setup p s) (slot : Slot) (hround : s.round = p.round) :
    Tells setup.config p (s.trace.ownEvents setup.config ++
      [.stageStarted setup.runId slot s.round]) :=
  h.own.concat (fun last hlast => .other (h.idle last hlast) rfl)
    (by simp [Event.round?, hround]) (List.append_nil _).symm (List.append_nil _).symm

theorem opened_append (h : Shows setup p s) {more : Trace} (htrace : s'.trace = s.trace ++ more)
    (hmore : ∀ event ∈ more.events, event.frames = false) :
    ∃ middle, (∀ event ∈ middle, event.frames = false) ∧
      s'.trace.events = .runStarted setup.runId :: middle := by
  obtain ⟨middle, hmiddle, hevents⟩ := h.opened
  refine ⟨middle ++ more.events, List.forall_mem_append.mpr ⟨hmiddle, hmore⟩, ?_⟩
  rw [htrace, Trace.events_append, hevents]
  rfl

/-- Something is told that is not about a stage. -/
theorem told (h : Shows setup p s) {more : Trace} {event : Event}
    (htrace : s'.trace = s.trace ++ more) (hcalls : more.calls = [])
    (hevents : more.events = [event]) (hhistory : s'.context.history = s.context.history)
    (hslot : event.slot? = none) (hframes : event.frames = false)
    (hround : ∀ round ∈ event.round?, round = p.round)
    (hadvance : (Rejection.inTurn q.back q.again).zipIdx 2 =
      (Rejection.inTurn p.back p.again).zipIdx 2 ++ event.advance?.toList)
    (hexhausted : q.exhausted setup.config =
      p.exhausted setup.config ++ event.exhausted?.toList)
    (hparted : q.parted = p.parted) : Shows setup q s' := by
  have hown : s'.trace.ownEvents setup.config = s.trace.ownEvents setup.config ++ [event] := by
    rw [htrace, Trace.ownEvents_append]
    simp [Trace.ownEvents, hevents, Event.beside_of_slot? _ hslot]
  have hbeside : s'.trace.besideEvents setup.config = s.trace.besideEvents setup.config := by
    rw [htrace, Trace.besideEvents_append]
    simp [Trace.besideEvents, hevents, Event.beside_of_slot? _ hslot]
  exact {
    own := hown ▸ h.own.concat
      (fun last hlast => .other (h.idle last hlast) (Event.finishes_of_slot? hslot)) hround hadvance
      hexhausted
    idle := by simpa [hown] using Event.started?_of_slot? hslot
    finished := by
      rw [hown, List.filter_append, h.finished, hhistory]
      simp [Event.finishes_of_slot? hslot]
    beside := by rw [hbeside, h.beside, hparted]
    opened := h.opened_append htrace (by simpa [hevents] using hframes)
    announced := htrace ▸ h.announced.append
      (.of_calls hcalls (by simpa [hevents] using Event.started?_of_slot? hslot)) }

theorem stepped (h : Shows setup p s) {slot : Slot} {next : String → Point}
    (hcalls : p.Calls setup.config slot next) (hfits : p.Fits setup.config)
    (hround : s.round = p.round) (output : StageOutput) :
    Shows setup (next output.text) (s.stepped setup slot output) := by
  have hbeside := hcalls.not_beside hfits
  have hown : (s.stepped setup slot output).trace.ownEvents setup.config =
      s.trace.ownEvents setup.config ++ [.stageStarted setup.runId slot s.round] ++
        [.stageFinished setup.runId slot s.round (setup.stages (s.stepCall slot)).delay
          output.usage] := by
    simp [Trace.ownEvents, Event.beside, Event.slot?, hbeside]
  exact {
    own := by
      rw [hown]
      refine (h.started slot hround).concat (fun last hlast => ?_) (by simp [Event.round?, hround])
        ?_ ?_
      · obtain rfl : Event.stageStarted setup.runId slot s.round = last := by simpa using hlast
        exact .stage ..
      · rw [hcalls.back_next, hcalls.again_next]
        exact (List.append_nil _).symm
      · rw [hcalls.exhausted_next]
        exact (List.append_nil _).symm
    idle := by
      rw [hown, List.getLast?_concat]
      rintro last ⟨⟩
      rfl
    finished := by
      rw [hown, List.filter_append, List.filter_append, h.finished, RunState.stepped_history]
      simp [Event.finishes, Record.finished, Record.ofOutput]
    beside := by
      have hevents : (s.stepped setup slot output).trace.besideEvents setup.config =
          s.trace.besideEvents setup.config := by
        simp [Trace.besideEvents, Event.beside, Event.slot?, hbeside]
      rw [hevents, h.beside]
      cases htogether : setup.config.concurrentForks with
      | false => rfl
      | true => rw [hcalls.parted_next htogether]
    opened := by
      refine h.opened_append ((RunState.stepped_trace ..).trans
        ((congrArg (· ++ _) (RunState.replied_trace ..)).trans (List.append_assoc ..))) ?_
      simp [Event.frames]
    announced := by
      rw [RunState.stepped_trace, RunState.replied_trace, List.append_assoc]
      exact h.announced.append (.stage rfl (.told rfl .nil)) }

theorem forked (h : Shows setup .fork s) (hround : s.round = 1)
    (htogether : setup.config.concurrentForks = true) :
    Shows setup (.draft 0) (s.forked setup) := by
  have hown : (s.forked setup).trace.ownEvents setup.config =
      s.trace.ownEvents setup.config := by
    simp [Trace.ownEvents, Event.beside, Event.slot?, Config.beside, htogether]
  exact {
    own := hown ▸ { h.own with }
    idle := hown ▸ h.idle
    finished := hown ▸ h.finished
    beside := by
      have hevents : (s.forked setup).trace.besideEvents setup.config =
          s.trace.besideEvents setup.config ++ [.stageStarted setup.runId .package s.round] := by
        simp [Trace.besideEvents, Event.beside, Event.slot?, Config.beside, htogether]
      rw [hevents, h.beside, hround, htogether]
      rfl
    opened := h.opened_append (RunState.forked_trace ..) (by simp [Event.frames])
    announced := by
      rw [RunState.forked_trace]
      exact h.announced.append (.stage rfl .nil) }

end Shows

theorem Reaches.shows {setup : Setup} {input : RunInput} {p : Point} {s : RunState}
    (h : Reaches setup input p s) : Shows setup p s := by
  induction h with
  | start =>
    have hnone : Stamped [] := by simp [Stamped]
    exact {
      own := {
        advances := rfl
        stamped := hnone.concat (by simp [Event.round?])
        paired := .singleton _
        exhausted := rfl }
      idle := by simp [RunState.start, Trace.ownEvents, Event.started?]
      finished := rfl
      beside := by
        simp [RunState.start, Trace.besideEvents, Event.beside, Event.slot?, Point.parted]
      opened := ⟨[], by simp, rfl⟩
      announced := .told rfl .nil }
  | step h hcalls hreturned ih => exact ih.stepped hcalls h.fits h.round_eq _
  | fork h ih => exact ih.forked h.round_eq h.fits
  | draft h ih => exact { ih with own := { ih.own with } }
  | @pass k script review s h hverdict ih | @fail k script review s h hverdict ih =>
    exact ih.told (s.judged_trace setup review) rfl rfl (s.judged_history setup review) rfl rfl
      (by simp [Event.round?, h.round_eq]) (List.append_nil _).symm rfl rfl
  | @exhaust k script review s h hcap ih =>
    exact ih.told (s.happened_trace _) rfl rfl rfl rfl rfl (by simp [Event.round?])
      (List.append_nil _).symm (by rw [hcap]; rfl) rfl
  | @goBack k script review s h hcap ih =>
    obtain ⟨more, htrace, hcalls, hevents⟩ := s.exists_retried_trace setup (.ofReview script review)
    refine ih.told htrace hcalls hevents rfl rfl rfl (by simp [Event.round?]) ?_ rfl rfl
    rw [h.round_eq]
    exact Rejection.inTurn_back k
  | @accept passed k m script s h hvalid ih =>
    exact ih.told (s.checked_trace setup script) rfl rfl rfl rfl rfl
      (by simp [Event.round?, h.round_eq]) (List.append_nil _).symm rfl rfl
  | @refuse passed k m script s h hvalid ih =>
    exact ih.told (s.checked_trace setup script) rfl rfl rfl rfl rfl
      (by simp [Event.round?, h.round_eq]) (List.append_nil _).symm (List.append_nil _).symm rfl
  | @keep passed k m script s h hcap ih =>
    exact ih.told (s.happened_trace _) rfl rfl rfl rfl rfl (by simp [Event.round?])
      (List.append_nil _).symm (by rw [hcap]; rfl) rfl
  | @redraft passed k m script s h hcap ih =>
    obtain ⟨more, htrace, hcalls, hevents⟩ := s.exists_retried_trace setup (.ofVerdict script _)
    refine ih.told htrace hcalls hevents rfl rfl rfl (by simp [Event.round?]) ?_
      (List.append_nil _).symm rfl
    rw [h.round_eq]
    exact Rejection.inTurn_again k m

end ScriptForge.Pipeline
