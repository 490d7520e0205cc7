import ScriptForge.Pipeline.Channel
import ScriptForge.Pipeline.Config
import ScriptForge.Pipeline.Event
import ScriptForge.Pipeline.Record
import ScriptForge.Pipeline.Stats
import ScriptForge.Proofs.Json.Fields

/-!
# Records of a run read back from JSON

What a run leaves behind and what configures it is read back from its written form, as long as its
numbers are of the size that is read: 32 bits for rounds and counts of attempts, 64 bits for times
and tokens. Events are tagged records that share their object with the fields of the event.

A subscriber may be sent written events instead of events. `Channel.receive_map` says that it
receives at each turn what it would have received otherwise, in its written form.
-/

namespace ScriptForge.Pipeline

open Json

/-! ## Names -/

theorem Slot.restores (slot : Slot) : ofJson? slot.toJson = some slot :=
  Slot.ofId?_id slot

theorem Rejection.restores (rejection : Rejection) : ofJson? rejection.toJson = some rejection := by
  cases rejection <;> rfl

theorem ReviewVerdict.restores (verdict : ReviewVerdict) :
    ofJson? verdict.toJson = some verdict := by
  cases verdict <;> rfl

/-! ## Tables of slots -/

namespace SlotMap

variable {α : Type}

/-- The entries of a table are of a class. -/
def Fits (FitsEntry : α → Prop) (table : SlotMap α) : Prop :=
  ∀ slot, ∀ a ∈ table.get? slot, FitsEntry a

theorem ofList_toList (table : SlotMap α) : ofList table.toList = table := by
  rcases table with ⟨_ | _, _ | _, _ | _, _ | _, _ | _, _ | _⟩ <;> rfl

theorem mem_toList {table : SlotMap α} {slot : Slot} {a : α} (h : (slot, a) ∈ table.toList) :
    a ∈ table.get? slot := by
  obtain ⟨slot', -, hentry⟩ := List.mem_filterMap.mp h
  obtain ⟨b, hb, heq⟩ := Option.map_eq_some_iff.mp hentry
  cases heq
  exact hb

theorem restores {encode : α → Json} {decode : Json → Option α} {FitsEntry : α → Prop}
    (h : Restores encode decode FitsEntry) :
    Restores (toJson encode) (ofJson? decode) (Fits FitsEntry) := by
  intro table hfits
  have hentries : ∀ entries : List (Slot × α), (∀ entry ∈ entries, FitsEntry entry.2) →
      (entries.map fun entry => (entry.1.id, encode entry.2)).mapM (fun part => do
        return (← Slot.ofId? part.1, ← decode part.2)) = some entries := by
    intro entries hentries
    induction entries with
    | nil => rfl
    | cons entry entries ih =>
      obtain ⟨hentry, hmore⟩ := List.forall_mem_cons.mp hentries
      rw [List.map_cons, List.mapM_cons, ih hmore]
      dsimp only
      rw [Slot.ofId?_id, h entry.2 hentry]
      rfl
  have hlist := hentries table.toList fun entry hentry => hfits entry.1 entry.2 (mem_toList hentry)
  have hread : ofJson? decode (toJson encode table) = some (ofList table.toList) :=
    congrArg (Option.map ofList) hlist
  rw [hread, ofList_toList]

end SlotMap

/-! ## Records -/

/-- Counts of tokens are numbers of 64 bits. -/
structure Usage.Fits (usage : Usage) : Prop where
  prompt : usage.prompt < UInt64.size
  completion : usage.completion < UInt64.size
  total : usage.total < UInt64.size

theorem Usage.restores : Restores toJson ofJson? Fits := by
  rintro usage ⟨hprompt, hcompletion, htotal⟩
  refine record?_obj ?_
  rw [field_bind rfl (word64?_nat hprompt), field_bind rfl (word64?_nat hcompletion),
    field_bind rfl (word64?_nat htotal)]
  rfl

theorem Directive.restores (directive : Directive) :
    Directive.ofJson? directive.toJson = some directive := by
  have hscript : ∀ script ∈ directive.previousScript,
      Json.str script ≠ .null ∧ string? (.str script) = some script :=
    fun script _ => ⟨Json.noConfusion, rfl⟩
  refine record?_obj ?_
  rw [field_bind rfl (Rejection.restores directive.rejection),
    field_bind rfl (string?_str directive.error), run_bind (optional_named rfl hscript)]
  rfl

/-- Attempts and their caps are numbers of 32 bits. -/
structure Counter.Fits (counter : Counter) : Prop where
  used : counter.used < UInt32.size
  max : counter.max < UInt32.size

theorem Counter.restores : Restores toJson ofJson? Fits := by
  rintro counter ⟨hused, hmax⟩
  refine record?_obj ?_
  rw [field_bind rfl (word32?_nat hused), field_bind rfl (word32?_nat hmax)]
  rfl

structure Budget.Fits (budget : Budget) : Prop where
  review : budget.review.Fits
  validation : budget.validation.Fits

theorem Budget.restores : Restores toJson ofJson? Fits := by
  rintro budget ⟨hreview, hvalidation⟩
  refine record?_obj ?_
  rw [field_bind rfl (Counter.restores _ hreview), field_bind rfl (Counter.restores _ hvalidation)]
  rfl

/-- Counts of retries are numbers of 32 bits. -/
structure Config.Fits (config : Config) : Prop where
  reviewRetries : config.reviewRetries < UInt32.size
  validationRetries : config.validationRetries < UInt32.size

theorem Config.restores : Restores toJson ofJson? Fits := by
  rintro config ⟨hreview, hvalidation⟩
  refine record?_obj ?_
  rw [withDefault_bind rfl (word32?_nat hreview), withDefault_bind rfl (word32?_nat hvalidation),
    withDefault_bind rfl (bool?_bool config.concurrentForks),
    withDefault_bind rfl (bool?_bool config.repackageOnRetry)]
  rfl

structure Record.Fits (record : Record) : Prop where
  round : record.round < UInt32.size
  latency : record.latency < UInt64.size
  usage : record.usage.Fits

theorem Record.restores : Restores toJson ofJson? Fits := by
  rintro record ⟨hround, hlatency, husage⟩
  refine record?_obj ?_
  rw [field_bind rfl (Slot.restores record.slot), field_bind rfl (word32?_nat hround),
    field_bind rfl (word64?_nat hlatency), field_bind rfl (Usage.restores _ husage),
    field_bind rfl (string?_str record.outputHash)]
  rfl

structure Outcome.Fits (outcome : Outcome) : Prop where
  reviewAttempts : outcome.reviewAttempts < UInt32.size
  validationAttempts : outcome.validationAttempts < UInt32.size

theorem Outcome.restores : Restores toJson ofJson? Fits := by
  rintro outcome ⟨hreview, hvalidation⟩
  refine record?_obj ?_
  rw [field_bind rfl (bool?_bool outcome.reviewPassed),
    field_bind rfl (bool?_bool outcome.scriptValid), field_bind rfl (word32?_nat hreview),
    field_bind rfl (word32?_nat hvalidation)]
  rfl

structure RoundStats.Fits (stats : RoundStats) : Prop where
  round : stats.round < UInt32.size
  latency : stats.latency.Fits (· < UInt64.size)
  tokens : stats.tokens.Fits (· < UInt64.size)

theorem RoundStats.restores : Restores toJson ofJson? Fits := by
  rintro stats ⟨hround, hlatency, htokens⟩
  have hentry : Restores .nat word64? (· < UInt64.size) := fun _ => word64?_nat
  refine record?_obj ?_
  rw [field_bind rfl (word32?_nat hround),
    field_bind rfl (SlotMap.restores hentry stats.latency hlatency),
    field_bind rfl (SlotMap.restores hentry stats.tokens htokens)]
  rfl

/-! ## Events -/

/-- Rounds and attempts are numbers of 32 bits, times and tokens numbers of 64 bits. -/
def Event.Fits : Event → Prop
  | .runStarted _ => True
  | .stageStarted _ _ round => round < UInt32.size
  | .stageFinished _ _ round latency usage =>
    round < UInt32.size ∧ latency < UInt64.size ∧ usage.Fits
  | .reviewed _ round _ => round < UInt32.size
  | .validated _ round _ _ => round < UInt32.size
  | .roundAdvanced _ round _ => round < UInt32.size
  | .budgetExhausted _ _ attempts => attempts < UInt32.size
  | .runFinished _ rounds => rounds < UInt32.size

theorem Event.restores : Restores toJson ofJson? Fits := by
  intro event hfits
  cases event with
  | runStarted id =>
    refine tagged?_obj rfl ?_
    rw [alternative, field_bind rfl (string?_str id)]
    rfl
  | stageStarted id slot round =>
    refine tagged?_obj rfl ?_
    rw [alternative, field_bind rfl (string?_str id), field_bind rfl (Slot.restores slot),
      field_bind rfl (word32?_nat hfits)]
    rfl
  | stageFinished id slot round latency usage =>
    obtain ⟨hround, hlatency, husage⟩ := hfits
    refine tagged?_obj rfl ?_
    rw [alternative, field_bind rfl (string?_str id), field_bind rfl (Slot.restores slot),
      field_bind rfl (word32?_nat hround), field_bind rfl (word64?_nat hlatency),
      field_bind rfl (Usage.restores usage husage)]
    rfl
  | reviewed id round verdict =>
    refine tagged?_obj rfl ?_
    rw [alternative, field_bind rfl (string?_str id), field_bind rfl (word32?_nat hfits),
      field_bind rfl (ReviewVerdict.restores verdict)]
    rfl
  | validated id round valid errors =>
    refine tagged?_obj rfl ?_
    rw [alternative, field_bind rfl (string?_str id), field_bind rfl (word32?_nat hfits),
      field_bind rfl (bool?_bool valid), field_bind rfl (items?_strings errors)]
    rfl
  | roundAdvanced id round reason =>
    refine tagged?_obj rfl ?_
    rw [alternative, field_bind rfl (string?_str id), field_bind rfl (word32?_nat hfits),
      field_bind rfl (Rejection.restores reason)]
    rfl
  | budgetExhausted id rejection attempts =>
    refine tagged?_obj rfl ?_
    rw [alternative, field_bind rfl (string?_str id), field_bind rfl (Rejection.restores rejection),
      field_bind rfl (word32?_nat hfits)]
    rfl
  | runFinished id rounds =>
    refine tagged?_obj rfl ?_
    rw [alternative, field_bind rfl (string?_str id), field_bind rfl (word32?_nat hfits)]
    rfl

/-! ## Channels of written events -/

variable {α β : Type}

/-- What is received, with the message replaced. -/
def Received.map (f : α → β) : Received α → Received β
  | .message a => .message (f a)
  | .empty => .empty
  | .lagged count => .lagged count

/-- What is received, with the message decoded. -/
def Received.decode? (decode : β → Option α) : Received β → Option (Received α)
  | .message b => .message <$> decode b
  | .empty => some .empty
  | .lagged count => some (.lagged count)

/-- The channel on which each message is sent in another form. -/
def Channel.map (f : α → β) (channel : Channel α) : Channel β :=
  ⟨channel.capacity, channel.sent.map f, channel.cursors⟩

theorem Channel.receive_map (f : α → β) (channel : Channel α) (subscriber : Nat) :
    (channel.map f).receive subscriber =
      (channel.receive subscriber).map fun (received, channel) =>
        (received.map f, channel.map f) := by
  have hsent : ∀ cursor : Nat, (channel.map f).sent[cursor]? = channel.sent[cursor]?.map f :=
    fun cursor => Array.getElem?_map ..
  have hlost : (channel.map f).lost = channel.lost :=
    congrArg (· - channel.capacity) Array.size_map
  rw [receive, receive, hlost]
  change (channel.cursors[subscriber]?).bind _ = ((channel.cursors[subscriber]?).bind _).map _
  cases channel.cursors[subscriber]? with
  | none => rfl
  | some cursor =>
    rw [Option.bind_some, Option.bind_some, hsent]
    by_cases hlagged : cursor < channel.lost
    · rw [if_pos hlagged, if_pos hlagged]
      rfl
    · rw [if_neg hlagged, if_neg hlagged]
      cases channel.sent[cursor]? <;> rfl

theorem Channel.mem_sent_of_receive {channel next : Channel α} {subscriber : Nat} {a : α}
    (h : channel.receive subscriber = some (.message a, next)) : a ∈ channel.sent := by
  rw [receive] at h
  cases hcursor : channel.cursors[subscriber]? with
  | none => simp [hcursor] at h
  | some cursor =>
    cases hsent : channel.sent[cursor]? with
    | none => by_cases hlagged : cursor < channel.lost <;> simp [hcursor, hsent, hlagged] at h
    | some b =>
      by_cases hlagged : cursor < channel.lost
      · simp [hcursor, hlagged] at h
      · simp [hcursor, hsent, hlagged] at h
        exact h.1 ▸ Array.mem_of_getElem? hsent

end ScriptForge.Pipeline
