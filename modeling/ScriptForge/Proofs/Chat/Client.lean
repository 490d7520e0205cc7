import ScriptForge.Chat.Client
import ScriptForge.Proofs.Chat.Completion
import ScriptForge.Proofs.Chat.Retry

/-!
# What comes of a request

A reply gives a completion or fails in one of five ways (`gives_or_fails`). Without the address or
the key of the model's provider nothing is sent. Otherwise one and the same post is sent until the
first reply that gives a completion or until the attempts are used up, and what is returned is this
completion or the failure of the last reply (`complete_of_replies`), as long as no pause and no sum
of counts overflows. With the attempts and the pauses that settings allow there is always a result
(`exists_result_of_settings`).
-/

namespace ScriptForge.Chat

open Pipeline

/-! ## Replies -/

namespace Reply

/-- A status says that a request has succeeded. -/
def Succeeded (status : Nat) : Prop :=
  200 ≤ status ∧ status < 300

instance (status : Nat) : Decidable (Succeeded status) :=
  inferInstanceAs (Decidable (_ ∧ _))

/-- A reply gives the text and the usage of a completion. -/
inductive Gives : Reply → StageOutput → Prop
  | answer {status : Nat} {body text : String} {json : Json} {usage : Usage} :
      Succeeded status → Json.read? body = some json → HasContent json text → HasInk text →
      Reports json usage → Gives (.answered status body) ⟨text, usage⟩

/-- A reply fails with an error. -/
inductive Fails (config : Config) : Reply → StageError → Prop
  /-- The status counts even if the body is a completion. -/
  | refused {status : Nat} {body : String} :
      ¬ Succeeded status → Fails config (.answered status body) (.api status body)
  | unreadable {status : Nat} {body : String} :
      Succeeded status → Json.read? body = none →
      Fails config (.answered status body) transportFailure
  | empty {status : Nat} {body : String} {json : Json} :
      Succeeded status → Json.read? body = some json →
      (∀ text, HasContent json text → ¬ HasInk text) →
      Fails config (.answered status body) .emptyResponse
  | silent : Fails config .silent (.timeout config.timeout)
  | unreachable : Fails config .unreachable transportFailure

variable {overflow : Overflow} {config : Config} {reply : Reply} {output : StageOutput}
  {error : StageError}

theorem read_answered (overflow : Overflow) (config : Config) (status : Nat) (body : String) :
    (answered status body).read overflow config =
      if Succeeded status then
        match Json.read? body with
        | some json => completion overflow json
        | none => some (.error transportFailure)
      else some (.error (.api status body)) := rfl

theorem read_eq_error_iff :
    reply.read overflow config = some (.error error) ↔ reply.Fails config error := by
  cases reply with
  | answered status body =>
    rw [read_answered]
    constructor
    · intro h
      split at h
      · rename_i hstatus
        cases hjson : Json.read? body with
        | none =>
          rw [hjson] at h
          cases h
          exact .unreadable hstatus hjson
        | some json =>
          rw [hjson] at h
          obtain ⟨hnone, rfl⟩ := completion_eq_error_iff.mp h
          exact .empty hstatus hjson hnone
      · cases h
        exact .refused ‹_›
    · intro h
      cases h with
      | refused hstatus => rw [if_neg hstatus]
      | unreadable hstatus hjson => rw [if_pos hstatus, hjson]
      | empty hstatus hjson hnone =>
        rw [if_pos hstatus, hjson]
        exact completion_eq_error_iff.mpr ⟨hnone, rfl⟩
  | silent =>
    constructor
    · rintro ⟨⟩
      exact .silent
    · rintro ⟨⟩
      rfl
  | unreachable =>
    constructor
    · rintro ⟨⟩
      exact .unreachable
    · rintro ⟨⟩
      rfl

/-- Of a completion only the usage can overflow. -/
theorem Gives.exists_read_eq (overflow : Overflow) (config : Config) (h : reply.Gives output) :
    ∃ json, Reports json output.usage ∧ reply.read overflow config =
      (usageOf overflow json).map fun usage => .ok ⟨output.text, usage⟩ := by
  obtain ⟨hstatus, hjson, hcontent, hink, husage⟩ := h
  refine ⟨_, husage, ?_⟩
  rw [read_answered, if_pos hstatus, hjson]
  exact completion_of_content overflow hcontent hink

theorem read_of_gives (overflow : Overflow) (config : Config) (h : reply.Gives output)
    (hsum : output.usage.prompt + output.usage.completion < 2 ^ 64) :
    reply.read overflow config = some (.ok output) := by
  obtain ⟨json, husage, hread⟩ := h.exists_read_eq overflow config
  rw [hread, usageOf_of_reports overflow husage hsum]
  rfl

/-- A completion is no failure, even if its counts stop the program. -/
theorem Gives.not_fails (h : reply.Gives output) : ¬ reply.Fails config error := by
  obtain ⟨hstatus, hjson, hcontent, hink, -⟩ := h
  rintro (hrefused | ⟨-, hunreadable⟩ | ⟨-, hread, hnone⟩)
  · exact hrefused hstatus
  · rw [hjson] at hunreadable
    cases hunreadable
  · obtain rfl := Option.some.inj (hjson.symm.trans hread)
    exact hnone _ hcontent hink

theorem gives_or_fails (config : Config) (reply : Reply) :
    (∃ output, reply.Gives output) ∨ ∃ error, reply.Fails config error := by
  cases reply with
  | answered status body =>
    by_cases hstatus : Succeeded status
    · cases hjson : Json.read? body with
      | none => exact .inr ⟨_, .unreadable hstatus hjson⟩
      | some json =>
        by_cases hgood : ∃ text, HasContent json text ∧ HasInk text
        · obtain ⟨text, hcontent, hink⟩ := hgood
          obtain ⟨usage, husage⟩ := exists_reports json
          exact .inl ⟨_, .answer hstatus hjson hcontent hink husage⟩
        · exact .inr ⟨_, .empty hstatus hjson fun text hcontent hink =>
            hgood ⟨text, hcontent, hink⟩⟩
    · exact .inr ⟨_, .refused hstatus⟩
  | silent => exact .inr ⟨_, .silent⟩
  | unreachable => exact .inr ⟨_, .unreachable⟩

/-- Where an overflow stops the program, nothing but a completion is returned. -/
theorem gives_of_read_stops (h : reply.read .stops config = some (.ok output)) :
    reply.Gives output := by
  obtain ⟨other, hgives⟩ | ⟨error, hfails⟩ := gives_or_fails config reply
  · by_cases hsum : other.usage.prompt + other.usage.completion < 2 ^ 64
    · rw [read_of_gives .stops config hgives hsum] at h
      cases h
      exact hgives
    · obtain ⟨json, husage, hread⟩ := hgives.exists_read_eq .stops config
      rw [hread, (usageOf_of_overflow husage (Nat.not_lt.mp hsum)).1] at h
      cases h
  · rw [read_eq_error_iff.mpr hfails] at h
    cases h

/-- Where numbers are reduced, every reply is read. -/
theorem exists_read_wraps (config : Config) (reply : Reply) :
    ∃ result, reply.read .wraps config = some result := by
  obtain ⟨output, hgives⟩ | ⟨error, hfails⟩ := gives_or_fails config reply
  · obtain ⟨json, husage, hread⟩ := hgives.exists_read_eq .wraps config
    rw [hread, usageOf_eq .wraps husage, Overflow.fit?_wraps]
    exact ⟨_, rfl⟩
  · exact ⟨_, read_eq_error_iff.mpr hfails⟩

/-- The reply with this number is the first that gives a completion. -/
structure FirstGives (server : Nat → Reply) (number : Nat) (output : StageOutput) : Prop where
  pos : 1 ≤ number
  gives : (server number).Gives output
  failed : ∀ k, 1 ≤ k → k < number → ∀ other, ¬ (server k).Gives other

theorem exists_firstGives_iff {server : Nat → Reply} {number : Nat} :
    (∃ output, FirstGives server number output) ↔
      FirstDone (fun k => (server k).read overflow config) number := by
  constructor
  · rintro ⟨output, hpos, hgives, hfailed⟩
    refine ⟨hpos, fun error herror => ?_, fun k hk hlt => ?_⟩
    · exact hgives.not_fails (read_eq_error_iff.mp herror)
    · obtain ⟨other, hother⟩ | ⟨error, hfails⟩ := gives_or_fails config (server k)
      · exact absurd hother (hfailed k hk hlt other)
      · exact ⟨error, read_eq_error_iff.mpr hfails⟩
  · rintro ⟨hpos, hdone, hfailed⟩
    obtain ⟨output, hgives⟩ | ⟨error, hfails⟩ := gives_or_fails config (server number)
    · refine ⟨output, hpos, hgives, fun k hk hlt other hother => ?_⟩
      obtain ⟨error, herror⟩ := hfailed k hk hlt
      exact hother.not_fails (read_eq_error_iff.mp herror)
    · exact absurd (read_eq_error_iff.mpr hfails) (hdone error)

end Reply

/-! ## Requests -/

variable {overflow : Overflow} {config : Config} {request : Request} {posted : Post}
  {error : StageError}

/-- A request that cannot be posted fails with the same error in each attempt. -/
theorem complete_of_error (overflow : Overflow) (server : Nat → Reply)
    (h : post config request = .error error) :
    (complete overflow config request server).exchanges = [] ∧
      (PausesBefore overflow config.pause (max config.attempts 1) →
        (complete overflow config request server).result = some (.error error)) := by
  constructor
  · simp only [complete, h]
  · intro hpauses
    obtain ⟨last, hends, hretry⟩ := exists_retry_eq overflow config.attempts config.pause
      fun _ => (some (.error error) : Option (Except StageError StageOutput))
    have hbefore : PausesBefore overflow config.pause last := fun k hk hlt =>
      hpauses k hk (Nat.lt_of_lt_of_le hlt hends.le_limit)
    simp only [complete, h, hretry hbefore]

/-- What is sent up to the last attempt, and what the last reply says. -/
theorem exists_complete_eq (overflow : Overflow) (server : Nat → Reply)
    (h : post config request = .ok posted) :
    ∃ last, EndsWith (fun k => (server k).read overflow config) 1 (max config.attempts 1) last ∧
      (PausesBefore overflow config.pause last →
        (complete overflow config request server).exchanges =
          (List.range' 1 last).map (fun k => (posted, server k)) ∧
        (complete overflow config request server).result = (server last).read overflow config) := by
  obtain ⟨last, hends, hretry⟩ := exists_retry_eq overflow config.attempts config.pause
    fun k => (server k).read overflow config
  refine ⟨last, hends, fun hpauses => ⟨?_, ?_⟩⟩
  · simp only [complete, h, hretry hpauses, List.map_map]
    rfl
  · simp only [complete, h, hretry hpauses]

/-- Nothing is posted without an address and a key. -/
theorem post_eq_error (h : (config.endpoint (.ofModel request.model)).url = none ∨
    (config.endpoint (.ofModel request.model)).key = none) :
    ∃ text, post config request = .error (.config text) := by
  rw [post]
  cases hurl : (config.endpoint (.ofModel request.model)).url with
  | none => exact ⟨_, rfl⟩
  | some url =>
    have hkey := h.resolve_left (by simp [hurl])
    rw [hkey]
    exact ⟨_, rfl⟩

theorem post_eq_ok {url key : String}
    (hurl : (config.endpoint (.ofModel request.model)).url = some url)
    (hkey : (config.endpoint (.ofModel request.model)).key = some key) :
    post config request = .ok ⟨url, key, document config request⟩ := by
  rw [post, hurl, hkey]

/-- **What comes of a request.** Without the address or the key of the provider nothing is sent, and
the configuration is to blame. Otherwise one and the same post is sent, up to the first reply that
gives a completion if it comes within the attempts, and then this completion is the result. If none
does, then all attempts are made, at least one, and the failure of the last reply is the result. No
pause between these attempts may stop the program, and the counts of the completion may not sum to
more than 64 bits. -/
theorem complete_of_replies (overflow : Overflow) (config : Config) (request : Request)
    (server : Nat → Reply) :
    let endpoint := config.endpoint (.ofModel request.model)
    let limit := max config.attempts 1
    let completed := complete overflow config request server
    (endpoint.url = none ∨ endpoint.key = none →
      completed.exchanges = [] ∧
        (PausesBefore overflow config.pause limit →
          ∃ text, completed.result = some (.error (.config text)))) ∧
    ∀ url key, endpoint.url = some url → endpoint.key = some key →
      let posted : Post := ⟨url, key, document config request⟩
      (∀ number output, Reply.FirstGives server number output → number ≤ limit →
        PausesBefore overflow config.pause number →
        completed.exchanges = (List.range' 1 number).map (fun k => (posted, server k)) ∧
          (output.usage.prompt + output.usage.completion < 2 ^ 64 →
            completed.result = some (.ok output))) ∧
      ((∀ number output, Reply.FirstGives server number output → limit < number) →
        PausesBefore overflow config.pause limit →
        completed.exchanges = (List.range' 1 limit).map (fun k => (posted, server k)) ∧
          ∃ error, (server limit).Fails config error ∧
            completed.result = some (.error error)) := by
  intro endpoint limit completed
  constructor
  · intro hmissing
    obtain ⟨text, hpost⟩ := post_eq_error hmissing
    obtain ⟨hexchanges, hresult⟩ := complete_of_error overflow server hpost
    exact ⟨hexchanges, fun hpauses => ⟨text, hresult hpauses⟩⟩
  · intro url key hurl hkey posted
    obtain ⟨last, hends, hcompleted⟩ :=
      exists_complete_eq overflow server (post_eq_ok hurl hkey)
    constructor
    · intro number output hgives hle hpauses
      obtain rfl := hends.eq_of_firstDone (Reply.exists_firstGives_iff.mp ⟨output, hgives⟩) hle
      obtain ⟨hexchanges, hresult⟩ := hcompleted hpauses
      exact ⟨hexchanges, fun hsum =>
        hresult.trans (Reply.read_of_gives overflow config hgives.gives hsum)⟩
    · intro hnone hpauses
      obtain ⟨rfl, error, herror⟩ := hends.eq_limit fun number hdone =>
        have ⟨output, hgives⟩ := Reply.exists_firstGives_iff.mpr hdone
        hnone number output hgives
      obtain ⟨hexchanges, hresult⟩ := hcompleted hpauses
      exact ⟨hexchanges, error, Reply.read_eq_error_iff.mp herror, hresult.trans herror⟩

/-- Settings allow three attempts with pauses of seconds, so that a request has a result where
numbers are reduced. -/
theorem exists_result_of_settings (lookup : String → Option String) (request : Request)
    (server : Nat → Reply) :
    ∃ result, (complete .wraps (.ofSettings lookup) request server).result = some result := by
  have hpauses : PausesBefore .wraps 1000 3 := pausesBefore_of_fits .wraps fun k _ hk =>
    pauseFits_of_lt (by decide) (by omega)
  cases hpost : post (.ofSettings lookup) request with
  | error error => exact ⟨_, (complete_of_error .wraps server hpost).2 hpauses⟩
  | ok posted =>
    obtain ⟨last, hends, hcompleted⟩ := exists_complete_eq .wraps server hpost
    have hlast : last ≤ 3 := hends.le_limit
    obtain ⟨-, hresult⟩ := hcompleted fun k hk hlt => hpauses k hk (by omega)
    obtain ⟨result, hread⟩ := Reply.exists_read_wraps (.ofSettings lookup) (server last)
    exact ⟨result, hresult.trans hread⟩

/-! ## A request that is refused at first -/

/-- A completion without a total and with a count that is no number. -/
def passing : String :=
  "\x7b\"choices\": [\x7b\"message\": \x7b\"content\": \" pass\"\x7d\x7d], " ++
    "\"usage\": \x7b\"prompt_tokens\": 12, \"completion_tokens\": \"30\"\x7d\x7d"

/-- Refuses the first request with a completion, does not answer the second and then passes. -/
def reluctant : Nat → Reply
  | 0 | 1 => .answered 500 passing
  | 2 => .silent
  | _ => .answered 200 passing

theorem eq_some_ok_of_toOption {result : Option (Except StageError StageOutput)}
    {output : StageOutput} (h : result.bind Except.toOption = some output) :
    result = some (.ok output) := by
  obtain _ | error | found := result
  · cases h
  · cases h
  · cases h
    rfl

theorem complete_reluctant :
    let config : Config := { claude := ⟨some "http://models/chat", some "key"⟩ }
    let request : Request := ⟨"claude-sonnet", "Review.", "service a \x7b\x7d", "review"⟩
    let output : StageOutput := ⟨" pass", 12, 0, 12⟩
    Reply.FirstGives reluctant 3 output ∧
      (complete .stops config request reluctant).exchanges.length = 3 ∧
      (complete .stops config request reluctant).result = some (.ok output) := by
  intro config request output
  have hread : ((Reply.answered 200 passing).read .stops config).bind Except.toOption =
      some output := by
    decide +kernel
  have hgives := Reply.gives_of_read_stops (eq_some_ok_of_toOption hread)
  have hfirst : Reply.FirstGives reluctant 3 output := by
    refine ⟨by decide, hgives, fun k hpos hlt other hother => ?_⟩
    obtain rfl | rfl : k = 1 ∨ k = 2 := by omega
    · obtain ⟨hstatus, -⟩ := hother
      exact absurd hstatus (by decide)
    · cases hother
  have hpauses : PausesBefore .stops config.pause 3 := pausesBefore_of_fits .stops fun k _ hk =>
    pauseFits_of_lt (by decide) (by omega)
  obtain ⟨hsent, -⟩ := (complete_of_replies .stops config request reluctant).2
    "http://models/chat" "key" (by decide +kernel) (by decide +kernel)
  obtain ⟨hexchanges, hresult⟩ := hsent 3 output hfirst (by decide) hpauses
  exact ⟨hfirst, by rw [hexchanges]; rfl, hresult (by decide)⟩

/-! ## Requests that come out otherwise -/

/-- An answer whose choices are no list but have a field of the name 0. -/
def numbered : String :=
  "\x7b\"choices\": \x7b\"0\": \x7b\"message\": \x7b\"content\": \"pass\"\x7d\x7d\x7d\x7d"

/-- An answer whose counts sum to `2 ^ 64`. -/
def excessive : String :=
  "\x7b\"choices\": [\x7b\"message\": \x7b\"content\": \"pass\"\x7d\x7d], \"usage\": " ++
    "\x7b\"prompt_tokens\": 18446744073709551615, \"completion_tokens\": 1\x7d\x7d"

/-- Choices that are no list give a completion all the same. A sum that has more than 64 bits is
lost, or the program stops; it also stops at the pause behind the 32nd attempt. -/
theorem complete_numbered_choices :
    let config : Config := { claude := ⟨some "http://models/chat", some "key"⟩ }
    let request : Request := ⟨"claude-sonnet", "Review.", "service a \x7b\x7d", "review"⟩
    let result (overflow : Overflow) (body : String) :=
      (complete overflow config request fun _ => .answered 200 body).result
    ((Json.read? numbered).bind (·.get? "choices")).bind Json.list? = none ∧
      result .stops numbered = some (.ok ⟨"pass", 0, 0, 0⟩) ∧
      result .wraps numbered = some (.ok ⟨"pass", 0, 0, 0⟩) ∧
      result .stops excessive = none ∧
      result .wraps excessive = some (.ok ⟨"pass", 2 ^ 64 - 1, 1, 0⟩) ∧
      (complete .stops { config with attempts := 33, pause := 0 } request
        fun _ => .silent).result = none := by
  intro config request result
  exact ⟨Option.isNone_iff_eq_none.mp (by decide +kernel),
    eq_some_ok_of_toOption (by decide +kernel), eq_some_ok_of_toOption (by decide +kernel),
    Option.isNone_iff_eq_none.mp (by decide +kernel), eq_some_ok_of_toOption (by decide +kernel),
    Option.isNone_iff_eq_none.mp (by decide +kernel)⟩

end ScriptForge.Chat
