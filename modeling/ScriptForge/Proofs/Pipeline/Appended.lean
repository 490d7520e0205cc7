import ScriptForge.Proofs.Pipeline.StatsFile

/-!
# Statistics files that hold something already

A file that is opened at its end may hold any text, for instance what an interrupted run has left.
Whatever it is, the rows of the rounds recorded from then on are put behind it
(`runOn_eq`). Whether they become lines of their own depends on how the text ends: only if it ends
with a line end, so that nothing stands in front of the first row on its line
(`lines_of_runOn`).
-/

namespace ScriptForge.Pipeline.StatsFile

open Text

/-- The text of a file that is opened at its end, given its text if it exists, after some steps. -/
def runOn (text : Option String) (steps : List Step) : String :=
  steps.foldl Step.apply (append text)

theorem append_ne_empty (text : Option String) : append text ≠ "" := by
  have hheader : header ≠ "" := by decide
  cases text with
  | none => exact hheader
  | some text =>
    rw [append]
    split
    · exact hheader
    · simpa using ‹¬ text.isEmpty = true›

/-- As long as the file is not opened anew, each step leaves the text and puts the rows of its
round, if it records one, behind it. -/
theorem foldl_apply {text : String} (hne : text ≠ "") {steps : List Step}
    (hsteps : .opens .anew ∉ steps) : steps.foldl Step.apply text =
      text ++ String.join ((steps.filterMap Step.stats?).map rows) := by
  induction steps generalizing text with
  | nil => simp
  | cons step steps ih =>
    rw [List.mem_cons, not_or] at hsteps
    obtain ⟨hstep, hsteps⟩ := hsteps
    cases step with
    | records stats =>
      have hmore : record text stats ≠ "" := by simp [record, hne]
      rw [List.foldl_cons, Step.apply, ih hmore hsteps, record, String.append_assoc]
      simp [Step.stats?]
    | opens opening =>
      cases opening with
      | anew => exact absurd rfl hstep
      | atEnd =>
        have hsame : append (some text) = text := by simp [append, hne]
        rw [List.foldl_cons, Step.apply, Opening.apply, hsame, ih hne hsteps]
        rfl

theorem runOn_eq (text : Option String) {steps : List Step} (hsteps : .opens .anew ∉ steps) :
    runOn text steps =
      append text ++ String.join ((steps.filterMap Step.stats?).map rows) :=
  foldl_apply (append_ne_empty text) hsteps

/-! ## Lines -/

section

variable {front last : List Char}

/-- The text of rows starts with a line that may be put behind any other text. -/
theorem exists_row (stats : RoundStats) (rounds : List RoundStats) :
    ∃ row more, (String.join ((stats :: rounds).map rows)).toList = row ++ '\n' :: more ∧
      row ≠ [] ∧ ∀ c ∈ row, c ≠ '\n' ∧ c ≠ '\r' := by
  have hkind : IsCell "duration_ms" := by simp [IsCell]
  have hcells := @isCell_of_mem_rowCells _ hkind stats.round stats.latency
  refine ⟨[','].intercalate ((rowCells stats.round "duration_ms" stats.latency).map String.toList),
    (row stats.round "tokens" stats.tokens).toList ++ (String.join (rounds.map rows)).toList, ?_,
    ?_, ne_of_mem_intercalate hcells⟩
  · rw [List.map_cons, String.join_cons, String.toList_append, rows, String.toList_append, row_eq,
      toList_line]
    simp only [List.append_assoc, List.cons_append, List.nil_append]
  · simp [rowCells, Slot.all]

/-- Behind an unfinished line, the first row goes on this line. -/
theorem lines_append_row (hfront : WholeLines front) (hne : last ≠ []) (hlast : '\n' ∉ last)
    (stats : RoundStats) (rounds : List RoundStats) : ∃ row more,
      row ≠ [] ∧ lines (String.join ((stats :: rounds).map rows)).toList = row :: more ∧
      lines (front ++ last) = lines front ++ [last] ∧
      lines (front ++ last ++ (String.join ((stats :: rounds).map rows)).toList) =
        lines front ++ (last ++ row) :: more := by
  obtain ⟨row, more, htext, hrow, hmem⟩ := exists_row stats rounds
  have hbreak : '\n' ∉ row := fun h => (hmem _ h).1 rfl
  have hreturn : ∀ c ∈ row.getLast?, c ≠ '\r' := fun c hc => (hmem c (List.mem_of_getLast? hc)).2
  refine ⟨row, lines more, hrow, ?_, ?_, ?_⟩
  · rw [htext, lines_append hbreak hreturn]
  · rw [hfront.lines_append, lines_of_not_mem hne hlast]
  · rw [htext, List.append_assoc, hfront.lines_append, ← List.append_assoc, lines_append]
    · simp [hlast, hbreak]
    · rwa [List.getLast?_append_of_ne_nil _ hrow]

/-- The rows of rounds: two for each, of eight fields, from which the rounds are read again. -/
theorem rows_wellFormed (rounds : List RoundStats) :
    let added := lines (String.join (rounds.map rows)).toList
    added.length = 2 * rounds.length ∧ (∀ row ∈ added, (row.splitOn ',').length = 8) ∧
      rounds? (added.map fun row => (row.splitOn ',').map String.ofList) = some rounds := by
  intro added
  have hcells := cells_rows rounds
  refine ⟨?_, fun row hrow => ?_, rounds?_rows rounds⟩
  · have hlength := congrArg List.length hcells
    rw [cells, List.length_map] at hlength
    exact hlength.trans (by simp [List.length_flatMap, Nat.mul_comm])
  · have hmem : (row.splitOn ',').map String.ofList ∈
        cells (String.join (rounds.map rows)).toList := List.mem_map_of_mem hrow
    rw [hcells, List.mem_flatMap] at hmem
    obtain ⟨stats, -, hmem⟩ := hmem
    have hlength : ((row.splitOn ',').map String.ofList).length = 8 := by
      simp only [List.mem_cons, List.not_mem_nil, or_false] at hmem
      rcases hmem with h | h <;> rw [h] <;> rfl
    rwa [List.length_map] at hlength

/-! ## Appending -/

/-- What a file holds once it has been opened at its end: the header line, if it was empty. -/
theorem append_eq (text : Option String) :
    append text = if text.getD "" = "" then header else text.getD "" := by
  cases text <;> simp [append]

theorem ends_iff {old : String} (h : (if old = "" then header else old).toList = front ++ last)
    (hfront : WholeLines front) (hlast : '\n' ∉ last) :
    (∀ c ∈ old.toList.getLast?, c = '\n') ↔ last = [] := by
  have hheld : (∀ c ∈ old.toList.getLast?, c = '\n') ↔
      ∀ c ∈ (if old = "" then header else old).toList.getLast?, c = '\n' := by
    split
    · subst old
      refine iff_of_true (by simp) ?_
      rw [header, toList_line, List.getLast?_concat]
      simp
    · rfl
  rw [hheld, h]
  constructor
  · intro hends
    by_contra hne
    rw [List.getLast?_append_of_ne_nil _ hne] at hends
    have hlast' := hends _ (List.getLast?_eq_some_getLast hne)
    exact hlast (hlast' ▸ List.getLast_mem hne)
  · rintro rfl
    rw [List.append_nil]
    exact hfront.eq_of_mem_getLast?

/-- **Appending.** A file that is opened at its end gets two rows for each round, of eight fields,
from which the rounds are read again. What it holds already stays as it is, line by line, if it ends
with a line end, or is empty and gets the header line. If it ends with an unfinished line, the first
row goes on this line, and neither of the two is a line of the file. -/
theorem lines_of_runOn (text : Option String) {steps : List Step}
    (hsteps : .opens .anew ∉ steps) :
    let old := text.getD ""
    let held := lines (if old = "" then header else old).toList
    let rounds := steps.filterMap Step.stats?
    let added := lines (String.join (rounds.map rows)).toList
    let after := lines (runOn text steps).toList
    (added.length = 2 * rounds.length ∧ (∀ row ∈ added, (row.splitOn ',').length = 8) ∧
      rounds? (added.map fun row => (row.splitOn ',').map String.ofList) = some rounds) ∧
    (after = held ++ added ↔ (∀ c ∈ old.toList.getLast?, c = '\n') ∨ rounds = []) ∧
    (¬ (∀ c ∈ old.toList.getLast?, c = '\n') → rounds ≠ [] →
      ∃ front last row more, last ≠ [] ∧ row ≠ [] ∧ held = front ++ [last] ∧
        added = row :: more ∧ after = front ++ (last ++ row) :: more) := by
  intro old held rounds added after
  obtain ⟨front, last, htext, hfront, hlast⟩ :=
    exists_wholeLines (if old = "" then header else old).toList
  have hafter : after =
      lines (front ++ last ++ (String.join (rounds.map rows)).toList) := by
    change lines (runOn text steps).toList = _
    rw [runOn_eq text hsteps, String.toList_append, append_eq, ← htext]
  have hheld : held = lines (front ++ last) := congrArg lines htext
  refine ⟨rows_wellFormed rounds, ?_⟩
  rw [ends_iff htext hfront hlast, hheld, hafter]
  by_cases hnil : last = []
  · subst hnil
    rw [List.append_nil, hfront.lines_append]
    simp [added]
  · cases hrounds : rounds with
    | nil => simp [added, hrounds, lines]
    | cons stats others =>
      obtain ⟨row, more, hrow, hadded, hfinished, hglued⟩ :=
        lines_append_row hfront hnil hlast stats others
      have hadded : added = row :: more := by rw [← hadded, ← hrounds]
      rw [hfinished, hglued, hadded]
      refine ⟨iff_of_false (fun heq => ?_) (by simp [hnil]), fun _ _ =>
        ⟨lines front, last, row, more, hnil, hrow, rfl, rfl, rfl⟩⟩
      have hlength := congrArg List.length heq
      simp only [List.length_append, List.length_cons, List.length_nil] at hlength
      omega

end

/-- Two runs, one after the other. -/
theorem lines_of_second_run :
    let stats : RoundStats := (RoundStats.ofRound 1).add .review 7 70
    let steps := [Step.opens .atEnd, .records stats]
    .opens .anew ∉ steps ∧
      lines (runOn (some "kept,as\r\n,it is\n") steps).toList =
        ["kept,as".toList, ",it is".toList] ++
          lines (String.join ([stats].map rows)).toList := by
  intro stats steps
  have hsteps : .opens .anew ∉ steps := by decide
  have hlines := (lines_of_runOn (some "kept,as\r\n,it is\n") hsteps).2.1.mpr
  exact ⟨hsteps, hlines (.inl (by simp))⟩

/-- Behind a row that was not written to its end, neither it nor the next row is a line. -/
theorem unfinished_row_lost :
    let stats : RoundStats := (RoundStats.ofRound 2).add .review 7 70
    let old := "1,duration_ms,10,,,,,\n1,tok"
    let after := lines (runOn (some old) [.records stats]).toList
    "1,tok".toList ∈ lines old.toList ∧ "1,tok".toList ∉ after ∧
      "2,duration_ms,,,,,,7".toList ∈ lines (rows stats).toList ∧
      "2,duration_ms,,,,,,7".toList ∉ after := by
  decide +kernel

end ScriptForge.Pipeline.StatsFile
