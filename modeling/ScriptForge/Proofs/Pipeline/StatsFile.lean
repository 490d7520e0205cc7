import ScriptForge.Decimal.Natural
import ScriptForge.Proofs.Pipeline.RoundTrip
import ScriptForge.Proofs.Text.Lines
import Mathlib.Data.List.DropRight

/-!
# Statistics files read back

A statistics file is opened anew or at its end, any number of times, and rounds are recorded in
between. After every step it is the header line with the rows of the rounds recorded since it was
opened anew for the last time (`run_eq`), which is what each step preserves (`Step.apply_eq`).

`read?` reads such a text again: it splits lines at commas, takes an empty field for a missing entry
and puts the two rows of a round together. It finds the rounds as they were recorded.
-/

namespace ScriptForge.Pipeline.StatsFile

/-! ## Steps -/

/-- The ways in which a file is opened. -/
inductive Opening
  /-- The text of the file, if there is one, is dropped. -/
  | anew
  | atEnd
  deriving DecidableEq, Repr

/-- The text after opening the file, given its text if it exists. -/
def Opening.apply (text : Option String) : Opening → String
  | anew => create
  | atEnd => append text

/-- What happens to a file that has been opened. -/
inductive Step
  /-- The file is opened once more. -/
  | opens (opening : Opening)
  | records (stats : RoundStats)
  deriving DecidableEq, Repr

namespace Step

/-- The text after a step. -/
def apply (text : String) : Step → String
  | opens opening => opening.apply (some text)
  | records stats => record text stats

/-- The round that a step records. -/
def stats? : Step → Option RoundStats
  | opens _ => none
  | records stats => some stats

end Step

/-- The text of a file that did not exist before it was opened, after some steps. -/
def run (first : Opening) (steps : List Step) : String :=
  steps.foldl Step.apply (first.apply none)

/-- The rounds recorded since the file was opened anew for the last time, or at all. -/
def kept (steps : List Step) : List RoundStats :=
  (steps.rtakeWhile (· != .opens .anew)).filterMap Step.stats?

/-- The text of a file with the rows of rounds. -/
def textOf (rounds : List RoundStats) : String :=
  header ++ String.join (rounds.map rows)

theorem record_textOf (rounds : List RoundStats) (stats : RoundStats) :
    record (textOf rounds) stats = textOf (rounds ++ [stats]) := by
  simp [record, textOf, String.append_assoc]

/-- A file that holds the header is not given another one. -/
theorem append_textOf (rounds : List RoundStats) :
    append (some (textOf rounds)) = textOf rounds := by
  have hheader : header ≠ "" := by decide
  rw [append, if_neg]
  simp [textOf, hheader]

/-! ## What is kept -/

theorem kept_records (steps : List Step) (stats : RoundStats) :
    kept (steps ++ [.records stats]) = kept steps ++ [stats] := by
  rw [kept, List.rtakeWhile_concat_pos _ _ _ (by rfl), List.filterMap_append]
  rfl

theorem kept_atEnd (steps : List Step) : kept (steps ++ [.opens .atEnd]) = kept steps := by
  rw [kept, List.rtakeWhile_concat_pos _ _ _ (by rfl), List.filterMap_append]
  exact List.append_nil _

theorem kept_anew (steps : List Step) : kept (steps ++ [.opens .anew]) = [] := by
  rw [kept, List.rtakeWhile_concat_neg _ _ _ (by simp)]
  rfl

/-- What a step preserves: the text is the header with the rows of the rounds that are kept. -/
theorem Step.apply_textOf (steps : List Step) (step : Step) :
    step.apply (textOf (kept steps)) = textOf (kept (steps ++ [step])) := by
  cases step with
  | records stats => rw [kept_records, apply, record_textOf]
  | opens opening =>
    cases opening with
    | anew =>
      rw [kept_anew]
      rfl
    | atEnd => rw [kept_atEnd, apply, Opening.apply, append_textOf]

theorem run_eq (first : Opening) (steps : List Step) : run first steps = textOf (kept steps) := by
  induction steps using List.reverseRecOn with
  | nil => cases first <;> rfl
  | append_singleton steps step ih =>
    rw [run, List.foldl_append]
    exact (congrArg step.apply ih).trans (step.apply_textOf steps)

/-! ## Cells -/

/-- The cells of a table, line by line. -/
def cells (text : List Char) : List (List String) :=
  (Text.lines text).map fun line => (line.splitOn ',').map String.ofList

/-- A cell holds neither a comma nor a line end. -/
def IsCell (cell : String) : Prop :=
  ∀ c ∈ cell.toList, c ≠ ',' ∧ c ≠ '\n' ∧ c ≠ '\r'

variable {fields : List String} {rest : List Char}

theorem toList_line (fields : List String) :
    (line fields).toList = [','].intercalate (fields.map String.toList) ++ ['\n'] := by
  rw [line, String.toList_append, String.toList_intercalate]
  rfl

theorem mem_intercalate {c : Char} (h : c ∈ [','].intercalate (fields.map String.toList)) :
    c = ',' ∨ ∃ cell ∈ fields, c ∈ cell.toList := by
  induction fields with
  | nil => simp at h
  | cons cell fields ih =>
    cases fields with
    | nil => exact .inr ⟨cell, List.mem_cons_self, by simpa using h⟩
    | cons next fields =>
      rw [List.map_cons, List.map_cons, List.intercalate_cons_cons, List.mem_append,
        List.mem_append, List.mem_singleton, ← List.map_cons] at h
      rcases h with (hc | rfl) | hc
      · exact .inr ⟨cell, List.mem_cons_self, hc⟩
      · exact .inl rfl
      · exact (ih hc).imp_right fun ⟨cell, hcell, hc⟩ => ⟨cell, List.mem_cons_of_mem _ hcell, hc⟩

theorem ne_of_mem_intercalate (hcells : ∀ cell ∈ fields, IsCell cell) :
    ∀ c ∈ [','].intercalate (fields.map String.toList), c ≠ '\n' ∧ c ≠ '\r' := by
  intro c hc
  rcases mem_intercalate hc with rfl | ⟨cell, hcell, hc⟩
  · decide
  · exact (hcells cell hcell c hc).2

/-- A line of cells splits into them. -/
theorem cells_line_append (hcells : ∀ cell ∈ fields, IsCell cell) (hne : fields ≠ []) :
    cells ((line fields).toList ++ rest) = fields :: cells rest := by
  have hmem := ne_of_mem_intercalate hcells
  have hsplit : List.splitOn ',' ([','].intercalate (fields.map String.toList)) =
      fields.map String.toList := by
    refine List.splitOn_intercalate ',' ?_ (by simpa using hne)
    intro text htext hcomma
    obtain ⟨cell, hcell, rfl⟩ := List.mem_map.mp htext
    exact (hcells cell hcell ',' hcomma).1 rfl
  rw [cells, toList_line, List.append_assoc, List.singleton_append, Text.lines_append,
    List.map_cons, hsplit, List.map_map]
  · simp [cells, Function.comp_def]
  · exact fun hc => (hmem '\n' hc).1 rfl
  · exact fun c hc => (hmem c (List.mem_of_getLast? hc)).2

/-! ## Numbers and tables -/

theorem toList_toString (n : Nat) : (toString n).toList = Nat.toDigits 10 n :=
  Nat.toList_repr

theorem isCell_toString (n : Nat) : IsCell (toString n) := by
  intro c hc
  rw [toList_toString] at hc
  have hdigit := Nat.isDigit_of_mem_toDigits (by decide) (by decide) hc
  refine ⟨?_, ?_, ?_⟩ <;> rintro rfl <;> cases hdigit

theorem nat?_toString (n : Nat) : Decimal.nat? (toString n).toList = some n := by
  have hdigits : (Nat.toDigits 10 n).all Char.isDigit = true :=
    List.all_eq_true.mpr fun c hc => Nat.isDigit_of_mem_toDigits (by decide) (by decide) hc
  have hne : (Nat.toDigits 10 n).isEmpty = false := by
    simp [Nat.toDigits_ne_nil]
  rw [toList_toString, Decimal.nat?, hdigits, hne]
  exact congrArg some (Nat.ofDigitChars_toDigits (by decide) (by decide))

/-- The cell of an entry. -/
def entryCell : Option Nat → String
  | some n => toString n
  | none => ""

/-- The entry that a cell gives; an empty cell gives none. -/
def count? (cell : String) : Option (Option Nat) :=
  if cell.isEmpty then some none else some <$> Decimal.nat? cell.toList

/-- The table that the cells of all slots give. -/
def table? (row : List String) : Option (SlotMap Nat) := do
  let entries ← row.mapM count?
  if entries.length = Slot.all.length then
    return .ofList ((Slot.all.zip entries).filterMap fun (slot, entry) => entry.map (slot, ·))
  else none

theorem count?_entryCell (entry : Option Nat) : count? (entryCell entry) = some entry := by
  cases entry with
  | none => rfl
  | some n =>
    have hne : (toString n).isEmpty = false :=
      String.isEmpty_eq_false_iff.mpr Nat.repr_ne_empty
    rw [entryCell, count?, hne, nat?_toString]
    rfl

theorem table?_entryCells (values : SlotMap Nat) :
    table? (Slot.all.map fun slot => entryCell (values.get? slot)) = some values := by
  have hentries : (Slot.all.map fun slot => entryCell (values.get? slot)).mapM count? =
      some (Slot.all.map values.get?) := by
    have hread : (count? ∘ fun slot => entryCell (values.get? slot)) =
        fun slot => pure (values.get? slot) :=
      funext fun slot => count?_entryCell (values.get? slot)
    rw [List.mapM_map, hread]
    exact List.mapM_pure
  rw [table?, hentries]
  exact congrArg some (SlotMap.ofList_toList values)

/-! ## Rows -/

/-- The round, the kind and the entries of a row. -/
def row? : List String → Option (Nat × String × SlotMap Nat)
  | round :: kind :: entries => do
    return (← Decimal.nat? round.toList, kind, ← table? entries)
  | _ => none

/-- The rounds of which rows are the two rows each. -/
def rounds? : List (List String) → Option (List RoundStats)
  | [] => some []
  | first :: second :: rows => do
    let (round, "duration_ms", latency) ← row? first | none
    let (sameRound, "tokens", tokens) ← row? second | none
    if sameRound = round then return ⟨round, latency, tokens⟩ :: (← rounds? rows) else none
  | _ => none

/-- The rounds of a statistics file, if the text is that of one. -/
def read? (text : String) : Option (List RoundStats) :=
  match cells text.toList with
  | first :: rows => if first = columns then rounds? rows else none
  | [] => none

/-- The cells of a row. -/
def rowCells (round : Nat) (kind : String) (values : SlotMap Nat) : List String :=
  toString round :: kind :: Slot.all.map fun slot => entryCell (values.get? slot)

theorem row_eq (round : Nat) (kind : String) (values : SlotMap Nat) :
    row round kind values = line (rowCells round kind values) := by
  rfl

theorem row?_rowCells (round : Nat) (kind : String) (values : SlotMap Nat) :
    row? (rowCells round kind values) = some (round, kind, values) := by
  rw [rowCells, row?, nat?_toString, table?_entryCells]
  rfl

theorem isCell_of_mem_rowCells {kind : String} (hkind : IsCell kind) {round : Nat}
    {values : SlotMap Nat} : ∀ cell ∈ rowCells round kind values, IsCell cell := by
  have hentry : ∀ entry, IsCell (entryCell entry)
    | none => by simp [IsCell, entryCell]
    | some n => isCell_toString n
  refine List.forall_mem_cons.mpr ⟨isCell_toString round, List.forall_mem_cons.mpr ⟨hkind, ?_⟩⟩
  exact List.forall_mem_map.mpr fun slot _ => hentry (values.get? slot)

theorem cells_row_append {kind : String} (hkind : IsCell kind) (round : Nat)
    (values : SlotMap Nat) :
    cells ((row round kind values).toList ++ rest) = rowCells round kind values :: cells rest := by
  rw [row_eq, cells_line_append (isCell_of_mem_rowCells hkind) (List.cons_ne_nil _ _)]

theorem cells_rows (rounds : List RoundStats) :
    cells (String.join (rounds.map rows)).toList = rounds.flatMap fun stats =>
      [rowCells stats.round "duration_ms" stats.latency,
        rowCells stats.round "tokens" stats.tokens] := by
  have hlatency : IsCell "duration_ms" := by
    simp [IsCell]
  have htokens : IsCell "tokens" := by
    simp [IsCell]
  induction rounds with
  | nil => rfl
  | cons stats rounds ih =>
    rw [List.map_cons, String.join_cons, String.toList_append, rows, String.toList_append,
      List.append_assoc, cells_row_append hlatency, cells_row_append htokens, ih]
    rfl

theorem cells_textOf (rounds : List RoundStats) :
    cells (textOf rounds).toList = columns :: cells (String.join (rounds.map rows)).toList := by
  have hcolumns : ∀ cell ∈ columns, IsCell cell := by
    simp [IsCell, columns, Slot.all, Slot.id]
  rw [textOf, String.toList_append, header, cells_line_append hcolumns (List.cons_ne_nil _ _)]

/-- The rows of recorded rounds are read as these rounds. -/
theorem rounds?_rows (rounds : List RoundStats) :
    rounds? (cells (String.join (rounds.map rows)).toList) = some rounds := by
  rw [cells_rows]
  induction rounds with
  | nil => rfl
  | cons stats rounds ih =>
    rw [List.flatMap_cons, List.cons_append, List.cons_append, List.nil_append, rounds?,
      row?_rowCells, row?_rowCells, ih]
    simp

/-- The second cell of a row names what the row is about, so no row is taken for the header line. -/
theorem columns_not_mem_rows (rounds : List RoundStats) :
    columns ∉ cells (String.join (rounds.map rows)).toList := by
  rw [cells_rows]
  simp [columns, rowCells]

/-- A statistics file loses nothing. However it is opened and whatever is recorded, its text is one
header line with the rows of the rounds recorded since it was opened anew for the last time, and
reading the text gives these rounds with all their entries. -/
theorem rounds_of_run (first : Opening) (steps : List Step) :
    run first steps = header ++ String.join ((kept steps).map rows) ∧
      (cells (run first steps).toList).count columns = 1 ∧
      read? (run first steps) = some (kept steps) := by
  rw [run_eq]
  refine ⟨rfl, ?_, ?_⟩
  · rw [cells_textOf, List.count_cons_self,
      List.count_eq_zero_of_not_mem (columns_not_mem_rows (kept steps))]
  · rw [read?, cells_textOf]
    exact (if_pos rfl).trans (rounds?_rows (kept steps))

end ScriptForge.Pipeline.StatsFile
