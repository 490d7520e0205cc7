import ScriptForge.Proofs.Quality.Analysis
import ScriptForge.Proofs.Script.Renaming
import Mathlib.Data.Set.Function

/-!
# Variables that are nowhere declared

`AreUndeclared script uses` fixes the uses that the check of variables reports. Which names they
read is a matter of the sets of names that are read and declared (`AreUndeclared.mem_names_iff`), so
statements may change places or stand more than once (`AreUndeclared.names_perm`). Only whether
names are the same matters, so the check goes along with every renaming that keeps names apart
(`undeclaredUses_renamed`).

Nothing here asks where a script comes from: its calls may hold anything, embedded blocks too.
-/

namespace ScriptForge.Quality

open Script

/-! ## The names that are reported -/

/-- The first uses of the names that a script reads and never declares. -/
def undeclaredUses (script : Script) : List Reference :=
  (firstUses [] script.references).filter fun use => !script.declaredNames.contains use.name

theorem dataFlowFindings_eq (script : Script) :
    dataFlowFindings script = (undeclaredUses script).map dataFlowFinding := rfl

section

variable {script other : Script} {uses others : List Reference}

/-- The names that are reported are those that are read and not declared. -/
theorem AreUndeclared.mem_names_iff (h : AreUndeclared script uses) {name : String} :
    name ∈ uses.map Reference.name ↔
      (∃ use, script.Contains (.reference use) ∧ use.name = name) ∧ ¬ script.Declares name := by
  constructor
  · intro hname
    obtain ⟨use, huse, rfl⟩ := List.mem_map.mp hname
    exact ⟨⟨use, mem_references_iff.mp (h.ordered.subset huse), rfl⟩, h.undeclared use huse⟩
  · rintro ⟨⟨use, hcontains, rfl⟩, hundeclared⟩
    exact h.complete use hcontains hundeclared

theorem AreUndeclared.names_perm (h : AreUndeclared script uses) (h' : AreUndeclared other others)
    (hsame : ∀ statement, statement ∈ other.statements ↔ statement ∈ script.statements) :
    (others.map Reference.name).Perm (uses.map Reference.name) := by
  refine (List.perm_ext_iff_of_nodup h'.distinct h.distinct).mpr fun name => ?_
  simp only [h.mem_names_iff, h'.mem_names_iff, Contains, Declares, hsame]

end

/-! ## Renaming -/

section

variable {f : String → String} {seen : List String} {references : List Reference}

theorem mem_map_iff_of_injOn {names : Set String} {declared : List String} {name : String}
    (hf : Set.InjOn f names) (hdeclared : ∀ other ∈ declared, other ∈ names)
    (hname : name ∈ names) :
    f name ∈ declared.map f ↔ name ∈ declared := by
  constructor
  · intro hmem
    obtain ⟨other, hother, heq⟩ := List.mem_map.mp hmem
    rwa [← hf (hdeclared other hother) hname heq]
  · exact List.mem_map_of_mem

/-- The first uses of names are the first uses of the new names, as long as no two become one. -/
theorem firstUses_renamed {names : Set String} (hf : Set.InjOn f names)
    (hseen : ∀ name ∈ seen, name ∈ names) (hnames : ∀ use ∈ references, use.name ∈ names) :
    firstUses (seen.map f) (references.map (Reference.renamed f)) =
      (firstUses seen references).map (Reference.renamed f) := by
  induction references generalizing seen with
  | nil => rfl
  | cons first rest ih =>
    obtain ⟨hfirst, hrest⟩ := List.forall_mem_cons.mp hnames
    have hsame : (seen.map f).contains (f first.name) = seen.contains first.name := by
      rw [Bool.eq_iff_iff, List.contains_iff_mem, List.contains_iff_mem]
      exact mem_map_iff_of_injOn hf hseen hfirst
    rw [List.map_cons, firstUses, firstUses, Reference.renamed_name, hsame]
    split
    · exact ih hseen hrest
    · have hmore := ih (List.forall_mem_cons.mpr ⟨hfirst, hseen⟩) hrest
      rw [List.map_cons] at hmore
      rw [hmore, List.map_cons]

theorem undeclaredUses_renamed {script : Script}
    (hf : Set.InjOn f {name | name ∈ script.variableNames}) :
    undeclaredUses (script.renamed f) = (undeclaredUses script).map (Reference.renamed f) := by
  have hdeclared : ∀ name ∈ script.declaredNames, name ∈ script.variableNames :=
    fun name hname => List.mem_append_left _ hname
  have hread : ∀ use ∈ script.references, use.name ∈ script.variableNames :=
    fun use huse => List.mem_append_right _ (List.mem_map_of_mem huse)
  have hfirst : firstUses [] (script.references.map (Reference.renamed f)) =
      (firstUses [] script.references).map (Reference.renamed f) :=
    @firstUses_renamed f [] script.references _ hf (by simp) hread
  rw [undeclaredUses, references_renamed, declaredNames_renamed, hfirst, List.filter_map,
    undeclaredUses]
  congr 1
  refine List.filter_congr fun use huse => ?_
  have hname := hread use (firstUses_sublist.subset huse)
  rw [Function.comp_apply, Reference.renamed_name, Bool.eq_iff_iff, Bool.not_eq_true',
    Bool.not_eq_true', ← Bool.not_eq_true, ← Bool.not_eq_true, List.contains_iff_mem,
    List.contains_iff_mem, mem_map_iff_of_injOn hf hdeclared hname]

end

/-! ## The check -/

/-- The reference that a walk has come to, if it is one. -/
def usage? : Visit → Option Reference
  | .usage reference => some reference
  | .statement _ | .declaration _ _ => none

theorem filterMap_usage? (script : Script) :
    script.visits.filterMap usage? = script.references := by
  rw [filterMap_visits, references]
  congr 1
  funext statement
  simp [usage?]

/-- **Undeclared variables.** The check of variables gives one finding for each name that is read
somewhere in a script and declared nowhere, and no other finding. The findings come in the order in
which a walk first meets the names, each with the line of that first use and the name in quotation
marks. If another script has the same statements, in any order and any number, the same names are
reported on it. If the variables get new names, no two of them the same, the findings are those on
the script before, each with the new name in the place of the old one. -/
theorem undeclared_names_reported (script : Script) :
    dataFlowFindings script = (undeclaredUses script).map dataFlowFinding ∧
      CiteEach .dataFlow (dataFlowFindings script) ((undeclaredUses script).map .ofUse) ∧
      AreUndeclared script (undeclaredUses script) ∧
      (undeclaredUses script).Sublist (script.visits.filterMap usage?) ∧
      (∀ other : Script,
        (∀ statement, statement ∈ other.statements ↔ statement ∈ script.statements) →
        ((undeclaredUses other).map Reference.name).Perm
          ((undeclaredUses script).map Reference.name)) ∧
      ∀ f : String → String, Set.InjOn f {name | name ∈ script.variableNames} →
        dataFlowFindings (script.renamed f) =
          (undeclaredUses script).map fun use => dataFlowFinding (use.renamed f) := by
  have huses : AreUndeclared script (undeclaredUses script) := areUndeclared_firstUses script
  refine ⟨dataFlowFindings_eq script, citeEach_map dataFlowFinding_cites _, huses, ?_,
    fun other hsame => ?_, fun f hf => ?_⟩
  · rw [filterMap_usage?]
    exact huses.ordered
  · exact huses.names_perm (areUndeclared_firstUses other) hsame
  · rw [dataFlowFindings_eq, undeclaredUses_renamed hf, List.map_map]
    rfl

/-- A name is read twice, once deep in a call, and never declared; another one is declared behind
its use. -/
theorem undeclared_name_of_nested_call :
    let use : Reference := ⟨"customer", ["id"], ⟨2, 30⟩⟩
    let reading : Statement := ⟨.returns (.call ⟨"crm", "exe", "join"⟩
      [.call ⟨"crm", "dll", "load"⟩ [.query ⟨.query, ""⟩, .reference use],
        .reference ⟨"order", [], ⟨2, 44⟩⟩, .reference ⟨"customer", [], ⟨3, 4⟩⟩]),
      "return ...", true, ⟨2, 5⟩⟩
    let declaring : Statement :=
      ⟨.declaration "order" (.literal ⟨.number, "1"⟩), "new order = 1", true, ⟨4, 5⟩⟩
    let script : Script := ⟨"order-rpc", [reading, declaring]⟩
    undeclaredUses script = [use] ∧ dataFlowFindings script = [dataFlowFinding use] ∧
      (dataFlowFinding use).Cites .dataFlow ⟨2, "'customer'"⟩ ∧
      ((undeclaredUses ⟨"order-rpc", [declaring, reading, declaring]⟩).map Reference.name).Perm
        ["customer"] ∧
      dataFlowFindings (script.renamed ("my" ++ ·)) =
        [dataFlowFinding ⟨"mycustomer", ["id"], ⟨2, 30⟩⟩] := by
  intro use reading declaring script
  have huses : undeclaredUses script = [use] := by decide
  obtain ⟨hfindings, hcited, -, -, hother, hrenamed⟩ := undeclared_names_reported script
  rw [huses] at hfindings hcited hother hrenamed
  rw [hfindings] at hcited
  obtain ⟨huse, -⟩ := List.forall₂_cons.mp hcited
  refine ⟨huses, hfindings, huse, hother _ fun statement => ?_, hrenamed _ fun a _ b _ heq => ?_⟩
  · simp only [script, List.mem_cons, List.not_mem_nil, or_false]
    tauto
  · exact String.append_right_inj _ |>.mp heq

end ScriptForge.Quality
