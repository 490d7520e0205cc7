import Mathlib.Data.List.Nodup
import ScriptForge.Pipeline.StageSet
import ScriptForge.Proofs.Pipeline.Ledger

/-!
# Sets from lists of stages

A list of stages makes a set exactly if every slot occurs once in it, and then the order of the list
does not matter (`ofList_of_slots`).

While the stages are collected, the table has at each slot the stages of this slot so far, one or
none (`Holds`). So a stage whose place is taken is the first that repeats a slot. The collected
table is empty at the slots that do not occur, and as the stages are taken out in pipeline order,
the first of these slots is the one that is missed.
-/

namespace ScriptForge.Pipeline.StageSet

variable {σ ε : Type} {slotOf : σ → Slot} {stages : List σ} {table : SlotMap σ}

/-! ## The table of the stages so far -/

/-- The table holds these stages: its entry at a slot is the only stage of the slot. -/
def Holds (slotOf : σ → Slot) (stages : List σ) (table : SlotMap σ) : Prop :=
  ∀ slot, stages.filter (slotOf · = slot) = (table.get? slot).toList

theorem count_slots (slotOf : σ → Slot) (stages : List σ) (slot : Slot) :
    (stages.map slotOf).count slot = (stages.filter (slotOf · = slot)).length := by
  rw [List.count_eq_countP, List.countP_map, List.countP_eq_length_filter]
  rfl

theorem holds_empty (slotOf : σ → Slot) : Holds slotOf [] .empty := by
  intro slot
  rw [SlotMap.get?_empty]
  rfl

namespace Holds

theorem concat {stage : σ} (h : Holds slotOf stages table)
    (hfree : table.get? (slotOf stage) = none) :
    Holds slotOf (stages ++ [stage]) (table.set (slotOf stage) stage) := by
  intro slot
  rw [List.filter_append, h slot, SlotMap.get?_set]
  by_cases hslot : slot = slotOf stage
  · subst hslot
    simp [hfree]
  · simp [hslot, Ne.symm hslot]

theorem count_eq (h : Holds slotOf stages table) (slot : Slot) :
    (stages.map slotOf).count slot = (table.get? slot).toList.length := by
  rw [count_slots, h slot]

theorem nodup (h : Holds slotOf stages table) : (stages.map slotOf).Nodup := by
  refine List.nodup_iff_count_le_one.mpr fun slot => ?_
  rw [h.count_eq]
  cases table.get? slot <;> simp

theorem not_mem_iff (h : Holds slotOf stages table) (slot : Slot) :
    slot ∉ stages.map slotOf ↔ table.get? slot = none := by
  rw [← List.count_eq_zero, h.count_eq]
  cases table.get? slot <;> simp

end Holds

/-! ## Collecting -/

/-- From the front on, this is the first slot that has occurred before. -/
def FirstRepeat (slots : List Slot) (slot : Slot) : Prop :=
  ∃ before behind, slots = before ++ slot :: behind ∧ before.Nodup ∧ slot ∈ before

theorem FirstRepeat.one_lt_count {slots : List Slot} {slot : Slot} (h : FirstRepeat slots slot) :
    1 < slots.count slot := by
  obtain ⟨before, behind, rfl, -, hmem⟩ := h
  have hbefore : 0 < before.count slot := List.count_pos_iff.mpr hmem
  rw [List.count_append, List.count_cons_self]
  omega

/-- All stages get into the table, or the first that repeats a slot is refused. -/
theorem collect_cases {before : List σ} (h : Holds slotOf before table) (stages : List σ) :
    (∃ full, collect slotOf table stages = .ok full ∧ Holds slotOf (before ++ stages) full) ∨
      ∃ slot, collect slotOf table stages = .error (.slotTwice slot) ∧
        FirstRepeat ((before ++ stages).map slotOf) slot := by
  induction stages generalizing before table with
  | nil =>
    refine .inl ⟨table, rfl, ?_⟩
    rwa [List.append_nil]
  | cons stage rest ih =>
    rw [collect]
    cases htaken : table.get? (slotOf stage) with
    | none =>
      rw [List.append_cons]
      exact ih (h.concat htaken)
    | some other =>
      have hmem : slotOf stage ∈ before.map slotOf := by
        by_contra hnew
        rw [h.not_mem_iff, htaken] at hnew
        cases hnew
      refine .inr ⟨slotOf stage, rfl, before.map slotOf, rest.map slotOf, ?_, h.nodup, hmem⟩
      rw [List.map_append, List.map_cons]

/-! ## Taking the stages out -/

@[ext] theorem ext_get {first second : StageSet σ} (h : ∀ slot, first.get slot = second.get slot) :
    first = second := by
  cases first
  cases second
  simp only [mk.injEq]
  exact ⟨h .identify, h .encapsulate, h .package, h .generate, h .combine, h .review⟩

/-- The actions run in pipeline order. -/
theorem map_get_mapM {m : Type → Type} [Monad m] [LawfulMonad m] (action : Slot → m σ) :
    (fun set => Slot.all.map set.get) <$> mapM action = Slot.all.mapM action := by
  simp [mapM, Slot.all, get]

theorem mapM_take_of_full (h : ∀ slot, table.get? slot ≠ none) :
    ∃ set, mapM (take table) = .ok set ∧ ∀ slot, table.get? slot = some (set.get slot) := by
  choose stage hstage using fun slot => Option.ne_none_iff_exists'.mp (h slot)
  refine ⟨⟨stage .identify, stage .encapsulate, stage .package, stage .generate, stage .combine,
    stage .review⟩, ?_, ?_⟩
  · simp only [mapM, take, hstage]
    rfl
  · intro slot
    cases slot <;> exact hstage _

/-- Of several slots without a stage the first is missed. -/
theorem mapM_take_eq_error {slots : List Slot} {slot : Slot}
    (h : slots.find? (fun slot => table.get? slot = none) = some slot) :
    slots.mapM (take table) = .error (.slotMissing slot) := by
  induction slots with
  | nil => cases h
  | cons next slots ih =>
    rw [List.mapM_cons]
    cases hentry : table.get? next with
    | none =>
      obtain rfl : next = slot := by simpa [hentry] using h
      simp only [take, hentry]
      rfl
    | some stage =>
      have hrest := ih (by simpa [hentry] using h)
      simp only [take, hentry]
      rw [hrest]
      rfl

theorem mapM_take_of_missing {slot : Slot}
    (h : Slot.all.find? (fun slot => table.get? slot = none) = some slot) :
    mapM (take table) = .error (.slotMissing slot) := by
  have hlist := mapM_take_eq_error h
  rw [← map_get_mapM] at hlist
  cases hset : mapM (take table) with
  | ok set =>
    rw [hset] at hlist
    cases hlist
  | error error =>
    rw [hset] at hlist
    cases hlist
    rfl

/-! ## Sets from lists -/

theorem ofList_cases (slotOf : σ → Slot) (stages : List σ) :
    (∃ set, ofList slotOf stages = .ok set ∧
      ∀ slot, stages.filter (slotOf · = slot) = [set.get slot]) ∨
    (∃ slot, ofList slotOf stages = .error (.slotTwice slot) ∧
      FirstRepeat (stages.map slotOf) slot) ∨
    ∃ slot, ofList slotOf stages = .error (.slotMissing slot) ∧ (stages.map slotOf).Nodup ∧
      Slot.all.find? (fun slot => slot ∉ stages.map slotOf) = some slot := by
  obtain ⟨full, hcollect, hholds⟩ | ⟨slot, hcollect, hrepeat⟩ :=
    collect_cases (holds_empty slotOf) stages
  · rw [List.nil_append] at hholds
    have hset : ofList slotOf stages = mapM (take full) := by
      rw [ofList, hcollect]
      rfl
    cases hfind : Slot.all.find? (fun slot => slot ∉ stages.map slotOf) with
    | none =>
      have hfull : ∀ slot, full.get? slot ≠ none := by
        intro slot hslot
        exact List.find?_eq_none.mp hfind slot (Slot.mem_all slot)
          (decide_eq_true ((hholds.not_mem_iff slot).mpr hslot))
      obtain ⟨set, htaken, hget⟩ := mapM_take_of_full hfull
      refine .inl ⟨set, hset.trans htaken, fun slot => ?_⟩
      rw [hholds slot, hget]
      rfl
    | some slot =>
      have hmissing : Slot.all.find? (fun slot => full.get? slot = none) = some slot := by
        simpa only [hholds.not_mem_iff] using hfind
      exact .inr (.inr ⟨slot, hset.trans (mapM_take_of_missing hmissing), hholds.nodup, rfl⟩)
  · refine .inr (.inl ⟨slot, ?_, hrepeat⟩)
    rw [ofList, hcollect]
    rfl

/-- The set of a list has for each slot the only stage of the list with this slot. -/
theorem filter_of_ofList {set : StageSet σ} (h : ofList slotOf stages = .ok set) (slot : Slot) :
    stages.filter (slotOf · = slot) = [set.get slot] := by
  obtain ⟨other, hset, hget⟩ | ⟨twice, hset, -⟩ | ⟨missing, hset, -⟩ := ofList_cases slotOf stages
  · rw [hset] at h
    cases h
    exact hget slot
  · rw [hset] at h
    cases h
  · rw [hset] at h
    cases h

theorem count_of_ofList {set : StageSet σ} (h : ofList slotOf stages = .ok set) (slot : Slot) :
    (stages.map slotOf).count slot = 1 := by
  rw [count_slots, filter_of_ofList h, List.length_singleton]

theorem exists_ofList (h : ∀ slot, (stages.map slotOf).count slot = 1) :
    ∃ set, ofList slotOf stages = .ok set := by
  obtain ⟨set, hset, -⟩ | ⟨slot, -, hrepeat⟩ | ⟨slot, -, -, hfind⟩ := ofList_cases slotOf stages
  · exact ⟨set, hset⟩
  · have htwice := hrepeat.one_lt_count
    have honce := h slot
    omega
  · have hmissing : slot ∉ stages.map slotOf := by
      simpa using List.find?_some hfind
    have honce := h slot
    rw [List.count_eq_zero.mpr hmissing] at honce
    cases honce

/-- The order of the stages does not matter. -/
theorem ofList_perm {other : List σ} {set : StageSet σ} (h : ofList slotOf stages = .ok set)
    (hperm : other.Perm stages) : ofList slotOf other = .ok set := by
  have hcount : ∀ slot, (other.map slotOf).count slot = 1 := fun slot => by
    rw [(hperm.map slotOf).count_eq, count_of_ofList h]
  obtain ⟨set', hset'⟩ := exists_ofList hcount
  have hget : ∀ slot, set'.get slot = set.get slot := by
    intro slot
    have hfilter := hperm.filter (slotOf · = slot)
    rw [filter_of_ofList h, filter_of_ofList hset'] at hfilter
    exact List.singleton_perm_singleton.mp hfilter
  rw [hset', ext_get hget]

/-- **Sets from lists.** A list of stages makes a set if and only if every slot occurs once in it.
The set has for each slot the stage of the list with this slot, whatever the order of the list.
Else, if a slot occurs more than once, the list is refused with the slot of the first stage whose
slot is that of a stage before it; and if none does, with the first slot in pipeline order that does
not occur. -/
theorem ofList_of_slots (slotOf : σ → Slot) (stages : List σ) :
    ((∃ set, ofList slotOf stages = .ok set) ↔
      ∀ slot, (stages.map slotOf).count slot = 1) ∧
    (∀ set, ofList slotOf stages = .ok set →
      (∀ slot, stages.filter (slotOf · = slot) = [set.get slot]) ∧
      ∀ other, other.Perm stages → ofList slotOf other = .ok set) ∧
    ((∃ slot, 1 < (stages.map slotOf).count slot) →
      ∃ slot, FirstRepeat (stages.map slotOf) slot ∧
        ofList slotOf stages = .error (.slotTwice slot)) ∧
    ((∀ slot, (stages.map slotOf).count slot ≤ 1) → (∃ slot, slot ∉ stages.map slotOf) →
      ∃ slot, Slot.all.find? (fun slot => slot ∉ stages.map slotOf) = some slot ∧
        ofList slotOf stages = .error (.slotMissing slot)) := by
  refine ⟨⟨fun ⟨set, hset⟩ => count_of_ofList hset, exists_ofList⟩, fun set hset =>
    ⟨filter_of_ofList hset, fun other => ofList_perm hset⟩, ?_, ?_⟩
  · rintro ⟨slot, htwice⟩
    obtain ⟨set, hset, -⟩ | ⟨repeated, herror, hrepeat⟩ | ⟨missing, -, hnodup, -⟩ :=
      ofList_cases slotOf stages
    · have honce := count_of_ofList hset slot
      omega
    · exact ⟨repeated, hrepeat, herror⟩
    · have honce := List.nodup_iff_count_le_one.mp hnodup slot
      omega
  · rintro honce ⟨slot, hslot⟩
    obtain ⟨set, hset, -⟩ | ⟨repeated, -, hrepeat⟩ | ⟨missing, herror, -, hfind⟩ :=
      ofList_cases slotOf stages
    · have hcount := count_of_ofList hset slot
      rw [List.count_eq_zero.mpr hslot] at hcount
      cases hcount
    · have htwice := hrepeat.one_lt_count
      have hle := honce repeated
      omega
    · exact ⟨missing, hfind, herror⟩

/-- Stages in some order, two stages for each of two slots, and no stage for four slots. -/
theorem ofList_of_shuffled_slots :
    let shuffled : List (Slot × Nat) := [(.review, 5), (.identify, 0), (.combine, 4), (.package, 2),
      (.generate, 3), (.encapsulate, 1)]
    (∃ set, ofList Prod.fst shuffled = .ok set ∧ set.get .package = (.package, 2) ∧
      ofList Prod.fst shuffled.reverse = .ok set) ∧
    ofList Prod.fst [(Slot.package, 0), (.identify, 1), (.identify, 2), (.package, 3)] =
      .error (.slotTwice .identify) ∧
    ofList Prod.fst [(Slot.package, 0), (.identify, 1)] = .error (.slotMissing .encapsulate) := by
  intro shuffled
  refine ⟨?_, ?_, ?_⟩
  · obtain ⟨hmade, hset, -⟩ := ofList_of_slots Prod.fst shuffled
    obtain ⟨set, hok⟩ := hmade.mpr fun slot => by cases slot <;> rfl
    obtain ⟨hget, hperm⟩ := hset set hok
    exact ⟨set, hok, (List.singleton_inj.mp (hget .package)).symm, hperm _ (List.reverse_perm _)⟩
  · obtain ⟨slot, -, herror⟩ := (ofList_of_slots Prod.fst
      [(Slot.package, 0), (.identify, 1), (.identify, 2), (.package, 3)]).2.2.1
        ⟨.package, by decide⟩
    cases herror
    rfl
  · obtain ⟨slot, -, herror⟩ := (ofList_of_slots Prod.fst
      [(Slot.package, 0), (.identify, 1)]).2.2.2 (fun slot => by cases slot <;> decide)
        ⟨.review, by decide⟩
    cases herror
    rfl

end ScriptForge.Pipeline.StageSet
