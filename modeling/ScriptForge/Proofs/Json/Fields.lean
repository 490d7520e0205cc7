import ScriptForge.Json.Fields
import Mathlib.Data.Set.Function

/-!
# Reading what was written

`Restores encode decode Fits`: decoding gives back every value of a class that was encoded. Then no
two values of the class are encoded alike, and the encoding is `Faithful`. The lemmas below say what
each reader of a part takes from an object in which its name occurs once, so that a record is read
again by rewriting with them, one part after the other.
-/

namespace ScriptForge.Json

/-! ## Restoring -/

/-- Decoding gives back what was encoded, for the values of a class. -/
def Restores {α : Type} (encode : α → Json) (decode : Json → Option α) (Fits : α → Prop) : Prop :=
  ∀ a, Fits a → decode (encode a) = some a

section

variable {α : Type} {encode : α → Json} {decode : Json → Option α} {Fits : α → Prop}

/-- What can be decoded again is not encoded like anything else. -/
theorem Restores.injOn (h : Restores encode decode Fits) : Set.InjOn encode {a | Fits a} := by
  intro a ha b hb heq
  have hdecoded := h a ha
  rw [heq, h b hb] at hdecoded
  exact (Option.some.inj hdecoded).symm

/-- A consumer of decoded values sees the values. -/
theorem Restores.map_eq {β : Type} (h : Restores encode decode Fits) {a : α} (ha : Fits a)
    (consume : α → β) : (decode (encode a)).map consume = some (consume a) := by
  rw [h a ha, Option.map_some]

/-- Decoding undoes encoding, and no two values of a class are encoded alike. -/
structure Faithful (encode : α → Json) (decode : Json → Option α) (Fits : α → Prop) : Prop where
  restores : ∀ a, Fits a → decode (encode a) = some a
  injective : Set.InjOn encode {a | Fits a}

theorem Restores.faithful (h : Restores encode decode Fits) : Faithful encode decode Fits :=
  ⟨h, h.injOn⟩

/-- A list is restored item by item. -/
theorem Restores.list (h : Restores encode decode Fits) :
    Restores (ofList encode) (items? decode) fun items => ∀ a ∈ items, Fits a := by
  intro items hitems
  rw [ofList, items?, List.mapM_map]
  induction items with
  | nil => rfl
  | cons a items ih =>
    obtain ⟨ha, hitems⟩ := List.forall_mem_cons.mp hitems
    rw [List.mapM_cons, Function.comp_apply, h a ha, ih hitems]
    rfl

end

/-! ## Single values -/

@[simp] theorem string?_str (s : String) : string? (.str s) = some s := rfl

@[simp] theorem bool?_bool (b : Bool) : bool? (.bool b) = some b := rfl

theorem natBelow?_nat {bound n : Nat} (h : n < bound) : natBelow? bound (.nat n) = some n :=
  if_pos h

theorem word32?_nat {n : Nat} (h : n < UInt32.size) : word32? (.nat n) = some n :=
  natBelow?_nat h

theorem word64?_nat {n : Nat} (h : n < UInt64.size) : word64? (.nat n) = some n :=
  natBelow?_nat h

@[simp] theorem items?_strings (items : List String) :
    items? string? (.ofList .str items) = some items := by
  have hstrings : Restores Json.str string? fun _ => True := fun s _ => string?_str s
  exact hstrings.list items fun _ _ => trivial

/-! ## Records -/

@[simp] theorem valuesOf_nil (name : String) : valuesOf name [] = [] := rfl

@[simp] theorem valuesOf_cons (name key : String) (value : Json) (fields : List (String × Json)) :
    valuesOf name ((key, value) :: fields) =
      if key = name then value :: valuesOf name fields else valuesOf name fields := by
  by_cases h : key = name <;> simp [valuesOf, h]

section

variable {α β : Type} {name : String} {decode : Json → Option α} {fields : List (String × Json)}

theorem run_bind {reader : FieldReader α} {next : α → FieldReader β} {state state' : Fields} {a : α}
    (h : reader state = some (a, state')) : (reader >>= next) state = next a state' := by
  change (reader state).bind _ = _
  rw [h]
  rfl

theorem run_map {reader : FieldReader α} {state state' : Fields} {a : α} (f : α → β)
    (h : reader state = some (a, state')) : (f <$> reader) state = some (f a, state') := by
  rw [map_eq_pure_bind, run_bind h]
  rfl

theorem take_named {value : Json} (h : valuesOf name fields = [value]) :
    take name (.named fields) = some (some value, .named fields) := by
  rw [take, h]

/-- A part that must be there is taken from where it was written. -/
theorem field_named {value : Json} {a : α} (h : valuesOf name fields = [value])
    (hdecode : decode value = some a) :
    field name decode (.named fields) = some (a, .named fields) := by
  rw [field, run_bind (take_named h)]
  dsimp only
  rw [hdecode]
  rfl

theorem field_bind {value : Json} {a : α} {next : α → FieldReader β}
    (h : valuesOf name fields = [value]) (hdecode : decode value = some a) :
    (field name decode >>= next) (.named fields) = next a (.named fields) :=
  run_bind (field_named h hdecode)

theorem nullable_named {absent : Fields → Bool} {value : Json} (h : valuesOf name fields = [value])
    (hne : value ≠ .null) :
    nullable absent name decode (.named fields) =
      (decode value).map fun a => (some a, .named fields) := by
  change ((take name (.named fields)).bind fun _ => _) = _
  rw [take_named h, Option.bind_some]
  cases value with
  | null => exact absurd rfl hne
  | _ => cases hvalue : decode _ <;> simp [hvalue] <;> rfl

theorem nullable_null {absent : Fields → Bool} (h : valuesOf name fields = [.null]) :
    nullable absent name decode (.named fields) = some (none, .named fields) := by
  change ((take name (.named fields)).bind fun _ => _) = _
  rw [take_named h]
  rfl

/-- A part that may be missing is taken from where it was written, if nothing that is there is
written as `null`. -/
theorem optional_named {encode : α → Json} {value : Option α}
    (h : valuesOf name fields = [ofOption encode value])
    (hdecode : ∀ a ∈ value, encode a ≠ .null ∧ decode (encode a) = some a) :
    optional name decode (.named fields) = some (value, .named fields) := by
  cases value with
  | none => exact nullable_null h
  | some a =>
    obtain ⟨hne, hdecode⟩ := hdecode a rfl
    rw [optional, nullable_named h hne, ofOption, hdecode, Option.map_some]

theorem withDefault_bind {value : Json} {a default : α} {next : α → FieldReader β}
    (h : valuesOf name fields = [value]) (hdecode : decode value = some a) :
    (withDefault name decode default >>= next) (.named fields) = next a (.named fields) := by
  refine run_bind ?_
  rw [withDefault, run_bind (take_named h)]
  dsimp only
  rw [hdecode]
  rfl

/-- A record is read from the object of its fields. -/
theorem record?_obj {reader : FieldReader α} {a : α}
    (h : reader (.named fields) = some (a, .named fields)) :
    record? reader (.obj fields) = some a := by
  rw [record?, readAll, h]

/-- A tagged record is read from the object of its fields behind the tag. -/
theorem tagged?_obj {tag : String} {alternative : String → FieldReader α} {a : α}
    (htag : valuesOf tag fields = [])
    (h : alternative name (.named fields) = some (a, .named fields)) :
    tagged? tag alternative (.obj ((tag, .str name) :: fields)) = some a := by
  have hfields : fields.filter (fun field => field.1 != tag) = fields := by
    refine List.filter_eq_self.mpr fun field hfield => bne_iff_ne.mpr fun heq => ?_
    rw [valuesOf, List.map_eq_nil_iff, List.filter_eq_nil_iff] at htag
    exact htag field hfield (beq_iff_eq.mpr heq)
  rw [tagged?, valuesOf_cons, if_pos rfl, htag]
  simp [hfields, readAll, h]

end

end ScriptForge.Json
