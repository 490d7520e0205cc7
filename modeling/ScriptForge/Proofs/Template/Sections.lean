import ScriptForge.Template.Render

/-!
# Values and sections

At the top of a template a name leads to the field of the data that has it. The field is written as
it is, whatever stands in it: what is rendered is a part of the template, never a value
(`renderPart_field`). A section that is only there if its field holds is rendered as a whole or not
at all (`renderPart_guarded`).
-/

namespace ScriptForge.Template

/-- The scopes outside all blocks. -/
def outermost (data : Json) : Scopes :=
  ⟨[⟨data, [], []⟩], data⟩

/-- The path to the field of a name. -/
def fieldPath (name : String) : Path :=
  ⟨.around 0, [name]⟩

/-- The value of a field; `null` if there is none. -/
def fieldOf (fields : List (String × Json)) (name : String) : Json :=
  (Json.lookup? fields name).getD .null

/-- A field behind some text, with a line break behind it, if the field holds. -/
def guarded (name : String) (front : List Char) : Part :=
  .block ⟨"if", [.path (fieldPath name)], []⟩
    [.text front, .value (fieldPath name), .text ['\n']] []

variable {fields : List (String × Json)} {name : String}

theorem render?_eq (template : List Part) (data : Json) :
    render? template data = renderParts (outermost data) template := rfl

theorem find?_field (fields : List (String × Json)) (name : String) :
    (outermost (.obj fields)).find? (fieldPath name) = some (fieldOf fields name) := rfl

theorem renderPart_field (h : isBlockName (fieldPath name) = false) :
    renderPart (outermost (.obj fields)) (.value (fieldPath name)) =
      some (valueText (fieldOf fields name)).toList := by
  rw [renderPart, h, find?_field]
  rfl

theorem renderPart_text (scopes : Scopes) (text : List Char) :
    renderPart scopes (.text text) = some text := by
  rw [renderPart]

theorem renderParts_nil (scopes : Scopes) : renderParts scopes [] = some [] := by
  rw [renderParts]

theorem renderParts_cons {scopes : Scopes} {part : Part} {parts : List Part} {text more : List Char}
    (hpart : renderPart scopes part = some text) (hparts : renderParts scopes parts = some more) :
    renderParts scopes (part :: parts) = some (text ++ more) := by
  rw [renderParts, hpart, hparts]
  rfl

theorem choose?_guarded (fields : List (String × Json)) (name : String) :
    choose? (outermost (.obj fields)) ⟨"if", [.path (fieldPath name)], []⟩ =
      some (if holds false (fieldOf fields name) then .body else .inverse) := rfl

theorem renderPart_guarded (h : isBlockName (fieldPath name) = false) (front : List Char) :
    renderPart (outermost (.obj fields)) (guarded name front) = some
      (if holds false (fieldOf fields name) then
        front ++ ((valueText (fieldOf fields name)).toList ++ ['\n'])
      else []) := by
  have hbody : renderParts (outermost (.obj fields))
      [.text front, .value (fieldPath name), .text ['\n']] =
        some (front ++ ((valueText (fieldOf fields name)).toList ++ ['\n'])) :=
    renderParts_cons (renderPart_text _ _) (renderParts_cons (renderPart_field h)
      (renderParts_cons (renderPart_text _ _) (renderParts_nil _)))
  rw [guarded, renderPart, choose?_guarded]
  cases holds false (fieldOf fields name) with
  | true => exact hbody
  | false => rfl

end ScriptForge.Template
