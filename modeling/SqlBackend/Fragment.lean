/-! # Rendered fragments

A fragment is a piece of SQL text with the number of placeholders it contains.
Fragments are built apart from a statement's text when a piece is used more
than once or passed to a template, so the placeholders are counted wherever the
piece ends up.
-/

namespace SqlBackend

/-- A piece of SQL text with its placeholders counted. -/
structure Fragment where
  text : String := ""
  parameters : Nat := 0
deriving DecidableEq, Repr

namespace Fragment

/-- Text without placeholders. -/
def ofText (text : String) : Fragment := ⟨text, 0⟩

instance : Append Fragment := ⟨fun f g => ⟨f.text ++ g.text, f.parameters + g.parameters⟩⟩

/-- The fragments with a separator between them. -/
def joined (separator : String) : List Fragment → Fragment
  | [] => {}
  | [f] => f
  | f :: g :: rest => f ++ ofText separator ++ joined separator (g :: rest)

def parenthesized (f : Fragment) : Fragment := ofText "(" ++ f ++ ofText ")"

@[simp] theorem text_append (f g : Fragment) : (f ++ g).text = f.text ++ g.text := rfl

@[simp] theorem parameters_append (f g : Fragment) :
    (f ++ g).parameters = f.parameters + g.parameters := rfl

@[simp] theorem text_ofText (text : String) : (ofText text).text = text := rfl

@[simp] theorem parameters_ofText (text : String) : (ofText text).parameters = 0 := rfl

@[ext] theorem ext {f g : Fragment} (htext : f.text = g.text)
    (hparameters : f.parameters = g.parameters) : f = g := by
  cases f
  cases g
  simp_all

theorem append_assoc (f g h : Fragment) : f ++ g ++ h = f ++ (g ++ h) := by
  ext
  · simp [String.append_assoc]
  · simp [Nat.add_assoc]

@[simp] theorem empty_append (f : Fragment) : ({} : Fragment) ++ f = f := by
  ext <;> simp

@[simp] theorem append_empty (f : Fragment) : f ++ ({} : Fragment) = f := by
  ext <;> simp

/-- Separators add no placeholders. -/
theorem parameters_joined (separator : String) (fs : List Fragment) :
    (joined separator fs).parameters = fs.foldr (fun f count => f.parameters + count) 0 := by
  induction fs with
  | nil => rfl
  | cons f rest ih =>
    cases rest with
    | nil => simp [joined]
    | cons g rest => simp_all [joined]

end Fragment

end SqlBackend
