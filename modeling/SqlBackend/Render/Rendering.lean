import SqlBackend.Error
import SqlBackend.Outcome
import SqlBackend.Render.Output

/-! # Renderings

A rendering writes behind the output that is there already, and ends with a
result or with an error. Renderings are run one after the other on the same
output; an error keeps what was written before it and stops everything behind
it. A part that is needed as a fragment is written into an emptied output, and
what was there before is put back afterwards, also when the part fails.
-/

namespace SqlBackend

/-- From the output so far to a result, or the error that ended the writing, and
the output after it. -/
structure Rendering (α : Type) where
  run : Output → Except Error α × Output

namespace Rendering

variable {α β γ : Type}

/-- The second rendering behind the first, unless the first one failed. -/
def andThen (first : Rendering α) (second : α → Rendering β) : Rendering β where
  run before :=
    match first.run before with
    | (.ok a, after) => (second a).run after
    | (.error e, after) => (.error e, after)

instance : Monad Rendering where
  pure a := ⟨fun before => (.ok a, before)⟩
  bind := andThen

/-- Writes text without placeholders. -/
def emit (text : String) : Rendering Unit := ⟨fun before => (.ok (), before ++ .ofText text)⟩

/-- Writes a fragment. -/
def emitFragment (f : Fragment) : Rendering Unit :=
  ⟨fun before => (.ok (), before ++ .ofFragment f)⟩

/-- Marks a table as changed, at the end of the text written so far. -/
def affect (table : String) : Rendering Unit :=
  ⟨fun before => (.ok (), before ++ .ofTable table)⟩

/-- Takes over a result or an error and writes nothing. -/
def ofExcept (r : Except Error α) : Rendering α := ⟨fun before => (r, before)⟩

def fail (e : Error) : Rendering α := ofExcept (.error e)

/-- Keeps the text of a rendering apart, as a fragment, instead of writing it.
Text and placeholders are put away meanwhile; the changed tables stay. -/
def detached (r : Rendering Unit) : Rendering Fragment where
  run before :=
    let (result, after) := r.run { before with text := "", parameters := 0 }
    (result.map fun _ => after.fragment,
      { after with text := before.text, parameters := before.parameters })

/-- Keeps the text of a rendering apart, if there is one. -/
def detached? : Option (Rendering Unit) → Rendering (Option Fragment)
  | none => pure none
  | some r => some <$> r.detached

/-- Starts from nothing, whatever was there before, and takes away what was
written. -/
def whole (r : Rendering Unit) : Rendering Output where
  run _ :=
    let (result, after) := r.run {}
    (result.map fun _ => after, {})

/-- A rendering that is run only under a condition. -/
def when (condition : Bool) (r : Rendering Unit) : Rendering Unit :=
  if condition then r else pure ()

/-- Writes nothing, or `lead` and the rendering behind it. -/
def optional (lead : String) : Option (Rendering Unit) → Rendering Unit
  | none => pure ()
  | some r => do
      emit lead
      r

/-- Writes renderings with a separator between them. -/
def separated (separator : String) : List (Rendering Unit) → Rendering Unit
  | [] => pure ()
  | [r] => r
  | r :: s :: rest => do
      r
      emit separator
      separated separator (s :: rest)

/-- Writes nothing for no renderings, and otherwise `lead` and the renderings
separated by commas. -/
def listed (lead : String) (rs : List (Rendering Unit)) : Rendering Unit :=
  if rs.isEmpty then pure ()
  else do
    emit lead
    separated ", " rs

/-- Runs renderings in order and collects their results. -/
def sequence : List (Rendering α) → Rendering (List α)
  | [] => pure []
  | r :: rest => do
      let a ← r
      return a :: (← sequence rest)

/-- Keeps the outputs of renderings apart, as fragments. -/
def fragments (rs : List (Rendering Unit)) : Rendering (List Fragment) :=
  sequence (rs.map detached)

@[ext] theorem ext {r s : Rendering α} (h : ∀ before, r.run before = s.run before) : r = s := by
  cases r
  cases s
  congr
  exact funext h

@[simp] theorem run_pure (a : α) (before : Output) :
    (pure a : Rendering α).run before = (.ok a, before) := rfl

theorem run_bind (r : Rendering α) (f : α → Rendering β) (before : Output) :
    (r >>= f).run before =
      match r.run before with
      | (.ok a, after) => (f a).run after
      | (.error e, after) => (.error e, after) := rfl

/-- Two renderings end well together if the first ends well and the second behind it. -/
theorem run_bind_ok {r : Rendering α} {f : α → Rendering β} {before last : Output} {b : β}
    (h : (r >>= f).run before = (.ok b, last)) :
    ∃ a after, r.run before = (.ok a, after) ∧ (f a).run after = (.ok b, last) := by
  rw [run_bind] at h
  split at h
  next a after ha => exact ⟨a, after, ha, h⟩
  next => cases h

@[simp] theorem run_emit (text : String) (before : Output) :
    (emit text).run before = (.ok (), before ++ .ofText text) := rfl

@[simp] theorem run_emitFragment (f : Fragment) (before : Output) :
    (emitFragment f).run before = (.ok (), before ++ .ofFragment f) := rfl

@[simp] theorem run_affect (table : String) (before : Output) :
    (affect table).run before = (.ok (), before ++ .ofTable table) := rfl

@[simp] theorem run_ofExcept (r : Except Error α) (before : Output) :
    (ofExcept r).run before = (r, before) := rfl

@[simp] theorem run_fail (e : Error) (before : Output) :
    (fail e : Rendering α).run before = (.error e, before) := rfl

theorem run_whole (r : Rendering Unit) (before : Output) :
    r.whole.run before = ((r.run {}).1.map fun _ => (r.run {}).2, {}) := rfl

theorem id_map (r : Rendering α) : id <$> r = r := by
  ext1 before
  change (r >>= fun a => pure (id a)).run before = r.run before
  rw [run_bind]
  rcases r.run before with ⟨error | a, after⟩ <;> rfl

theorem bind_assoc (r : Rendering α) (f : α → Rendering β) (g : β → Rendering γ) :
    r >>= f >>= g = r >>= fun a => f a >>= g := by
  ext1 before
  simp only [run_bind]
  rcases r.run before with ⟨error | a, after⟩ <;> rfl

instance : LawfulMonad Rendering := .mk' Rendering id_map (fun _ _ => rfl) bind_assoc

theorem run_map (f : α → β) (r : Rendering α) (before : Output) :
    (f <$> r).run before = ((r.run before).1.map f, (r.run before).2) := by
  change (r >>= fun a => pure (f a)).run before = _
  rw [run_bind]
  rcases r.run before with ⟨error | a, after⟩ <;> rfl

end Rendering

end SqlBackend
