import SqlBackend.Proofs.Render.Parts

/-! # Writing does not look back

Every part of a statement ends in the same way and writes the same behind any
output, so a translator that has been used before answers like a new one. The
text that is put away while a fragment is rendered comes back as it was: this
needs that no query marks a table as changed, for marks are not put away.
-/

namespace SqlBackend

open Rendering (affect)

namespace Rendering

variable {α β : Type}

/-- Behind every output the rendering ends with `outcome` and writes `written`:
text, placeholders and marks are added to those that were there, and the marks
move by the length of the text before them. -/
def Appends (r : Rendering α) (outcome : Except Error α) (written : Output) : Prop :=
  ∀ before, r.run before = (outcome, before ++ written)

namespace Appends

theorem pure (a : α) : (Pure.pure a : Rendering α).Appends (.ok a) {} := by
  intro before
  simp

theorem bind_error {r : Rendering α} {f : α → Rendering β} {e : Error} {written : Output}
    (h : r.Appends (.error e) written) : (r >>= f).Appends (.error e) written := by
  intro before
  rw [run_bind, h before]

theorem bind_ok {r : Rendering α} {f : α → Rendering β} {a : α} {outcome : Except Error β}
    {first second : Output} (hr : r.Appends (.ok a) first) (hf : (f a).Appends outcome second) :
    (r >>= f).Appends outcome (first ++ second) := by
  intro before
  rw [run_bind, hr before]
  dsimp only
  rw [hf (before ++ first), Output.append_assoc]

/-- A rendering that writes nothing only hands on its result. -/
theorem bind_silent {r : Rendering α} {f : α → Rendering β} {a : α} {outcome : Except Error β}
    {written : Output} (hr : r.Appends (.ok a) {}) (hf : (f a).Appends outcome written) :
    (r >>= f).Appends outcome written := by
  rw [← Output.empty_append written]
  exact hr.bind_ok hf

theorem emit (text : String) :
    (Rendering.emit text).Appends (.ok ()) (.ofFragment (.ofText text)) := fun _ => rfl

/-- Fragments that are written one after the other are one fragment. -/
theorem seq {r s : Rendering Unit} {f g : Fragment} (hr : r.Appends (.ok ()) (.ofFragment f))
    (hs : s.Appends (.ok ()) (.ofFragment g)) :
    (r >>= fun _ => s).Appends (.ok ()) (.ofFragment (f ++ g)) := by
  have htables : Output.ofFragment (f ++ g) = .ofFragment f ++ .ofFragment g := rfl
  rw [htables]
  exact hr.bind_ok hs

/-- If two renderings in a row end well then so did the first. -/
theorem of_bind {r : Rendering α} {f : α → Rendering β} {outcome : Except Error α}
    {first before after : Output} {b : β} (hr : r.Appends outcome first)
    (h : (r >>= f).run before = (.ok b, after)) :
    ∃ a, outcome = .ok a ∧ (f a).run (before ++ first) = (.ok b, after) := by
  rw [run_bind, hr before] at h
  cases outcome with
  | error e => cases h
  | ok a => exact ⟨a, rfl, h⟩

/-- Rendering apart takes the text out of the output and leaves no trace. -/
theorem run_detached {r : Rendering Unit} {outcome : Except Error Unit} {written : Output}
    (h : r.Appends outcome written) (hmarks : written.tables = []) (before : Output) :
    r.detached.run before = (outcome.map fun _ => written.fragment, before) := by
  have hrun := h { before with text := "", parameters := 0 }
  simp only [detached, hrun]
  refine Prod.ext ?_ ?_
  · simp [Output.fragment]
  · simp [hmarks]

theorem detached {r : Rendering Unit} {outcome : Except Error Unit} {written : Output}
    (h : r.Appends outcome written) (hmarks : written.tables = []) :
    r.detached.Appends (outcome.map fun _ => written.fragment) {} := by
  intro before
  rw [h.run_detached hmarks, Output.append_empty]

/-- Fragments are kept apart one after the other, and nothing is written. -/
theorem fragments {ι : Type} {items : List ι} {r : ι → Rendering Unit} {f : ι → Fragment}
    (h : ∀ i ∈ items, (r i).Appends (.ok ()) (.ofFragment (f i))) :
    (Rendering.fragments (items.map r)).Appends (.ok (items.map f)) {} := by
  induction items with
  | nil => exact .pure _
  | cons i rest ih =>
      have hi := (h i (by simp)).detached rfl
      have hrest := ih fun j hj => h j (by simp [hj])
      exact hi.bind_silent (hrest.bind_silent (.pure _))

end Appends

end Rendering

namespace Discipline

/-- Ending in the same way and writing the same behind every output. Without
`marks` no table is marked as changed. -/
def appending (t : Translator) (marks : Bool) : Discipline t where
  char _ := True
  fragment _ := True
  error _ := True
  holds P r := ∃ outcome written, r.Appends outcome written ∧
    (marks = false → written.tables = []) ∧ ∀ a, outcome = .ok a → P a
  char_of_ne _ := trivial
  char_type _ _ _ := trivial
  char_template _ _ _ _ _ _ := trivial
  fragment_text _ := trivial
  fragment_append _ _ := trivial
  fragment_parameter := trivial
  error_argument _ := trivial
  error_function _ := trivial
  error_need _ _ := trivial
  holds_pure ha := ⟨_, _, .pure _, fun _ => rfl, by rintro a ⟨rfl⟩; exact ha⟩
  holds_bind := by
    rintro α β P Q r f ⟨outcome, first, hr, hfirst, hP⟩ hf
    -- An error of the first part is the outcome of both, with the text up to it.
    cases outcome with
    | error e => exact ⟨_, _, hr.bind_error, hfirst, by simp⟩
    | ok a =>
        obtain ⟨last, second, hsecond, hmarks, hQ⟩ := hf a (hP a rfl)
        refine ⟨_, _, hr.bind_ok hsecond, ?_, hQ⟩
        intro h
        simp [hfirst h, hmarks h]
  holds_emitFragment _ := ⟨_, _, fun _ => rfl, fun _ => rfl, fun _ _ => trivial⟩
  holds_ofExcept hP _ := ⟨_, {}, fun _ => by simp, fun _ => rfl, hP⟩

end Discipline

/-- The queries of a statement mark nothing. -/
def QueryDiscipline.appending (t : Translator) : QueryDiscipline t where
  toDiscipline := .appending t false
  holds_detached := by
    rintro r ⟨outcome, written, hr, hmarks, _⟩
    exact ⟨_, {}, hr.detached (hmarks rfl), fun _ => rfl, fun _ _ => trivial⟩

namespace Discipline

variable {t : Translator}

theorem appending_admits {marks : Bool} (n : Node) : (appending t marks).admits n :=
  fun _ _ _ _ => trivial

/-- What marks nothing also appends where marks are allowed. -/
theorem appending_queries : (appending t true).Queries := by
  apply (QueryDiscipline.appending t).queries.mono
  · intro n _
    exact appending_admits n
  · rintro r ⟨outcome, written, hr, _, hP⟩
    exact ⟨outcome, written, hr, by simp, hP⟩

theorem appending_affect (table : String) : (appending t true).writes (affect table) :=
  ⟨_, _, fun _ => rfl, by simp, fun _ _ => trivial⟩

end Discipline

theorem StatementPart.render_appends (t : Translator) (p : StatementPart) :
    ∃ outcome written, (p.render t).Appends outcome written := by
  obtain ⟨outcome, written, h, _⟩ := Discipline.appending_queries.part
    Discipline.appending_affect (p := p) fun n _ => Discipline.appending_admits n
  exact ⟨outcome, written, h⟩

/-- Expressions mark no table, so they can be rendered apart. -/
theorem Expr.render_appends (t : Translator) (e : Expr) :
    ∃ outcome written, (e.render t).Appends outcome written ∧ written.tables = [] := by
  obtain ⟨outcome, written, h, hmarks, _⟩ :=
    (QueryDiscipline.appending t).writes_expr e fun n _ => Discipline.appending_admits n
  exact ⟨outcome, written, h, hmarks rfl⟩

/-- A translation ends as the rendering of the statement does. -/
theorem Translator.translate_eq (t : Translator) (s : Statement) :
    t.translate s = ((s.render t).run {}).1.map fun _ => ((s.render t).run {}).2 := by
  rw [Translator.translate, Rendering.run_whole]

theorem Translator.run_of_translate {t : Translator} {s : Statement} {o : Output}
    (h : t.translate s = .ok o) : (s.render t).run {} = (.ok (), o) := by
  rw [translate_eq] at h
  obtain ⟨_, houtcome, houtput⟩ := map_eq_ok_iff.mp h
  exact Prod.ext houtcome houtput

/-- A whole statement is answered in the same way whatever was there before. -/
theorem Request.perform_translate (t : Translator) (before : Output) (s : Statement) :
    (Request.translate s).perform t before = ((t.translate s).map .translated, {}) := by
  have hrun := Rendering.run_whole (s.render t) before
  simp only [Request.perform, Request.rendering, Rendering.run_map, hrun, Translator.translate]
  rfl

/-- Writing is append-only and blind to what is there: every part has one
outcome and one output that it writes, rendering an expression apart leaves the
output as it was, and in any sequence of requests whole statements are answered
as by a new translator and leave nothing. -/
theorem Translator.writes_blindly (t : Translator) :
    (∀ p : StatementPart, ∃ outcome written, ∀ before,
      (p.render t).run before = (outcome, before ++ written)) ∧
    (∀ e : Expr, ∃ outcome written, ∀ before,
      (e.render t).run before = (outcome, before ++ written) ∧
      (e.render t).detached.run before = (outcome.map fun _ => written.fragment, before)) ∧
    ∀ (requests : List Request) (before : Output) (i : Nat) (s : Statement),
      requests[i]? = some (.translate s) →
      (t.session before requests)[i]? = some ((t.translate s).map .translated, {}) := by
  refine ⟨StatementPart.render_appends t, ?_, ?_⟩
  · intro e
    obtain ⟨outcome, written, h, hmarks⟩ := Expr.render_appends t e
    exact ⟨outcome, written, fun before => ⟨h before, h.run_detached hmarks before⟩⟩
  · intro requests
    -- The output before changes from request to request, so it is not fixed here.
    induction requests with
    | nil => simp
    | cons first rest ih =>
        intro before i s hi
        cases i with
        | zero =>
            have hfirst : first = .translate s := by simpa using hi
            simp [Translator.session, hfirst, Request.perform_translate]
        | succ i =>
            have hrest : rest[i]? = some (.translate s) := by simpa using hi
            simpa [Translator.session] using ih _ i s hrest

/-- A part that is refused half way leaves its text, and a statement after it is
translated as if nothing had been there. -/
theorem Translator.writes_blindly_after_refusal :
    let t := (Dialect.spanner {}).translator
    let all (lock : Option LockRequest) : Select :=
      { Select.plain [⟨.star none, none⟩] none with lock }
    let requests : List Request :=
      [.write (.select (all (some ⟨.write, .noWait⟩))), .translate (.select (all none))]
    (t.session {} requests)[0]? =
        some (.error (t.dialect.unsupported (.feature .noWait)), { text := "select *" }) ∧
      (t.session {} requests)[1]? =
        some ((t.translate (.select (all none))).map .translated, ({} : Output)) := by
  intro t all requests
  exact ⟨rfl, (writes_blindly t).2.2 requests {} 1 (.select (all none)) rfl⟩

end SqlBackend
