import SqlBackend.Proofs.Render.AppendOnly
import SqlBackend.Proofs.Render.Needs

/-! # Refusals

A statement that needs what the backend lacks is refused and leads to no text,
and what is refused for a need names the backend and a need that it lacks.
-/

namespace SqlBackend

open Rendering (affect)

namespace Translator

variable {t : Translator}

theorem grants_source {s : InsertSource} (hr : ∀ n ∈ s.nodes, n.Rendered)
    (h : (s.render t).Succeeds) : t.dialect.Grants s.nodes := by
  cases s with
  | rows values =>
      rw [InsertSource.render] at h
      split at h
      next => exact absurd h (Rendering.not_succeeds_fail _)
      next =>
        intro n hn
        obtain ⟨value, hvalue, hn⟩ := List.mem_flatMap.mp hn
        have hrow := h.listed _ (List.mem_map_of_mem hvalue)
        refine grants_exprs value ?_ hrow.rest.first.separated n hn
        exact fun m hm => hr m (List.mem_flatMap.mpr ⟨value, hvalue, hm⟩)
  | query q => exact grants_select q hr h.rest
  | defaults => exact Dialect.grants_nil

theorem grants_insert {i : Insert} (hr : ∀ n ∈ i.nodes, n.Rendered) (h : (i.render t).Succeeds) :
    t.dialect.Grants i.nodes := by
  simp only [Insert.nodes, List.forall_mem_append, List.forall_mem_cons] at hr
  simp only [Insert.nodes, Dialect.grants_append, Dialect.grants_cons]
  refine ⟨grants_with? true _ hr.1 h.first.optional, by simp [Node.needs], by simp [Node.needs], ?_⟩
  exact grants_source hr.2.2.2 h.rest.rest.rest.rest.rest

theorem grants_sources {u : Update} (hr : ∀ n ∈ u.sourceNodes t.style, n.Rendered)
    (h : (u.renderSources t).Succeeds) : t.dialect.Grants (u.sourceNodes t.style) := by
  unfold Update.renderSources at h
  unfold Update.sourceNodes at hr ⊢
  split at h
  next hstyle =>
    rw [hstyle]
    exact Dialect.grants_nil
  next hstyle =>
    rw [hstyle, List.forall_mem_cons] at hr
    rw [hstyle, Dialect.grants_cons]
    constructor
    · cases hsources : u.sources with
      | nil => simp [Node.needs]
      | cons first rest =>
          have hfeature := grants_of_require (h.first.when (by simp [hsources]))
          simpa [Node.needs] using hfeature
    · intro n hn
      obtain ⟨table, htable, hn⟩ := List.mem_flatMap.mp hn
      have hrendered := h.rest.listed _ (List.mem_map_of_mem htable)
      refine grants_tableRef table ?_ hrendered n hn
      exact fun m hm => hr.2 m (List.mem_flatMap.mpr ⟨table, htable, hm⟩)

theorem grants_update {u : Update} (hr : ∀ n ∈ u.nodes t.style, n.Rendered)
    (h : (u.render t).Succeeds) : t.dialect.Grants (u.nodes t.style) := by
  simp only [Update.nodes, List.forall_mem_append, List.forall_mem_cons] at hr
  obtain ⟨hwith, _, ⟨hassignments, hsources⟩, hcondition⟩ := hr
  simp only [Update.nodes, Dialect.grants_append, Dialect.grants_cons]
  unfold Update.render at h
  split at h
  next => exact absurd h (Rendering.not_succeeds_fail _)
  next =>
    have hbody := h.rest.rest.rest
    refine ⟨grants_with? true _ hwith h.first.optional, by simp [Node.needs], ⟨?_, ?_⟩, ?_⟩
    · intro n hn
      obtain ⟨a, ha, hn⟩ := List.mem_flatMap.mp hn
      have hvalue := (hbody.first.listed _ (List.mem_map_of_mem ha)).rest.rest
      have hnodes : ∀ m ∈ a.nodes, m.Rendered := fun m hm =>
        hassignments m (List.mem_flatMap.mpr ⟨a, ha, hm⟩)
      rw [Assignment.nodes, List.forall_mem_cons] at hnodes
      have hgrants : t.dialect.Grants a.nodes := by
        rw [Assignment.nodes, Dialect.grants_cons]
        exact ⟨by simp [Node.needs], grants_expr a.value hnodes.2 hvalue⟩
      exact hgrants n hn
    · exact grants_sources hsources hbody.rest.first
    · exact grants_expr? _ hcondition hbody.rest.rest.optional

theorem grants_delete {d : Delete} (hr : ∀ n ∈ d.nodes, n.Rendered) (h : (d.render t).Succeeds) :
    t.dialect.Grants d.nodes := by
  simp only [Delete.nodes, List.forall_mem_append, List.forall_mem_cons] at hr
  simp only [Delete.nodes, Dialect.grants_append, Dialect.grants_cons]
  exact ⟨grants_with? true _ hr.1 h.first.optional, by simp [Node.needs],
    grants_expr? _ hr.2.2 h.rest.rest.rest.optional⟩

theorem grants_statement {s : Statement} (hr : ∀ n ∈ s.nodes t.style, n.Rendered)
    (h : (s.render t).Succeeds) : t.dialect.Grants (s.nodes t.style) := by
  cases s with
  | select query => exact grants_select query hr h
  | insert insertion => exact grants_insert hr h
  | update change => exact grants_update hr h
  | delete deletion => exact grants_delete hr h

end Translator

/-- A refusal for a need names the backend and something that it lacks. -/
def Translator.Justifies (t : Translator) (e : Error) : Prop :=
  ∀ name need, e = .unsupported name need → name = t.dialect.name ∧ t.dialect.grants need = false

/-- All errors that end a rendering are justified. -/
def QueryDiscipline.justified (t : Translator) : QueryDiscipline t where
  char _ := True
  fragment _ := True
  error := t.Justifies
  holds P r := ∀ before, (∀ a, (r.run before).1 = .ok a → P a) ∧
    ∀ e, (r.run before).1 = .error e → t.Justifies e
  char_of_ne _ := trivial
  char_type _ _ _ := trivial
  char_template _ _ _ _ _ _ := trivial
  fragment_text _ := trivial
  fragment_append _ _ := trivial
  fragment_parameter := trivial
  error_argument _ _ _ h := by cases h
  error_function _ _ _ h := by cases h
  error_need need hneed name need' h := by
    cases h
    exact ⟨rfl, hneed⟩
  holds_pure ha before := ⟨by rintro a ⟨rfl⟩; exact ha, by simp⟩
  holds_bind := by
    intro α β P Q r f hr hf before
    obtain ⟨hP, herror⟩ := hr before
    rw [Rendering.run_bind]
    rcases h : r.run before with ⟨e | a, after⟩
    · rw [h] at herror
      exact ⟨by simp, by rintro _ ⟨rfl⟩; exact herror e rfl⟩
    · rw [h] at hP
      exact hf a (hP a rfl) after
  holds_emitFragment _ _ := ⟨fun _ _ => trivial, by simp⟩
  holds_ofExcept hP herror _ := ⟨hP, herror⟩
  holds_detached := by
    intro r hr before
    have hinner := (hr { before with text := "", parameters := 0 }).2
    refine ⟨fun _ _ => trivial, ?_⟩
    intro e he
    exact hinner e (map_eq_error_iff.mp he)

theorem Statement.render_justified (t : Translator) (s : Statement) (before : Output) {e : Error}
    (h : ((s.render t).run before).1 = .error e) : t.Justifies e := by
  have haffect : ∀ table, (QueryDiscipline.justified t).writes (affect table) :=
    fun _ _ => ⟨fun _ _ => trivial, by simp⟩
  have hstatement := (QueryDiscipline.justified t).queries.statement haffect (s := s)
    fun _ _ _ _ _ _ => trivial
  exact (hstatement before).2 e h

/-- What the backend lacks is refused at any depth of a statement, with an error
and no text, and nothing else is refused for a need: the error names the backend
and a feature or a lock timeout that it does not have. Operands of memberships
in empty lists are not rendered, so statements with such lists are left out. -/
theorem Translator.refuses_missing_needs (t : Translator) :
    (∀ s : Statement, (∀ n ∈ s.nodes t.style, n.Rendered) → ∀ n ∈ s.nodes t.style,
      ∀ need ∈ n.needs, t.dialect.grants need = false →
      ∃ e, t.translate s = .error e ∧
        ∀ before, (Request.translate s).perform t before = (.error e, {})) ∧
    ∀ (s : Statement) (name : String) (need : Need),
      t.translate s = .error (.unsupported name need) →
      name = t.dialect.name ∧
        ((∃ f : Feature, need.text = f.text ∧ t.dialect.supports f = false) ∨
          need.text = "lock timeout" ∧ t.dialect.locking.connectionTimeout ≠ .query) := by
  constructor
  · intro s hrendered n hn need hneed hlacks
    cases h : t.translate s with
    | ok o =>
        rw [translate_eq] at h
        obtain ⟨a, ha, _⟩ := map_eq_ok_iff.mp h
        have hsucceeds : (s.render t).Succeeds := ⟨{}, a, _, Prod.ext ha rfl⟩
        have hgrants := grants_statement hrendered hsucceeds n hn need hneed
        rw [hlacks] at hgrants
        cases hgrants
    | error e =>
        refine ⟨e, rfl, fun before => ?_⟩
        rw [Request.perform_translate, h]
        rfl
  · intro s name need h
    rw [translate_eq] at h
    have hrun : ((s.render t).run {}).1 = .error (.unsupported name need) :=
      map_eq_error_iff.mp h
    obtain ⟨hname, hlacks⟩ := s.render_justified t {} hrun name need rfl
    refine ⟨hname, ?_⟩
    cases need with
    | feature f => exact .inl ⟨f, rfl, hlacks⟩
    | lockTimeout => exact .inr ⟨rfl, by simpa [Dialect.grants] using hlacks⟩

/-- A lock with a timeout inside an argument of a function, on a backend that
cannot set one. -/
theorem Translator.refuses_missing_needs_nested :
    let t := (Dialect.spanner {}).translator
    let locked := { Select.plain [⟨.star none, none⟩] none with lock := some ⟨.read, .after 100⟩ }
    let s := Statement.select
      (.plain [⟨.call ⟨"abs", [.subquery locked], false, none⟩, none⟩] none)
    (∃ e, t.translate s = .error e ∧
      ∀ before, (Request.translate s).perform t before = (.error e, {})) ∧
    "spanner_postgresql" = t.dialect.name ∧
      ((∃ f : Feature, Need.lockTimeout.text = f.text ∧ t.dialect.supports f = false) ∨
        Need.lockTimeout.text = "lock timeout" ∧ t.dialect.locking.connectionTimeout ≠ .query) := by
  intro t locked s
  have hrendered : ∀ n ∈ s.nodes t.style, n.Rendered := by decide
  have hlock : .lock ⟨.read, .after 100⟩ ∈ s.nodes t.style := by
    simp [s, locked, Statement.nodes, Select.plain, Select.nodes, SelectItem.nodesOf, Expr.nodes,
      Expr.nodesOf, Call.nodes]
  have herror : t.translate s = .error (.unsupported "spanner_postgresql" .lockTimeout) := rfl
  exact ⟨(refuses_missing_needs t).1 s hrendered _ hlock .lockTimeout (by simp [Node.needs,
    LockTimeout.needs]) rfl, (refuses_missing_needs t).2 s _ _ herror⟩

end SqlBackend
