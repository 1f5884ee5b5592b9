import SqlBackend.Proofs.Function.Unmarked
import SqlBackend.Proofs.Render.Parts

/-! # Placeholders are counted

The number that goes with a text is the number of its question marks. Each
single step keeps it so, whether it ends well or not: a fragment takes its count
along wherever and however often it is copied, and what is put away while a
fragment is rendered was counted before.
-/

namespace SqlBackend

open Rendering (affect)

/-- The parameters are the question marks of the text. -/
def Fragment.Counted (f : Fragment) : Prop := f.parameters = f.text.toList.count '?'

/-- The parameters are the question marks of the text. -/
def Output.Counted (o : Output) : Prop := o.fragment.Counted

instance (f : Fragment) : Decidable f.Counted := inferInstanceAs (Decidable (_ = _))

instance (o : Output) : Decidable o.Counted := inferInstanceAs (Decidable (_ = _))

/-- No text that stands in the node holds a question mark. -/
def Node.Unmarked (n : Node) : Prop := ∀ s ∈ n.texts, '?' ∉ s.toList

instance (n : Node) : Decidable n.Unmarked := inferInstanceAs (Decidable (∀ s ∈ n.texts, _))

/-- Whatever text comes with an answer is counted. -/
def Reply.Counted : Reply → Prop
  | written => True
  | fragment f => f.Counted
  | translated o => o.Counted

theorem Fragment.Counted.append {f g : Fragment} (hf : f.Counted) (hg : g.Counted) :
    (f ++ g).Counted := by
  unfold Counted at *
  rw [parameters_append, text_append, String.toList_append, List.count_append, hf, hg]

namespace Rendering

variable {α β : Type}

/-- Behind counted output the rendering leaves counted output, also when it
fails, and what it results in has a property. -/
def Counts (P : α → Prop) (r : Rendering α) : Prop :=
  ∀ before : Output, before.Counted →
    (r.run before).2.Counted ∧ ∀ a, (r.run before).1 = .ok a → P a

namespace Counts

variable {P : α → Prop} {Q : β → Prop} {r : Rendering α}

theorem pure {a : α} (ha : P a) : (Pure.pure a : Rendering α).Counts P := by
  intro before hbefore
  exact ⟨hbefore, by rintro a ⟨rfl⟩; exact ha⟩

theorem bind {f : α → Rendering β} (hr : r.Counts P) (hf : ∀ a, P a → (f a).Counts Q) :
    (r >>= f).Counts Q := by
  intro before hbefore
  obtain ⟨hafter, hP⟩ := hr before hbefore
  rw [run_bind]
  -- An error keeps the output of the first part, which is counted already.
  rcases h : r.run before with ⟨error | a, after⟩
  · rw [h] at hafter
    exact ⟨hafter, by simp⟩
  · rw [h] at hafter hP
    exact hf a (hP a rfl) after hafter

theorem emitFragment {f : Fragment} (hf : f.Counted) :
    (emitFragment f).Counts fun _ => True := by
  intro before hbefore
  exact ⟨Fragment.Counted.append hbefore hf, fun _ _ => trivial⟩

theorem ofExcept {outcome : Except Error α} (h : ∀ a, outcome = .ok a → P a) :
    (ofExcept outcome).Counts P := by
  intro before hbefore
  exact ⟨hbefore, h⟩

/-- Rendering apart starts from nothing, where nothing has to be counted. -/
theorem detached {r : Rendering Unit} (hr : r.Counts fun _ => True) :
    r.detached.Counts Fragment.Counted := by
  intro before hbefore
  have hinner := (hr { before with text := "", parameters := 0 } rfl).1
  refine ⟨hbefore, ?_⟩
  intro f hf
  obtain ⟨_, _, rfl⟩ := map_eq_ok_iff.mp hf
  exact hinner

theorem whole {r : Rendering Unit} (hr : r.Counts fun _ => True) :
    r.whole.Counts Output.Counted := by
  intro before _
  have hinner := (hr {} rfl).1
  rw [run_whole]
  refine ⟨rfl, ?_⟩
  intro o ho
  obtain ⟨_, _, rfl⟩ := map_eq_ok_iff.mp ho
  exact hinner

theorem map {f : α → β} (hr : r.Counts P) (hf : ∀ a, P a → Q (f a)) : (f <$> r).Counts Q := by
  rw [← bind_pure_comp]
  exact hr.bind fun a ha => .pure (hf a ha)

end Counts

end Rendering

/-- Counting is kept by every query if neither the functions nor the types of
the backend write question marks and neither do the texts of the query. -/
def QueryDiscipline.counting {t : Translator} (hfunctions : t.dialect.functions.Unmarked)
    (htypes : t.dialect.types.Unmarked) : QueryDiscipline t where
  char c := c ≠ '?'
  fragment := Fragment.Counted
  error _ := True
  holds := Rendering.Counts
  char_of_ne hc := hc
  char_type target c hc := by
    rintro rfl
    exact htypes target hc
  char_template f hf p hp c hc := by
    rintro rfl
    exact hfunctions f hf p hp hc
  fragment_text hs := (List.count_eq_zero.mpr fun hmark => hs _ hmark rfl).symm
  fragment_append := Fragment.Counted.append
  fragment_parameter := rfl
  error_argument _ := trivial
  error_function _ := trivial
  error_need _ _ := trivial
  holds_pure := .pure
  holds_bind := .bind
  holds_emitFragment := .emitFragment
  holds_ofExcept h _ := .ofExcept h
  holds_detached := .detached

/-- Marks of changed tables are no text. -/
theorem Rendering.affect_counts (table : String) : (affect table).Counts fun _ => True := by
  intro before hbefore
  refine ⟨?_, fun _ _ => trivial⟩
  have hmark : (Output.ofTable table).Counted := rfl
  exact Fragment.Counted.append hbefore hmark

section

variable {t : Translator} (hfunctions : t.dialect.functions.Unmarked)
  (htypes : t.dialect.types.Unmarked)
include hfunctions htypes

theorem QueryDiscipline.counting_admits {n : Node} (h : n.Unmarked) :
    (counting hfunctions htypes).admits n := by
  rintro s hs c hc rfl
  exact h s hs hc

theorem StatementPart.render_counts {p : StatementPart}
    (h : ∀ n ∈ p.nodes t.style, n.Unmarked) : (p.render t).Counts fun _ => True :=
  (QueryDiscipline.counting hfunctions htypes).queries.part Rendering.affect_counts
    fun n hn => QueryDiscipline.counting_admits hfunctions htypes (h n hn)

theorem Statement.render_counts {s : Statement}
    (h : ∀ n ∈ s.nodes t.style, n.Unmarked) : (s.render t).Counts fun _ => True :=
  (QueryDiscipline.counting hfunctions htypes).queries.statement Rendering.affect_counts
    fun n hn => QueryDiscipline.counting_admits hfunctions htypes (h n hn)

theorem Request.rendering_counts {r : Request} (h : ∀ n ∈ r.nodes t.style, n.Unmarked) :
    (r.rendering t).Counts Reply.Counted := by
  cases r with
  | write part =>
      have hpart := part.render_counts hfunctions htypes h
      exact hpart.bind fun _ _ => .pure trivial
  | fragment e =>
      have he := (StatementPart.expr e).render_counts hfunctions htypes h
      exact he.detached.map fun _ hf => hf
  | translate s =>
      have hs := s.render_counts hfunctions htypes h
      exact hs.whole.map fun _ ho => ho

/-- One request leaves counted output, so every one of a session does. -/
theorem Translator.session_counts {requests : List Request} {before : Output}
    (hbefore : before.Counted) (h : ∀ r ∈ requests, ∀ n ∈ r.nodes t.style, n.Unmarked) :
    ∀ answer ∈ t.session before requests,
      answer.2.Counted ∧ ∀ reply, answer.1 = .ok reply → reply.Counted := by
  induction requests generalizing before with
  | nil => simp [session]
  | cons first rest ih =>
      have hfirst := first.rendering_counts hfunctions htypes (h first (by simp)) before hbefore
      rw [session, List.forall_mem_cons]
      exact ⟨hfirst, ih hfirst.1 fun r hr => h r (by simp [hr])⟩

end

/-- The number that a translator gives with a text is the number of question
marks in it, after every request of every session, failed ones included. The
backend may write no question mark of its own and the statements may hold none;
the built-in functions and types keep to that. -/
theorem Translator.parameters_counted :
    (Registry.postgres.Unmarked ∧ Registry.spanner.Unmarked ∧ TypeMapping.postgres.Unmarked ∧
      ∀ timestamptzForTime, (TypeMapping.spanner timestamptzForTime).Unmarked) ∧
    ∀ t : Translator, t.dialect.functions.Unmarked → t.dialect.types.Unmarked →
      (∀ (before : Output) (requests : List Request), before.Counted →
        (∀ r ∈ requests, ∀ n ∈ r.nodes t.style, n.Unmarked) →
        ∀ answer ∈ t.session before requests,
          answer.2.Counted ∧ ∀ reply, answer.1 = .ok reply → reply.Counted) ∧
      ∀ s : Statement, (∀ n ∈ s.nodes t.style, n.Unmarked) → ∀ o, t.translate s = .ok o →
        o.parameters = o.text.toList.count '?' := by
  refine ⟨⟨Registry.postgres_unmarked, Registry.spanner_unmarked, TypeMapping.postgres_unmarked,
    TypeMapping.spanner_unmarked⟩, ?_⟩
  intro t hfunctions htypes
  refine ⟨fun before requests hbefore h => session_counts hfunctions htypes hbefore h, ?_⟩
  intro s hs o ho
  have hwhole := (s.render_counts hfunctions htypes hs).whole {} rfl
  exact hwhole.2 o ho

/-- An ordering of rows copies the first pair of elements, placeholders and all. -/
theorem Translator.parameters_counted_rowOrder :
    let rows := Expr.binary (.tuple [.parameter, .column none "a"]) .le
      (.tuple [.parameter, .parameter])
    (Dialect.spanner {}).translate (.select (.plain [⟨rows, none⟩] none)) =
        .ok { text := "select (? < ? or ? = ? and a <= ?)", parameters := 5 } ∧
      5 = "select (? < ? or ? = ? and a <= ?)".toList.count '?' := by
  intro rows
  have htext : (Dialect.spanner {}).translate (.select (.plain [⟨rows, none⟩] none)) =
    .ok { text := "select (? < ? or ? = ? and a <= ?)", parameters := 5 } := rfl
  have hnodes : ∀ n ∈ (Statement.select (.plain [⟨rows, none⟩] none)).nodes
    (Dialect.spanner {}).rendering, n.Unmarked := by decide
  have hcounted := parameters_counted.2 (Dialect.spanner {}).translator
    Registry.spanner_unmarked (TypeMapping.spanner_unmarked false)
  exact ⟨htext, hcounted.2 _ hnodes _ htext⟩

end SqlBackend
