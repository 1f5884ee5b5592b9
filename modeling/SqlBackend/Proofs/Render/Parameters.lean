import SqlBackend.Proofs.Render.AppendOnly
import SqlBackend.Proofs.Render.Needs
import SqlBackend.Proofs.Render.Places

/-! # Parameters of whole statements

Where the backend has its own words for everything, each part of a statement is
rendered exactly once, so a translation has the parameters of its statement. The
one part that is left out is the operand of a membership in an empty list.
-/

namespace SqlBackend

open Rendering (PlacesAll)
open Rendering.PlacesWith (emit emitFragment quiet_seq)

def Node.isParameter : Node → Bool
  | expr .parameter => true
  | _ => false

/-- How many of the nodes are parameters. -/
def Node.parameters (nodes : List Node) : Nat := nodes.countP Node.isParameter

namespace Node

theorem parameters_append (first second : List Node) :
    parameters (first ++ second) = parameters first + parameters second :=
  List.countP_append

/-- A place without a question mark of its own has the parameters below it. -/
theorem parameters_below {n : Node} (h : n.isParameter = false) (nodes : List Node) :
    parameters (n :: nodes) = parameters nodes := by
  rw [parameters, List.countP_cons, h]
  rfl

end Node

open Node (parameters)

namespace Translator

variable {t : Translator}

theorem places_flatMap {ι : Type} {items : List ι} {render : ι → Rendering Unit}
    {nodes : ι → List Node} (h : ∀ i ∈ items, (render i).Places (parameters (nodes i))) :
    PlacesAll (parameters (items.flatMap nodes)) (items.map render) := by
  induction items with
  | nil => exact .nil
  | cons i rest ih =>
      obtain ⟨hi, hrest⟩ := List.forall_mem_cons.mp h
      rw [List.flatMap_cons, Node.parameters_append]
      exact .cons hi (ih hrest)

mutual

theorem places_expr (ht : t.Native) : ∀ e : Expr, (∀ n ∈ e.nodes, n.Rendered) →
    (e.render t).Places (parameters e.nodes)
  | .literal _, _ => by
      rw [Expr.render]
      exact emit _
  | .column _ _, _ => by
      rw [Expr.render]
      exact emit _
  | .binary left op right, hr => by
      simp only [Expr.nodes, List.forall_mem_cons, List.forall_mem_append] at hr
      rw [Expr.nodes, Node.parameters_below rfl, Node.parameters_append]
      unfold Expr.render
      split
      next htuples =>
        simp only [Bool.and_eq_true] at htuples
        exact rowComparison_places ht (places_elements ht left htuples.1.2 hr.2.1)
          (places_elements ht right htuples.2 hr.2.2)
      next =>
        have hright := places_expr ht right hr.2.2
        exact (places_expr ht left hr.2.1).seq ((emit _).quiet_seq hright)
  | .unary op operand, hr => by
      simp only [Expr.nodes, List.forall_mem_cons] at hr
      rw [Expr.nodes, Node.parameters_below rfl]
      unfold Expr.render
      exact (emit _).quiet_seq (places_expr ht operand hr.2)
  | .like predicate, hr => by
      simp only [Expr.nodes, List.forall_mem_cons] at hr
      rw [Expr.nodes, Node.parameters_below rfl]
      unfold Expr.render
      exact places_match ht predicate hr.2
  | .call call, hr => by
      simp only [Expr.nodes, List.forall_mem_cons] at hr
      rw [Expr.nodes, Node.parameters_below rfl]
      unfold Expr.render
      exact places_function ht call hr.2
  | .window call partition order, hr => by
      simp only [Expr.nodes, List.forall_mem_cons, List.forall_mem_append] at hr
      rw [Expr.nodes, Node.parameters_below rfl, Node.parameters_append, Node.parameters_append,
        Nat.add_assoc]
      unfold Expr.render
      exact (places_function ht call hr.2.1.1).seq
        (window_places (places_exprs ht partition hr.2.1.2) (places_orders ht order hr.2.2))
  | .subquery query, hr => by
      simp only [Expr.nodes, List.forall_mem_cons] at hr
      rw [Expr.nodes, Node.parameters_below rfl]
      unfold Expr.render
      exact (emit _).quiet_seq ((places_select ht query hr.2).seq_quiet (emit _))
  | .tuple items, hr => by
      simp only [Expr.nodes, List.forall_mem_cons] at hr
      rw [Expr.nodes, Node.parameters_below rfl]
      unfold Expr.render
      exact (emit _).quiet_seq ((places_exprs ht items hr.2).separated.seq_quiet (emit _))
  | .isNull operand negated, hr => by
      simp only [Expr.nodes, List.forall_mem_cons] at hr
      rw [Expr.nodes, Node.parameters_below rfl]
      unfold Expr.render
      exact (places_expr ht operand hr.2).seq_quiet (emit _)
  | .distinctFrom left right negated, hr => by
      simp only [Expr.nodes, List.forall_mem_cons, List.forall_mem_append] at hr
      rw [Expr.nodes, Node.parameters_below rfl, Node.parameters_append]
      unfold Expr.render
      exact distinctFrom_places ht (places_expr ht left hr.2.1) (places_expr ht right hr.2.2)
  | .inList operand items negated, hr => by
      simp only [Expr.nodes, List.forall_mem_cons, List.forall_mem_append] at hr
      obtain ⟨hrendered, hoperand, hitems⟩ := hr
      rw [Expr.nodes, Node.parameters_below rfl, Node.parameters_append]
      unfold Expr.render
      split
      -- Here the operand would be left out, which `hrendered` rules out.
      next hempty =>
        rw [List.isEmpty_iff.mp hempty] at hrendered
        cases hrendered
      next =>
        rw [if_neg (by simp [ht.rowConstructor])]
        refine (places_expr ht operand hoperand).seq ((emit _).quiet_seq ?_)
        exact (places_exprs ht items hitems).separated.seq_quiet (emit _)
  | .inQuery operand query negated, hr => by
      simp only [Expr.nodes, List.forall_mem_cons, List.forall_mem_append] at hr
      rw [Expr.nodes, Node.parameters_below rfl, Node.parameters_append]
      unfold Expr.render
      refine quiet_seq (.when (t.require_places _)) ?_
      refine (places_expr ht operand hr.2.1).seq ((emit _).quiet_seq ?_)
      exact (places_select ht query hr.2.2).seq_quiet (emit _)
  | .between operand low high negated, hr => by
      simp only [Expr.nodes, List.forall_mem_cons, List.forall_mem_append] at hr
      rw [Expr.nodes, Node.parameters_below rfl, Node.parameters_append, Node.parameters_append,
        Nat.add_assoc]
      unfold Expr.render
      refine (places_expr ht operand hr.2.1.1).seq ((emit _).quiet_seq ?_)
      exact (places_expr ht low hr.2.1.2).seq ((emit _).quiet_seq (places_expr ht high hr.2.2))
  | .caseOf operand branches otherwise, hr => by
      simp only [Expr.nodes, List.forall_mem_cons, List.forall_mem_append] at hr
      rw [Expr.nodes, Node.parameters_below rfl, Node.parameters_append, Node.parameters_append,
        Nat.add_assoc]
      unfold Expr.render
      exact caseOf_places (places_expr? ht operand hr.2.1.1) (places_branches ht branches hr.2.1.2)
        (places_expr? ht otherwise hr.2.2)
  | .cast operand target, hr => by
      simp only [Expr.nodes, List.forall_mem_cons] at hr
      rw [Expr.nodes, Node.parameters_below rfl]
      unfold Expr.render
      refine (emit _).quiet_seq ((places_expr ht operand hr.2).seq_quiet ?_)
      exact (emit _).quiet_seq ((emit _).quiet_seq (emit _))
  | .paren inner, hr => by
      simp only [Expr.nodes, List.forall_mem_cons] at hr
      rw [Expr.nodes, Node.parameters_below rfl]
      unfold Expr.render
      exact (emit _).quiet_seq ((places_expr ht inner hr.2).seq_quiet (emit _))
  | .parameter, _ => by
      rw [Expr.render]
      exact emitFragment _
  | .star _, _ => by
      rw [Expr.render]
      exact emit _

theorem places_elements (ht : t.Native) : ∀ e : Expr, e.isTuple = true →
    (∀ n ∈ e.nodes, n.Rendered) → PlacesAll (parameters e.nodes) (e.elements t)
  | .tuple items, _, hr => by
      simp only [Expr.nodes, List.forall_mem_cons] at hr
      rw [Expr.nodes, Node.parameters_below rfl, Expr.elements]
      exact places_exprs ht items hr.2

theorem places_exprs (ht : t.Native) : ∀ es : List Expr, (∀ n ∈ Expr.nodesOf es, n.Rendered) →
    PlacesAll (parameters (Expr.nodesOf es)) (Expr.renderings t es)
  | [], _ => by
      rw [Expr.renderings]
      exact .nil
  | e :: rest, hr => by
      simp only [Expr.nodesOf, List.forall_mem_append] at hr
      rw [Expr.nodesOf, Node.parameters_append, Expr.renderings]
      exact .cons (places_expr ht e hr.1) (places_exprs ht rest hr.2)

theorem places_expr? (ht : t.Native) : ∀ o : Option Expr, (∀ n ∈ Expr.nodes? o, n.Rendered) →
    PlacesAll (parameters (Expr.nodes? o)) (Expr.rendering? t o).toList
  | none, _ => by
      rw [Expr.rendering?]
      exact .nil
  | some e, hr => by
      rw [Expr.nodes?] at hr ⊢
      rw [Expr.rendering?]
      exact .singleton (places_expr ht e hr)

theorem places_branches (ht : t.Native) : ∀ bs : List CaseBranch,
    (∀ n ∈ CaseBranch.nodesOf bs, n.Rendered) →
    PlacesAll (parameters (CaseBranch.nodesOf bs)) (CaseBranch.renderings t bs)
  | [], _ => by
      rw [CaseBranch.renderings]
      exact .nil
  | ⟨condition, result⟩ :: rest, hr => by
      simp only [CaseBranch.nodesOf, List.forall_mem_append] at hr
      rw [CaseBranch.nodesOf, Node.parameters_append, Node.parameters_append, CaseBranch.renderings]
      refine .cons ?_ (places_branches ht rest hr.2)
      refine (emit _).quiet_seq ((places_expr ht condition hr.1.1).seq ?_)
      exact (emit _).quiet_seq (places_expr ht result hr.1.2)

theorem places_match (ht : t.Native) : ∀ l : Like, (∀ n ∈ l.nodes, n.Rendered) →
    (l.render t).Places (parameters l.nodes)
  | ⟨subject, pattern, escape, negated, caseSensitive⟩, hr => by
      simp only [Like.nodes, List.forall_mem_append] at hr
      rw [Like.nodes, Node.parameters_append, Node.parameters_append, Nat.add_assoc]
      unfold Like.render
      refine like_places (places_expr ht subject hr.1.1) (places_expr ht pattern hr.1.2) ?_
        (places_expr? ht escape hr.2)
      rintro value rfl
      rfl

theorem places_function (ht : t.Native) : ∀ c : Call, (∀ n ∈ c.nodes, n.Rendered) →
    (c.render t).Places (parameters c.nodes)
  | ⟨name, args, distinct, filter⟩, hr => by
      simp only [Call.nodes, List.forall_mem_append] at hr
      rw [Call.nodes, Node.parameters_append]
      unfold Call.render
      refine call_places ht ?_ (places_expr? ht filter hr.2)
      rw [List.map_snd_zip (by simp)]
      exact places_exprs ht args hr.1

theorem places_orders (ht : t.Native) : ∀ items : List OrderItem,
    (∀ n ∈ OrderItem.nodesOf items, n.Rendered) →
    PlacesAll (parameters (OrderItem.nodesOf items)) (OrderItem.renderings t items)
  | [], _ => by
      rw [OrderItem.renderings]
      exact .nil
  | ⟨expr, direction⟩ :: rest, hr => by
      simp only [OrderItem.nodesOf, List.forall_mem_append] at hr
      rw [OrderItem.nodesOf, Node.parameters_append, OrderItem.renderings]
      refine .cons ?_ (places_orders ht rest hr.2)
      exact (places_expr ht expr hr.1).seq_quiet (.when (emit _))

theorem places_tableRef (ht : t.Native) : ∀ r : TableRef, (∀ n ∈ r.nodes, n.Rendered) →
    (r.render t).Places (parameters r.nodes)
  | .table table, _ => by
      rw [TableRef.render]
      exact namedTable_places table
  | .query query correlation, hr => by
      simp only [TableRef.nodes, List.forall_mem_cons] at hr
      rw [TableRef.nodes, Node.parameters_below rfl]
      unfold TableRef.render
      refine (emit _).quiet_seq ((places_select ht query hr.2).seq_quiet ?_)
      exact (emit _).quiet_seq (emit _)
  | .join left kind lateral right condition, hr => by
      simp only [TableRef.nodes, List.forall_mem_cons, List.forall_mem_append] at hr
      rw [TableRef.nodes, Node.parameters_below rfl, Node.parameters_append,
        Node.parameters_append, Nat.add_assoc]
      unfold TableRef.render
      exact join_places (places_tableRef ht left hr.2.1.1) (places_tableRef ht right hr.2.1.2)
        (places_expr? ht condition hr.2.2)

theorem places_tableRef? (ht : t.Native) : ∀ o : Option TableRef,
    (∀ n ∈ TableRef.nodes? o, n.Rendered) →
    PlacesAll (parameters (TableRef.nodes? o)) (TableRef.rendering? t o).toList
  | none, _ => by
      rw [TableRef.rendering?]
      exact .nil
  | some table, hr => by
      rw [TableRef.nodes?] at hr ⊢
      rw [TableRef.rendering?]
      exact .singleton (places_tableRef ht table hr)

theorem places_commonTables (ht : t.Native) : ∀ ctes : List Cte,
    (∀ n ∈ Cte.nodesOf ctes, n.Rendered) →
    PlacesAll (parameters (Cte.nodesOf ctes)) (Cte.renderings t ctes)
  | [], _ => by
      rw [Cte.renderings]
      exact .nil
  | ⟨name, columns, query, materialization⟩ :: rest, hr => by
      simp only [Cte.nodesOf, List.forall_mem_cons, List.forall_mem_append] at hr
      rw [Cte.nodesOf, Node.parameters_below rfl, Node.parameters_append, Cte.renderings]
      exact .cons (cte_places (places_select ht query hr.2.1)) (places_commonTables ht rest hr.2.2)

theorem places_with (ht : t.Native) (mutation : Bool) : ∀ w : With,
    (∀ n ∈ w.nodes mutation, n.Rendered) →
    (w.render t mutation).Places (parameters (w.nodes mutation))
  | ⟨recursive, ctes⟩, hr => by
      simp only [With.nodes, List.forall_mem_cons] at hr
      rw [With.nodes, Node.parameters_below rfl]
      unfold With.render
      exact ctes_places (places_commonTables ht ctes hr.2)

theorem places_with? (ht : t.Native) (mutation : Bool) : ∀ o : Option With,
    (∀ n ∈ With.nodes? mutation o, n.Rendered) →
    PlacesAll (parameters (With.nodes? mutation o)) (With.rendering? t mutation o).toList
  | none, _ => by
      rw [With.rendering?]
      exact .nil
  | some w, hr => by
      rw [With.nodes?] at hr ⊢
      rw [With.rendering?]
      exact .singleton (places_with ht mutation w hr)

theorem places_items (ht : t.Native) : ∀ items : List SelectItem,
    (∀ n ∈ SelectItem.nodesOf items, n.Rendered) →
    PlacesAll (parameters (SelectItem.nodesOf items)) (SelectItem.renderings t items)
  | [], _ => by
      rw [SelectItem.renderings]
      exact .nil
  | ⟨expr, label⟩ :: rest, hr => by
      simp only [SelectItem.nodesOf, List.forall_mem_cons, List.forall_mem_append] at hr
      rw [SelectItem.nodesOf, Node.parameters_below rfl, Node.parameters_append,
        SelectItem.renderings]
      refine .cons ?_ (places_items ht rest hr.2.2)
      exact (places_expr ht expr hr.2.1).seq_quiet (alias_places " as " label)

theorem places_select (ht : t.Native) : ∀ s : Select, (∀ n ∈ s.nodes, n.Rendered) →
    (s.render t).Places (parameters s.nodes)
  | ⟨withClause, distinct, columns, source, condition, groupBy, having, orderBy, limit, offset,
      lock⟩, hr => by
      simp only [Select.nodes, List.forall_mem_append] at hr
      obtain ⟨⟨⟨⟨⟨⟨⟨⟨⟨hwith, hcolumns⟩, hsource⟩, hcondition⟩, hgroup⟩, hhaving⟩, horder⟩, hlimit⟩,
        hoffset⟩, _⟩ := hr
      have hlock : PlacesAll (parameters (lock.toList.map .lock)) (lock.map t.lock).toList := by
        cases lock with
        | none => exact .nil
        | some request => exact .singleton (t.lock_places request)
      simp only [Select.nodes, Node.parameters_append, Nat.add_assoc]
      unfold Select.render
      split
      next => exact .fail _
      next =>
        refine (places_with? ht false withClause hwith).optional.seq ?_
        refine (emit _).quiet_seq (quiet_seq (.when (emit _)) ?_)
        refine (places_items ht columns hcolumns).separated.seq ?_
        refine (places_tableRef? ht source hsource).optional.seq ?_
        refine (places_expr? ht condition hcondition).optional.seq ?_
        refine (places_exprs ht groupBy hgroup).listed.seq ?_
        refine (places_expr? ht having hhaving).optional.seq ?_
        refine (places_orders ht orderBy horder).listed.seq ?_
        refine (places_expr? ht limit hlimit).optional.seq ?_
        exact (places_expr? ht offset hoffset).optional.seq hlock.optional

end

theorem places_source (ht : t.Native) {source : InsertSource}
    (hr : ∀ n ∈ source.nodes, n.Rendered) : (source.render t).Places (parameters source.nodes) := by
  unfold InsertSource.render
  cases source with
  | rows values =>
      dsimp only
      split
      next => exact .fail _
      next =>
        refine PlacesAll.listed (places_flatMap fun row hrow => ?_)
        have hitems : ∀ n ∈ Expr.nodesOf row, n.Rendered := fun n hn =>
          hr n (List.mem_flatMap.mpr ⟨row, hrow, hn⟩)
        exact (emit _).quiet_seq ((places_exprs ht row hitems).separated.seq_quiet (emit _))
  | query q => exact (emit _).quiet_seq (places_select ht q hr)
  | defaults => exact emit _

theorem places_insert (ht : t.Native) {i : Insert} (hr : ∀ n ∈ i.nodes, n.Rendered) :
    (i.render t).Places (parameters i.nodes) := by
  simp only [Insert.nodes, List.forall_mem_append, List.forall_mem_cons] at hr
  rw [Insert.nodes, Node.parameters_append, Node.parameters_below rfl, Node.parameters_below rfl]
  unfold Insert.render
  refine (places_with? ht true _ hr.1).optional.seq ((emit _).quiet_seq ?_)
  refine (t.target_places _ _).quiet_seq ((names_place i.columns).listed.quiet_seq ?_)
  exact quiet_seq (.when (emit _)) (places_source ht hr.2.2.2)

theorem places_sources (ht : t.Native) {u : Update} (hr : ∀ n ∈ u.sourceNodes t.style, n.Rendered) :
    (u.renderSources t).Places (parameters (u.sourceNodes t.style)) := by
  unfold Update.renderSources
  unfold Update.sourceNodes at hr ⊢
  cases hstyle : t.style with
  | spanner policy => exact .pure trivial
  | standard =>
      rw [hstyle, List.forall_mem_cons] at hr
      rw [Node.parameters_below rfl]
      refine quiet_seq (.when (t.require_places _)) ?_
      refine PlacesAll.listed (places_flatMap fun table htable => ?_)
      exact places_tableRef ht table fun n hn => hr.2 n (List.mem_flatMap.mpr ⟨table, htable, hn⟩)

theorem places_assignment (ht : t.Native) {a : Assignment} (hr : ∀ n ∈ a.nodes, n.Rendered) :
    (a.render t).Places (parameters a.nodes) := by
  rw [Assignment.nodes, List.forall_mem_cons] at hr
  rw [Assignment.nodes, Node.parameters_below rfl]
  exact (emit _).quiet_seq ((emit _).quiet_seq (places_expr ht a.value hr.2))

theorem places_update (ht : t.Native) {u : Update} (hr : ∀ n ∈ u.nodes t.style, n.Rendered) :
    (u.render t).Places (parameters (u.nodes t.style)) := by
  simp only [Update.nodes, List.forall_mem_append, List.forall_mem_cons] at hr
  obtain ⟨hwith, _, ⟨hassignments, hsources⟩, hcondition⟩ := hr
  rw [Update.nodes, Node.parameters_append, Node.parameters_below rfl, Node.parameters_append,
    Node.parameters_append, Nat.add_assoc]
  unfold Update.render
  split
  next => exact .fail _
  next =>
    refine (places_with? ht true _ hwith).optional.seq ((emit _).quiet_seq ?_)
    refine (t.target_places _ _).quiet_seq (PlacesAll.listed ?_ |>.seq ?_)
    · refine places_flatMap fun a ha => places_assignment ht fun n hn => ?_
      exact hassignments n (List.mem_flatMap.mpr ⟨a, ha, hn⟩)
    · exact (places_sources ht hsources).seq (places_expr? ht _ hcondition).optional

theorem places_delete (ht : t.Native) {d : Delete} (hr : ∀ n ∈ d.nodes, n.Rendered) :
    (d.render t).Places (parameters d.nodes) := by
  simp only [Delete.nodes, List.forall_mem_append, List.forall_mem_cons] at hr
  rw [Delete.nodes, Node.parameters_append, Node.parameters_below rfl]
  unfold Delete.render
  refine (places_with? ht true _ hr.1).optional.seq ((emit _).quiet_seq ?_)
  exact (t.target_places _ _).quiet_seq (places_expr? ht _ hr.2.2).optional

theorem places_statement (ht : t.Native) {s : Statement} (hr : ∀ n ∈ s.nodes t.style, n.Rendered) :
    (s.render t).Places (parameters (s.nodes t.style)) := by
  cases s with
  | select query => exact places_select ht query hr
  | insert insertion => exact places_insert ht hr
  | update change => exact places_update ht hr
  | delete deletion => exact places_delete ht hr

theorem native_of_postgres (hcapabilities : t.dialect.capabilities = .postgres)
    (hfunctions : t.dialect.functions = .postgres ∨ t.dialect.functions = .spanner) :
    t.Native := by
  have hsupports : ∀ f, f ≠ .refCursor → t.supports f = true := by
    intro f hf
    simp [supports, Dialect.supports, hcapabilities, Capabilities.postgres, hf]
  refine ⟨hsupports _ (by decide), hsupports _ (by decide), hsupports _ (by decide),
    hsupports _ (by decide), ?_⟩
  rcases hfunctions with hfunctions | hfunctions
  · exact hfunctions ▸ Registry.postgres_copiesEach
  · exact hfunctions ▸ Registry.spanner_copiesEach

/-- With all features of PostgreSQL and the functions of a built-in backend, no parameter of a
statement is lost or written twice: a translation counts the parameters that stand in the
statement, at any depth. Memberships in empty lists leave out their operands, so statements
with such lists are excepted. -/
theorem native_counts_parameters (hcapabilities : t.dialect.capabilities = .postgres)
    (hfunctions : t.dialect.functions = .postgres ∨ t.dialect.functions = .spanner) (s : Statement)
    (hs : ∀ n ∈ s.nodes t.style, n.Rendered) {o : Output} (h : t.translate s = .ok o) :
    o.parameters = (s.nodes t.style).countP Node.isParameter := by
  have ht := native_of_postgres hcapabilities hfunctions
  obtain ⟨hparameters, _⟩ := places_statement ht hs _ _ _ (run_of_translate h)
  exact hparameters.trans (Nat.zero_add _)

/-- Rows with parameters, and a parameter in a query that one of them is looked up in. -/
theorem native_counts_parameters_rows :
    let t := Dialect.postgres.translator
    let query := Select.plain [⟨.parameter, none⟩] none
    let row := Expr.tuple [.inQuery (.column none "a") query false, .parameter]
    let s := Statement.select { Select.plain [⟨.star none, none⟩] none with
      condition := some (.binary row .lt (.tuple [.column none "b", .parameter])) }
    let text := "select * where (a in (select ?), ?) < (b, ?)"
    t.dialect.capabilities = .postgres ∧
      (t.dialect.functions = .postgres ∨ t.dialect.functions = .spanner) ∧
      (∀ n ∈ s.nodes t.style, n.Rendered) ∧ t.translate s = .ok ⟨text, 3, []⟩ ∧
      3 = (s.nodes t.style).countP Node.isParameter := by
  intro t query row s text
  have hrendered : ∀ n ∈ s.nodes t.style, n.Rendered := by decide
  have htranslate : t.translate s = .ok ⟨text, 3, []⟩ := rfl
  refine ⟨rfl, .inl rfl, hrendered, htranslate, ?_⟩
  exact native_counts_parameters (t := t) rfl (.inl rfl) s hrendered htranslate

end Translator

end SqlBackend
