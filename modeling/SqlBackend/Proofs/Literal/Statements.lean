import SqlBackend.Proofs.Literal.Queries
import SqlBackend.Render.Mutation

/-! # Literals do not change the structure of a statement

Alike statements end in the same error or in texts of one script: outside string
literals both texts are the same, and their literals are read back place by place
as the contents that belong together.
-/

namespace SqlBackend

open Rendering (Alike emit)

namespace Comparison.Suits

variable {C : Comparison} {t : Translator} (hC : C.Suits t)
include hC

theorem alike_source {v v' : InsertSource} (h : v.Alike C.related v')
    (hn : ∀ n ∈ v.nodes, n.Plain t C.noComments) : Alike C .neutral (v.render t) (v'.render t) := by
  cases h with
  | @rows rows rows' h =>
      have hempty : rows.isEmpty = rows'.isEmpty := isEmpty_eq_of_forall₂ h
      have hrows : List.Forall₂ (Alike C .neutral) (rows.map (InsertSource.row t))
          (rows'.map (InsertSource.row t)) := by
        clear hempty
        induction h with
        | nil => exact .nil
        | cons hrow _ ih =>
            simp only [InsertSource.nodes, List.flatMap_cons, List.forall_mem_append] at hn
            have hvalues := Rendering.Alike.separated (w := ", ") rfl
              (hC.alike_exprs _ _ hrow hn.1)
            exact .cons ((hvalues.seq (.word rfl)).word_seq rfl) (ih hn.2)
      rw [InsertSource.render, InsertSource.render, hempty]
      split
      · exact .fail _
      · exact .listed rfl hrows
  | query h => exact (hC.alike_select _ _ h hn).word_seq rfl
  | defaults => exact .word rfl

theorem alike_insert {w w' : Option With} {target : NamedTable} {columns : List String}
    {v v' : InsertSource} (hw : Option.Rel (With.Alike C.related) w w') (hv : v.Alike C.related v')
    (hn : ∀ n ∈ Insert.nodes ⟨w, target, columns, v⟩, n.Plain t C.noComments) :
    Alike C .neutral (Insert.render t ⟨w, target, columns, v⟩)
      (Insert.render t ⟨w', target, columns, v'⟩) := by
  simp only [Insert.nodes, List.forall_mem_append, List.forall_mem_cons] at hn
  refine (Rendering.Alike.optional_bare (hC.alike_with? true _ _ hw hn.1)).seq ?_
  refine (Rendering.Alike.word rfl).seq ((Translator.target_alike t .insert hn.2.1.names).seq ?_)
  refine (Rendering.Alike.listed rfl (Rendering.names_alike hn.2.2.1.names)).seq ?_
  exact (Rendering.Alike.when (.word rfl)).seq (hC.alike_source hv hn.2.2.2)

theorem alike_assignments {as as' : List Assignment}
    (h : List.Forall₂ (fun a a' => a.column = a'.column ∧ a.value.Alike C.related a'.value) as as')
    (hn : ∀ n ∈ as.flatMap Assignment.nodes, n.Plain t C.noComments) :
    List.Forall₂ (Alike C .neutral) (as.map (Assignment.render t))
      (as'.map (Assignment.render t)) := by
  induction h with
  | nil => exact .nil
  | @cons a a' _ _ ha _ ih =>
      simp only [List.flatMap_cons, List.forall_mem_append, Assignment.nodes,
        List.forall_mem_cons] at hn
      have hcolumn : Script.Neutral C.noComments a.column :=
        hn.1.1.names a.column (by simp [Node.names, Node.texts])
      have hvalue := (hC.alike_expr _ _ ha.2 hn.1.2).word_seq (w := " = ") rfl
      refine .cons ?_ (ih hn.2)
      rw [Assignment.render, Assignment.render, ← ha.1]
      exact (Rendering.Alike.emit (.neutral hcolumn)).seq hvalue

theorem alike_tables {rs rs' : List TableRef} (h : List.Forall₂ (TableRef.Alike C.related) rs rs')
    (hn : ∀ n ∈ rs.flatMap TableRef.nodes, n.Plain t C.noComments) :
    List.Forall₂ (Alike C .neutral) (rs.map (TableRef.render t)) (rs'.map (TableRef.render t)) := by
  induction h with
  | nil => exact .nil
  | cons hr _ ih =>
      simp only [List.flatMap_cons, List.forall_mem_append] at hn
      exact .cons (hC.alike_tableRef _ _ hr hn.1) (ih hn.2)

/-- Spanner's rules leave the further tables out, so nothing is asked of them. -/
theorem alike_sources {u u' : Update} (h : List.Forall₂ (TableRef.Alike C.related) u.sources u'.sources)
    (hn : ∀ n ∈ u.sourceNodes t.style, n.Plain t C.noComments) :
    Alike C .neutral (u.renderSources t) (u'.renderSources t) := by
  have hempty : u.sources.isEmpty = u'.sources.isEmpty := isEmpty_eq_of_forall₂ h
  unfold Update.renderSources
  unfold Update.sourceNodes at hn
  rw [hempty]
  cases hs : t.style with
  | spanner => exact .done
  | standard =>
      rw [hs] at hn
      exact (Rendering.Alike.when (Translator.require_alike t _)).seq
        (.listed rfl (hC.alike_tables h (List.forall_mem_cons.mp hn).2))

theorem alike_update {w w' : Option With} {target : NamedTable} {as as' : List Assignment}
    {sources sources' : List TableRef} {condition condition' : Option Expr}
    (hw : Option.Rel (With.Alike C.related) w w')
    (has : List.Forall₂ (fun a a' => a.column = a'.column ∧ a.value.Alike C.related a'.value) as as')
    (hsources : List.Forall₂ (TableRef.Alike C.related) sources sources')
    (hcondition : Option.Rel (Expr.Alike C.related) condition condition')
    (hn : ∀ n ∈ Update.nodes t.style ⟨w, target, as, sources, condition⟩,
      n.Plain t C.noComments) :
    Alike C .neutral (Update.render t ⟨w, target, as, sources, condition⟩)
      (Update.render t ⟨w', target, as', sources', condition'⟩) := by
  simp only [Update.nodes, List.forall_mem_append, List.forall_mem_cons] at hn
  obtain ⟨nwith, ntarget, ⟨nassignments, nsources⟩, ncondition⟩ := hn
  have hempty : as.isEmpty = as'.isEmpty := isEmpty_eq_of_forall₂ has
  have hfrom : Alike C .neutral (Update.renderSources t ⟨w, target, as, sources, condition⟩)
      (Update.renderSources t ⟨w', target, as', sources', condition'⟩) :=
    hC.alike_sources hsources nsources
  rw [Update.render, Update.render]
  dsimp only
  rw [hempty]
  split
  · exact .fail _
  · refine (Rendering.Alike.optional_bare (hC.alike_with? true _ _ hw nwith)).seq ?_
    refine (Rendering.Alike.word rfl).seq ((Translator.target_alike t .update ntarget.names).seq ?_)
    refine (Rendering.Alike.listed rfl (hC.alike_assignments has nassignments)).seq ?_
    exact hfrom.seq (.optional rfl (hC.alike_expr? _ _ hcondition ncondition))

theorem alike_delete {w w' : Option With} {target : NamedTable} {condition condition' : Option Expr}
    (hw : Option.Rel (With.Alike C.related) w w')
    (hcondition : Option.Rel (Expr.Alike C.related) condition condition')
    (hn : ∀ n ∈ Delete.nodes ⟨w, target, condition⟩, n.Plain t C.noComments) :
    Alike C .neutral (Delete.render t ⟨w, target, condition⟩)
      (Delete.render t ⟨w', target, condition'⟩) := by
  simp only [Delete.nodes, List.forall_mem_append, List.forall_mem_cons] at hn
  refine (Rendering.Alike.optional_bare (hC.alike_with? true _ _ hw hn.1)).seq ?_
  refine (Rendering.Alike.word rfl).seq ((Translator.target_alike t .delete hn.2.1.names).seq ?_)
  exact .optional rfl (hC.alike_expr? _ _ hcondition hn.2.2)

theorem alike_statement {s s' : Statement} (h : s.Alike C.related s')
    (hn : ∀ n ∈ s.nodes t.style, n.Plain t C.noComments) :
    Alike C .neutral (s.render t) (s'.render t) := by
  cases h with
  | select h => exact hC.alike_select _ _ h hn
  | insert hw hv => exact hC.alike_insert hw hv hn
  | update hw has hsources hcondition => exact hC.alike_update hw has hsources hcondition hn
  | delete hw hcondition => exact hC.alike_delete hw hcondition hn

/-- Both translations fail in the same way, or lead to texts of one script. -/
theorem alike_translate {s s' : Statement} (h : s.Alike C.related s')
    (hn : ∀ n ∈ s.nodes t.style, n.Plain t C.noComments) :
    (∃ e, t.translate s = .error e ∧ t.translate s' = .error e) ∨
      ∃ o o', t.translate s = .ok o ∧ t.translate s' = .ok o' ∧
        C.Texts .neutral o.text o'.text := by
  obtain ⟨hend, hwritten⟩ := hC.alike_statement h hn {} {}
  simp only [Translator.translate, Rendering.run_whole]
  rw [← hend]
  cases hrun : ((s.render t).run {}).1 with
  | error e => exact .inl ⟨e, rfl, rfl⟩
  | ok _ =>
      obtain ⟨a, b, htexts, ha, hb⟩ := hwritten hrun
      rw [String.empty_append] at ha hb
      refine .inr ⟨_, _, rfl, rfl, ?_⟩
      rwa [ha, hb]

end Comparison.Suits

/-- String literals do not change the structure of a statement. Take two
statements that are the same up to the contents of their string literals, and
any relation between the contents at equal places. On every backend that keeps
literals apart, as the built-in ones do, both translations fail in the same way
or lead to two texts of one script: scanned for literals, both are the same
outside of them, none is left open, and each literal has contents that belong
together, with their backslashes doubled where a pattern is written so, or the
same fixed content in both. -/
theorem Translator.literals_keep_structure :
    (Registry.postgres.Tame ∧ Registry.spanner.Tame ∧ TypeMapping.postgres.Unquoted ∧
      ∀ timestamptzForTime, (TypeMapping.spanner timestamptzForTime).Unquoted) ∧
    ∀ t : Translator, t.dialect.functions.Tame → t.dialect.types.Unquoted →
      ∀ (related : LiteralUse → String → String → Prop) (s s' : Statement), s.Alike related s' →
        (∀ n ∈ s.nodes t.style, ∀ name ∈ n.names, Text.singleQuote ∉ name.toList) →
        (∃ e, t.translate s = .error e ∧ t.translate s' = .error e) ∨
          ∃ (o o' : Output) (script : Script), t.translate s = .ok o ∧ t.translate s' = .ok o' ∧
            Piece.scan o.text = some (script.map (Mark.piece .first)) ∧
            Piece.scan o'.text = some (script.map (Mark.piece .second)) ∧
            ∀ source, .literal source ∈ script →
              Comparison.Admits ⟨related, t.style, false⟩ source := by
  refine ⟨⟨Registry.postgres_tame, Registry.spanner_tame, TypeMapping.postgres_tame.unquoted,
    fun timestamptzForTime => (TypeMapping.spanner_tame timestamptzForTime).unquoted⟩, ?_⟩
  intro t hfunctions htypes related s s' h hnames
  have hsuits : Comparison.Suits ⟨related, t.style, false⟩ t :=
    ⟨rfl, hfunctions, fun target => Script.neutral_of_not_mem (htypes target)⟩
  have hplain : ∀ n ∈ s.nodes t.style, n.Plain t false := fun n hn =>
    ⟨fun name hname => Script.neutral_of_not_mem (hnames n hn name hname), by simp⟩
  rcases hsuits.alike_translate h hplain with herror | ⟨o, o', ho, ho', script, _, hspells⟩
  · exact .inl herror
  · refine .inr ⟨o, o', script, ho, ho', ?_, ?_, hspells.admitted⟩
    · rw [Piece.scan, hspells.first, hspells.clean.scanFrom]
    · rw [Piece.scan, hspells.second, hspells.clean.scanFrom]

/-- A comparison and a pattern whose backslash is doubled, with contents that
would end the literal or start a comment if they were not quoted. -/
theorem Translator.literals_keep_structure_pattern :
    let t := (Dialect.spanner {}).translator
    let related (use : LiteralUse) (a b : String) : Prop :=
      (use = .value ∧ a = "it's" ∧ b = "--") ∨ (use = .pattern ∧ a = "5\\%" ∧ b = "' or ''='")
    let query (value pattern : String) : Statement := .select
      { Select.plain [⟨.star none, none⟩] (some (.table { name := "t" })) with
        condition := some (.binary (.binary (.column none "a") .eq (.literal (.string value))) .and
          (.like ⟨.column none "b", .literal (.string pattern), none, false, true⟩)) }
    let s := query "it's" "5\\%"
    let s' := query "--" "' or ''='"
    let text := "select * from t where a = 'it''s' and b like '5\\\\%'"
    let text' := "select * from t where a = '--' and b like ''' or ''''='''"
    s.Alike related s' ∧
      (∀ n ∈ s.nodes t.style, ∀ name ∈ n.names, Text.singleQuote ∉ name.toList) ∧
      t.translate s = .ok { text := text } ∧ t.translate s' = .ok { text := text' } ∧
      ∃ script : Script,
        Piece.scan text = some (script.map (Mark.piece .first)) ∧
        Piece.scan text' = some (script.map (Mark.piece .second)) ∧
        ∀ source, .literal source ∈ script →
          Comparison.Admits ⟨related, t.style, false⟩ source := by
  intro t related query s s' text text'
  have hvalue : related .value "it's" "--" := .inl ⟨rfl, rfl, rfl⟩
  have hpattern : related .pattern "5\\%" "' or ''='" := .inr ⟨rfl, rfl, rfl⟩
  have halike : s.Alike related s' :=
    .select (.intro .none (.cons (.intro .star) .nil) (.some .table)
      (.some (.binary (.binary .column (.string hvalue)) (.like (.pattern .column hpattern))))
      .nil .none .nil .none .none)
  have hnames : ∀ n ∈ s.nodes t.style, ∀ name ∈ n.names, Text.singleQuote ∉ name.toList := by
    decide
  have htext : t.translate s = .ok { text := text } := by decide +kernel
  have htext' : t.translate s' = .ok { text := text' } := by decide +kernel
  refine ⟨halike, hnames, htext, htext', ?_⟩
  rcases literals_keep_structure.2 t Registry.spanner_tame (TypeMapping.spanner_tame false).unquoted
    related s s' halike hnames with ⟨e, he, _⟩ | ⟨o, o', script, ho, ho', hscanned⟩
  · cases htext.symm.trans he
  · cases htext.symm.trans ho
    cases htext'.symm.trans ho'
    exact ⟨script, hscanned⟩

end SqlBackend
