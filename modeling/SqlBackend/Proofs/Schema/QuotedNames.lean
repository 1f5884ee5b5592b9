import SqlBackend.Component
import SqlBackend.Proofs.Schema.ForeignKeys
import SqlBackend.Proofs.Text.Quotation
import SqlBackend.Proofs.Text.Replacement

/-! # Names between quotes

The name of an identifier, a component or a sequence is put between quotes as it is, other
than the content of a string literal, whose marks are doubled. Such a name is read back,
with nothing left of it, unless it has the mark in it that it stands between.
-/

namespace SqlBackend

namespace Text

/-- The name between two marks, as it is. -/
def between (mark : Char) (name : String) : String :=
  String.ofList (mark :: name.toList ++ [mark])

/-- In front of anything but another mark, a name is read back if the mark is not in it. -/
theorem readQuotation_between_iff {mark : Char} {rest : List Char} (name : String)
    (hrest : rest.head? ≠ some mark) :
    readQuotation mark ((between mark name).toList ++ rest) = some (name.toList, rest) ↔
      mark ∉ name.toList := by
  rw [between, String.toList_ofList, List.append_assoc, List.singleton_append,
    readQuotation_iff hrest]

/-- The content of a literal is read back whatever is in it. -/
theorem readQuotation_literal {rest : List Char} (content : String)
    (hrest : rest.head? ≠ some singleQuote) :
    readQuotation singleQuote ((literal content).toList ++ rest) = some (content.toList, rest) := by
  have hmark : "'".toList = [singleQuote] := rfl
  simp only [literal, String.toList_append, hmark, toList_doubled, List.append_assoc,
    List.cons_append, List.nil_append]
  rw [readQuotation, if_pos rfl, readQuoted_doubleMarks _ _ _ hrest]

end Text

theorem Dialect.quoteIdentifier_eq (name : String) :
    quoteIdentifier name = Text.between Text.doubleQuote name := by
  rw [← String.toList_inj]
  simp [quoteIdentifier, identifierQuote, Text.between, Text.doubleQuote]

namespace ComponentAccess

/-- Wherever the placeholder is in a template, a component of a document is read there. -/
theorem exists_read_eq_intercalate (a : ComponentAccess)
    (template placeholder parent component : String) {type : SqlType} (htype : type.isJson = true) :
    ∃ text, a.read template placeholder parent component type = .ok text ∧
      text.toList = (parent ++ "->>" ++ Text.between Text.singleQuote component).toList.intercalate
        (Text.pieces placeholder.toList template.toList) := by
  have haccess : parent ++ "->>'" ++ component ++ "'" =
      parent ++ "->>" ++ Text.between Text.singleQuote component := by
    rw [← String.toList_inj]
    simp [Text.between, Text.singleQuote]
  refine ⟨_, if_pos htype, ?_⟩
  rw [haccess, Text.toList_replace, Text.replaceChars_eq_intercalate]

end ComponentAccess

namespace SequenceSyntax

theorem next_eq (name : String) :
    next name = "nextval(" ++ Text.between Text.singleQuote name ++ ")" := by
  rw [← String.toList_inj]
  simp [next, Text.between, Text.singleQuote]

theorem previous_eq (name : String) :
    previous name = "currval(" ++ Text.between Text.singleQuote name ++ ")" := by
  rw [← String.toList_inj]
  simp [previous, Text.between, Text.singleQuote]

end SequenceSyntax

namespace Text

/-- A name as an identifier, also of a foreign key that is added in quotes, as a component
of a document wherever the placeholder is in a template, and as a sequence that is read.
The template is pieces without a placeholder and a placeholder between each two of them, and
the access to the component is in the place of each. Behind a name between quotes may stand
what does not go on with the quotation. The name is then read back with nothing left of it if
it does not have the mark in it, and only then, while the content of a string literal always
is. -/
theorem names_between_quotes_read_back (name : String) :
    (∀ rest : List Char, rest.head? ≠ some doubleQuote →
      (readQuotation doubleQuote ((Dialect.quoteIdentifier name).toList ++ rest) =
        some (name.toList, rest) ↔ doubleQuote ∉ name.toList)) ∧
    (∀ (d : Dialect) (key : ForeignKey), d.foreignKeys = .quoted → key.name = name →
      ∃ rest, d.addForeignKey key =
        " add constraint " ++ (Dialect.quoteIdentifier name ++ (" foreign key (" ++ rest))) ∧
    (∃ quoted : String,
      (∀ rest : List Char, rest.head? ≠ some singleQuote →
        (readQuotation singleQuote (quoted.toList ++ rest) = some (name.toList, rest) ↔
          singleQuote ∉ name.toList)) ∧
      (∀ (a : ComponentAccess) (template placeholder parent : String) (type : SqlType),
        type.isJson = true →
          (∃ text, a.read template placeholder parent name type = .ok text ∧
            text.toList = (parent ++ "->>" ++ quoted).toList.intercalate
              (pieces placeholder.toList template.toList)) ∧
          template.toList = placeholder.toList.intercalate
            (pieces placeholder.toList template.toList) ∧
          (placeholder ≠ "" → ∀ piece ∈ pieces placeholder.toList template.toList,
            ¬placeholder.toList <:+: piece)) ∧
      SequenceSyntax.next name = "nextval(" ++ quoted ++ ")" ∧
      SequenceSyntax.previous name = "currval(" ++ quoted ++ ")") ∧
    ∀ rest : List Char, rest.head? ≠ some singleQuote →
      readQuotation singleQuote ((literal name).toList ++ rest) = some (name.toList, rest) := by
  refine ⟨?_, ?_, ⟨between singleQuote name, fun _ => readQuotation_between_iff name, ?_,
    SequenceSyntax.next_eq name, SequenceSyntax.previous_eq name⟩,
    fun _ => readQuotation_literal name⟩
  · intro rest hrest
    rw [Dialect.quoteIdentifier_eq, readQuotation_between_iff name hrest]
  · rintro d key hquoted rfl
    have hadded : d.addedName key.name = Dialect.quoteIdentifier key.name := by
      rw [Dialect.addedName, hquoted]
    rw [← hadded]
    exact d.addForeignKey_eq key
  · intro a template placeholder parent type htype
    refine ⟨a.exists_read_eq_intercalate template placeholder parent name htype,
      (intercalate_pieces _ _).symm, fun hplaceholder piece hpiece => ?_⟩
    exact not_infix_of_mem_pieces (mt String.toList_eq_nil_iff.mp hplaceholder) hpiece

/-- Names with a mark in them, each between the other marks. -/
theorem names_between_quotes_read_back_other_mark :
    readQuotation doubleQuote "\"it's\";".toList = some ("it's".toList, [';']) ∧
      ∃ quoted,
        SequenceSyntax.next "a\"b" = "nextval(" ++ quoted ++ ")" ∧
        SequenceSyntax.next "a\"b" = "nextval('a\"b')" ∧
        readQuotation singleQuote (quoted.toList ++ [')']) = some ("a\"b".toList, [')']) ∧
        ∃ text,
          ComponentAccess.spanner.read "cast(? as int)" "?" "t.data" "a\"b" .json = .ok text ∧
          text = "cast(t.data->>'a\"b' as int)" ∧
          pieces "?".toList "cast(? as int)".toList = ["cast(".toList, " as int)".toList] ∧
          text.toList = ("t.data" ++ "->>" ++ quoted).toList.intercalate
            ["cast(".toList, " as int)".toList] := by
  obtain ⟨hidentifier, _⟩ := names_between_quotes_read_back "it's"
  obtain ⟨_, _, ⟨quoted, hread, hcomponent, hnext, _⟩, _⟩ := names_between_quotes_read_back "a\"b"
  obtain ⟨⟨text, htext, hpieces⟩, _⟩ :=
    hcomponent .spanner "cast(? as int)" "?" "t.data" .json rfl
  have hrendered : ComponentAccess.spanner.read "cast(? as int)" "?" "t.data" "a\"b" .json =
      .ok "cast(t.data->>'a\"b' as int)" := by decide +kernel
  have htemplate : pieces "?".toList "cast(? as int)".toList =
      ["cast(".toList, " as int)".toList] := by decide +kernel
  refine ⟨(hidentifier [';'] (by decide)).mpr (by decide), quoted, hnext, by decide +kernel,
    (hread [')'] (by decide)).mpr (by decide), text, htext, ?_, htemplate, htemplate ▸ hpieces⟩
  exact Except.ok.inj (htext.symm.trans hrendered)

/-- Between marks that it has in it a name is cut short, and the rest of it is left over. -/
theorem names_between_quotes_cut_short :
    readQuotation doubleQuote (Dialect.quoteIdentifier "a\"b").toList =
        some ("a".toList, "b\"".toList) ∧
      SequenceSyntax.next "o'clock" = "nextval('o'clock')" ∧
      SequenceSyntax.previous "o'clock" = "currval('o'clock')" ∧
      readQuotation singleQuote "'o'clock')".toList = some ("o".toList, "clock')".toList) ∧
      ComponentAccess.spanner.read "?" "?" "t.data" "it's" .json = .ok "t.data->>'it's'" ∧
      readQuotation singleQuote "'it's'".toList = some ("it".toList, "s'".toList) := by
  decide +kernel

end Text

end SqlBackend
