import SqlBackend.Render.Mutation

/-! # Sessions with a translator

A translator can be asked for the parts of a statement one after the other,
each written behind what is there already. A part that fails leaves what it had
written. A whole statement starts from nothing and leaves nothing behind.
-/

namespace SqlBackend

/-- A part of a statement. -/
inductive StatementPart where
  | text (text : String)
  | expr (e : Expr)
  | select (s : Select)
  | insert (i : Insert)
  | update (u : Update)
  | updateSources (u : Update)
  | delete (d : Delete)
  | withClause (w : With) (mutation : Bool)
  | hint (m : Materialization)
  | tableRef (r : TableRef)
  | target (table : NamedTable) (kind : MutationKind)
  | like (l : Like)
  | likePattern (l : Like)
  | likeEscape (l : Like)
  | call (c : Call)
  | lock (request : LockRequest)

def StatementPart.render (t : Translator) : StatementPart → Rendering Unit
  | text s => .emit s
  | expr e => e.render t
  | select s => s.render t
  | insert i => i.render t
  | update u => u.render t
  | updateSources u => u.renderSources t
  | delete d => d.render t
  | withClause w mutation => w.render t mutation
  | hint m => t.hint m
  | tableRef r => r.render t
  | target table kind => t.target table kind
  | like l => l.render t
  | likePattern l => l.renderPattern t
  | likeEscape l => l.renderEscape t
  | call c => c.render t
  | lock request => t.lock request

/-- One request to a translator. -/
inductive Request where
  /-- Write a part behind what is there. -/
  | write (part : StatementPart)
  /-- Render an expression apart from what is there. -/
  | fragment (e : Expr)
  /-- Translate a whole statement. -/
  | translate (s : Statement)

/-- What a request is answered with, besides the text it leads to. -/
inductive Reply where
  | written
  | fragment (f : Fragment)
  | translated (output : Output)
deriving DecidableEq, Repr

/-- What a request does to the output so far. -/
def Request.rendering (t : Translator) : Request → Rendering Reply
  | write part => do
      part.render t
      return .written
  | fragment e => .fragment <$> (e.render t).detached
  | translate s => .translated <$> (s.render t).whole

/-- Answers a request behind what was written before, and says what is written
afterwards. -/
def Request.perform (t : Translator) (before : Output) (r : Request) :
    Except Error Reply × Output :=
  (r.rendering t).run before

/-- Answers requests in order: each answer with what is written after it. -/
def Translator.session (t : Translator) :
    Output → List Request → List (Except Error Reply × Output)
  | _, [] => []
  | before, r :: rest =>
      let answer := r.perform t before
      answer :: t.session answer.2 rest

end SqlBackend
