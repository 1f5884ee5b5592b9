import SqlBackend.Dialect.Basic
import SqlBackend.Render.Rendering

/-! # Translators

A translator renders statements for a dialect by the rules of a rendering
style. A dialect has a style of its own, and any other style can be used with
it as well.
-/

namespace SqlBackend

structure Translator where
  dialect : Dialect
  style : RenderingStyle

/-- The translator by the dialect's own rules. -/
def Dialect.translator (d : Dialect) : Translator := ⟨d, d.rendering⟩

namespace Translator

def supports (t : Translator) (feature : Feature) : Bool := t.dialect.supports feature

/-- Refuses to go on where the backend lacks a feature. -/
def require (t : Translator) (feature : Feature) : Rendering Unit :=
  .ofExcept (t.dialect.require feature)

end Translator

end SqlBackend
