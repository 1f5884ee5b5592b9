import SqlBackend.Proofs.Bracket.Nesting
import SqlBackend.Render.Rendering

/-! # Renderings that nest brackets

A rendering is judged by the text that it adds when it ends well: the text leads
from so many open brackets to so many. Parts follow one another where the second
starts at the depth that the first one leaves, so a bracket may be opened by one
part of a clause and closed by a later one.
-/

namespace SqlBackend

open Nesting (Leads Balanced)

/-- The text of the fragment closes what it opens and nothing else. -/
def Fragment.Balanced (f : Fragment) : Prop := Nesting.Balanced f.text

namespace Fragment.Balanced

variable {f g : Fragment} {fs : List Fragment}

theorem empty : Balanced {} := fun _ => rfl

theorem word {w : String} (h : Nesting.read ⟨false, 0⟩ w.toList = some ⟨false, 0⟩) :
    Balanced (.ofText w) := Nesting.leads_of_read h

theorem append (hf : f.Balanced) (hg : g.Balanced) : (f ++ g).Balanced := Leads.append hf hg

theorem joined {separator : String}
    (hseparator : Nesting.read ⟨false, 0⟩ separator.toList = some ⟨false, 0⟩)
    (h : ∀ f ∈ fs, f.Balanced) : (Fragment.joined separator fs).Balanced := by
  induction fs with
  | nil => exact empty
  | cons f rest ih =>
      obtain ⟨hf, hrest⟩ := List.forall_mem_cons.mp h
      cases rest with
      | nil => exact hf
      | cons g rest => exact (hf.append (word hseparator)).append (ih hrest)

theorem parenthesized (h : f.Balanced) : f.parenthesized.Balanced := by
  have hopening : Leads 0 1 "(" := Nesting.leads_of_read rfl
  have hclosing : Leads 1 0 ")" := Nesting.leads_of_read rfl
  exact (hopening.append h.deeper).append hclosing

end Fragment.Balanced

namespace Rendering

variable {α β : Type} {a b c : Nat}

/-- If the rendering ends well, it has added a text that leads from `a` open brackets
to `b`, and what it results in has a property. -/
def NestsWith (a b : Nat) (P : α → Prop) (r : Rendering α) : Prop :=
  ∀ before x after, r.run before = (.ok x, after) →
    (∃ text, after.text = before.text ++ text ∧ Leads a b text) ∧ P x

/-- If the rendering ends well, it has added a text that leads from `a` open brackets
to `b`. -/
abbrev Nests (a b : Nat) (r : Rendering α) : Prop := r.NestsWith a b fun _ => True

namespace NestsWith

variable {P : α → Prop} {Q : β → Prop} {r : Rendering α} {s : Rendering β}

protected theorem pure {x : α} (hx : P x) : (Pure.pure x : Rendering α).NestsWith a a P := by
  rintro before _ _ ⟨⟩
  exact ⟨⟨"", by simp, fun _ => rfl⟩, hx⟩

protected theorem bind {f : α → Rendering β} (hr : r.NestsWith a b P)
    (hf : ∀ x, P x → (f x).NestsWith b c Q) : (r >>= f).NestsWith a c Q := by
  intro before y last h
  obtain ⟨x, after, hrun, hnext⟩ := run_bind_ok h
  obtain ⟨⟨first, hfirst, hleads⟩, hx⟩ := hr before x after hrun
  obtain ⟨⟨second, hsecond, hleads'⟩, hy⟩ := hf x hx after y last hnext
  refine ⟨⟨first ++ second, ?_, hleads.append hleads'⟩, hy⟩
  rw [hsecond, hfirst, String.append_assoc]

theorem seq (hr : r.Nests a b) (hs : s.NestsWith b c Q) : (r >>= fun _ => s).NestsWith a c Q :=
  hr.bind fun _ _ => hs

theorem deeper (h : r.NestsWith a b P) : r.NestsWith (a + 1) (b + 1) P := by
  intro before x after hrun
  obtain ⟨⟨text, htext, hleads⟩, hx⟩ := h before x after hrun
  exact ⟨⟨text, htext, hleads.deeper⟩, hx⟩

theorem ofExcept {outcome : Except Error α} (h : ∀ x, outcome = .ok x → P x) :
    (Rendering.ofExcept outcome).NestsWith a a P := by
  rintro before x _ hrun
  obtain ⟨houtcome, rfl⟩ := Prod.mk.inj hrun
  exact ⟨⟨"", by simp, fun _ => rfl⟩, h x houtcome⟩

theorem fail (e : Error) : (Rendering.fail e : Rendering α).NestsWith a b P := by
  rintro before x after ⟨⟩

theorem emit {text : String} (h : Leads a b text) : (Rendering.emit text).Nests a b := by
  rintro before _ _ ⟨⟩
  exact ⟨⟨text, rfl, h⟩, trivial⟩

/-- A fixed word, whose brackets are counted by running over it. -/
theorem word {w : String} (h : Nesting.read ⟨false, a⟩ w.toList = some ⟨false, b⟩) :
    (Rendering.emit w).Nests a b := emit (Nesting.leads_of_read h)

theorem emitFragment {f : Fragment} (h : f.Balanced) : (Rendering.emitFragment f).Nests 0 0 := by
  rintro before _ _ ⟨⟩
  exact ⟨⟨f.text, rfl, h⟩, trivial⟩

theorem affect (table : String) : (Rendering.affect table).Nests a a := by
  rintro before _ _ ⟨⟩
  exact ⟨⟨"", rfl, fun _ => rfl⟩, trivial⟩

theorem when {condition : Bool} {s : Rendering Unit} (h : s.Nests a a) :
    (Rendering.when condition s).Nests a a := by
  cases condition with
  | false => exact .pure trivial
  | true => exact h

theorem optional {lead : String} {o : Option (Rendering Unit)}
    (hlead : Nesting.read ⟨false, 0⟩ lead.toList = some ⟨false, 0⟩) (h : ∀ r ∈ o, r.Nests 0 0) :
    (Rendering.optional lead o).Nests 0 0 := by
  cases o with
  | none => exact .pure trivial
  | some r => exact (word hlead).seq (h r rfl)

theorem separated {separator : String} {rs : List (Rendering Unit)}
    (hseparator : Nesting.read ⟨false, 0⟩ separator.toList = some ⟨false, 0⟩)
    (h : ∀ r ∈ rs, r.Nests 0 0) : (Rendering.separated separator rs).Nests 0 0 := by
  induction rs with
  | nil => exact .pure trivial
  | cons r rest ih =>
      obtain ⟨hr, hrest⟩ := List.forall_mem_cons.mp h
      cases rest with
      | nil => exact hr
      | cons s rest => exact hr.seq ((word hseparator).seq (ih hrest))

theorem listed {lead : String} {rs : List (Rendering Unit)}
    (hlead : Nesting.read ⟨false, 0⟩ lead.toList = some ⟨false, 0⟩) (h : ∀ r ∈ rs, r.Nests 0 0) :
    (Rendering.listed lead rs).Nests 0 0 := by
  unfold Rendering.listed
  split
  · exact .pure trivial
  · exact (word hlead).seq (separated rfl h)

/-- A part between an opening and a closing word. -/
theorem enclosed {lead trail : String} {s : Rendering Unit}
    (hlead : Nesting.read ⟨false, 0⟩ lead.toList = some ⟨false, 1⟩) (h : s.Nests 0 0)
    (htrail : Nesting.read ⟨false, 1⟩ trail.toList = some ⟨false, 0⟩) :
    (do
      Rendering.emit lead
      s
      Rendering.emit trail).Nests 0 0 :=
  (word hlead).seq (h.deeper.seq (word htrail))

/-- Names in brackets, which are left out together with them. -/
theorem bracketed {names : List String} (h : ∀ name ∈ names, Nesting.Balanced name)
    (hs : s.NestsWith 0 a Q) :
    (do
      Rendering.listed " (" (names.map Rendering.emit)
      Rendering.when (!names.isEmpty) (Rendering.emit ")")
      s).NestsWith 0 a Q := by
  cases names with
  | nil => exact hs
  | cons name rest =>
      have hnames : ∀ r ∈ (name :: rest).map Rendering.emit, r.Nests 0 0 := by
        rw [List.forall_mem_map]
        exact fun name hname => emit (h name hname)
      have hlist : (Rendering.listed " (" ((name :: rest).map Rendering.emit)).Nests 0 1 :=
        (word rfl).seq (separated rfl hnames).deeper
      exact hlist.seq ((word rfl : (Rendering.emit ")").Nests 1 0).seq hs)

theorem sequence {rs : List (Rendering α)} (h : ∀ r ∈ rs, r.NestsWith a a P) :
    (Rendering.sequence rs).NestsWith a a fun xs => ∀ x ∈ xs, P x := by
  induction rs with
  | nil => exact .pure (by simp)
  | cons r rest ih =>
      obtain ⟨hr, hrest⟩ := List.forall_mem_cons.mp h
      apply hr.bind
      intro x hx
      apply (ih hrest).bind
      intro xs hxs
      exact .pure (List.forall_mem_cons.mpr ⟨hx, hxs⟩)

/-- Rendered apart, a part adds nothing to the text. -/
theorem detached {s : Rendering Unit} (h : s.Nests 0 0) :
    s.detached.NestsWith a a Fragment.Balanced := by
  rintro before f _ hrun
  obtain ⟨houtcome, rfl⟩ := Prod.mk.inj hrun
  obtain ⟨_, hinner, rfl⟩ := map_eq_ok_iff.mp houtcome
  obtain ⟨⟨text, htext, hleads⟩, _⟩ := h _ _ _ (Prod.ext hinner rfl)
  refine ⟨⟨"", by simp, fun _ => rfl⟩, ?_⟩
  rw [String.empty_append] at htext
  rw [Fragment.Balanced, Output.fragment, htext]
  exact hleads

theorem detached? {o : Option (Rendering Unit)} (h : ∀ r ∈ o, r.Nests 0 0) :
    (Rendering.detached? o).NestsWith a a fun found => ∀ f ∈ found, f.Balanced := by
  cases o with
  | none => exact .pure (by simp)
  | some r =>
      apply (detached (h r rfl)).bind
      intro f hf
      exact .pure (by simpa using hf)

theorem fragments {rs : List (Rendering Unit)} (h : ∀ r ∈ rs, r.Nests 0 0) :
    (Rendering.fragments rs).NestsWith a a fun fs => ∀ f ∈ fs, f.Balanced := by
  apply sequence
  rw [List.forall_mem_map]
  exact fun r hr => detached (h r hr)

end NestsWith

end Rendering

end SqlBackend
