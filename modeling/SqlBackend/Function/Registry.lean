import SqlBackend.Error
import SqlBackend.Function.Template
import SqlBackend.Text.Ascii

/-! # Functions known to a backend

A function is a name with templates for the argument counts it accepts. A
registry holds at most one function for a name, whatever its case.
-/

namespace SqlBackend

/-- How many arguments a template takes. -/
inductive Arity where
  | exactly (count : Nat)
  | atLeast (count : Nat)
deriving DecidableEq, Repr

def Arity.accepts : Arity → Nat → Bool
  | exactly n, count => count = n
  | atLeast n, count => n ≤ count

/-- A template and the argument counts it is for. -/
structure CallPattern where
  arity : Arity
  template : String
deriving DecidableEq, Repr

structure SqlFunction where
  name : String
  patterns : List CallPattern := []
  aggregate : Bool := false
deriving DecidableEq, Repr

namespace SqlFunction

/-- Adds a template that is tried after those already there. -/
def withPattern (f : SqlFunction) (arity : Arity) (template : String) : SqlFunction :=
  { f with patterns := f.patterns ++ [⟨arity, template⟩] }

def asAggregate (f : SqlFunction) : SqlFunction := { f with aggregate := true }

/-- A function called as its name with any arguments in parentheses. -/
def named (name : String) : SqlFunction :=
  { name, patterns := [⟨.atLeast 0, name ++ "(?*)"⟩] }

def namedAggregate (name : String) : SqlFunction := (named name).asAggregate

/-- A function of a fixed number of arguments with a template of its own. -/
def templated (name : String) (count : Nat) (template : String) : SqlFunction :=
  { name, patterns := [⟨.exactly count, template⟩] }

/-- A function without arguments, called without parentheses. -/
def constant (name text : String) : SqlFunction := templated name 0 text

/-- What the function is found under. -/
def key (f : SqlFunction) : String := Text.lower f.name

/-- The call with these arguments, by the first template that takes as many. -/
def call (f : SqlFunction) (args : List Fragment) : Except Error Fragment :=
  match f.patterns.find? fun p => p.arity.accepts args.length with
  | some p => .ok (expandTemplate p.template args)
  | none => .error (.illegalArgument (.argumentCount f.name args.length))

end SqlFunction

/-- The functions of a backend, no two of them with the same key. -/
structure Registry where
  functions : List SqlFunction
  distinct : (functions.map SqlFunction.key).Nodup

namespace Registry

def empty : Registry := ⟨[], by simp⟩

def size (r : Registry) : Nat := r.functions.length

def find? (r : Registry) (name : String) : Option SqlFunction :=
  r.functions.find? (·.key = Text.lower name)

def contains (r : Registry) (name : String) : Bool := (r.find? name).isSome

/-- The registry without the function of this name. -/
def erase (r : Registry) (name : String) : Registry where
  functions := r.functions.filter fun f => f.key ≠ Text.lower name
  distinct := r.distinct.sublist (List.filter_sublist.map _)

/-- Adds a function in place of any other with its key. -/
def register (r : Registry) (f : SqlFunction) : Registry where
  functions := f :: (r.erase f.name).functions
  distinct := by
    refine List.nodup_cons.mpr ⟨?_, (r.erase f.name).distinct⟩
    intro hmem
    obtain ⟨g, hg, hkey⟩ := List.mem_map.mp hmem
    have hne : ¬g.key = Text.lower f.name := by simpa [erase] using (List.mem_filter.mp hg).2
    exact hne hkey

def registerAll (r : Registry) (fs : List SqlFunction) : Registry := fs.foldl register r

/-- Makes `target`, as it is now, callable by a second name. Without such a
function nothing changes. -/
def registerAlias (r : Registry) (name target : String) : Registry :=
  match r.find? target with
  | some f => r.register { f with name }
  | none => r

/-- Removes a function, and says whether it was there. -/
def unregister (r : Registry) (name : String) : Bool × Registry :=
  (r.contains name, r.erase name)

/-- The call of a function by its name. -/
def call (r : Registry) (name : String) (args : List Fragment) : Except Error Fragment :=
  match r.find? name with
  | some f => f.call args
  | none => .error (.unknownFunction name)

/-- What is found is stored, and no other function has its key. -/
theorem find?_eq_some_iff {r : Registry} {name : String} {f : SqlFunction} :
    r.find? name = some f ↔ f ∈ r.functions ∧ f.key = Text.lower name := by
  rw [find?, List.find?_eq_some_iff_append]
  constructor
  · rintro ⟨hkey, front, back, hfunctions, -⟩
    rw [hfunctions]
    exact ⟨List.mem_append_right front List.mem_cons_self, by simpa using hkey⟩
  · rintro ⟨hf, hkey⟩
    obtain ⟨front, back, hfunctions⟩ := List.append_of_mem hf
    refine ⟨by simpa using hkey, front, back, hfunctions, fun g hg => ?_⟩
    have hdistinct := r.distinct
    rw [hfunctions, List.map_append, List.map_cons, List.nodup_append] at hdistinct
    have hne := hdistinct.2.2 g.key (List.mem_map_of_mem hg) f.key List.mem_cons_self
    simpa [hkey] using hne

/-- An erased name is not found, and all other names are as before. -/
theorem find?_erase (r : Registry) (erased name : String) :
    (r.erase erased).find? name =
      if Text.lower erased = Text.lower name then none else r.find? name := by
  simp only [find?, erase, List.find?_filter]
  by_cases h : Text.lower erased = Text.lower name
  · simp [h, List.find?_eq_none]
  · simp only [h, if_false]
    congr 1
    funext g
    by_cases hg : g.key = Text.lower name
    · simp [hg, Ne.symm h]
    · simp [hg]

/-- What was registered last under a key is found there, and nothing else changed. -/
theorem find?_register (r : Registry) (f : SqlFunction) (name : String) :
    (r.register f).find? name = if f.key = Text.lower name then some f else r.find? name := by
  by_cases h : f.key = Text.lower name
  · simp [find?, register, h]
  · have hname : Text.lower f.name ≠ Text.lower name := h
    have herase := find?_erase r f.name name
    rw [if_neg hname] at herase
    simpa [find?, register, h] using herase

end Registry

end SqlBackend
