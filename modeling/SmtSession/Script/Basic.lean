import SmtSession.Fault
import SmtSession.Script.Scopes

/-!
# Scripts

A script under construction: the text written so far, in its scopes, and what
the writer remembers about it. Three tables are kept. The declarations say
which symbols exist; the sort names save rendering a sort twice; the
datatypes say which tuple sorts the script has introduced. Closing a scope
forgets text but nothing in the tables: a symbol stays declared and a
datatype stays introduced.

Every table is in order of arrival, and none loses an entry before the whole
script is started over.

## Main definitions

* `Script`: A script under construction.
* `Script.start`: The script with nothing but its preamble.
* `Script.text`, `Script.depth`: The script's text and its open scopes.
* `Rendering`: Operations on a script that may fault. What an operation has
  written before a fault stays written.

## Theorems

* `Script.text_write`, `Script.text_introduce`: What writing adds to the text.
* `Script.text_declare`, `Script.text_nameSort`: The tables are not part of it.
-/

namespace SmtSession

/-- A script under construction. -/
structure Script where
  /-- The limit, in milliseconds, that the preamble asks solvers to respect. -/
  timeout : Option WritableInt
  /-- The text, scope by scope. -/
  scopes : Scopes
  /-- The declared symbols with their sorts. -/
  declared : List (String × SmtSort)
  /-- The sorts rendered so far with their names. -/
  sortNames : List (SmtSort × String)
  /-- The introduced datatypes: quoted name and declaration. -/
  datatypes : List (String × String)
deriving Repr

namespace Script

/-- Append a line to the innermost scope. -/
def write (line : String) (s : Script) : Script :=
  { s with scopes := s.scopes.write line }

/-- The lines that every script starts with. -/
def preamble (timeout : Option WritableInt) : List String :=
  ["(set-option :produce-models true)"]
    ++ (timeout.map fun limit => "(set-option :timeout " ++ limit.text ++ ")").toList
    ++ ["(set-logic ALL)"]

/-- The script with nothing but its preamble, in a single scope. -/
def start (timeout : Option WritableInt) : Script :=
  (preamble timeout).foldl (fun s line => s.write line)
    { timeout, scopes := .empty, declared := [], sortNames := [], datatypes := [] }

/-- The text of the script, outermost scope first. -/
def text (s : Script) : String := s.scopes.text

/-- The number of open scopes. -/
def depth (s : Script) : Nat := s.scopes.depth

/-- Whether a symbol is declared. -/
def declares (s : Script) (name : String) : Bool :=
  s.declared.any fun entry => entry.1 == name

/-- Enter a symbol into the declarations. -/
def declare (name : String) (sort : SmtSort) (s : Script) : Script :=
  { s with declared := s.declared ++ [(name, sort)] }

/-- The name under which a sort was rendered before. -/
def sortName? (s : Script) (sort : SmtSort) : Option String :=
  s.sortNames.lookup sort

/-- Remember the name of a sort. -/
def nameSort (sort : SmtSort) (name : String) (s : Script) : Script :=
  { s with sortNames := s.sortNames ++ [(sort, name)] }

/-- Whether a datatype of a quoted name was introduced. -/
def hasDatatype (s : Script) (quotedName : String) : Bool :=
  s.datatypes.any fun entry => entry.1 == quotedName

/-- Introduce a datatype: remember it and write its declaration. -/
def introduce (quotedName declaration : String) (s : Script) : Script :=
  { s with datatypes := s.datatypes ++ [(quotedName, declaration)] }.write declaration

@[simp] theorem text_write (line : String) (s : Script) :
    (s.write line).text = s.text ++ line ++ "\n" :=
  Scopes.text_write line s.scopes

@[simp] theorem depth_write (line : String) (s : Script) : (s.write line).depth = s.depth := rfl

@[simp] theorem text_declare (name : String) (sort : SmtSort) (s : Script) :
    (s.declare name sort).text = s.text := rfl

@[simp] theorem text_nameSort (sort : SmtSort) (name : String) (s : Script) :
    (s.nameSort sort name).text = s.text := rfl

@[simp] theorem text_introduce (quotedName declaration : String) (s : Script) :
    (s.introduce quotedName declaration).text = s.text ++ declaration ++ "\n" :=
  text_write declaration _

end Script

/-- Operations on a script that answer or fault, and in both cases leave a
    script behind. -/
abbrev Rendering := EStateM Fault Script

namespace Rendering

/-- Fault when a pure computation does. -/
def lift {α : Type} : Except Fault α → Rendering α
  | .ok value => pure value
  | .error fault => throw fault

/-- Fault unless a condition holds. -/
def ensure (condition : Bool) (fault : Fault) : Rendering Unit :=
  if condition then pure () else throw fault

end Rendering

end SmtSession
