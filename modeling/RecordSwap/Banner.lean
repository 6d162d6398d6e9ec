/-!
# Banners

The comment at the top of the generated files: who made them, from what, and when.

* `Provenance`: the values of a banner.
* `sortedNames`: names in the order of their code points.
* `Provenance.banner`: the standard banner, a C comment and a blank line.
* `TemplateEngine`: whatever renders the template of another banner. `Provenance.bannerBy?` gives it
  the values of the banner by name.
-/

namespace RecordSwap

/-- Who made the files, from what, and when. -/
structure Provenance where
  /-- Date and time. -/
  created : String := ""
  user : String := ""
  project : String := ""
  /-- Name of the program. -/
  script : String := "typeswap"
  /-- Names of the record tables. -/
  tables : List String := []
  /-- Table groups that the run covers. -/
  groups : List String := []
  deriving DecidableEq, Repr

def sortedNames (names : List String) : List String := names.mergeSort fun a b => decide (a ≤ b)

namespace Provenance

def nameLines (names : List String) : String := ",\n             ".intercalate (sortedNames names)

/-- A line for a list of names; an empty list has none. -/
def listLine (label : String) (names : List String) : String :=
  if names.isEmpty then "" else "   " ++ label ++ ": " ++ nameLines names ++ "\n"

def banner (p : Provenance) : String :=
  s!"/* Created : {p.created}\n   User    : {p.user}\n   Project : {p.project}\n" ++
  s!"   Script  : {p.script}\n" ++
  listLine "Table(s)" p.tables ++ listLine "Group(s)" p.groups ++ "*/\n\n"

/-- Fills in the tables and groups where none are given. -/
def withDefaults (p : Provenance) (tables groups : List String) : Provenance :=
  { p with
    tables := if p.tables.isEmpty then tables else p.tables
    groups := if p.groups.isEmpty then groups else p.groups }

end Provenance

/-! ## Templates -/

/-- A value that a template refers to by its name. -/
inductive TemplateValue where
  | text (s : String)
  | list (items : List String)
  deriving DecidableEq, Repr

/-- The renderer of templates, which is no part of the program. It goes by the template and the
values alone, and may refuse any template. -/
class TemplateEngine where
  /-- Text of a template, if it can be rendered. -/
  render? (template : String) (context : List (String × TemplateValue)) : Option String

namespace Provenance

/-- The values of a banner under their names in templates. -/
def context (p : Provenance) : List (String × TemplateValue) := [
  ("created", .text p.created), ("user", .text p.user), ("project", .text p.project),
  ("script", .text p.script), ("tables", .list (sortedNames p.tables)),
  ("groups", .list (sortedNames p.groups))]

/-- The banner that a template gives, or the standard one. -/
def bannerBy? [TemplateEngine] (p : Provenance) : Option String → Option String
  | none => some p.banner
  | some template => TemplateEngine.render? template p.context

end Provenance

end RecordSwap
