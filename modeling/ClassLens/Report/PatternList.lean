/-
The list of a catalogue's patterns, as JSON.
-/
import ClassLens.Pattern.Catalog
import ClassLens.Report.Json

set_option autoImplicit false

namespace ClassLens.Report

/-- A pattern without its predicate. -/
def patternToJson (p : Pattern) : Json :=
  .obj [("name", .str p.name), ("category", .str p.category.label),
    ("description", .str p.description), ("simple", .bool p.isSimple)]

/-- The patterns of a catalogue in order. -/
def patternList (c : Catalog) : Json :=
  .list (c.patterns.map patternToJson)

end ClassLens.Report
