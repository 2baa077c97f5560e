import EntityDiagram.Schema
import EntityDiagram.Network.DepthFirst

/-! Cycles of generalizations. An edge leads from a generic entity to each of its categories;
several generalizations of one generic entity are merged. -/
namespace EntityDiagram.Schema

/-- All categories of a generic entity, in order of declaration. -/
def categoriesOf (s : Schema) (generic : String) : List String :=
  (s.generalizations.filter (·.generic = generic)).flatMap (·.categories)

/-- Every name that a generalization mentions. -/
def generalizationNames (s : Schema) : List String :=
  s.generalizations.flatMap fun g => g.generic :: g.categories

/-- The first cycle that a search from the generic entities meets, its first name repeated at the
end. -/
def cycle? (s : Schema) : Option (List String) :=
  let search := DepthFirst.run s.generalizationNames s.categoriesOf
    (s.generalizations.map (·.generic))
  search.closings.head?.map Closing.cycle

@[simp] theorem cycle?_empty : empty.cycle? = none := rfl

end EntityDiagram.Schema
