import CrystalModel.Energy.Group
import CrystalModel.Energy.Pair
import CrystalModel.Reference.Validation

/-! # Building the energies

From the classes of a structure to their tables. -/
namespace CrystalModel.Energetics

def links (classes : List (List Nat)) (models : Nat) : List (Option Nat) :=
  (List.range models).map fun model => classes.findIdx? (·.contains model)

/-- One table per class, made for the first model of the class. -/
def build (r : ReferenceData) (config : Config) (s : CrystalStructure) :
    Except BuildError Energetics := do
  r.checkPlaces
  let pairTables ← (s.pairClasses.filterMap (s.pairModels[·]?)).mapM (pairEnergies r config)
  let groupTables ← (s.groupClasses.filterMap (s.groupModels[·]?)).mapM (groupEnergies r config s)
  return {
    pairTables
    groupTables
    pairLinks := links s.pairMembers s.pairModels.length
    groupLinks := links s.groupMembers s.groupModels.length }

end CrystalModel.Energetics
