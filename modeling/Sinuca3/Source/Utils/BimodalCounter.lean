import Mathlib.Data.Nat.Notation

/-!
# Bimodal counter

`utils/bimodal_counter.cpp`. Only the two lowest bits of `prediction` are ever in use.
-/
namespace Sinuca3.Source

/-- What the constructor sets: the weaker of the predictions for taken. -/
def initialPrediction : Fin 4 := 2

structure BimodalCounter where
  prediction : Fin 4 := initialPrediction
  deriving DecidableEq

namespace BimodalCounter

instance : Inhabited BimodalCounter := ⟨{}⟩

def getPrediction (c : BimodalCounter) : Bool := 2 ≤ c.prediction.val

def updatePrediction (c : BimodalCounter) (wasBranchTaken : Bool) : BimodalCounter :=
  if more : wasBranchTaken = true ∧ c.prediction.val < 3 then
    ⟨⟨c.prediction.val + 1, by omega⟩⟩
  else if wasBranchTaken = false ∧ 0 < c.prediction.val then
    ⟨⟨c.prediction.val - 1, by omega⟩⟩
  else c

end BimodalCounter

end Sinuca3.Source
