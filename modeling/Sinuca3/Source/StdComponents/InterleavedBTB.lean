import Mathlib.Logic.Function.Basic
import Sinuca3.Source.Engine.DefaultPackets
import Sinuca3.Source.Engine.Serving
import Sinuca3.Source.Utils.BimodalCounter

/-!
# Interleaved branch target buffer

`predictors/interleavedBTB.cpp`. An entry is for a block of instructions and has a bank
for each of them. Arrays are functions of the index; of the entries and the banks there
are as many as `numEntries` and `numBanks` say.
-/
namespace Sinuca3.Source

def maxInterleavingFactor : Nat := 16

inductive BranchType where
  | none | conditional | unconditional
  deriving DecidableEq

def branchTypeFromSinucaBranch (branch : Branch) : BranchType :=
  if branch = .cond then .conditional else .unconditional

/-- Of the bits, as many as there are instructions in a block are set. -/
structure BTBResponse where
  instruction : StaticInstructionInfo := {}
  numberOfInstructions : Nat := 0
  target : BitVec 64 := 0
  validBits : List Bool := []
  interleavingBits : Nat := 0
  deriving DecidableEq

/-- The tag and the member of the union it goes with. -/
inductive BTBPacket where
  | requestQuery (instruction : StaticInstructionInfo)
  | requestAddEntry (instruction : StaticInstructionInfo) (target : BitVec 64)
  | requestUpdate (instruction : StaticInstructionInfo) (branchState : Bool)
  | responseBTBHit (response : BTBResponse)
  | responseBTBMiss (response : BTBResponse)
  deriving DecidableEq

instance : Inhabited BTBPacket := ⟨.requestQuery {}⟩

abbrev BTBConnection : Type := Connection BTBPacket BTBPacket

structure BTBEntry where
  valid : Bool := false
  numBanks : Nat
  entryTag : BitVec 64 := 0
  targetArray : Nat → BitVec 64 := fun _ => 0
  branchTypes : Nat → BranchType := fun _ => .none
  predictorsArray : Nat → BimodalCounter := fun _ => {}

namespace BTBEntry

def newEntry (e : BTBEntry) (tag : BitVec 64) (bank : Nat) (target : BitVec 64)
    (instruction : StaticInstructionInfo) : BTBEntry :=
  if bank ≥ e.numBanks then e
  else
    { e with
      valid := true
      entryTag := tag
      targetArray := Function.update e.targetArray bank target
      branchTypes :=
        Function.update e.branchTypes bank (branchTypeFromSinucaBranch instruction.branchType) }

def updateEntry (e : BTBEntry) (bank : Nat) (branchState : Bool) : BTBEntry :=
  if bank ≥ e.numBanks ∨ e.entryTag = 0 then e
  else
    { e with
      predictorsArray := Function.update e.predictorsArray bank
        ((e.predictorsArray bank).updatePrediction branchState) }

def getTargetAddress (e : BTBEntry) (bank : Nat) : BitVec 64 :=
  if bank < e.numBanks then e.targetArray bank else 0

def getBranchType (e : BTBEntry) (bank : Nat) : BranchType :=
  if bank < e.numBanks then e.branchTypes bank else .none

def getPrediction (e : BTBEntry) (bank : Nat) : Bool :=
  if bank < e.numBanks then (e.predictorsArray bank).getPrediction else false

/-- The test on a bank in the loop of `Query`. -/
def redirects (e : BTBEntry) (bank : Nat) : Bool :=
  e.getBranchType bank = .unconditional || e.getPrediction bank

end BTBEntry

structure BranchTargetBuffer where
  btb : Nat → BTBEntry
  /-- The connection to `sendTo`, if one is configured. -/
  sendTo : Option BTBConnection := none
  interleavingFactor : Nat
  numEntries : Nat
  interleavingBits : Nat
  entriesBits : Nat
  btbHits : Nat := 0
  totalBranch : Nat := 0
  queries : Nat := 0
  replacements : Nat := 0

namespace BranchTargetBuffer

/-- `Configure`, once the parameters are read and have the right types. The number of
entries is cut to an `unsigned int`, and the logarithm of zero comes out as zero. -/
def configure (interleavingFactor numberOfEntries : Int) (sendTo : Bool) :
    Except (String × String) BranchTargetBuffer :=
  if interleavingFactor ≤ 0 then .error ("interleavingFactor", "is not > 0.")
  else if interleavingFactor > maxInterleavingFactor then
    .error ("interleavingFactor", "is > MAX_INTERLEAVING_FACTOR")
  else if numberOfEntries ≤ 0 then .error ("numberOfEntries", "is not > 0.")
  else
    let interleavingBits := interleavingFactor.toNat.log2
    let entriesBits := (BitVec.ofInt 32 numberOfEntries).toNat.log2
    .ok {
      btb := fun _ => { numBanks := 1 <<< interleavingBits }
      sendTo := if sendTo then some (.connect 0) else none
      interleavingFactor := 1 <<< interleavingBits
      numEntries := 1 <<< entriesBits
      interleavingBits
      entriesBits }

/-- No block holds anything at first. -/
theorem configure_eq {interleavingFactor numberOfEntries : Int} {sendTo : Bool}
    {b : BranchTargetBuffer}
    (configured : configure interleavingFactor numberOfEntries sendTo = .ok b) :
    b.interleavingFactor = 2 ^ b.interleavingBits ∧ b.interleavingBits < 31 ∧
      ∀ index, b.btb index = { numBanks := b.interleavingFactor } := by
  unfold configure at configured
  split at configured
  · cases configured
  split at configured
  · cases configured
  rename_i positive limited
  split at configured
  · cases configured
  cases configured
  have small : interleavingFactor.toNat < 2 ^ 31 := by
    unfold maxInterleavingFactor at limited
    omega
  exact ⟨Nat.one_shiftLeft _, (Nat.log2_lt (by omega)).mpr small, fun _ => rfl⟩

/-- The mask of so many bits, computed as an `int`. -/
def mask (bits : Nat) : BitVec 64 := ((1#32 <<< bits) - 1#32).signExtend 64

def calculateBank (b : BranchTargetBuffer) (address : BitVec 64) : Nat :=
  (address &&& mask b.interleavingBits).toNat

def calculateTag (b : BranchTargetBuffer) (address : BitVec 64) : BitVec 64 :=
  address >>> b.interleavingBits

def calculateIndex (b : BranchTargetBuffer) (address : BitVec 64) : Nat :=
  ((address >>> b.interleavingBits) &&& mask b.entriesBits).toNat

def registerNewBranch (b : BranchTargetBuffer) (instruction : StaticInstructionInfo)
    (target : BitVec 64) : BranchTargetBuffer :=
  let index := b.calculateIndex instruction.instAddress
  let tag := b.calculateTag instruction.instAddress
  let bank := b.calculateBank instruction.instAddress
  { b with
    replacements := if (b.btb index).valid then b.replacements + 1 else b.replacements
    btb := Function.update b.btb index ((b.btb index).newEntry tag bank target instruction) }

def updateBranch (b : BranchTargetBuffer) (instruction : StaticInstructionInfo)
    (branchState : Bool) : BranchTargetBuffer :=
  let index := b.calculateIndex instruction.instAddress
  let bank := b.calculateBank instruction.instAddress
  { b with btb := Function.update b.btb index ((b.btb index).updateEntry bank branchState) }

/-- An iteration of the loop of a hit over the banks: whether a branch is taken, the
target and the bits so far. -/
def checkBank (e : BTBEntry) (s : Bool × BitVec 64 × List Bool) (i : Nat) :
    Bool × BitVec 64 × List Bool :=
  if s.1 then (true, s.2.1, s.2.2 ++ [false])
  else if e.redirects i then (true, e.getTargetAddress i, s.2.2 ++ [true])
  else (false, s.2.1, s.2.2 ++ [true])

/-- The target of the first lines, which depends on the size of the instruction when
there is no interleaving, is overwritten in both cases. -/
def query (b : BranchTargetBuffer) (instruction : StaticInstructionInfo) :
    BranchTargetBuffer × BTBPacket :=
  let index := b.calculateIndex instruction.instAddress
  let tag := b.calculateTag instruction.instAddress
  let sequential := instruction.instAddress + BitVec.ofNat 64 b.interleavingFactor
  let response : BTBResponse :=
    { instruction
      numberOfInstructions := b.interleavingFactor
      interleavingBits := b.interleavingBits }
  let b := { b with queries := b.queries + 1 }
  if (b.btb index).entryTag = tag then
    let checked := (List.range b.interleavingFactor).foldl (checkBank (b.btb index))
      (false, sequential, [])
    ({ b with btbHits := b.btbHits + 1 },
      .responseBTBHit { response with target := checked.2.1, validBits := checked.2.2 })
  else
    (b, .responseBTBMiss { response with
      target := sequential
      validBits := List.replicate b.interleavingFactor true })

/-- The body of the loop of `Clock`. Responses and what else arrives are warned about. -/
def respond (b : BranchTargetBuffer) : BTBPacket → BranchTargetBuffer × Option BTBPacket
  | .requestQuery instruction =>
    let asked := b.query instruction
    ({ asked.1 with
        sendTo := asked.1.sendTo.map fun c => (c.sendRequest asked.2).getD c },
      some asked.2)
  | .requestAddEntry instruction target =>
    (registerNewBranch { b with totalBranch := b.totalBranch + 1 } instruction target, none)
  | .requestUpdate instruction branchState => (b.updateBranch instruction branchState, none)
  | _ => (b, none)

def clock {n : Nat} : ComponentClock BranchTargetBuffer n BTBPacket BTBPacket := clockAll respond

/-- The first bank at which a query of the entry would be redirected. -/
def takenBank (b : BranchTargetBuffer) (e : BTBEntry) : Option Nat :=
  (List.range b.interleavingFactor).find? e.redirects

/-- The loop stops looking at the first bank that redirects. -/
theorem checkBank_range (e : BTBEntry) (sequential : BitVec 64) (n : Nat) :
    (List.range n).foldl (checkBank e) (false, sequential, []) =
      match (List.range n).find? e.redirects with
      | none => (false, sequential, List.replicate n true)
      | some bank => (true, e.getTargetAddress bank, (List.range n).map (· ≤ bank)) := by
  induction n with
  | zero => rfl
  | succ n ih =>
    rw [List.range_succ, List.foldl_append, ih, List.find?_append]
    rcases found : (List.range n).find? e.redirects with _ | bank
    · by_cases redirects : e.redirects n
      · have before : (List.range n).map (fun i => decide (i ≤ n)) = List.replicate n true := by
          rw [List.map_eq_replicate_iff.mpr]
          · rw [List.length_range]
          · intro i inside
            exact decide_eq_true (Nat.le_of_lt (List.mem_range.mp inside))
        simp [checkBank, redirects, before]
      · simp [checkBank, redirects, List.replicate_succ']
    · have inside : bank < n := List.mem_range.mp (List.mem_of_find?_eq_some found)
      simp [checkBank, inside]

end BranchTargetBuffer

end Sinuca3.Source
