import Mathlib.Algebra.Group.Nat.Defs
import Sinuca3.Lib.Machine
import Sinuca3.Guarantees.BranchRedirects
import Sinuca3.Source.StdComponents.BoomFetchCycle

/-!
# Branches on full addresses

`ClockCheckBTB` keeps the address of the next instruction in an `unsigned int`. Its checks
of the responses are compared with those on all 64 bits.
-/
namespace Sinuca3.Guarantees
open Sinuca3.Source Lib

/-- An address as `ClockCheckBTB` compares it. -/
def truncated (address : BitVec 64) : BitVec 64 := (address.setWidth 32).setWidth 64

theorem truncated_eq_self_iff (address : BitVec 64) :
    truncated address = address ↔ address.toNat < 2 ^ 32 := by
  unfold truncated
  constructor
  · intro same
    rw [← same, BitVec.toNat_setWidth_of_le (by decide)]
    exact (address.setWidth 32).isLt
  · intro low
    apply BitVec.eq_of_toNat_eq
    rw [BitVec.toNat_setWidth_of_le (by decide), BitVec.toNat_setWidth, Nat.mod_eq_of_lt low]

/-- Comparing the low half gives the answer of the whole for small addresses, and where
both halves of the comparison say different. -/
theorem truncated_ne_iff (address other : BitVec 64) :
    (truncated address ≠ other ↔ address ≠ other) ↔
      address.toNat < 2 ^ 32 ∨ (truncated address ≠ other ∧ address ≠ other) := by
  rw [← truncated_eq_self_iff]
  by_cases small : truncated address = address
  · simp [small]
  · constructor
    · intro agree
      right
      by_contra same
      rw [not_and_or, not_not, not_not] at same
      rcases same with low | whole
      · exact agree.not.mp (not_not.mpr low) fun whole => small (low.trans whole.symm)
      · exact agree.not.mpr (not_not.mpr whole) fun low => small (low.trans whole.symm)
    · rintro (low | differ)
      · exact absurd low small
      · exact iff_of_true differ.1 differ.2

/-- The branch in the entry that the next response of the buffer is for. -/
def answeredBranch (f : BoomFetch) : InstructionPacket :=
  (f.fetchBuffer (f.skipWhile (!·.awaitsBTB) f.fetchSize 0)).instruction

/-- The address behind an instruction. -/
def fallThrough (instruction : InstructionPacket) : BitVec 64 :=
  instruction.staticInfo.instAddress + instruction.staticInfo.instSize

/-- The loop of `ClockCheckBTB` response by response, with what each check says. -/
def checkStep (f : BoomFetch) (response : BTBPacket) : BoomFetch × List Bool :=
  let checked := f.checkBTB [response]
  (checked.2, [checked.1])

theorem checkBTB_cons (f : BoomFetch) (response : BTBPacket) (responses : List BTBPacket) :
    f.checkBTB (response :: responses) =
      ((f.checkBTB [response]).1 || ((f.checkBTB [response]).2.checkBTB responses).1,
        ((f.checkBTB [response]).2.checkBTB responses).2) := by
  have one : f.checkBTB [response] = (_ || false, _) := rfl
  rw [one, Bool.or_false]
  rfl

/-- What one check says and sends. -/
theorem checkBTB_single (f : BoomFetch) (response : BTBPacket) :
    (f.checkBTB [response]).1 =
        decide (truncated (answeredBranch f).nextInstruction ≠ BoomFetch.btbTarget response) ∧
      (f.checkBTB [response]).2.btbConnection =
        if f.btbConnection.isConnectionAvailable then
          (f.btbConnection.sendRequest (BoomFetch.btbRequest (answeredBranch f)
            ((answeredBranch f).nextInstruction.setWidth 32) response)).getD f.btbConnection
        else f.btbConnection := by
  unfold BoomFetch.checkBTB BoomFetch.checkBTB
  dsimp only
  rw [BoomFetch.setFlags_instruction]
  constructor
  · rw [Bool.or_false]
    rfl
  · rfl

/-- The check of one response as it is meant. -/
structure ChecksFullAddress (f : BoomFetch) (response : BTBPacket) : Prop where
  mismatch : (f.checkBTB [response]).1 = true ↔
    (answeredBranch f).nextInstruction ≠ BoomFetch.btbTarget response
  update : ∀ hit, response = .responseBTBHit hit → f.btbConnection.isConnectionAvailable = true →
    (f.checkBTB [response]).2.btbConnection.sentRequests = f.btbConnection.sentRequests ++
      [.requestUpdate (answeredBranch f).staticInfo
        ((answeredBranch f).nextInstruction ≠ fallThrough (answeredBranch f))]

/-- Neither an address nor its low half is the other. -/
def DiffersInFull (address other : BitVec 64) : Prop :=
  truncated address ≠ other ∧ address ≠ other

/-- Responses to which the low half of the next address gives the right check. -/
def LowHalfTells (f : BoomFetch) (response : BTBPacket) : Prop :=
  (answeredBranch f).nextInstruction.toNat < 2 ^ 32 ∨
    (DiffersInFull (answeredBranch f).nextInstruction (BoomFetch.btbTarget response) ∧
      ∀ hit, response = .responseBTBHit hit → f.btbConnection.isConnectionAvailable = true →
        DiffersInFull (answeredBranch f).nextInstruction (fallThrough (answeredBranch f)))

/-- The update of a hit says what the truncated address says. -/
theorem update_iff_truncated (f : BoomFetch) (hit : BTBResponse)
    (available : f.btbConnection.isConnectionAvailable = true) :
    (f.checkBTB [.responseBTBHit hit]).2.btbConnection.sentRequests =
        f.btbConnection.sentRequests ++ [.requestUpdate (answeredBranch f).staticInfo
          ((answeredBranch f).nextInstruction ≠ fallThrough (answeredBranch f))] ↔
      (truncated (answeredBranch f).nextInstruction ≠ fallThrough (answeredBranch f) ↔
        (answeredBranch f).nextInstruction ≠ fallThrough (answeredBranch f)) := by
  rw [(checkBTB_single f _).2, if_pos available]
  obtain ⟨c, sent, views⟩ := f.btbConnection.sendRequest_of_available
    (BoomFetch.btbRequest (answeredBranch f)
      ((answeredBranch f).nextInstruction.setWidth 32) (.responseBTBHit hit)) available
  rw [sent, Option.getD_some, views.sentRequests, List.append_cancel_left_eq]
  simp only [BoomFetch.btbRequest, List.cons.injEq, and_true, BTBPacket.requestUpdate.injEq,
    true_and]
  rw [decide_eq_decide]
  rfl

/-- One response. -/
theorem checksFullAddress_iff (f : BoomFetch) (response : BTBPacket) :
    ChecksFullAddress f response ↔ LowHalfTells f response := by
  have mismatch : ((f.checkBTB [response]).1 = true ↔
      (answeredBranch f).nextInstruction ≠ BoomFetch.btbTarget response) ↔
      (answeredBranch f).nextInstruction.toNat < 2 ^ 32 ∨
        DiffersInFull (answeredBranch f).nextInstruction (BoomFetch.btbTarget response) := by
    rw [(checkBTB_single f response).1, decide_eq_true_eq]
    exact truncated_ne_iff _ _
  constructor
  · rintro ⟨reported, update⟩
    rcases mismatch.mp reported with low | differs
    · exact .inl low
    · by_cases low : (answeredBranch f).nextInstruction.toNat < 2 ^ 32
      · exact .inl low
      · refine .inr ⟨differs, ?_⟩
        rintro hit rfl available
        have agree := (update_iff_truncated f hit available).mp (update hit rfl available)
        exact ((truncated_ne_iff _ _).mp agree).resolve_left low
  · intro tells
    refine ⟨mismatch.mpr (tells.imp_right And.left), ?_⟩
    rintro hit rfl available
    rw [update_iff_truncated f hit available]
    exact (truncated_ne_iff _ _).mpr (tells.imp_right fun both => both.2 hit rfl available)

/-- For every boom fetch, whatever instructions it holds: all responses of the branch target
buffer in a clock are checked on full addresses if and only if, for each, the address of
the next instruction has 32 bits, or neither it nor its low half is the target or, where an
update follows, the address behind the branch. -/
theorem btb_checks_full_addresses (f : BoomFetch) :
    Machine.Meets checkStep ChecksFullAddress f.clockedBTB.2 f.clockedBTB.1 ↔
      Machine.Meets checkStep LowHalfTells f.clockedBTB.2 f.clockedBTB.1 :=
  Machine.meets_congr checkStep ChecksFullAddress LowHalfTells (fun _ => True)
    (fun f response _ => checksFullAddress_iff f response) (fun _ _ _ _ => trivial) _ trivial _

/-- A conditional branch of two octets at an address beyond 32 bits, not taken. -/
def highBranch : InstructionPacket :=
  { staticInfo := { instAddress := 0x555555555000, instSize := 2, branchType := .cond }
    nextInstruction := 0x555555555002 }

/-- It has been added to the buffer, and asked about in the cycle before. -/
def awaitingHighBranch : BoomFetch where
  btb := (twoBanks.respond (.requestAddEntry highBranch.staticInfo highBranch.nextInstruction)).1
  btbConnection := (((.connect 4 : BTBConnection).sendRequest
    (.requestQuery highBranch.staticInfo)).getD (.connect 4)).swapBuffers
  ras := { size := 1, buffer := Vector.replicate 1 0, top := ⟨0, Nat.zero_lt_one⟩ }
  rasConnection := .connect 4
  fetchBuffer := Function.update (fun _ => {}) 0
    { instruction := highBranch, flags := { sentToMemory := true, sentToBTB := true } }
  fetchBufferUsage := 1
  fetchSize := 4

/-- The hit has the right target, and is taken for wrong and the branch for taken. -/
theorem high_branch_taken_for_wrong :
    ¬ Machine.Meets checkStep ChecksFullAddress awaitingHighBranch.clockedBTB.2
      awaitingHighBranch.clockedBTB.1 := by
  intro checks
  have hit : awaitingHighBranch.clockedBTB.1 = [.responseBTBHit {
      instruction := highBranch.staticInfo
      numberOfInstructions := 2
      target := highBranch.nextInstruction
      validBits := [true, false]
      interleavingBits := 1 }] := by
    decide +kernel
  rw [hit] at checks
  have mismatch := checks.1.mismatch.mp (by decide +kernel)
  revert mismatch
  decide +kernel

end Sinuca3.Guarantees
