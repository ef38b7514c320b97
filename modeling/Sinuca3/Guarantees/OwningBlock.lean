import Sinuca3.Guarantees.BranchRedirects

/-!
# Blocks that own their entries

Blocks that share an index of the branch target buffer take its entry from each other. The
test of a query is on the tag, zero in an entry never used; that of an update is only on
the tag being zero.
-/
namespace Sinuca3.Guarantees
open Sinuca3.Source Lib

section Request

variable (b : BranchTargetBuffer) (r : Registrations)

/-- The last branch added at the index of an instruction was of its block. -/
def Owns (i : StaticInstructionInfo) : Prop :=
  (r (b.calculateIndex i.instAddress)).map RegisteredBlock.tag =
    some (b.calculateTag i.instAddress)

def counterAt (index bank : Nat) : BimodalCounter := (b.btb index).predictorsArray bank

/-- What a request may do: a query hits exactly where the block owns the entry, and an
update changes a counter only there, that of its own bank. -/
def ActsOnOwner : BTBPacket → Prop
  | .requestQuery i => (∃ response, (b.query i).2 = .responseBTBHit response) ↔ Owns b r i
  | .requestUpdate i branchState => ∀ index bank,
    counterAt (b.updateBranch i branchState) index bank ≠ counterAt b index bank →
      Owns b r i ∧ index = b.calculateIndex i.instAddress ∧
        bank = b.calculateBank i.instAddress
  | _ => True

/-- A counter that has no further to go. -/
def Saturated (c : BimodalCounter) (branchState : Bool) : Prop :=
  c.prediction.val = if branchState then 3 else 0

/-- A query is for a block with a tag, or of an entry in use; an update comes to an entry
of tag zero or of its own block, or finds its counter saturated. -/
def MeetsOwner : BTBPacket → Prop
  | .requestQuery i => b.calculateTag i.instAddress ≠ 0 ∨ (entryOf b i).valid = true
  | .requestUpdate i branchState =>
    (entryOf b i).entryTag = 0 ∨ Owns b r i ∨
      Saturated ((entryOf b i).predictorsArray (b.calculateBank i.instAddress)) branchState
  | _ => True

end Request

theorem updatePrediction_eq_self_iff (c : BimodalCounter) (branchState : Bool) :
    c.updatePrediction branchState = c ↔ Saturated c branchState := by
  obtain ⟨prediction⟩ := c
  unfold Saturated BimodalCounter.updatePrediction
  revert prediction branchState
  decide

/-- An entry is in use if a branch has been added at its index, and else has no tag. -/
structure Used (b : BranchTargetBuffer) (r : Registrations) : Prop where
  valid : ∀ index, (b.btb index).valid = (r index).isSome
  unused : ∀ index, r index = none → (b.btb index).entryTag = 0

section Step

variable {sizes b : BranchTargetBuffer} {r : Registrations}

/-- Adding an entry takes it. -/
theorem Used.add (used : Used b r) (holds : HoldsRegistrations sizes b r)
    (i : StaticInstructionInfo) (target : BitVec 64) :
    Used (b.registerNewBranch i target) (register sizes r (.requestAddEntry i target)) := by
  obtain ⟨index, tag, bank⟩ := holds.calculate i.instAddress
  have inside : ¬ b.calculateBank i.instAddress ≥
      (b.btb (b.calculateIndex i.instAddress)).numBanks := by
    rw [holds.banks]
    exact Nat.not_le.mpr (holds.bank_lt _)
  unfold register BranchTargetBuffer.registerNewBranch BTBEntry.newEntry Registrations.add
  dsimp only
  rw [index, tag, bank, if_neg inside]
  constructor <;> intro other <;> by_cases same : other = b.calculateIndex i.instAddress
  · subst same
    simp
  · simpa [same] using used.valid other
  · subst same
    simp
  · simpa [same] using used.unused other

theorem updateEntry_frame (e : BTBEntry) (bank : Nat) (branchState : Bool) :
    (e.updateEntry bank branchState).valid = e.valid ∧
      (e.updateEntry bank branchState).entryTag = e.entryTag := by
  unfold BTBEntry.updateEntry
  split <;> exact ⟨rfl, rfl⟩

theorem Used.update (used : Used b r) (i : StaticInstructionInfo) (branchState : Bool) :
    Used (b.updateBranch i branchState) r := by
  have same : ∀ other, ((b.updateBranch i branchState).btb other).valid = (b.btb other).valid ∧
      ((b.updateBranch i branchState).btb other).entryTag = (b.btb other).entryTag := by
    intro other
    unfold BranchTargetBuffer.updateBranch
    dsimp only
    by_cases here : other = b.calculateIndex i.instAddress
    · subst here
      rw [Function.update_self]
      exact updateEntry_frame _ _ _
    · rw [Function.update_of_ne here]
      exact ⟨rfl, rfl⟩
  exact ⟨fun other => (same other).1.trans (used.valid other),
    fun other none => (same other).2.trans (used.unused other none)⟩

theorem Used.respond (used : Used b r) (holds : HoldsRegistrations sizes b r)
    (packet : BTBPacket) : Used (b.respond packet).1 (register sizes r packet) := by
  cases packet with
  | requestQuery i =>
    unfold BranchTargetBuffer.respond BranchTargetBuffer.query
    dsimp only
    split <;> exact ⟨used.valid, used.unused⟩
  | requestAddEntry i target =>
    obtain ⟨valid, unused⟩ := used.add holds i target
    exact ⟨valid, unused⟩
  | requestUpdate i branchState => exact used.update i branchState
  | responseBTBHit response => exact used
  | responseBTBMiss response => exact used

theorem hit_iff (i : StaticInstructionInfo) :
    (∃ response, (b.query i).2 = .responseBTBHit response) ↔ Hits b i := by
  constructor
  · rintro ⟨response, hit⟩
    by_contra misses
    obtain ⟨response', miss, _⟩ := query_of_miss misses
    rw [hit] at miss
    cases miss
  · intro hits
    obtain ⟨response, hit, _⟩ := query_of_hit hits
    exact ⟨response, hit⟩

/-- A query hits for the owner, and in an entry never used for the block of tag zero. -/
theorem query_iff (holds : HoldsRegistrations sizes b r) (used : Used b r)
    (i : StaticInstructionInfo) :
    ActsOnOwner b r (.requestQuery i) ↔ MeetsOwner b r (.requestQuery i) := by
  dsimp only [ActsOnOwner, MeetsOwner]
  rw [hit_iff]
  unfold Hits Owns entryOf
  rw [used.valid]
  rcases owned : r (b.calculateIndex i.instAddress) with _ | block
  · rw [used.unused _ owned]
    simp [eq_comm]
  · rw [holds.tag _ _ owned]
    simp

/-- What an update changes. -/
theorem counterAt_update (holds : HoldsRegistrations sizes b r) (i : StaticInstructionInfo)
    (branchState : Bool) (index bank : Nat) :
    counterAt (b.updateBranch i branchState) index bank =
      if index = b.calculateIndex i.instAddress ∧ bank = b.calculateBank i.instAddress ∧
          (entryOf b i).entryTag ≠ 0 then
        (counterAt b index bank).updatePrediction branchState
      else counterAt b index bank := by
  have inside := holds.bank_lt i.instAddress
  rw [← holds.banks (b.calculateIndex i.instAddress)] at inside
  unfold counterAt BranchTargetBuffer.updateBranch BTBEntry.updateEntry entryOf
  dsimp only
  by_cases here : index = b.calculateIndex i.instAddress
  · subst here
    rw [Function.update_self]
    by_cases empty : (b.btb (b.calculateIndex i.instAddress)).entryTag = 0
    · rw [if_pos (.inr empty), if_neg fun trains => trains.2.2 empty]
    · rw [if_neg (not_or.mpr ⟨Nat.not_le.mpr inside, empty⟩)]
      by_cases own : bank = b.calculateBank i.instAddress
      · subst own
        rw [if_pos ⟨rfl, rfl, empty⟩]
        exact Function.update_self ..
      · simp [own]
  · rw [Function.update_of_ne here]
    simp [here]

/-- An update of an entry with a tag trains it, whosever it is. -/
theorem update_iff (holds : HoldsRegistrations sizes b r) (i : StaticInstructionInfo)
    (branchState : Bool) :
    ActsOnOwner b r (.requestUpdate i branchState) ↔
      MeetsOwner b r (.requestUpdate i branchState) := by
  dsimp only [ActsOnOwner, MeetsOwner]
  rw [← updatePrediction_eq_self_iff]
  constructor
  · intro acts
    by_contra not
    rw [not_or, not_or] at not
    obtain ⟨tagged, other, moves⟩ := not
    refine other (acts (b.calculateIndex i.instAddress) (b.calculateBank i.instAddress) ?_).1
    rw [counterAt_update holds, if_pos ⟨rfl, rfl, tagged⟩]
    exact moves
  · intro meets index bank changed
    rw [counterAt_update holds] at changed
    split at changed
    · rename_i trained
      obtain ⟨rfl, rfl, tagged⟩ := trained
      rcases meets with empty | owns | saturated
      · exact absurd empty tagged
      · exact ⟨owns, rfl, rfl⟩
      · exact absurd saturated changed
    · exact absurd rfl changed

end Step

/-- The state before each request of a run, with what was registered before it. -/
def AtEachRequest (b : BranchTargetBuffer) (packets : List BTBPacket)
    (P : BranchTargetBuffer → Registrations → BTBPacket → Prop) : Prop :=
  ∀ earlier packet later, packets = earlier ++ packet :: later →
    P (afterRequests BranchTargetBuffer.respond b earlier) (registrations b earlier) packet

theorem used_run {b : BranchTargetBuffer} (start : HoldsRegistrations b b fun _ => none)
    (unused : Used b fun _ => none) (packets : List BTBPacket) :
    Used (afterRequests BranchTargetBuffer.respond b packets) (registrations b packets) := by
  induction packets using List.reverseRecOn with
  | nil => exact unused
  | append_singleton packets packet ih =>
    rw [afterRequests_append, registrations, List.foldl_append]
    exact ih.respond (registrations_held start packets) packet

theorem configure_unused {interleavingFactor numberOfEntries : Int} {sendTo : Bool}
    {b : BranchTargetBuffer}
    (configured : BranchTargetBuffer.configure interleavingFactor numberOfEntries sendTo = .ok b) :
    Used b fun _ => none := by
  obtain ⟨_, _, empty⟩ := BranchTargetBuffer.configure_eq configured
  constructor
  · intro index
    rw [empty]
    rfl
  · intro index _
    rw [empty]

/-- For every configuration and every sequence of requests: all queries and updates act on
the block that owns the entry if and only if no query for the block of tag zero comes to an
entry never used, and no update moves a counter of an entry of another block, unless that
has tag zero. -/
theorem btb_acts_on_owner {interleavingFactor numberOfEntries : Int} {sendTo : Bool}
    {b : BranchTargetBuffer}
    (configured : BranchTargetBuffer.configure interleavingFactor numberOfEntries sendTo = .ok b)
    (packets : List BTBPacket) :
    AtEachRequest b packets ActsOnOwner ↔ AtEachRequest b packets MeetsOwner := by
  have each : ∀ earlier packet,
      ActsOnOwner (afterRequests BranchTargetBuffer.respond b earlier) (registrations b earlier)
          packet ↔
        MeetsOwner (afterRequests BranchTargetBuffer.respond b earlier) (registrations b earlier)
          packet := by
    intro earlier packet
    have start := configure_holds configured
    have holds := registrations_held start earlier
    cases packet with
    | requestQuery i =>
      exact query_iff holds (used_run start (configure_unused configured) earlier) i
    | requestUpdate i branchState => exact update_iff holds i branchState
    | _ => exact Iff.rfl
  constructor
  · exact fun all earlier packet later split =>
      (each earlier packet).mp (all earlier packet later split)
  · exact fun all earlier packet later split =>
      (each earlier packet).mpr (all earlier packet later split)

/-- A branch is added, and its block asked for. -/
theorem btb_owner_asked : AtEachRequest twoBanks
    [.requestAddEntry (branchAt 2) 100, .requestQuery (branchAt 2)] ActsOnOwner := by
  have configured : BranchTargetBuffer.configure 2 1 false = .ok twoBanks := rfl
  refine (btb_acts_on_owner configured _).mpr ?_
  intro earlier packet later split
  match earlier with
  | [] =>
    cases split
    trivial
  | [first] =>
    cases split
    exact .inr rfl
  | first :: second :: earlier =>
    have counts := congrArg List.length split
    simp at counts

/-- A query for the first block in an empty buffer hits, and an update for the third trains
the entry of the second. -/
theorem btb_acts_on_others :
    (¬ ∀ (interleavingFactor numberOfEntries : Int) (sendTo : Bool) (b : BranchTargetBuffer),
      BranchTargetBuffer.configure interleavingFactor numberOfEntries sendTo = .ok b →
      ∀ packets, AtEachRequest b packets ActsOnOwner) ∧
    ¬ AtEachRequest twoBanks [.requestAddEntry (branchAt 2) 100, .requestUpdate (branchAt 4) true]
      ActsOnOwner := by
  constructor
  · intro all
    have acts := all 2 1 false twoBanks rfl [.requestQuery (branchAt 0)] []
      (.requestQuery (branchAt 0)) [] rfl
    have owns := acts.mp ⟨_, rfl⟩
    exact absurd owns (by unfold Owns; decide)
  · intro all
    have acts := all [.requestAddEntry (branchAt 2) 100] (.requestUpdate (branchAt 4) true) []
      rfl 0 0
    have owns := (acts (by decide)).1
    exact absurd owns (by unfold Owns; decide)

end Sinuca3.Guarantees
