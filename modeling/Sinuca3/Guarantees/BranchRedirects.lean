import Sinuca3.Source.StdComponents.InterleavedBTB

/-!
# Branches a branch target buffer redirects through

An entry of the buffer is for one block at a time, but the targets, types and counters of
its banks stay when it is given to another block, its counters predict taken from the
start, and a tag of zero is the tag of an entry never used.
-/
namespace Sinuca3.Guarantees
open Sinuca3.Source Lib

/-- The block an entry was last given to, and by bank the target and the type of the
branches of it that have been added since. -/
structure RegisteredBlock where
  tag : BitVec 64
  branches : Nat → Option (BitVec 64 × BranchType)

/-- By index of the entry. -/
abbrev Registrations : Type := Nat → Option RegisteredBlock

namespace Registrations

/-- The branches of a block, if the entry is given to it. -/
def ofBlock (r : Registrations) (index : Nat) (tag : BitVec 64) (bank : Nat) :
    Option (BitVec 64 × BranchType) :=
  (r index).bind fun block => if block.tag = tag then block.branches bank else none

def add (r : Registrations) (index : Nat) (tag : BitVec 64) (bank : Nat)
    (branch : BitVec 64 × BranchType) : Registrations :=
  Function.update r index
    (some ⟨tag, Function.update (r.ofBlock index tag) bank (some branch)⟩)

end Registrations

/-- What a buffer is told. -/
def register (b : BranchTargetBuffer) (r : Registrations) : BTBPacket → Registrations
  | .requestAddEntry instruction target =>
    r.add (b.calculateIndex instruction.instAddress) (b.calculateTag instruction.instAddress)
      (b.calculateBank instruction.instAddress)
      (target, branchTypeFromSinucaBranch instruction.branchType)
  | _ => r

def registrations (b : BranchTargetBuffer) (packets : List BTBPacket) : Registrations :=
  packets.foldl (register b) fun _ => none

section Query

variable (b : BranchTargetBuffer) (r : Registrations) (i : StaticInstructionInfo)

/-- The entry for the block of an instruction. -/
def entryOf : BTBEntry := b.btb (b.calculateIndex i.instAddress)

def Hits : Prop := (entryOf b i).entryTag = b.calculateTag i.instAddress

/-- The branch registered in a bank of the block of an instruction. -/
def registeredIn (bank : Nat) : Option (BitVec 64 × BranchType) :=
  r.ofBlock (b.calculateIndex i.instAddress) (b.calculateTag i.instAddress) bank

/-- A bank with a branch that is unconditional or predicted taken. -/
def registeredRedirects (bank : Nat) : Bool :=
  match registeredIn b r i bank with
  | none => false
  | some (_, type) => type = .unconditional || (entryOf b i).getPrediction bank

def sequentialAddress : BitVec 64 :=
  i.instAddress +
    if b.interleavingFactor = 1 then i.instSize else BitVec.ofNat 64 b.interleavingFactor

/-- Target and bits of a hit. -/
def expectedHit : BitVec 64 × List Bool :=
  match (List.range b.interleavingFactor).find? (registeredRedirects b r i) with
  | none => (sequentialAddress b i, List.replicate b.interleavingFactor true)
  | some bank =>
    (((registeredIn b r i bank).map Prod.fst).getD 0,
      (List.range b.interleavingFactor).map (· ≤ bank))

/-- The answer to a query goes by the branches registered. -/
structure AnswersAsRegistered : Prop where
  hit : ∀ response, (b.query i).2 = .responseBTBHit response →
    (response.target, response.validBits) = expectedHit b r i
  miss : ∀ response, (b.query i).2 = .responseBTBMiss response →
    response.target = sequentialAddress b i
  registered : Hits b i → ∀ bank ∈ b.takenBank (entryOf b i), (registeredIn b r i bank).isSome

/-- In a hit no bank where nothing is registered is unconditional or predicted taken,
unless a registered one before it is; and where nothing redirects there is
interleaving, or the instruction is one octet long. -/
structure OnlyRegistered : Prop where
  registered : Hits b i → ∀ bank < b.interleavingFactor, (entryOf b i).redirects bank = true →
    (registeredIn b r i bank).isSome ∨ ∃ earlier < bank, registeredRedirects b r i earlier = true
  sequential : (Hits b i → b.takenBank (entryOf b i) = none) → b.interleavingFactor = 1 →
    i.instSize = 1

end Query

/-- The entries hold what is registered, and the sizes are those of `Configure`. -/
structure HoldsRegistrations (sizes b : BranchTargetBuffer) (r : Registrations) : Prop where
  interleavingFactor : b.interleavingFactor = sizes.interleavingFactor
  interleavingBits : b.interleavingBits = sizes.interleavingBits
  entriesBits : b.entriesBits = sizes.entriesBits
  factor : b.interleavingFactor = 2 ^ b.interleavingBits
  bits : b.interleavingBits < 31
  banks : ∀ index, (b.btb index).numBanks = b.interleavingFactor
  tag : ∀ index block, r index = some block → (b.btb index).entryTag = block.tag
  branch : ∀ index block bank target type, r index = some block →
    block.branches bank = some (target, type) → bank < b.interleavingFactor ∧
      (b.btb index).targetArray bank = target ∧ (b.btb index).branchTypes bank = type

theorem configure_holds {interleavingFactor numberOfEntries : Int} {sendTo : Bool}
    {b : BranchTargetBuffer}
    (configured : BranchTargetBuffer.configure interleavingFactor numberOfEntries sendTo = .ok b) :
    HoldsRegistrations b b fun _ => none := by
  obtain ⟨factor, bits, empty⟩ := BranchTargetBuffer.configure_eq configured
  refine ⟨rfl, rfl, rfl, factor, bits, fun index => ?_, ?_, ?_⟩
  · rw [empty]
  · intro _ _ none
    cases none
  · intro _ _ _ _ _ none
    cases none

section Step

variable {sizes b : BranchTargetBuffer} {r : Registrations}

theorem HoldsRegistrations.calculate (holds : HoldsRegistrations sizes b r) (address : BitVec 64) :
    sizes.calculateIndex address = b.calculateIndex address ∧
      sizes.calculateTag address = b.calculateTag address ∧
      sizes.calculateBank address = b.calculateBank address := by
  unfold BranchTargetBuffer.calculateIndex BranchTargetBuffer.calculateTag
    BranchTargetBuffer.calculateBank
  rw [holds.interleavingBits, holds.entriesBits]
  exact ⟨rfl, rfl, rfl⟩

theorem HoldsRegistrations.bank_lt (holds : HoldsRegistrations sizes b r) (address : BitVec 64) :
    b.calculateBank address < b.interleavingFactor := by
  have masks : ∀ bits : Fin 31, (BranchTargetBuffer.mask bits.val).toNat = 2 ^ bits.val - 1 := by
    decide
  have positive : 0 < 2 ^ b.interleavingBits := Nat.two_pow_pos _
  have below : (address &&& BranchTargetBuffer.mask b.interleavingBits).toNat ≤
      (BranchTargetBuffer.mask b.interleavingBits).toNat := by
    rw [BitVec.toNat_and]
    exact Nat.and_le_right
  have mask := masks ⟨b.interleavingBits, holds.bits⟩
  dsimp only at mask
  rw [BranchTargetBuffer.calculateBank, holds.factor]
  omega

/-- A registered branch of a block that has its entry. -/
theorem HoldsRegistrations.ofBlock (holds : HoldsRegistrations sizes b r) {index bank : Nat}
    {tag target : BitVec 64} {type : BranchType}
    (registered : r.ofBlock index tag bank = some (target, type)) :
    bank < b.interleavingFactor ∧ (b.btb index).targetArray bank = target ∧
      (b.btb index).branchTypes bank = type := by
  unfold Registrations.ofBlock at registered
  rcases owned : r index with _ | block
  · rw [owned] at registered
    cases registered
  · rw [owned, Option.bind_some] at registered
    split at registered
    · exact holds.branch index block bank target type owned registered
    · cases registered

/-- Adding an entry. -/
theorem HoldsRegistrations.add (holds : HoldsRegistrations sizes b r) (index bank : Nat)
    (tag target : BitVec 64) (instruction : StaticInstructionInfo)
    (inside : bank < b.interleavingFactor) :
    HoldsRegistrations sizes
      { b with btb :=
          Function.update b.btb index ((b.btb index).newEntry tag bank target instruction) }
      (r.add index tag bank (target, branchTypeFromSinucaBranch instruction.branchType)) := by
  have entry : (b.btb index).newEntry tag bank target instruction =
      { b.btb index with
        valid := true
        entryTag := tag
        targetArray := Function.update (b.btb index).targetArray bank target
        branchTypes := Function.update (b.btb index).branchTypes bank
          (branchTypeFromSinucaBranch instruction.branchType) } := by
    unfold BTBEntry.newEntry
    rw [if_neg]
    rw [holds.banks]
    omega
  rw [entry]
  refine ⟨holds.interleavingFactor, holds.interleavingBits, holds.entriesBits, holds.factor,
    holds.bits, ?_, ?_, ?_⟩
  · intro other
    by_cases same : other = index
    · subst same
      simpa using holds.banks other
    · simpa [Function.update_of_ne same] using holds.banks other
  · intro other block owned
    by_cases same : other = index
    · subst same
      simp only [Registrations.add, Function.update_self, Option.some.injEq] at owned
      simp [← owned]
    · simp only [Registrations.add, Function.update_of_ne same] at owned
      simpa [Function.update_of_ne same] using holds.tag other block owned
  · intro other block bank' target' type owned branch
    by_cases same : other = index
    · subst same
      simp only [Registrations.add, Function.update_self, Option.some.injEq] at owned
      rw [← owned] at branch
      dsimp only at branch
      by_cases here : bank' = bank
      · subst here
        simp only [Function.update_self, Option.some.injEq, Prod.mk.injEq] at branch
        simpa [branch.1, branch.2] using inside
      · rw [Function.update_of_ne here] at branch
        simpa [Function.update_of_ne here] using holds.ofBlock branch
    · simp only [Registrations.add, Function.update_of_ne same] at owned
      simpa [Function.update_of_ne same] using
        holds.branch other block bank' target' type owned branch

/-- Training a counter. -/
theorem HoldsRegistrations.update (holds : HoldsRegistrations sizes b r) (index bank : Nat)
    (branchState : Bool) :
    HoldsRegistrations sizes
      { b with btb := Function.update b.btb index ((b.btb index).updateEntry bank branchState) }
      r := by
  have entry : ∀ e : BTBEntry, (e.updateEntry bank branchState).numBanks = e.numBanks ∧
      (e.updateEntry bank branchState).entryTag = e.entryTag ∧
      (e.updateEntry bank branchState).targetArray = e.targetArray ∧
      (e.updateEntry bank branchState).branchTypes = e.branchTypes := by
    intro e
    unfold BTBEntry.updateEntry
    split <;> exact ⟨rfl, rfl, rfl, rfl⟩
  have same : ∀ other,
      (Function.update b.btb index ((b.btb index).updateEntry bank branchState) other).numBanks =
        (b.btb other).numBanks ∧
      (Function.update b.btb index ((b.btb index).updateEntry bank branchState) other).entryTag =
        (b.btb other).entryTag ∧
      (Function.update b.btb index
          ((b.btb index).updateEntry bank branchState) other).targetArray =
        (b.btb other).targetArray ∧
      (Function.update b.btb index
          ((b.btb index).updateEntry bank branchState) other).branchTypes =
        (b.btb other).branchTypes := by
    intro other
    by_cases here : other = index
    · subst here
      rw [Function.update_self]
      exact entry _
    · rw [Function.update_of_ne here]
      exact ⟨rfl, rfl, rfl, rfl⟩
  refine ⟨holds.interleavingFactor, holds.interleavingBits, holds.entriesBits, holds.factor,
    holds.bits, fun other => (same other).1.trans (holds.banks other), ?_, ?_⟩
  · exact fun other block owned => (same other).2.1.trans (holds.tag other block owned)
  · intro other block bank' target type owned branch
    obtain ⟨inside, targets, types⟩ := holds.branch other block bank' target type owned branch
    exact ⟨inside, (congrFun (same other).2.2.1 bank').trans targets,
      (congrFun (same other).2.2.2 bank').trans types⟩

/-- Every request. -/
theorem HoldsRegistrations.respond (holds : HoldsRegistrations sizes b r) (packet : BTBPacket) :
    HoldsRegistrations sizes (b.respond packet).1 (register sizes r packet) := by
  cases packet with
  | requestQuery instruction =>
    unfold BranchTargetBuffer.respond BranchTargetBuffer.query
    dsimp only
    split <;> exact ⟨holds.interleavingFactor, holds.interleavingBits, holds.entriesBits,
      holds.factor, holds.bits, holds.banks, holds.tag, holds.branch⟩
  | requestAddEntry instruction target =>
    obtain ⟨index, tag, bank⟩ := holds.calculate instruction.instAddress
    unfold register
    dsimp only
    rw [index, tag, bank]
    have added := holds.add (b.calculateIndex instruction.instAddress)
      (b.calculateBank instruction.instAddress) (b.calculateTag instruction.instAddress) target
      instruction (holds.bank_lt _)
    exact ⟨added.interleavingFactor, added.interleavingBits, added.entriesBits, added.factor,
      added.bits, added.banks, added.tag, added.branch⟩
  | requestUpdate instruction branchState =>
    exact holds.update (b.calculateIndex instruction.instAddress)
      (b.calculateBank instruction.instAddress) branchState
  | responseBTBHit response => exact holds
  | responseBTBMiss response => exact holds

end Step

theorem registrations_held {b : BranchTargetBuffer} (start : HoldsRegistrations b b fun _ => none)
    (packets : List BTBPacket) :
    HoldsRegistrations b (afterRequests BranchTargetBuffer.respond b packets)
      (registrations b packets) := by
  induction packets using List.reverseRecOn with
  | nil => exact start
  | append_singleton packets packet ih =>
    rw [afterRequests_append, registrations, List.foldl_append]
    exact ih.respond packet

/-- Of two tests, the second stronger, the first number that passes is the same if that
one passes both. -/
theorem find?_range_of_stronger {n : Nat} {p q : Nat → Bool} (stronger : ∀ i, q i → p i)
    (first : ∀ i ∈ (List.range n).find? p, q i) :
    (List.range n).find? q = (List.range n).find? p := by
  rcases found : (List.range n).find? p with _ | i
  · rw [List.find?_range_eq_none] at found ⊢
    intro i inside
    have fails := found i inside
    have implied := stronger i
    cases here : q i <;> simp_all
  · have passes := first i found
    rw [List.find?_range_eq_some] at found ⊢
    refine ⟨passes, found.2.1, fun j early => ?_⟩
    have fails := found.2.2 j early
    have implied := stronger j
    cases here : q j <;> simp_all

section Answer

variable {sizes b : BranchTargetBuffer} {r : Registrations} {i : StaticInstructionInfo}

theorem registeredRedirects_iff (holds : HoldsRegistrations sizes b r) (bank : Nat) :
    registeredRedirects b r i bank = true ↔
      (registeredIn b r i bank).isSome ∧ (entryOf b i).redirects bank = true := by
  unfold registeredRedirects
  rcases registered : registeredIn b r i bank with _ | ⟨target, type⟩
  · simp
  · obtain ⟨inside, _, types⟩ := holds.ofBlock registered
    have banks := holds.banks (b.calculateIndex i.instAddress)
    unfold entryOf BTBEntry.redirects BTBEntry.getBranchType
    rw [if_pos (by omega), types]
    simp

theorem query_of_hit (hits : Hits b i) : ∃ response, (b.query i).2 = .responseBTBHit response ∧
    (response.target, response.validBits) =
      match b.takenBank (entryOf b i) with
      | none => (i.instAddress + BitVec.ofNat 64 b.interleavingFactor,
          List.replicate b.interleavingFactor true)
      | some bank => ((entryOf b i).getTargetAddress bank,
          (List.range b.interleavingFactor).map (· ≤ bank)) := by
  unfold Hits entryOf at hits
  unfold BranchTargetBuffer.query
  dsimp only
  rw [if_pos hits]
  refine ⟨_, rfl, ?_⟩
  rw [BranchTargetBuffer.checkBank_range]
  unfold BranchTargetBuffer.takenBank entryOf
  cases (List.range b.interleavingFactor).find? _ <;> rfl

theorem query_of_miss (misses : ¬ Hits b i) :
    ∃ response, (b.query i).2 = .responseBTBMiss response ∧
      response.target = i.instAddress + BitVec.ofNat 64 b.interleavingFactor := by
  unfold Hits entryOf at misses
  unfold BranchTargetBuffer.query
  dsimp only
  rw [if_neg misses]
  exact ⟨_, rfl, rfl⟩

/-- The address the buffer takes for the next is right with interleaving, and for
instructions of one octet. -/
theorem sequentialAddress_iff :
    i.instAddress + BitVec.ofNat 64 b.interleavingFactor = sequentialAddress b i ↔
      (b.interleavingFactor = 1 → i.instSize = 1) := by
  unfold sequentialAddress
  split
  · rename_i single
    rw [single]
    simp only [forall_const]
    constructor
    · intro same
      exact (BitVec.add_left_inj i.instAddress).mp (by simpa [BitVec.add_comm] using same.symm)
    · intro size
      rw [size]
      rfl
  · rename_i interleaved
    exact iff_of_true rfl fun single => absurd single interleaved

/-- What is expected of a hit whose first bank to redirect is registered. -/
theorem expectedHit_eq (holds : HoldsRegistrations sizes b r)
    (registered : ∀ bank ∈ b.takenBank (entryOf b i), (registeredIn b r i bank).isSome) :
    expectedHit b r i =
      match b.takenBank (entryOf b i) with
      | none => (sequentialAddress b i, List.replicate b.interleavingFactor true)
      | some bank => ((entryOf b i).getTargetAddress bank,
          (List.range b.interleavingFactor).map (· ≤ bank)) := by
  have redirect := registeredRedirects_iff (i := i) holds
  have same : (List.range b.interleavingFactor).find? (registeredRedirects b r i) =
      b.takenBank (entryOf b i) := by
    refine find?_range_of_stronger (fun bank both => ((redirect bank).mp both).2) ?_
    intro bank first
    refine (redirect bank).mpr ⟨registered bank first, ?_⟩
    exact List.find?_some first
  unfold expectedHit
  rw [same]
  rcases first : b.takenBank (entryOf b i) with _ | bank
  · rfl
  · have known := registered bank first
    rcases branch : registeredIn b r i bank with _ | ⟨target, type⟩
    · rw [branch] at known
      cases known
    · obtain ⟨inside, targets, _⟩ := holds.ofBlock branch
      have banks := holds.banks (b.calculateIndex i.instAddress)
      have address : (entryOf b i).getTargetAddress bank = target := by
        unfold entryOf BTBEntry.getTargetAddress
        rw [if_pos (by omega), targets]
      simp [branch, address]

/-- That the first bank to redirect is registered. -/
theorem registered_first_iff (holds : HoldsRegistrations sizes b r) :
    (∀ bank ∈ b.takenBank (entryOf b i), (registeredIn b r i bank).isSome) ↔
      ∀ bank < b.interleavingFactor, (entryOf b i).redirects bank = true →
        (registeredIn b r i bank).isSome ∨
          ∃ earlier < bank, registeredRedirects b r i earlier = true := by
  have redirect := registeredRedirects_iff (i := i) holds
  unfold BranchTargetBuffer.takenBank
  constructor
  · intro registered bank inside redirects
    rcases first : (List.range b.interleavingFactor).find? (entryOf b i).redirects with _ | bank'
    · rw [List.find?_range_eq_none] at first
      have silent := first bank inside
      rw [redirects] at silent
      cases silent
    · have known := registered bank' first
      rw [List.find?_range_eq_some] at first
      rcases Nat.lt_trichotomy bank' bank with earlier | same | later
      · exact .inr ⟨bank', earlier, (redirect bank').mpr ⟨known, first.1⟩⟩
      · exact .inl (same ▸ known)
      · have silent := first.2.2 bank later
        rw [redirects] at silent
        cases silent
  · intro all bank first
    rw [Option.mem_def, List.find?_range_eq_some] at first
    rcases all bank (List.mem_range.mp first.2.1) first.1 with known | ⟨earlier, before, both⟩
    · exact known
    · have silent := first.2.2 earlier before
      rw [((redirect earlier).mp both).2] at silent
      cases silent

/-- One query. -/
theorem answers_iff (holds : HoldsRegistrations sizes b r) :
    AnswersAsRegistered b r i ↔ OnlyRegistered b r i := by
  by_cases hits : Hits b i
  · obtain ⟨response, answer, value⟩ := query_of_hit hits
    constructor
    · intro answers
      refine ⟨fun _ => (registered_first_iff holds).mp (answers.registered hits), fun none => ?_⟩
      have expected := answers.hit response answer
      rw [expectedHit_eq holds (answers.registered hits), value, none hits] at expected
      exact sequentialAddress_iff.mp (congrArg Prod.fst expected)
    · rintro ⟨registered, sequential⟩
      have first := (registered_first_iff holds).mpr (registered hits)
      refine ⟨fun other same => ?_, fun other same => ?_, fun _ => first⟩
      · rw [answer, BTBPacket.responseBTBHit.injEq] at same
        rw [← same, value, expectedHit_eq holds first]
        rcases taken : b.takenBank (entryOf b i) with _ | bank
        · have next := sequentialAddress_iff.mpr (sequential fun _ => taken)
          dsimp only
          rw [next]
        · rfl
      · rw [answer] at same
        cases same
  · obtain ⟨response, answer, value⟩ := query_of_miss hits
    constructor
    · intro answers
      refine ⟨fun here => absurd here hits, fun _ => ?_⟩
      exact sequentialAddress_iff.mp (value.symm.trans (answers.miss response answer))
    · rintro ⟨_, sequential⟩
      refine ⟨fun other same => ?_, fun other same => ?_, fun here => absurd here hits⟩
      · rw [answer] at same
        cases same
      · rw [answer, BTBPacket.responseBTBMiss.injEq] at same
        rw [← same, value]
        exact sequentialAddress_iff.mpr (sequential fun here => absurd here hits)

end Answer

/-- The state before a query of a run, with what was registered before it. -/
def AtEachQuery (b : BranchTargetBuffer) (packets : List BTBPacket)
    (P : BranchTargetBuffer → Registrations → StaticInstructionInfo → Prop) : Prop :=
  ∀ earlier i later, packets = earlier ++ .requestQuery i :: later →
    P (afterRequests BranchTargetBuffer.respond b earlier) (registrations b earlier) i

/-- For every interleaving factor and number of entries that `Configure` accepts and every
sequence of requests: all queries are answered by the branches registered if and only if,
whenever one is made, in a hit no bank of the entry without a branch registered redirects
before the first with one does, and where nothing redirects the interleaving factor is
not one or the instruction is one octet long. -/
theorem btb_redirects_registered {interleavingFactor numberOfEntries : Int} {sendTo : Bool}
    {b : BranchTargetBuffer}
    (configured : BranchTargetBuffer.configure interleavingFactor numberOfEntries sendTo = .ok b)
    (packets : List BTBPacket) :
    AtEachQuery b packets AnswersAsRegistered ↔ AtEachQuery b packets OnlyRegistered := by
  have each := fun earlier i =>
    answers_iff (i := i) (registrations_held (configure_holds configured) earlier)
  constructor
  · exact fun all earlier i later split => (each earlier i).mp (all earlier i later split)
  · exact fun all earlier i later split => (each earlier i).mpr (all earlier i later split)

/-- A buffer of one entry with two banks. -/
def twoBanks : BranchTargetBuffer where
  btb _ := { numBanks := 2 }
  interleavingFactor := 2
  numEntries := 1
  interleavingBits := 1
  entriesBits := 0

def branchAt (address : BitVec 64) : StaticInstructionInfo :=
  { instAddress := address, instSize := 1, branchType := .uncond }

theorem btb_redirects_first_bank : AtEachQuery twoBanks
    [.requestAddEntry (branchAt 2) 100, .requestQuery (branchAt 2)] AnswersAsRegistered := by
  have configured : BranchTargetBuffer.configure 2 1 false = .ok twoBanks := rfl
  refine (btb_redirects_registered configured _).mpr ?_
  intro earlier i later split
  cases earlier with
  | nil => cases split
  | cons first earlier =>
    cases earlier with
    | nil =>
      cases split
      refine ⟨fun _ bank inside _ => ?_, fun _ => (by decide)⟩
      match bank, inside with
      | 0, _ => exact .inl rfl
      | 1, _ => exact .inr ⟨0, by decide, by decide⟩
    | cons second earlier =>
      have counts := congrArg List.length split
      simp at counts

/-- A branch in the second bank, and a query for its block. -/
theorem btb_redirects_empty_bank :
    ¬ ∀ (interleavingFactor numberOfEntries : Int) (sendTo : Bool) (b : BranchTargetBuffer),
      BranchTargetBuffer.configure interleavingFactor numberOfEntries sendTo = .ok b →
      ∀ packets, AtEachQuery b packets AnswersAsRegistered := by
  intro all
  have answers := all 2 1 false twoBanks rfl
    [.requestAddEntry (branchAt 3) 100, .requestQuery (branchAt 2)]
    [.requestAddEntry (branchAt 3) 100] (branchAt 2) [] rfl
  have registered := answers.registered (by unfold Hits; decide) 0 (by decide)
  exact absurd registered (by decide)

end Sinuca3.Guarantees
