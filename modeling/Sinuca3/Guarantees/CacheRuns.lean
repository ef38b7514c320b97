import Sinuca3.Guarantees.CacheCoherence

/-!
# Runs of a cache

A run with a log of the lines its operations use. The lines of the cache are a function
of that log: each is as its last fill left it.
-/
namespace Sinuca3.Guarantees
open Sinuca3.Source Lib

variable {ValueType : Type}

/-- The use of a line: by a read that hits, or by a write, which fills it. -/
structure CacheAccess where
  set : Nat
  way : Nat
  addr : BitVec 64
  fill : Bool
  deriving DecidableEq

def accessStep (c : CacheMemory ValueType) :
    CacheOp ValueType → CacheMemory ValueType × List CacheAccess
  | .read addr =>
    ((c.read addr).2, (c.getEntry addr).toList.map fun cell => ⟨cell.1, cell.2, addr, false⟩)
  | .write addr value =>
    (c.write addr value, [⟨(c.victim addr).1.1, (c.victim addr).1.2, addr, true⟩])

/-- The address a line was last filled for. -/
def filledFor (set way : Nat) (log : List CacheAccess) : Option (BitVec 64) :=
  (log.filter fun a => a.fill && a.set == set && a.way == way).getLast?.map (·.addr)

/-- A line as a fill leaves it, or as it is before the first. -/
def lineFor (g : CacheGeometry) (set way : Nat) : Option (BitVec 64) → CacheLine
  | none => { i := set, j := way }
  | some addr =>
    { tag := g.getTag addr, index := g.getIndex addr, isValid := true, i := set, j := way }

/-- A cache of a named policy. -/
def CreatedWith (policy : String) (getLog2 : BitVec 32 → BitVec 32) (zeroed : ValueType)
    (rand : Nat → Nat) (c : CacheMemory ValueType) : Prop :=
  (∃ index offset ways, CacheMemory.fromBits zeroed rand index offset ways policy = some c) ∨
  (∃ sets line ways,
    CacheMemory.fromNumSets getLog2 zeroed rand sets line ways policy = some c) ∨
  ∃ size line ways,
    CacheMemory.fromCacheSize getLog2 zeroed rand size line ways policy = some c

/-- What a run of a cache of geometry `g` keeps. -/
structure Recorded (g : CacheGeometry) (c : CacheMemory ValueType) (log : List CacheAccess) :
    Prop where
  geometry : c.toCacheGeometry = g
  wellFormed : c.WellFormed
  lines : ∀ set way, c.entries set way = lineFor g set way (filledFor set way log)
  used : ∀ a ∈ log, a.set = (g.getIndex a.addr).toNat ∧ a.way < g.numWays

section Creation

variable {getLog2 : BitVec 32 → BitVec 32} {zeroed : ValueType} {rand : Nat → Nat}
  {c : CacheMemory ValueType} {policy : String}

theorem CreatedWith.alocates (created : CreatedWith policy getLog2 zeroed rand c) :
    ∃ index offset ways, CacheMemory.alocate zeroed rand index offset ways policy = some c := by
  rcases created with bits | ⟨sets, line, ways, numbered⟩ | ⟨size, line, ways, whole⟩
  · exact bits
  · obtain ⟨index, offset, alocated⟩ := CacheMemory.fromNumSets_alocates numbered
    exact ⟨index, offset, ways, alocated⟩
  · obtain ⟨index, offset, alocated⟩ := CacheMemory.fromCacheSize_alocates whole
    exact ⟨index, offset, ways, alocated⟩

/-- A new cache: no line is valid, and its policy is the one asked for. -/
theorem alocate_eq {index offset ways : BitVec 32}
    (alocated : CacheMemory.alocate zeroed rand index offset ways policy = some c) :
    c.toCacheGeometry = .ofBits index offset ways ∧
      c.entries = (fun i j => { i := i, j := j }) ∧
      CacheMemory.setReplacementPolicy c.numSets c.numWays rand policy = some c.policy := by
  unfold CacheMemory.alocate at alocated
  split at alocated
  · cases alocated
  obtain ⟨p, named, rfl⟩ := Option.map_eq_some_iff.mp alocated
  exact ⟨rfl, rfl, named⟩

theorem Recorded.created {index offset ways : BitVec 32}
    (alocated : CacheMemory.alocate zeroed rand index offset ways policy = some c) :
    Recorded c.toCacheGeometry c [] where
  geometry := rfl
  wellFormed := CacheMemory.wellFormed_alocate alocated
  lines set way := by
    rw [(alocate_eq alocated).2.1]
    rfl
  used a member := by cases member

end Creation

section Append

variable (set way : Nat) (log : List CacheAccess)

theorem filledFor_of_read (a : CacheAccess) (read : a.fill = false) :
    filledFor set way (log ++ [a]) = filledFor set way log := by
  simp [filledFor, read]

theorem filledFor_of_fill (a : CacheAccess) (fill : a.fill = true) :
    filledFor set way (log ++ [a]) =
      if a.set = set ∧ a.way = way then some a.addr else filledFor set way log := by
  unfold filledFor
  rw [List.filter_append]
  by_cases here : a.set = set ∧ a.way = way
  · rw [if_pos here]
    simp [fill, here]
  · rw [if_neg here, List.filter_cons_of_neg, List.filter_nil, List.append_nil]
    simpa [fill] using here

end Append

variable {g : CacheGeometry} {c : CacheMemory ValueType} {log : List CacheAccess}

/-- What reading leaves alone. -/
theorem read_frame (c : CacheMemory ValueType) (addr : BitVec 64) :
    (c.read addr).2.toCacheGeometry = c.toCacheGeometry ∧ (c.read addr).2.entries = c.entries ∧
      (c.read addr).2.data = c.data := by
  unfold CacheMemory.read
  split <;> exact ⟨rfl, rfl, rfl⟩

theorem Recorded.read (before : Recorded g c log) (addr : BitVec 64) :
    Recorded g (accessStep c (.read addr)).1 (log ++ (accessStep c (.read addr)).2) := by
  obtain ⟨rfl, wellFormed, lines, used⟩ := before
  obtain ⟨geometry, entries, _⟩ := read_frame c addr
  refine ⟨geometry, CacheMemory.read_wellFormed wellFormed addr, fun set way => ?_, ?_⟩
  · simp only [accessStep, entries, lines]
    rcases c.getEntry addr with _ | cell
    · simp
    · rw [Option.toList_some, List.map_singleton, filledFor_of_read _ _ _ _ rfl]
  · intro a member
    rcases List.mem_append.mp member with old | new
    · exact used a old
    · obtain ⟨cell, found, rfl⟩ := List.mem_map.mp new
      obtain ⟨row, inside, _⟩ := getEntry_some (Option.mem_toList.mp found)
      exact ⟨row, inside⟩

theorem Recorded.write (before : Recorded g c log) (addr : BitVec 64) (value : ValueType) :
    Recorded g (accessStep c (.write addr value)).1
      (log ++ (accessStep c (.write addr value)).2) := by
  obtain ⟨rfl, wellFormed, lines, used⟩ := before
  obtain ⟨entries, _⟩ := CacheMemory.write_cells wellFormed addr value
  refine ⟨rfl, CacheMemory.write_wellFormed wellFormed addr value, fun set way => ?_, ?_⟩
  · simp only [accessStep]
    rw [entries, filledFor_of_fill _ _ _ _ rfl, CacheMemory.victim_set]
    dsimp only
    by_cases here : (c.getIndex addr).toNat = set ∧ (c.victim addr).1.2 = way
    · obtain ⟨rfl, rfl⟩ := here
      rw [setCell_same, if_pos ⟨rfl, rfl⟩]
      rfl
    · rw [if_neg here, ← lines, setCell_other]
      rintro ⟨rfl, rfl⟩
      exact here ⟨rfl, rfl⟩
  · intro a member
    rcases List.mem_append.mp member with old | new
    · exact used a old
    · cases List.mem_singleton.mp new
      exact ⟨CacheMemory.victim_set c addr, CacheMemory.victim_way_lt wellFormed addr⟩

theorem Recorded.step (before : Recorded g c log) (op : CacheOp ValueType) :
    Recorded g (accessStep c op).1 (log ++ (accessStep c op).2) := by
  cases op with
  | read addr => exact before.read addr
  | write addr value => exact before.write addr value

theorem Recorded.run (start : Recorded g c []) (ops : List (CacheOp ValueType)) :
    Recorded g (Machine.run accessStep c ops).1 (Machine.run accessStep c ops).2 :=
  Machine.run_induction accessStep (P := fun t _ log => Recorded g t log) start
    (fun _ _ _ op before => before.step op) ops

/-- The address in a line that `GetEntry` finds is on the line of the address asked for. -/
theorem Recorded.hit (recorded : Recorded g c log) {addr : BitVec 64} {cell : Nat × Nat}
    (found : c.getEntry addr = some cell) :
    ∃ b, filledFor cell.1 cell.2 log = some b ∧ SameLine g b addr := by
  obtain ⟨row, inside, valid, tag⟩ := getEntry_some found
  rw [recorded.lines] at valid tag
  rcases filled : filledFor cell.1 cell.2 log with _ | b
  · rw [filled] at valid
    cases valid
  · rw [filled] at tag
    rw [recorded.geometry] at row tag
    refine ⟨b, rfl, tag, ?_⟩
    obtain ⟨a, last, rfl⟩ := Option.map_eq_some_iff.mp filled
    obtain ⟨member, kind⟩ := List.mem_filter.mp (List.mem_of_getLast? last)
    simp only [Bool.and_eq_true, beq_iff_eq] at kind
    apply BitVec.eq_of_toNat_eq
    rw [← (recorded.used a member).1, kind.1.2, row]

/-- In a full set every way has been filled. -/
theorem Recorded.filled_of_full (recorded : Recorded g c log) {addr : BitVec 64}
    (full : c.findEmptyEntry addr = none) {way : Nat} (inside : way < c.numWays) :
    ∃ a ∈ log, a.fill = true ∧ a.set = (c.getIndex addr).toNat ∧ a.way = way := by
  unfold CacheMemory.findEmptyEntry at full
  rw [Option.map_eq_none_iff, List.find?_eq_none] at full
  have valid := full way (List.mem_range.mpr inside)
  rw [recorded.lines] at valid
  rcases filled : filledFor (c.getIndex addr).toNat way log with _ | b
  · simp [filled, lineFor] at valid
  · obtain ⟨a, last, _⟩ := Option.map_eq_some_iff.mp filled
    obtain ⟨member, kind⟩ := List.mem_filter.mp (List.mem_of_getLast? last)
    simp only [Bool.and_eq_true, beq_iff_eq] at kind
    exact ⟨a, member, kind.1.1, kind.1.2, kind.2⟩

end Sinuca3.Guarantees
