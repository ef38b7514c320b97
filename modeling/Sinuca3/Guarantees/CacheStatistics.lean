import Sinuca3.Guarantees.CacheStructure

/-!
# What the counters of a cache count

Reads are counted, and so are the hits and the misses among them. The counter of evictions
counts every write, also one that fills an empty line.
-/
namespace Sinuca3.Guarantees
open Sinuca3.Source Lib

variable {ValueType : Type}

/-- An access: for a write, whether the line it replaces is valid. -/
inductive CacheCount where
  | read
  | write (replaced : Bool)
  deriving DecidableEq

def countStep (c : CacheMemory ValueType) :
    CacheOp ValueType → CacheMemory ValueType × List CacheCount
  | .read addr => ((c.read addr).2, [.read])
  | .write addr value =>
    (c.write addr value, [.write (c.entries (c.victim addr).1.1 (c.victim addr).1.2).isValid])

def reads (log : List CacheCount) : Nat := log.countP (· = .read)

def writes (log : List CacheCount) : Nat := log.countP (· ≠ .read)

/-- The writes that replaced a valid line. -/
def replacements (log : List CacheCount) : Nat := log.count (.write true)

/-- The statistics account for every access. -/
structure StatisticsAgree (c : CacheMemory ValueType) (log : List CacheCount) : Prop where
  acesses : c.getStatAcess.toNat = reads log
  hitsAndMisses : c.getStatHit + c.getStatMiss = c.getStatAcess
  evactions : c.getStatEvaction.toNat = replacements log
  valid : c.getStatEvaction.toNat + c.validCount = writes log

section Count

variable (log : List CacheCount)

theorem counts_read :
    reads (log ++ [.read]) = reads log + 1 ∧ writes (log ++ [.read]) = writes log ∧
      replacements (log ++ [.read]) = replacements log := by
  simp [reads, writes, replacements, List.countP_append, List.count_append]

theorem counts_write (replaced : Bool) :
    reads (log ++ [.write replaced]) = reads log ∧
      writes (log ++ [.write replaced]) = writes log + 1 ∧
      replacements (log ++ [.write replaced]) = replacements log + replaced.toNat := by
  cases replaced <;> simp [reads, writes, replacements, List.countP_append, List.count_append]

/-- One more index of a range meets a condition, unless it did so before. -/
theorem countP_range_of_one (p q : Nat → Bool) {k : Nat} (here : q k = true)
    (elsewhere : ∀ i, i ≠ k → q i = p i) (n : Nat) (inside : k < n) :
    (p k).toNat + (List.range n).countP q = (List.range n).countP p + 1 := by
  induction n with
  | zero => cases inside
  | succ n ih =>
    rw [List.range_succ, List.countP_append, List.countP_append, List.countP_singleton,
      List.countP_singleton]
    rcases Nat.lt_succ_iff_lt_or_eq.mp inside with before | rfl
    · rw [elsewhere n (Nat.ne_of_gt before)]
      have counted := ih before
      omega
    · have same : (List.range k).countP q = (List.range k).countP p := by
        refine List.countP_congr fun i member => ?_
        rw [elsewhere i (Nat.ne_of_lt (List.mem_range.mp member))]
      rw [same, here]
      cases p k with
      | false =>
        simp
      | true =>
        simp
        omega

end Count

/-- The place of a line when the rows lie one after the other. -/
theorem row_major_iff (set : Nat) {numWays way i : Nat} (inside : way < numWays) :
    i / numWays = set ∧ i % numWays = way ↔ i = numWays * set + way := by
  have split := Nat.div_add_mod i numWays
  constructor
  · rintro ⟨rfl, rfl⟩
    exact split.symm
  · rintro rfl
    rw [Nat.mul_add_div (by omega), Nat.mul_add_mod, Nat.div_eq_of_lt inside,
      Nat.mod_eq_of_lt inside]
    exact ⟨Nat.add_zero _, rfl⟩

section Run

variable {g : CacheGeometry} {c : CacheMemory ValueType} {log : List CacheCount}

/-- A write makes one more line valid, unless it replaces a valid one. -/
theorem validCount_write (wellFormed : c.WellFormed) (addr : BitVec 64) (value : ValueType)
    (row : (c.getIndex addr).toNat < c.numSets) :
    (c.entries (c.victim addr).1.1 (c.victim addr).1.2).isValid.toNat +
        (c.write addr value).validCount = c.validCount + 1 ∧
      0 < (c.write addr value).validCount := by
  have way := CacheMemory.victim_way_lt wellFormed addr
  have entries := (CacheMemory.write_cells wellFormed addr value).1
  rw [CacheMemory.victim_set]
  generalize c.getIndex addr = index at row entries
  generalize (c.victim addr).1.2 = way' at way entries
  have place := (row_major_iff index.toNat way).mpr rfl
  have inside : c.numWays * index.toNat + way' < c.numSets * c.numWays := by
    have rows := Nat.mul_le_mul_left c.numWays (Nat.succ_le_of_lt row)
    rw [Nat.mul_succ] at rows
    rw [Nat.mul_comm c.numSets]
    omega
  have here : ((c.write addr value).entries ((c.numWays * index.toNat + way') / c.numWays)
      ((c.numWays * index.toNat + way') % c.numWays)).isValid = true := by
    rw [entries, place.1, place.2, setCell_same]
  have counted := countP_range_of_one
    (fun i => (c.entries (i / c.numWays) (i % c.numWays)).isValid)
    (fun i => ((c.write addr value).entries (i / c.numWays) (i % c.numWays)).isValid)
    here (fun i other => by
      rw [entries, setCell_other]
      exact fun both => other ((row_major_iff _ way).mp both))
    (c.numSets * c.numWays) inside
  rw [place.1, place.2] at counted
  exact ⟨counted, List.countP_pos_iff.mpr ⟨_, List.mem_range.mpr inside, here⟩⟩

/-- What a run keeps. -/
structure Accounted (g : CacheGeometry) (c : CacheMemory ValueType) (log : List CacheCount) :
    Prop where
  geometry : c.toCacheGeometry = g
  wellFormed : c.WellFormed
  acess : c.statAcess = BitVec.ofNat 64 (reads log)
  hitsAndMisses : c.statHit + c.statMiss = c.statAcess
  evaction : c.statEvaction = BitVec.ofNat 64 (writes log)
  valid : replacements log + c.validCount = writes log
  some : 0 < writes log → 0 < c.validCount

/-- A read counts as an access, and as a hit or a miss. -/
theorem read_counters (c : CacheMemory ValueType) (addr : BitVec 64) :
    (c.read addr).2.statAcess = c.statAcess + 1 ∧
      (c.read addr).2.statHit + (c.read addr).2.statMiss = c.statHit + c.statMiss + 1 ∧
      (c.read addr).2.statEvaction = c.statEvaction := by
  unfold CacheMemory.read
  split
  · refine ⟨rfl, ?_, rfl⟩
    rw [BitVec.add_assoc, BitVec.add_comm 1, ← BitVec.add_assoc]
  · refine ⟨rfl, ?_, rfl⟩
    rw [← BitVec.add_assoc]

theorem Accounted.read (before : Accounted g c log) (addr : BitVec 64) :
    Accounted g (c.read addr).2 (log ++ [.read]) := by
  obtain ⟨reads', writes', replacements'⟩ := counts_read log
  obtain ⟨geometry', entries', _⟩ := read_frame c addr
  obtain ⟨acess', sum', evaction'⟩ := read_counters c addr
  have count' : (c.read addr).2.validCount = c.validCount := by
    unfold CacheMemory.validCount
    rw [geometry', entries']
  constructor
  · rw [geometry', before.geometry]
  · exact CacheMemory.read_wellFormed before.wellFormed addr
  · rw [acess', before.acess, reads', BitVec.ofNat_add]
    rfl
  · rw [sum', acess', before.hitsAndMisses]
  · rw [evaction', before.evaction, writes']
  · rw [replacements', count', before.valid, writes']
  · rw [writes', count']
    exact before.some

theorem Accounted.write (before : Accounted g c log) (addr : BitVec 64) (value : ValueType)
    (row : (c.getIndex addr).toNat < c.numSets) :
    Accounted g (c.write addr value)
      (log ++ [.write (c.entries (c.victim addr).1.1 (c.victim addr).1.2).isValid]) := by
  obtain ⟨counted, some⟩ := validCount_write before.wellFormed addr value row
  generalize (c.entries (c.victim addr).1.1 (c.victim addr).1.2).isValid = replaced at counted
  obtain ⟨reads', writes', replacements'⟩ := counts_write log replaced
  have valid := before.valid
  have atMostOne := Bool.toNat_le replaced
  constructor
  · exact before.geometry
  · exact CacheMemory.write_wellFormed before.wellFormed addr value
  · rw [reads']
    exact before.acess
  · exact before.hitsAndMisses
  · rw [writes', BitVec.ofNat_add, ← before.evaction]
    rfl
  · rw [replacements', writes']
    omega
  · exact fun _ => some

theorem validCount_le (c : CacheMemory ValueType) : c.validCount ≤ c.numSets * c.numWays := by
  have bound := List.countP_le_length
    (p := fun i => (c.entries (i / c.numWays) (i % c.numWays)).isValid)
    (l := List.range (c.numSets * c.numWays))
  rwa [List.length_range] at bound

/-- With any write one counter is wrong: there are more of them than replacements. -/
theorem Accounted.agree_iff (counted : Accounted g c log) (fits : c.numSets * c.numWays < 2 ^ 31) :
    StatisticsAgree c log ↔ writes log = 0 ∧ reads log < 2 ^ 64 := by
  have few := validCount_le c
  have valid := counted.valid
  have some := counted.some
  have acess : c.getStatAcess.toNat = reads log % 2 ^ 64 := by
    rw [CacheMemory.getStatAcess, counted.acess, BitVec.toNat_ofNat]
  have evaction : c.getStatEvaction.toNat = writes log % 2 ^ 64 := by
    rw [CacheMemory.getStatEvaction, counted.evaction, BitVec.toNat_ofNat]
  constructor
  · intro agree
    have acesses := agree.acesses
    have evactions := agree.evactions
    rw [acess] at acesses
    rw [evaction] at evactions
    omega
  · rintro ⟨none, small⟩
    constructor
    · rw [acess]
      exact Nat.mod_eq_of_lt small
    · exact counted.hitsAndMisses
    · rw [evaction]
      omega
    · rw [evaction]
      omega

end Run

variable {getLog2 : BitVec 32 → BitVec 32} {zeroed : ValueType} {rand : Nat → Nat}
  {c : CacheMemory ValueType}

theorem alocate_counters {index offset ways : BitVec 32} {policy : String}
    (alocated : CacheMemory.alocate zeroed rand index offset ways policy = some c) :
    c.statAcess = 0 ∧ c.statHit = 0 ∧ c.statMiss = 0 ∧ c.statEvaction = 0 := by
  unfold CacheMemory.alocate at alocated
  split at alocated
  · cases alocated
  obtain ⟨p, _, rfl⟩ := Option.map_eq_some_iff.mp alocated
  exact ⟨rfl, rfl, rfl, rfl⟩

/-- For every cache with a number of lines that is an `int` and every run since its creation:
the statistics account for every access if and only if there was no write, and the reads
are not so many that a counter wraps. -/
theorem cache_statistics (created : Created getLog2 zeroed rand c)
    (fits : 2 ^ c.indexBits.toNat * c.numWays < 2 ^ 31) (ops : List (CacheOp ValueType)) :
    StatisticsAgree (Machine.run countStep c ops).1 (Machine.run countStep c ops).2 ↔
      writes (Machine.run countStep c ops).2 = 0 ∧
        reads (Machine.run countStep c ops).2 < 2 ^ 64 := by
  obtain ⟨numIndexBits, numOffsetBits, associativity, policy, alocated⟩ := created.alocates
  obtain ⟨geometry, entries, _⟩ := alocate_eq alocated
  obtain ⟨acess, hit, miss, evaction⟩ := alocate_counters alocated
  have wellFormed := CacheMemory.wellFormed_alocate alocated
  have index : c.indexBits.toNat < 31 := by
    have sets : 2 ^ c.indexBits.toNat < 2 ^ 31 :=
      Nat.lt_of_le_of_lt (Nat.le_mul_of_pos_right _ wellFormed.ways) fits
    exact (Nat.pow_lt_pow_iff_right (by decide)).mp sets
  have sets : c.numSets = 2 ^ c.indexBits.toNat := by
    rw [geometry] at index ⊢
    change numIndexBits.toNat < 31 at index
    rw [CacheGeometry.numSets_ofBits, Nat.mod_eq_of_lt (by omega)]
    rfl
  have rows : ∀ addr, (c.getIndex addr).toNat < c.numSets := by
    intro addr
    rw [geometry] at index ⊢
    change numIndexBits.toNat < 31 at index
    exact CacheGeometry.getIndex_lt _ _ _ addr (by omega)
  have counted : Accounted c.toCacheGeometry (Machine.run countStep c ops).1
      (Machine.run countStep c ops).2 := by
    refine Machine.run_induction countStep (P := fun t _ log => Accounted c.toCacheGeometry t log)
      ?_ ?_ ops
    · refine ⟨rfl, wellFormed, acess, ?_, evaction, ?_, fun none => by cases none⟩
      · rw [acess, hit, miss]
        rfl
      · rw [CacheMemory.validCount, entries]
        simp [writes, replacements]
    · intro t _ log op before
      cases op with
      | read addr => exact before.read addr
      | write addr value =>
        refine before.write addr value ?_
        have row := rows addr
        rw [← before.geometry] at row
        exact row
  apply counted.agree_iff
  rw [counted.geometry, sets]
  exact fits

/-- Hits and misses in both sets, with the fills between them. -/
def hitsAndMisses : List (CacheOp Nat) :=
  [.read 0, .write 0 7, .read 8, .read 64, .write 64 9, .read 72, .read 128]

/-- The fills spoil the statistics of evictions, the reads alone do not. -/
theorem cache_statistics_of_hits :
    (Machine.run countStep twoWays hitsAndMisses).1.getStatHit = 2 ∧
      (Machine.run countStep twoWays hitsAndMisses).1.getStatMiss = 3 ∧
      ¬ StatisticsAgree (Machine.run countStep twoWays hitsAndMisses).1
        (Machine.run countStep twoWays hitsAndMisses).2 ∧
      StatisticsAgree (Machine.run countStep twoWays [.read 0, .read 64, .read 8]).1
        (Machine.run countStep twoWays [.read 0, .read 64, .read 8]).2 := by
  have mixed := cache_statistics twoWays_created (by decide +kernel) hitsAndMisses
  have misses := cache_statistics twoWays_created (by decide +kernel) [.read 0, .read 64, .read 8]
  refine ⟨by decide +kernel, by decide +kernel, fun agree => ?_,
    misses.mpr ⟨by decide +kernel, by decide +kernel⟩⟩
  exact absurd (mixed.mp agree).1 (by decide +kernel)

/-- One write, into an empty line, is counted as an eviction. -/
theorem fill_is_counted_as_evaction :
    Created (fun _ => 0) 0 (fun _ => 0) twoWays ∧
      ¬ StatisticsAgree (Machine.run countStep twoWays [.write 0 7]).1
        (Machine.run countStep twoWays [.write 0 7]).2 := by
  refine ⟨twoWays_created, fun agree => ?_⟩
  have evactions := agree.evactions
  revert evactions
  decide +kernel

end Sinuca3.Guarantees
