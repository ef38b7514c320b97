import Sinuca3.Lib.Machine
import Sinuca3.Source.Utils.Cache.CacheMemory

/-!
# Coherence of one cache

A read that hits returns the value of the last write to the line it reads, as
long as no write puts a line in a second way of its row. `Write` does not look for
a line of the same tag before it takes an empty way or evicts: writing an address
that is already cached leaves two valid lines, and reads find the first of them.
-/
namespace Sinuca3.Guarantees
open Sinuca3.Source Lib

variable {ValueType : Type}

inductive CacheOp (ValueType : Type) where
  | read (addr : BitVec 64)
  | write (addr : BitVec 64) (value : ValueType)

inductive CacheEvent (ValueType : Type) where
  | read (addr : BitVec 64) (result : Option ValueType)
  | write (addr : BitVec 64) (value : ValueType)

def cacheStep (c : CacheMemory ValueType) :
    CacheOp ValueType → CacheMemory ValueType × List (CacheEvent ValueType)
  | .read addr => ((c.read addr).2, [.read addr (c.read addr).1])
  | .write addr value => (c.write addr value, [.write addr value])

/-- Two addresses of one line: same tag and same index. -/
def SameLine (g : CacheGeometry) (a b : BitVec 64) : Prop :=
  g.getTag a = g.getTag b ∧ g.getIndex a = g.getIndex b

instance (g : CacheGeometry) (a b : BitVec 64) : Decidable (SameLine g a b) :=
  inferInstanceAs (Decidable (_ ∧ _))

/-- The value of the most recent write to the line of `a`. -/
def lastWritten (g : CacheGeometry) (a : BitVec 64) (log : List (CacheEvent ValueType)) :
    Option ValueType :=
  log.foldl (fun last e =>
    match e with
    | .write b value => if SameLine g b a then some value else last
    | .read _ _ => last) none

/-- Every read that returns a value returns the most recent write to its line, and
a read right after a write to its address returns what was written. -/
structure Coherent (g : CacheGeometry) (log : List (CacheEvent ValueType)) : Prop where
  latest : ∀ before a value after, log = before ++ .read a (some value) :: after →
    lastWritten g a before = some value
  readBack : ∀ before a value result after,
    log = before ++ .write a value :: .read a result :: after → result = some value

/-- The line of `addr` is in no way but the one a write to `addr` would take. -/
def NoSecondLine (c : CacheMemory ValueType) (addr : BitVec 64) : Prop :=
  let row := (c.getIndex addr).toNat
  ∀ way < c.numWays, (c.entries row way).isValid = true → (c.entries row way).tag = c.getTag addr →
    way = (c.victim addr).1.2

instance (c : CacheMemory ValueType) (addr : BitVec 64) : Decidable (NoSecondLine c addr) :=
  inferInstanceAs (Decidable (∀ way < c.numWays, _ → _ → _))

/-- The condition on a step: a write makes no second line. -/
def MakesNoSecondLine (c : CacheMemory ValueType) : CacheOp ValueType → Prop
  | .read _ => True
  | .write addr _ => NoSecondLine c addr

instance (c : CacheMemory ValueType) : DecidablePred (MakesNoSecondLine c)
  | .read _ => isTrue trivial
  | .write addr _ => inferInstanceAs (Decidable (NoSecondLine c addr))

theorem lastWritten_write (g : CacheGeometry) (a b : BitVec 64) (value : ValueType)
    (log : List (CacheEvent ValueType)) :
    lastWritten g a (log ++ [.write b value]) =
      if SameLine g b a then some value else lastWritten g a log := by
  unfold lastWritten
  rw [List.foldl_append]
  rfl

theorem lastWritten_read (g : CacheGeometry) (a b : BitVec 64) (result : Option ValueType)
    (log : List (CacheEvent ValueType)) :
    lastWritten g a (log ++ [.read b result]) = lastWritten g a log := by
  unfold lastWritten
  rw [List.foldl_append]
  rfl

/-- Every valid line of the cache holds the last value written to it. -/
structure UpToDate (c : CacheMemory ValueType) (log : List (CacheEvent ValueType)) : Prop where
  wellFormed : c.WellFormed
  value : ∀ a, ∀ way < c.numWays, (c.entries (c.getIndex a).toNat way).isValid = true →
    (c.entries (c.getIndex a).toNat way).tag = c.getTag a →
    lastWritten c.toCacheGeometry a log = some (c.data (c.getIndex a).toNat way)

/-- A hit is on a valid line of the address, in the row of its index. -/
theorem getEntry_some {c : CacheMemory ValueType} {addr : BitVec 64} {cell : Nat × Nat}
    (found : c.getEntry addr = some cell) :
    cell.1 = (c.getIndex addr).toNat ∧ cell.2 < c.numWays ∧
      (c.entries cell.1 cell.2).isValid = true ∧ (c.entries cell.1 cell.2).tag = c.getTag addr := by
  unfold CacheMemory.getEntry at found
  obtain ⟨way, first, rfl⟩ := Option.map_eq_some_iff.mp found
  have valid := List.find?_some first
  have inside := List.mem_of_find?_eq_some first
  rw [Bool.and_eq_true] at valid
  exact ⟨rfl, List.mem_range.mp inside, valid.1, eq_of_beq valid.2⟩

/-- A line of the address makes `GetEntry` hit. -/
theorem getEntry_isSome (c : CacheMemory ValueType) (addr : BitVec 64) {way : Nat}
    (inside : way < c.numWays) (valid : (c.entries (c.getIndex addr).toNat way).isValid = true)
    (tag : (c.entries (c.getIndex addr).toNat way).tag = c.getTag addr) :
    ∃ cell, c.getEntry addr = some cell := by
  unfold CacheMemory.getEntry
  rw [← Option.isSome_iff_exists, Option.isSome_map, List.find?_isSome]
  exact ⟨way, List.mem_range.mpr inside, by simp [valid, tag]⟩

/-- What a read returns: the cell `GetEntry` finds. -/
theorem read_result {c : CacheMemory ValueType} (wellFormed : c.WellFormed) (addr : BitVec 64) :
    (c.read addr).1 = (c.getEntry addr).map fun cell => c.data cell.1 cell.2 := by
  unfold CacheMemory.read
  split
  · rename_i set way found
    dsimp only
    rw [found, (wellFormed.place set way).1, (wellFormed.place set way).2]
    rfl
  · rename_i missed
    rw [missed]
    rfl

theorem read_upToDate {c : CacheMemory ValueType} {log : List (CacheEvent ValueType)}
    (before : UpToDate c log) (addr : BitVec 64) (value : ValueType)
    (hit : (c.read addr).1 = some value) :
    lastWritten c.toCacheGeometry addr log = some value := by
  rw [read_result before.wellFormed] at hit
  obtain ⟨cell, found, rfl⟩ := Option.map_eq_some_iff.mp hit
  obtain ⟨row, inside, valid, tag⟩ := getEntry_some found
  rw [row] at valid tag ⊢
  exact before.value addr cell.2 inside valid tag

/-- After a write that makes no second line, the line of its address holds its
value in every way that has it. -/
theorem write_upToDate {c : CacheMemory ValueType} {log : List (CacheEvent ValueType)}
    (before : UpToDate c log) (addr : BitVec 64) (value : ValueType)
    (noSecond : NoSecondLine c addr) :
    UpToDate (c.write addr value) (log ++ [.write addr value]) := by
  obtain ⟨entries, data⟩ := CacheMemory.write_cells before.wellFormed addr value
  constructor
  · exact CacheMemory.write_wellFormed before.wellFormed addr value
  · intro a way inside valid tag
    change lastWritten c.toCacheGeometry a _ = _
    change ((c.write addr value).entries (c.getIndex a).toNat way).isValid = true at valid
    change ((c.write addr value).entries (c.getIndex a).toNat way).tag = c.getTag a at tag
    change _ = some ((c.write addr value).data (c.getIndex a).toNat way)
    rw [entries] at valid tag
    rw [data, lastWritten_write]
    by_cases here : (c.getIndex a).toNat = (c.getIndex addr).toNat ∧ way = (c.victim addr).1.2
    · -- The written line is one of `a` exactly when its tag is that of `a`.
      obtain ⟨row, rfl⟩ := here
      rw [row, setCell_same] at tag
      rw [row, setCell_same, if_pos ⟨tag, (BitVec.eq_of_toNat_eq row).symm⟩]
    · rw [setCell_other _ _ _ _ _ _ here] at valid tag
      rw [setCell_other _ _ _ _ _ _ here]
      have otherLine : ¬ SameLine c.toCacheGeometry addr a := by
        rintro ⟨sameTag, sameIndex⟩
        have row : (c.getIndex a).toNat = (c.getIndex addr).toNat := by rw [sameIndex]
        rw [row] at valid tag
        exact here ⟨row, noSecond way inside valid (tag.trans sameTag.symm)⟩
      rw [if_neg otherLine]
      exact before.value a way inside valid tag

/-- A read of the written address hits, so it returns the value written. -/
theorem read_write {c : CacheMemory ValueType} {log : List (CacheEvent ValueType)}
    (before : UpToDate c log) (addr : BitVec 64) (value : ValueType)
    (noSecond : NoSecondLine c addr) :
    ((c.write addr value).read addr).1 = some value := by
  have after := write_upToDate before addr value noSecond
  obtain ⟨entries, _⟩ := CacheMemory.write_cells before.wellFormed addr value
  have line : (c.write addr value).entries (c.getIndex addr).toNat (c.victim addr).1.2 =
      { tag := c.getTag addr, index := c.getIndex addr, isValid := true,
        i := (c.getIndex addr).toNat, j := (c.victim addr).1.2 } := by
    rw [entries, setCell_same]
  have inside := CacheMemory.victim_way_lt before.wellFormed addr
  obtain ⟨cell, found⟩ := getEntry_isSome (c.write addr value) addr inside
    (congrArg CacheLine.isValid line) (congrArg CacheLine.tag line)
  have hit : ((c.write addr value).read addr).1 =
      some ((c.write addr value).data cell.1 cell.2) := by
    rw [read_result after.wellFormed, found]
    rfl
  have latest := read_upToDate after addr _ hit
  rw [lastWritten_write, if_pos ⟨rfl, rfl⟩] at latest
  rw [hit, ← latest]

/-- The invariant of a run: the cache is up to date, the log is coherent, and a
read of the address written last would return what was written. -/
structure Reading (g : CacheGeometry) (c : CacheMemory ValueType)
    (log : List (CacheEvent ValueType)) : Prop where
  geometry : c.toCacheGeometry = g
  upToDate : UpToDate c log
  coherent : Coherent g log
  ready : ∀ before a value, log = before ++ [.write a value] → (c.read a).1 = some value

/-- What the three ways of creating a cache return when they succeed. -/
def Created (getLog2 : BitVec 32 → BitVec 32) (zeroed : ValueType) (rand : Nat → Nat)
    (c : CacheMemory ValueType) : Prop :=
  (∃ index offset ways policy,
    CacheMemory.fromBits zeroed rand index offset ways policy = some c) ∨
  (∃ sets line ways policy,
    CacheMemory.fromNumSets getLog2 zeroed rand sets line ways policy = some c) ∨
  ∃ size line ways policy,
    CacheMemory.fromCacheSize getLog2 zeroed rand size line ways policy = some c

theorem Created.alocates {getLog2 : BitVec 32 → BitVec 32} {zeroed : ValueType}
    {rand : Nat → Nat} {c : CacheMemory ValueType} (created : Created getLog2 zeroed rand c) :
    ∃ index offset ways policy,
      CacheMemory.alocate zeroed rand index offset ways policy = some c := by
  rcases created with bits | ⟨sets, line, ways, policy, sized⟩ | ⟨size, line, ways, policy, sized⟩
  · exact bits
  · obtain ⟨index, offset, alocated⟩ := CacheMemory.fromNumSets_alocates sized
    exact ⟨index, offset, ways, policy, alocated⟩
  · obtain ⟨index, offset, alocated⟩ := CacheMemory.fromCacheSize_alocates sized
    exact ⟨index, offset, ways, policy, alocated⟩

/-- A new cache has no valid line, and nothing has been read. -/
theorem Created.reading {getLog2 : BitVec 32 → BitVec 32} {zeroed : ValueType}
    {rand : Nat → Nat} {c : CacheMemory ValueType} (created : Created getLog2 zeroed rand c) :
    Reading c.toCacheGeometry c [] := by
  obtain ⟨index, offset, ways, policy, alocated⟩ := created.alocates
  have wellFormed := CacheMemory.wellFormed_alocate alocated
  unfold CacheMemory.alocate at alocated
  split at alocated
  · cases alocated
  obtain ⟨p, _, rfl⟩ := Option.map_eq_some_iff.mp alocated
  constructor
  · rfl
  · constructor
    · exact wellFormed
    · intro a way _ valid
      cases valid
  · constructor
    · intro before a value after split
      simp at split
    · intro before a value result after split
      simp at split
  · intro before a value split
    simp at split

/-- A log grows by one event; the read-back law looks at the last two. -/
theorem Coherent.concat {g : CacheGeometry} {log : List (CacheEvent ValueType)}
    (before : Coherent g log) (e : CacheEvent ValueType)
    (latest : ∀ a value, e = .read a (some value) → lastWritten g a log = some value)
    (readBack : ∀ before a value result, log = before ++ [.write a value] → e = .read a result →
      result = some value) : Coherent g (log ++ [e]) := by
  have explained : Machine.Explained
      (fun first e' => ∀ a value, e' = .read a (some value) → lastWritten g a first = some value)
      (log ++ [e]) := by
    apply Machine.Explained.concat
    · rintro first e' after split a value rfl
      exact before.latest first a value after split
    · exact latest
  constructor
  · intro first a value after split
    exact explained first _ after split a value rfl
  · intro first a value result after split
    rcases List.eq_nil_or_concat after with rfl | ⟨rest, last, rfl⟩
    · have shifted : log ++ [e] = (first ++ [.write a value]) ++ [.read a result] := by
        simpa using split
      obtain ⟨same, ends⟩ := List.append_inj' shifted rfl
      exact readBack first a value result same (List.singleton_inj.mp ends)
    · have shifted : log ++ [e] =
          (first ++ .write a value :: .read a result :: rest) ++ [last] := by simpa using split
      exact before.readBack first a value result rest (List.append_inj' shifted rfl).1

theorem step_preserves_reading {g : CacheGeometry} {c : CacheMemory ValueType}
    {log : List (CacheEvent ValueType)} (before : Reading g c log) (op : CacheOp ValueType)
    (noSecond : MakesNoSecondLine c op) :
    Reading g (cacheStep c op).1 (log ++ (cacheStep c op).2) := by
  obtain ⟨rfl, upToDate, coherent, ready⟩ := before
  cases op with
  | read addr =>
    have wellFormed := CacheMemory.read_wellFormed upToDate.wellFormed addr
    have same : (c.read addr).2.toCacheGeometry = c.toCacheGeometry ∧
        (c.read addr).2.entries = c.entries ∧ (c.read addr).2.data = c.data := by
      unfold CacheMemory.read
      split <;> exact ⟨rfl, rfl, rfl⟩
    constructor
    · exact same.1
    · constructor
      · exact wellFormed
      · intro a way inside valid tag
        dsimp only [cacheStep] at *
        rw [same.1] at inside valid tag ⊢
        rw [same.2.1] at valid tag
        rw [same.2.2, lastWritten_read]
        exact upToDate.value a way inside valid tag
    · apply coherent.concat
      · intro a value event
        obtain ⟨rfl, hit⟩ := CacheEvent.read.inj event
        exact read_upToDate upToDate addr value hit
      · intro first a value result ends event
        obtain ⟨rfl, answer⟩ := CacheEvent.read.inj event
        rw [← answer]
        exact ready first addr value ends
    · intro first a value split
      have last := (List.append_inj' split rfl).2
      cases List.singleton_inj.mp last
  | write addr value =>
    constructor
    · rfl
    · exact write_upToDate upToDate addr value noSecond
    · apply coherent.concat
      · rintro a value event
        cases event
      · rintro first a value result ends event
        cases event
    · intro first a value' split
      cases List.singleton_inj.mp (List.append_inj' split rfl).2
      exact read_write upToDate addr value noSecond

/-- For every cache, however created, and every sequence of reads and writes in
which no write makes a second line, the cache is coherent. -/
theorem cache_coherent {getLog2 : BitVec 32 → BitVec 32} {zeroed : ValueType}
    {rand : Nat → Nat} {c : CacheMemory ValueType} (created : Created getLog2 zeroed rand c)
    (ops : List (CacheOp ValueType))
    (noSecond : Machine.Meets cacheStep MakesNoSecondLine c ops) :
    Coherent c.toCacheGeometry (Machine.run cacheStep c ops).2 := by
  have reading : Reading c.toCacheGeometry (Machine.run cacheStep c ops).1
      (Machine.run cacheStep c ops).2 := by
    apply Machine.run_induction_of_meets cacheStep MakesNoSecondLine
      (P := fun t _ log => Reading c.toCacheGeometry t log)
    · exact created.reading
    · intro t done log op before here
      exact step_preserves_reading before op here
    · exact noSecond
  exact reading.coherent

/-- A write to an address that is not cached makes no second line. -/
theorem noSecondLine_of_miss {c : CacheMemory ValueType} {addr : BitVec 64}
    (missed : c.getEntry addr = none) : NoSecondLine c addr := by
  intro way inside valid tag
  obtain ⟨cell, found⟩ := getEntry_isSome c addr inside valid tag
  rw [missed] at found
  cases found

/-- A direct-mapped cache has no room for one. -/
theorem noSecondLine_of_directMapped {c : CacheMemory ValueType} (wellFormed : c.WellFormed)
    (direct : c.numWays = 1) (addr : BitVec 64) : NoSecondLine c addr := by
  intro way inside _ _
  have chosen := CacheMemory.victim_way_lt wellFormed addr
  omega

/-- Two sets of two ways, with lines of 64 octets. -/
def twoWays : CacheMemory Nat :=
  (CacheMemory.fromBits 0 (fun _ => 0) 1 6 2 "lru").get (by decide)

theorem twoWays_created : Created (fun _ => 0) 0 (fun _ => 0) twoWays :=
  Or.inl ⟨1, 6, 2, "lru", (Option.some_get _).symm⟩

theorem cache_coherent_two_lines :
    Coherent twoWays.toCacheGeometry
      (Machine.run cacheStep twoWays [.write 0 1, .read 8, .write 128 2, .read 0]).2 :=
  cache_coherent twoWays_created _
    ⟨by decide +kernel, trivial, by decide +kernel, trivial, trivial⟩

/-- The second write goes to the empty way, and the read finds the first one. -/
theorem cache_reads_stale_line :
    Created (fun _ => 0) 0 (fun _ => 0) twoWays ∧
    ¬ Coherent twoWays.toCacheGeometry
      (Machine.run cacheStep twoWays [.write 0 1, .write 0 2, .read 0]).2 := by
  constructor
  · exact twoWays_created
  · intro coherent
    have stale := coherent.readBack [.write 0 1] 0 2 (some 1) [] rfl
    cases stale

end Sinuca3.Guarantees
