import Sinuca3.Guarantees.AddressDecomposition
import Sinuca3.Guarantees.CacheStatistics
import Sinuca3.Guarantees.LruReplacement
import Sinuca3.Guarantees.TlbService
import Sinuca3.Lib.LruStack

/-!
# Stack distance

What an LRU cache holds when every line that a lookup misses is then written: in each set
the lines used last, as many as there are ways. A lookup hits if and only if its line was
looked up before, and since then fewer other lines of its set than there are ways.
-/
namespace Sinuca3.Guarantees
open Sinuca3.Source Lib

variable {ValueType : Type}

/-- A lookup as the instruction TLB makes it, with whether it hits. -/
def lookup (value : BitVec 64 → ValueType) (c : CacheMemory ValueType) (addr : BitVec 64) :
    CacheMemory ValueType × List (BitVec 64 × Bool) :=
  match c.read addr with
  | (some _, c) => (c, [(addr, true)])
  | (none, c) => (c.write addr (value addr), [(addr, false)])

/-- The tags of the references to a set. -/
def tagsOf (g : CacheGeometry) (set : Nat) (refs : List (BitVec 64)) : List (BitVec 64) :=
  (refs.filter fun addr => (g.getIndex addr).toNat = set).map g.getTag

theorem tagsOf_concat (g : CacheGeometry) (set : Nat) (refs : List (BitVec 64))
    (addr : BitVec 64) : tagsOf g set (refs ++ [addr]) =
      tagsOf g set refs ++ if (g.getIndex addr).toNat = set then [g.getTag addr] else [] := by
  by_cases here : (g.getIndex addr).toNat = set <;> simp [tagsOf, here]

/-- Whether the line of an address is among so many of its set that were used last. -/
def RecentlyUsed (g : CacheGeometry) (refs : List (BitVec 64)) (addr : BitVec 64) : Prop :=
  LruStack.Recent g.numWays (g.getTag addr) (tagsOf g (g.getIndex addr).toNat refs)

instance (g : CacheGeometry) (refs : List (BitVec 64)) (addr : BitVec 64) :
    Decidable (RecentlyUsed g refs addr) :=
  inferInstanceAs (Decidable (LruStack.Recent ..))

/-- A cache after lookups: the ways of a set, the last used on top, hold the lines that were
looked up last. -/
structure Stacked (g : CacheGeometry) (c : CacheMemory ValueType) (log : List CacheAccess)
    (refs : List (BitVec 64)) : Prop where
  recorded : Recorded g c log
  counts : CountsAges c log
  valid : ∀ set way, way ∈ usesOf set log → (c.entries set way).isValid = true
  lines : ∀ set, (LruStack.stack (usesOf set log)).map (fun way => (c.entries set way).tag) =
    LruStack.resident g.numWays (tagsOf g set refs)
  length : log.length = refs.length

variable {g : CacheGeometry} {c : CacheMemory ValueType} {log : List CacheAccess}
  {refs : List (BitVec 64)}

theorem mem_usesOf {set way : Nat} :
    way ∈ usesOf set log ↔ ∃ a ∈ log, a.set = set ∧ a.way = way := by
  simp [usesOf, and_assoc]

theorem Recorded.way_lt (recorded : Recorded g c log) {set way : Nat}
    (used : way ∈ usesOf set log) : way < g.numWays := by
  obtain ⟨a, member, _, rfl⟩ := mem_usesOf.mp used
  exact (recorded.used a member).2

/-- A line that is valid was filled. -/
theorem Recorded.used_of_valid (recorded : Recorded g c log) {set way : Nat}
    (valid : (c.entries set way).isValid = true) : way ∈ usesOf set log := by
  rw [recorded.lines] at valid
  rcases filled : filledFor set way log with _ | addr
  · rw [filled] at valid
    cases valid
  · obtain ⟨a, last, _⟩ := Option.map_eq_some_iff.mp filled
    obtain ⟨member, kind⟩ := List.mem_filter.mp (List.mem_of_getLast? last)
    simp only [Bool.and_eq_true, beq_iff_eq] at kind
    exact mem_usesOf.mpr ⟨a, member, kind.1.2, kind.2⟩

/-- A set is never used more often than the cache. -/
theorem age_le (log : List CacheAccess) (set way : Nat) : age log set way ≤ log.length := by
  unfold age Recency.since
  calc _ ≤ (usesOf set log).reverse.length := (List.takeWhile_sublist _).length_le
    _ = (log.filter (·.set == set)).length := by rw [List.length_reverse, usesOf, List.length_map]
    _ ≤ log.length := List.length_filter_le ..

/-- A lookup hits if and only if its line is among those used last. -/
theorem Stacked.hit_iff (before : Stacked g c log refs) (addr : BitVec 64) :
    (∃ cell, c.getEntry addr = some cell) ↔ RecentlyUsed g refs addr := by
  unfold RecentlyUsed
  rw [← LruStack.mem_resident_iff, ← before.lines, List.mem_map]
  constructor
  · rintro ⟨cell, found⟩
    obtain ⟨row, _, valid, tag⟩ := getEntry_some found
    rw [before.recorded.geometry] at row tag
    rw [row] at valid tag
    exact ⟨cell.2, LruStack.mem_stack.mpr (before.recorded.used_of_valid valid), tag⟩
  · rintro ⟨way, member, tag⟩
    have used := LruStack.mem_stack.mp member
    rw [← before.recorded.geometry] at used tag
    apply getEntry_isSome c addr _ (before.valid _ way used) tag
    rw [before.recorded.geometry]
    exact before.recorded.way_lt used

/-- The use of a way whose line has just come to it, or was found there. The lines of other
ways stay. -/
theorem Stacked.use {c' : CacheMemory ValueType} (before : Stacked g c log refs)
    {a : CacheAccess} (recorded : Recorded g c' (log ++ [a])) (counts : CountsAges c' (log ++ [a]))
    (row : a.set = (g.getIndex a.addr).toNat)
    (here : (c'.entries a.set a.way).isValid = true ∧
      (c'.entries a.set a.way).tag = g.getTag a.addr)
    (others : ∀ set way, ¬ (set = a.set ∧ way = a.way) → c'.entries set way = c.entries set way)
    (place : g.getTag a.addr :: ((LruStack.stack (usesOf a.set log)).erase a.way).map
        (fun way => (c.entries a.set way).tag) =
      LruStack.resident g.numWays (tagsOf g a.set refs ++ [g.getTag a.addr])) :
    Stacked g c' (log ++ [a]) (refs ++ [a.addr]) where
  recorded := recorded
  counts := counts
  valid set way used := by
    by_cases same : set = a.set ∧ way = a.way
    · obtain ⟨rfl, rfl⟩ := same
      exact here.1
    · rw [others set way same]
      apply before.valid
      rw [usesOf_concat, List.mem_append] at used
      refine used.resolve_right fun new => same ?_
      split at new
      · rename_i known
        exact ⟨known.symm, List.mem_singleton.mp new⟩
      · cases new
  lines set := by
    rw [usesOf_concat, tagsOf_concat, ← row]
    by_cases same : a.set = set
    · subst same
      rw [if_pos rfl, if_pos rfl, LruStack.stack_concat, List.map_cons, here.2, ← place]
      congr 1
      apply List.map_congr_left
      intro way member
      rw [others a.set way]
      rintro ⟨_, rfl⟩
      exact (LruStack.nodup_stack _).not_mem_erase member
    · rw [if_neg same, if_neg same, List.append_nil, List.append_nil, ← before.lines]
      apply List.map_congr_left
      intro way _
      rw [others set way fun both => same both.1.symm]
  length := by rw [List.length_append, List.length_append, before.length]; rfl

/-- A hit brings its way to the top. -/
theorem Stacked.hit (before : Stacked g c log refs) {addr : BitVec 64} {cell : Nat × Nat}
    (found : c.getEntry addr = some cell) :
    Stacked g (c.read addr).2 (log ++ [⟨cell.1, cell.2, addr, false⟩]) (refs ++ [addr]) := by
  have recorded := before.recorded.step (.read addr)
  have counts := before.counts.step before.recorded (.read addr)
  simp only [accessStep, found, Option.toList_some, List.map_singleton] at recorded counts
  obtain ⟨row, _, valid, tag⟩ := getEntry_some found
  rw [before.recorded.geometry] at row tag
  have entries := (read_frame c addr).2.1
  have distinct := LruStack.nodup_resident g.numWays (tagsOf g cell.1 refs)
  rw [← before.lines] at distinct
  have member := LruStack.mem_stack.mpr (before.recorded.used_of_valid valid)
  have held : g.getTag addr ∈ LruStack.resident g.numWays (tagsOf g cell.1 refs) := by
    rw [← before.lines, ← tag]
    exact List.mem_map_of_mem member
  refine before.use recorded counts row ?_ ?_ ?_
  · rw [entries]
    exact ⟨valid, tag⟩
  · intro set way _
    rw [entries]
  · rw [LruStack.map_erase_of_nodup _ distinct member, before.lines,
      LruStack.resident_concat_of_mem held, tag]

/-- The way that a fill is given was not used, or all were and it is the one used longest
ago. -/
theorem Stacked.victim (before : Stacked g c log refs) (few : refs.length < 2 ^ 32)
    (addr : BitVec 64) :
    let uses := usesOf (g.getIndex addr).toNat log
    let way := (c.victim addr).1.2
    way ∉ uses ∨ (∀ other < g.numWays, other ∈ uses) ∧ ∀ other ∈ uses, other ≠ way →
      Recency.since other uses < Recency.since way uses := by
  intro uses way
  have geometry := before.recorded.geometry
  rcases full : c.findEmptyEntry addr with _ | cell
  · right
    obtain ⟨counters, kind, ages⟩ := before.counts
    rw [geometry] at ages
    have all : ∀ other < g.numWays, other ∈ uses := by
      intro other inside
      obtain ⟨a, member, _, row, rfl⟩ :=
        before.recorded.filled_of_full full (by rw [geometry]; exact inside)
      rw [geometry] at row
      exact mem_usesOf.mpr ⟨a, member, row, rfl⟩
    have chosen : way =
        ReplacementPolicy.lruVictim (counters (g.getIndex addr).toNat) g.numWays := by
      have ways := before.recorded.wellFormed.samePolicy
      rw [geometry] at ways
      change (c.victim addr).1.2 = _
      unfold CacheMemory.victim ReplacementPolicy.selectVictim
      rw [full, kind, geometry]
      dsimp only
      rw [ways]
    have inside : way < g.numWays := by
      have bound := CacheMemory.victim_way_lt before.recorded.wellFormed addr
      rwa [geometry] at bound
    have exactAge : ∀ other < g.numWays,
        (counters (g.getIndex addr).toNat other).toNat = Recency.since other uses := by
      intro other within
      rw [ages _ other within, BitVec.toNat_ofNat]
      apply Nat.mod_eq_of_lt
      have bound := age_le log (g.getIndex addr).toNat other
      rw [before.length] at bound
      exact Nat.lt_of_le_of_lt bound few
    refine ⟨all, fun other member different => ?_⟩
    have within := before.recorded.way_lt member
    have most := ReplacementPolicy.le_lruVictim (counters (g.getIndex addr).toNat) g.numWays within
    rw [← chosen, exactAge other within, exactAge way inside] at most
    refine Nat.lt_of_le_of_ne most fun same => different ?_
    exact Recency.since_injective member (all way inside) same
  · left
    have chosen : way = cell.2 := by
      change (c.victim addr).1.2 = _
      unfold CacheMemory.victim
      rw [full]
    have empty : (c.entries (g.getIndex addr).toNat cell.2).isValid = false := by
      unfold CacheMemory.findEmptyEntry at full
      obtain ⟨other, first, rfl⟩ := Option.map_eq_some_iff.mp full
      rw [geometry] at first
      simpa using List.find?_some first
    intro used
    rw [chosen] at used
    rw [before.valid _ _ used] at empty
    cases empty

/-- Reading what is not there. -/
theorem Stacked.missed (before : Stacked g c log refs) {addr : BitVec 64}
    (absent : c.getEntry addr = none) : Stacked g (c.read addr).2 log refs := by
  have recorded := before.recorded.step (.read addr)
  have counts := before.counts.step before.recorded (.read addr)
  simp only [accessStep, absent, Option.toList_none, List.map_nil, List.append_nil]
    at recorded counts
  have entries := (read_frame c addr).2.1
  refine ⟨recorded, counts, fun set way used => ?_, fun set => ?_, before.length⟩
  · rw [entries]
    exact before.valid set way used
  · rw [entries]
    exact before.lines set

/-- As many ways of a set are used as there are lines of it in the cache. -/
theorem Stacked.length_resident (before : Stacked g c log refs) (set : Nat) :
    (LruStack.resident g.numWays (tagsOf g set refs)).length =
      (LruStack.stack (usesOf set log)).length := by
  rw [← before.lines, List.length_map]

/-- A fill puts its line on top, and the one at the bottom leaves a full set. -/
theorem Stacked.fill (before : Stacked g c log refs) (few : refs.length < 2 ^ 32)
    {addr : BitVec 64} (absent : ¬ RecentlyUsed g refs addr) (value : ValueType) :
    Stacked g (c.write addr value)
      (log ++ [⟨(c.victim addr).1.1, (c.victim addr).1.2, addr, true⟩]) (refs ++ [addr]) := by
  have recorded := before.recorded.step (.write addr value)
  have counts := before.counts.step before.recorded (.write addr value)
  simp only [accessStep] at recorded counts
  have inside := CacheMemory.victim_way_lt before.recorded.wellFormed addr
  obtain ⟨entries, _⟩ := CacheMemory.write_cells before.recorded.wellFormed addr value
  have choice := before.victim few addr
  have row := CacheMemory.victim_set c addr
  rw [before.recorded.geometry] at inside entries row
  dsimp only at entries choice
  generalize (c.victim addr).1 = cell at *
  obtain ⟨set, way⟩ := cell
  dsimp only at *
  subst row
  unfold RecentlyUsed at absent
  rw [← LruStack.mem_resident_iff] at absent
  refine before.use recorded counts rfl ?_ ?_ ?_
  · rw [entries, setCell_same]
    exact ⟨rfl, rfl⟩
  · intro set' way' different
    rw [entries, setCell_other _ _ _ _ _ _ different]
  · have held := before.length_resident (g.getIndex addr).toNat
    have lines := before.lines (g.getIndex addr).toNat
    have top : LruStack.resident g.numWays
        (tagsOf g (g.getIndex addr).toNat refs ++ [g.getTag addr]) =
        g.getTag addr :: LruStack.resident (g.numWays - 1)
          (tagsOf g (g.getIndex addr).toNat refs) := by
      obtain ⟨fewer, ways⟩ := Nat.exists_eq_succ_of_ne_zero (Nat.ne_zero_of_lt inside)
      rw [ways] at absent ⊢
      exact LruStack.resident_concat_of_not_mem absent
    rw [top]
    congr 1
    rcases choice with unused | ⟨all, oldest⟩
    · have below : (LruStack.stack (usesOf (g.getIndex addr).toNat log)).length < g.numWays := by
        apply LruStack.length_stack_lt inside unused
        exact fun other used => before.recorded.way_lt used
      rw [List.erase_of_not_mem fun member => unused (LruStack.mem_stack.mp member), lines]
      exact (LruStack.resident_of_length_le (Nat.sub_le _ _) (by omega)).symm
    · have full : (LruStack.stack (usesOf (g.getIndex addr).toNat log)).length = g.numWays := by
        apply LruStack.length_stack_of_all all
        exact fun other used => before.recorded.way_lt used
      have bottom := LruStack.erase_append_of_oldest (all way inside) oldest
      rw [← bottom, List.map_append, List.map_singleton] at lines
      rw [LruStack.resident_of_le (Nat.sub_le g.numWays 1), ← lines, List.take_left']
      rw [← bottom, List.length_append, List.length_singleton] at full
      rw [List.length_map]
      omega

/-- The hits and misses are those of the distances, as far as the counters of 32 bits go. -/
def HitsRecent (g : CacheGeometry) (taken : List (BitVec 64 × Bool)) : Prop :=
  Machine.Explained (fun earlier lookup => earlier.length < 2 ^ 32 →
    (lookup.2 = true ↔ RecentlyUsed g (earlier.map Prod.fst) lookup.1)) taken

/-- A cache after lookups. -/
structure LookedUp (g : CacheGeometry) (c : CacheMemory ValueType)
    (taken : List (BitVec 64 × Bool)) : Prop where
  stacked : taken.length ≤ 2 ^ 32 → ∃ log, Stacked g c log (taken.map Prod.fst)
  hits : HitsRecent g taken

variable {taken : List (BitVec 64 × Bool)}

theorem LookedUp.lookup (before : LookedUp g c taken) (value : BitVec 64 → ValueType)
    (addr : BitVec 64) :
    LookedUp g (lookup value c addr).1 (taken ++ (Guarantees.lookup value c addr).2) := by
  unfold Guarantees.lookup
  rcases present : c.getEntry addr with _ | cell
  · have missed : c.read addr = (none, (c.read addr).2) := by
      unfold CacheMemory.read
      rw [present]
    rw [missed]
    have absent : ∀ {log}, Stacked g c log (taken.map Prod.fst) →
        ¬ RecentlyUsed g (taken.map Prod.fst) addr := by
      intro log stacked recent
      obtain ⟨cell, found⟩ := (stacked.hit_iff addr).mpr recent
      rw [present] at found
      cases found
    constructor
    · intro few
      rw [List.length_append, List.length_singleton] at few
      obtain ⟨log, stacked⟩ := before.stacked (by omega)
      have filled := (stacked.missed present).fill (by rw [List.length_map]; omega)
        (absent stacked) (value addr)
      rw [List.map_append, List.map_singleton]
      exact ⟨_, filled⟩
    · refine Machine.Explained.concat before.hits fun few => ?_
      obtain ⟨log, stacked⟩ := before.stacked (Nat.le_of_lt few)
      exact iff_of_false Bool.false_ne_true (absent stacked)
  · have found : c.read addr = (some (c.data (c.entries cell.1 cell.2).i
        (c.entries cell.1 cell.2).j), (c.read addr).2) := by
      unfold CacheMemory.read
      rw [present]
    rw [found]
    constructor
    · intro few
      rw [List.length_append, List.length_singleton] at few
      obtain ⟨log, stacked⟩ := before.stacked (by omega)
      rw [List.map_append, List.map_singleton]
      exact ⟨_, stacked.hit present⟩
    · refine Machine.Explained.concat before.hits fun few => ?_
      obtain ⟨log, stacked⟩ := before.stacked (Nat.le_of_lt few)
      exact iff_of_true rfl ((stacked.hit_iff addr).mp ⟨cell, present⟩)

/-- A new LRU cache. -/
theorem lookedUp_alocate {zeroed : ValueType} {rand : Nat → Nat} {index offset ways : BitVec 32}
    (alocated : CacheMemory.alocate zeroed rand index offset ways "lru" = some c) :
    LookedUp c.toCacheGeometry c [] where
  stacked _ := by
    refine ⟨[], .created alocated, ⟨fun _ _ => 0, ?_, fun _ _ _ => rfl⟩, ?_, ?_, rfl⟩
    · have named := (alocate_eq alocated).2.2
      rw [CacheMemory.setReplacementPolicy, if_pos rfl] at named
      rw [← Option.some.inj named]
      rfl
    · intro set way used
      cases used
    · exact fun set => List.take_nil.symm
  hits := Machine.explained_nil _

section MoreWays

variable {g' : CacheGeometry} {c' : CacheMemory ValueType} {taken' : List (BitVec 64 × Bool)}

/-- Whether a lookup hits. -/
theorem lookup_log (value : BitVec 64 → ValueType) (c : CacheMemory ValueType)
    (addr : BitVec 64) :
    (lookup value c addr).2 = [(addr, (c.getEntry addr).isSome)] ∧
      (lookup value c addr).1.statMiss =
        c.statMiss + BitVec.ofNat 64 (if (c.getEntry addr).isSome then 0 else 1) := by
  unfold lookup CacheMemory.read
  rcases c.getEntry addr with _ | cell
  · exact ⟨rfl, rfl⟩
  · exact ⟨rfl, (BitVec.add_zero _).symm⟩

/-- The same lookups, and every one that hits on one side hits on the other. -/
def HitMore (taken taken' : List (BitVec 64 × Bool)) : Prop :=
  List.Forall₂ (fun fewer more => fewer.1 = more.1 ∧ (fewer.2 = true → more.2 = true)) taken taken'

theorem HitMore.fst (hitMore : HitMore taken taken') :
    taken.map Prod.fst = taken'.map Prod.fst := by
  induction hitMore with
  | nil => rfl
  | cons both _ ih => rw [List.map_cons, List.map_cons, both.1, ih]

theorem HitMore.misses_le (hitMore : HitMore taken taken') :
    taken'.countP (!·.2) ≤ taken.countP (!·.2) := by
  induction hitMore with
  | nil => exact Nat.le_refl _
  | cons both _ ih =>
    rw [List.countP_cons, List.countP_cons]
    apply Nat.add_le_add ih
    rename_i fewer more _ _ _
    rcases hit : fewer.2 with _ | _
    · cases more.2 <;> decide
    · rw [both.2 hit]

/-- What is recent enough for fewer ways is for more. -/
theorem RecentlyUsed.of_le (index : g'.getIndex = g.getIndex) (tag : g'.getTag = g.getTag)
    (fewer : g.numWays ≤ g'.numWays) {addr : BitVec 64} (recent : RecentlyUsed g refs addr) :
    RecentlyUsed g' refs addr := by
  unfold RecentlyUsed tagsOf at recent ⊢
  rw [index, tag]
  exact ⟨recent.1, Nat.lt_of_lt_of_le recent.2 fewer⟩

variable (value : BitVec 64 → ValueType)

theorem LookedUp.run (start : LookedUp g c []) (refs : List (BitVec 64)) :
    LookedUp g (Machine.run (Guarantees.lookup value) c refs).1
      (Machine.run (Guarantees.lookup value) c refs).2 :=
  Machine.run_induction (Guarantees.lookup value) (P := fun t _ taken => LookedUp g t taken) start
    (fun _ _ _ addr before => before.lookup value addr) refs

/-- Whether a lookup after some others hits. -/
theorem LookedUp.hit_iff (start : LookedUp g c []) (refs : List (BitVec 64)) (addr : BitVec 64)
    (few : (Machine.run (Guarantees.lookup value) c refs).2.length < 2 ^ 32) :
    ((Machine.run (Guarantees.lookup value) c refs).1.getEntry addr).isSome = true ↔
      RecentlyUsed g ((Machine.run (Guarantees.lookup value) c refs).2.map Prod.fst) addr := by
  have hits := ((start.run value refs).lookup value addr).hits
  rw [(lookup_log ..).1] at hits
  exact hits _ _ [] rfl few

theorem length_lookups (c : CacheMemory ValueType) (refs : List (BitVec 64)) :
    (Machine.run (lookup value) c refs).2.length = refs.length :=
  Machine.run_induction (lookup value) (P := fun _ refs taken => taken.length = refs.length) rfl
    (fun t _ _ addr before => by
      rw [List.length_append, before, (lookup_log ..).1, List.length_append]
      rfl) refs

/-- The misses are counted. -/
theorem statMiss_lookups (fresh : c.statMiss = 0) (refs : List (BitVec 64)) :
    (Machine.run (lookup value) c refs).1.statMiss =
      BitVec.ofNat 64 ((Machine.run (lookup value) c refs).2.countP (!·.2)) := by
  refine Machine.run_induction (lookup value)
    (P := fun t _ taken => t.statMiss = BitVec.ofNat 64 (taken.countP (!·.2))) fresh ?_ refs
  intro t _ taken addr before
  obtain ⟨log, misses⟩ := lookup_log value t addr
  rw [misses, before, log, List.countP_append, BitVec.ofNat_add]
  cases (t.getEntry addr).isSome <;> rfl

theorem hitMore_lookups (start : LookedUp g c []) (start' : LookedUp g' c' [])
    (index : g'.getIndex = g.getIndex) (tag : g'.getTag = g.getTag)
    (fewer : g.numWays ≤ g'.numWays) (refs : List (BitVec 64)) (few : refs.length ≤ 2 ^ 32) :
    HitMore (Machine.run (lookup value) c refs).2 (Machine.run (lookup value) c' refs).2 := by
  induction refs using List.reverseRecOn with
  | nil => exact List.Forall₂.nil
  | append_singleton refs addr ih =>
    rw [List.length_append, List.length_singleton] at few
    have before := ih (by omega)
    rw [Machine.run_concat, Machine.run_concat, (lookup_log ..).1, (lookup_log ..).1]
    refine List.rel_append before (List.Forall₂.cons ⟨rfl, fun hit => ?_⟩ List.Forall₂.nil)
    have recent := (start.hit_iff value refs addr (by rw [length_lookups]; omega)).mp hit
    rw [before.fst] at recent
    exact (start'.hit_iff value refs addr (by rw [length_lookups]; omega)).mpr
      (recent.of_le index tag fewer)

/-- For LRU caches of any number of sets and line size, and lookups that the counters of 32
bits can tell apart: with more ways every lookup that hits still hits, and no more misses
are counted. -/
theorem more_ways_hit_more {zeroed : ValueType} {rand : Nat → Nat}
    {index offset ways ways' : BitVec 32}
    (created : CacheMemory.fromBits zeroed rand index offset ways "lru" = some c)
    (created' : CacheMemory.fromBits zeroed rand index offset ways' "lru" = some c')
    (fewer : ways ≤ ways') (refs : List (BitVec 64)) (few : refs.length ≤ 2 ^ 32) :
    HitMore (Machine.run (lookup value) c refs).2 (Machine.run (lookup value) c' refs).2 ∧
      (Machine.run (lookup value) c' refs).1.getStatMiss ≤
        (Machine.run (lookup value) c refs).1.getStatMiss := by
  have geometry := (alocate_eq created).1
  have geometry' := (alocate_eq created').1
  have hitMore := hitMore_lookups value (lookedUp_alocate created) (lookedUp_alocate created')
    (by rw [geometry, geometry']; rfl) (by rw [geometry, geometry']; rfl)
    (by rw [geometry, geometry']; exact fewer) refs few
  refine ⟨hitMore, ?_⟩
  have bound : ∀ d : CacheMemory ValueType,
      (Machine.run (lookup value) d refs).2.countP (!·.2) < 2 ^ 64 := by
    intro d
    have all := List.countP_le_length (p := fun l : BitVec 64 × Bool => !l.2)
      (l := (Machine.run (lookup value) d refs).2)
    rw [length_lookups] at all
    omega
  unfold CacheMemory.getStatMiss
  rw [statMiss_lookups value (alocate_counters created).2.2.1,
    statMiss_lookups value (alocate_counters created').2.2.1, BitVec.le_def, BitVec.toNat_ofNat,
    BitVec.toNat_ofNat, Nat.mod_eq_of_lt (bound c), Nat.mod_eq_of_lt (bound c')]
  exact hitMore.misses_le

/-- Lines 0 and 64 in one way, and in two. -/
theorem two_ways_hit_more : ∃ c c' : CacheMemory Nat,
    CacheMemory.fromBits 0 (fun _ => 0) 0 6 1 "lru" = some c ∧
      CacheMemory.fromBits 0 (fun _ => 0) 0 6 2 "lru" = some c' ∧
      HitMore (Machine.run (lookup fun _ => 0) c [0, 64, 0]).2
        (Machine.run (lookup fun _ => 0) c' [0, 64, 0]).2 := by
  have one : CacheMemory.fromBits 0 (fun _ => 0) 0 6 1 "lru" = some _ := rfl
  have two : CacheMemory.fromBits 0 (fun _ => 0) 0 6 2 "lru" = some _ := rfl
  exact ⟨_, _, one, two,
    (more_ways_hit_more (fun _ => 0) one two (by decide) [0, 64, 0] (by decide)).1⟩

end MoreWays

section Pages

/-- The page of an address. -/
def pageOf (g : CacheGeometry) (addr : BitVec 64) : Nat := addr.toNat / 2 ^ g.offsetBits.toNat

/-- Whether the page of an address was asked for, and since then fewer other pages of its set
than there are ways. -/
def PageRecentlyUsed (g : CacheGeometry) (refs : List (BitVec 64)) (addr : BitVec 64) : Prop :=
  LruStack.Recent g.numWays (pageOf g addr)
    ((refs.map (pageOf g)).filter fun page => page % g.numSets = pageOf g addr % g.numSets)

/-- The hits and misses are those of the pages, as far as the counters of 32 bits go. -/
def HitsRecentPages (g : CacheGeometry) (taken : List (BitVec 64 × Bool)) : Prop :=
  Machine.Explained (fun earlier lookup => earlier.length < 2 ^ 32 →
    (lookup.2 = true ↔ PageRecentlyUsed g (earlier.map Prod.fst) lookup.1)) taken

variable {numIndexBits numOffsetBits associativity : BitVec 32}

theorem getIndex_page (index : numIndexBits.toNat < 32)
    (within : ShiftsInWidth (.ofBits numIndexBits numOffsetBits associativity))
    (addr : BitVec 64) :
    ((CacheGeometry.ofBits numIndexBits numOffsetBits associativity).getIndex addr).toNat =
      pageOf (.ofBits numIndexBits numOffsetBits associativity) addr %
        (CacheGeometry.ofBits numIndexBits numOffsetBits associativity).numSets := by
  rw [CacheGeometry.getIndex_ofBits numIndexBits numOffsetBits _ _ within.2 index,
    BitField.toNat_field, CacheGeometry.numSets_ofBits, Nat.mod_eq_of_lt index]
  rfl

theorem getTag_page (index : numIndexBits.toNat < 32)
    (whole : numIndexBits.toNat + numOffsetBits.toNat ≤ 64)
    (within : ShiftsInWidth (.ofBits numIndexBits numOffsetBits associativity))
    (addr : BitVec 64) :
    (CacheGeometry.ofBits numIndexBits numOffsetBits associativity).getTag addr =
      BitVec.ofNat 64 (pageOf (.ofBits numIndexBits numOffsetBits associativity) addr /
        (CacheGeometry.ofBits numIndexBits numOffsetBits associativity).numSets) := by
  apply BitVec.eq_of_toNat_eq
  rw [CacheGeometry.getTag_ofBits numIndexBits numOffsetBits _ _ within.1 whole,
    BitField.toNat_field, CacheGeometry.numSets_ofBits, Nat.mod_eq_of_lt index,
    BitVec.toNat_ofNat, pageOf, Nat.div_div_eq_div_mul, ← Nat.pow_add]
  rfl

/-- Where an address has a page, a set and a tag, the tags of a set are its pages. -/
theorem recentlyUsed_iff_page (index : numIndexBits.toNat < 32)
    (whole : numIndexBits.toNat + numOffsetBits.toNat ≤ 64)
    (within : ShiftsInWidth (.ofBits numIndexBits numOffsetBits associativity))
    (refs : List (BitVec 64)) (addr : BitVec 64) :
    RecentlyUsed (.ofBits numIndexBits numOffsetBits associativity) refs addr ↔
      PageRecentlyUsed (.ofBits numIndexBits numOffsetBits associativity) refs addr := by
  have sets := fun a => getIndex_page index within a
  have tags := fun a => getTag_page index whole within a
  generalize CacheGeometry.ofBits numIndexBits numOffsetBits associativity = g at sets tags ⊢
  have lines : tagsOf g (g.getIndex addr).toNat refs =
      ((refs.map (pageOf g)).filter fun page => page % g.numSets =
        pageOf g addr % g.numSets).map fun page => BitVec.ofNat 64 (page / g.numSets) := by
    unfold tagsOf
    rw [List.filter_map, List.map_map]
    simp only [Function.comp_def, sets]
    exact List.map_congr_left fun a _ => tags a
  unfold RecentlyUsed PageRecentlyUsed
  rw [lines, tags addr]
  apply LruStack.recent_map fun page : Nat => BitVec.ofNat 64 (page / g.numSets)
  have member : ∀ page ∈ pageOf g addr :: (refs.map (pageOf g)).filter fun page =>
      page % g.numSets = pageOf g addr % g.numSets,
      page % g.numSets = pageOf g addr % g.numSets ∧ page < 2 ^ 64 := by
    intro page here
    have below : ∀ a, pageOf g a < 2 ^ 64 := fun a =>
      Nat.lt_of_le_of_lt (Nat.div_le_self _ _) a.isLt
    rcases List.mem_cons.mp here with rfl | here
    · exact ⟨rfl, below addr⟩
    · obtain ⟨here, row⟩ := List.mem_filter.mp here
      obtain ⟨a, _, rfl⟩ := List.mem_map.mp here
      exact ⟨by simpa using row, below a⟩
  intro page one page' other same
  obtain ⟨row, small⟩ := member page one
  obtain ⟨row', small'⟩ := member page' other
  have quotients := congrArg BitVec.toNat same
  rw [BitVec.toNat_ofNat, BitVec.toNat_ofNat,
    Nat.mod_eq_of_lt (Nat.lt_of_le_of_lt (Nat.div_le_self _ _) small),
    Nat.mod_eq_of_lt (Nat.lt_of_le_of_lt (Nat.div_le_self _ _) small')] at quotients
  rw [← Nat.div_add_mod page g.numSets, ← Nat.div_add_mod page' g.numSets, quotients, row, row']

end Pages

section Tlb

variable {n : Nat}

/-- The addresses that were looked up in some cycles, with whether they hit. -/
def translations (log : List TlbReport) : List (BitVec 64 × Bool) :=
  log.filterMap fun report => report.dequeued.map fun taken => (taken.1.addr, taken.2)

theorem translations_append (log more : List TlbReport) :
    translations (log ++ more) = translations log ++ translations more :=
  List.filterMap_append

/-- What a cycle does to the cache: a lookup of the request that is taken out. -/
theorem cycle_cache (s : Itlb × Itlb.Ports n) (c : ClientCycle n (BitVec 64)) :
    (Itlb.cycle s c).1.1.cache = s.1.cache ∧ translations (Itlb.cycle s c).2 = [] ∨
      ∃ addr, (Itlb.cycle s c).1.1.cache = (lookup id s.1.cache addr).1 ∧
        translations (Itlb.cycle s c).2 = (lookup id s.1.cache addr).2 := by
  obtain ⟨connections, _, state, log, _⟩ := Itlb.cycle_eq s c
  rw [state, log]
  obtain ⟨received, _⟩ :=
    Itlb.receiveAll_eq (s.1, connections) (List.finRange n) (List.nodup_finRange n)
  unfold Itlb.clock
  generalize Machine.run Itlb.receive (s.1, connections) (List.finRange n) = read at received
  obtain ⟨t, got⟩ := read
  have cache : t.1.cache = s.1.cache := received.cache
  rw [← cache]
  dsimp only
  split
  · left
    unfold Itlb.pay
    dsimp only
    split
    · exact ⟨rfl, rfl⟩
    · exact ⟨rfl, rfl⟩
  · unfold Itlb.serve
    rcases t.1.pendingRequests.dequeue with _ | ⟨request, pending⟩
    · exact .inl ⟨rfl, rfl⟩
    · right
      refine ⟨request.addr, ?_⟩
      unfold lookup
      dsimp only
      rcases t.1.cache.read request.addr with ⟨_ | _, _⟩
      · exact ⟨rfl, rfl⟩
      · exact ⟨rfl, rfl⟩

/-- The cache of an iTLB that `Configure` accepts. -/
theorem itlb_alocates {getLog2 : BitVec 32 → BitVec 32} {rand : Nat → Nat}
    {entries associativity missPenalty : Int} {policy : Option String} {pageSize : Option Int}
    {t : Itlb} (configured : Itlb.configure getLog2 rand entries associativity missPenalty policy
      pageSize = .ok t) (lru : policy.getD "lru" = "lru") :
    ∃ index offset, CacheMemory.alocate 0 rand index offset
      ((BitVec.ofInt 64 associativity).setWidth 32) "lru" = some t.cache := by
  unfold Itlb.configure at configured
  rw [lru] at configured
  dsimp only at configured
  split at configured
  · cases configured
  split at configured
  · cases configured
  split at configured
  · cases configured
  rename_i cache created
  cases configured
  exact CacheMemory.fromNumSets_alocates created

/-- For every iTLB that replaces the least recent line and whose addresses have a page, every
number of clients and every run: a request hits if and only if its page is among as many of
its set that were asked for last as there are ways, whatever the clients do and whenever
they do it. -/
theorem itlb_hits_recent_pages {getLog2 : BitVec 32 → BitVec 32} {rand : Nat → Nat}
    {entries associativity missPenalty : Int} {policy : Option String} {pageSize : Option Int}
    {t : Itlb} (configured : Itlb.configure getLog2 rand entries associativity missPenalty policy
      pageSize = .ok t) (lru : policy.getD "lru" = "lru")
    (index : t.cache.indexBits.toNat < 32)
    (whole : t.cache.indexBits.toNat + t.cache.offsetBits.toNat ≤ 64)
    (within : ShiftsInWidth t.cache.toCacheGeometry) (bufferSizes : Fin n → Nat)
    (cycles : List (ClientCycle n (BitVec 64))) :
    HitsRecentPages t.cache.toCacheGeometry
      (translations (Machine.run Itlb.cycle (translating t bufferSizes) cycles).2) := by
  obtain ⟨numIndexBits, numOffsetBits, alocated⟩ := itlb_alocates configured lru
  have run : LookedUp t.cache.toCacheGeometry
      (Machine.run Itlb.cycle (translating t bufferSizes) cycles).1.1.cache
      (translations (Machine.run Itlb.cycle (translating t bufferSizes) cycles).2) := by
    refine Machine.run_induction Itlb.cycle (P := fun s _ log =>
      LookedUp t.cache.toCacheGeometry s.1.cache (translations log))
      (lookedUp_alocate alocated) ?_ cycles
    intro s _ log c before
    rw [translations_append]
    rcases cycle_cache s c with ⟨cache, none⟩ | ⟨addr, cache, taken⟩
    · rw [cache, none, List.append_nil]
      exact before
    · rw [cache, taken]
      exact before.lookup id addr
  have geometry := (alocate_eq alocated).1
  rw [geometry] at index whole within
  intro earlier lookup later split few
  have hits := run.hits earlier lookup later split few
  rw [geometry] at hits ⊢
  exact hits.trans (recentlyUsed_iff_page index whole within _ _)

/-- Two requests for a page: the second hits. -/
theorem itlb_hits_recent_page : ∃ t : Itlb,
    Itlb.configure floorLog2 (fun _ => 0) 8 2 3 none none = .ok t ∧
      t.cache.offsetBits = 12 ∧ t.cache.numSets = 4 ∧
      HitsRecentPages t.cache.toCacheGeometry (translations
        (Machine.run Itlb.cycle (translating t fun _ : Fin 1 => 1) (samePage 0)).2) :=
  ⟨_, rfl, by decide +kernel, by decide +kernel,
    @itlb_hits_recent_pages 1 floorLog2 (fun _ => 0) 8 2 3 none none _ rfl rfl
      (by decide +kernel) (by decide +kernel) ⟨by decide +kernel, by decide +kernel⟩
      (fun _ => 1) (samePage 0)⟩

end Tlb

end Sinuca3.Guarantees
