import Sinuca3.Lib.Machine
import Sinuca3.Source.TraceGenerator.Pintool

/-!
# Callbacks and the data of their threads

The callbacks find the data of a thread at the index that is its id, where it is if the
threads registered in the order of their ids. Data of a thread that has ended stays in
`threadDataVec`, deleted, for the loops over all threads to find.
-/
namespace Sinuca3.Guarantees
open Sinuca3.Source Lib PinState

/-- The thread has been registered, and has not ended. -/
def Live (log : List PintoolEvent) (tid : THREADID) : Prop :=
  .started tid ∈ log ∧ .finished tid ∉ log

/-- The check says whether there is data of the thread, and a record for a thread is given
to its own writers, before it ends. -/
def RightData (before : List PintoolEvent) : PintoolEvent → Prop
  | .checked tid wasCreated => wasCreated = true ↔ Live before tid
  | .appended tid openedFor => openedFor = some tid ∧ Live before tid
  | _ => True

/-- Where the loop starts that appends to the traces of all threads. -/
def broadcastsFrom (t : Pintool) : Callback → Option Nat
  | .appendToDynamicTrace _ _ => if t.reachedMaximum then some 0 else none
  | .onThreadEvent _ true => some 1
  | _ => none

/-- Threads get the lock in `OnThreadStart` in the order of their ids, and no loop over
all threads comes to one that has ended. -/
def Orderly (s : PinState) : PinStep → Prop
  | .onThreadStart tid _ _ => s.tool.threadDataVec.length = tid.toNat
  | .call _ _ => True
  | .resume tid => ∀ callback first, s.threads tid = .inCallback callback →
      broadcastsFrom s.tool callback = some first →
      ∀ threadData ∈ s.tool.threadDataVec.drop first, threadData.deleted = false

/-- Two threads start, and thread 1 runs a callback. -/
def twoThreads (first second : THREADID) (callback : Callback) : List PinStep :=
  [.onThreadStart first true true, .onThreadStart second true true, .call 1 callback, .resume 1]

section Registry

/-- Whose data is registered, and whether it is deleted. -/
def registry (t : Pintool) : List (THREADID × Bool) :=
  t.threadDataVec.map fun threadData => (threadData.openedFor, threadData.deleted)

@[simp] theorem registry_length (t : Pintool) :
    (registry t).length = t.threadDataVec.length := by
  rw [registry, List.length_map]

/-- Every event is a record for the thread of an index, given to data that is there. -/
def AppendsTo (entries : List (THREADID × Bool)) (events : List PintoolEvent) : Prop :=
  ∀ e ∈ events, ∃ i tid, entries[i]? = some (tid, false) ∧
    e = .appended (BitVec.ofNat 32 i) (some tid)

/-- A part of a callback that appends records and leaves the registry as it is. -/
structure Appends (t t' : Pintool) (events : List PintoolEvent) : Prop where
  same : registry t' = registry t
  records : AppendsTo (registry t) events

theorem Appends.trans {t t' t'' : Pintool} {events more : List PintoolEvent}
    (first : Appends t t' events) (second : Appends t' t'' more) :
    Appends t t'' (events ++ more) where
  same := second.same.trans first.same
  records := by
    intro e member
    rcases List.mem_append.mp member with early | late
    · exact first.records e early
    · rw [← first.same]
      exact second.records e late

theorem append_appends (t : Pintool) (i : Nat)
    (write : Pintool.ThreadData → Bool × Pintool.ThreadData)
    (keeps : ∀ d, (write d).2.openedFor = d.openedFor ∧ (write d).2.deleted = d.deleted)
    {tid : THREADID} (there : (registry t)[i]? = some (tid, false)) :
    Appends t (t.append i write).2.1 (t.append i write).2.2 := by
  have found := there
  rw [registry, List.getElem?_map, Option.map_eq_some_iff] at found
  obtain ⟨threadData, data, entry⟩ := found
  obtain ⟨opened, deleted⟩ := Prod.mk.inj entry
  obtain ⟨opened', deleted'⟩ := keeps threadData
  have result : t.append i write = ((write threadData).1,
      { t with threadDataVec := t.threadDataVec.set i (write threadData).2 },
      [.appended (BitVec.ofNat 32 i) (some tid)]) := by
    unfold Pintool.append
    rw [data]
    dsimp only
    rw [if_neg (by rw [deleted]; decide), opened]
  rw [result]
  refine ⟨?_, fun e member => ⟨i, tid, there, List.mem_singleton.mp member⟩⟩
  apply List.ext_getElem?
  intro k
  rw [registry, registry, List.map_set, opened', deleted', entry, List.getElem?_set]
  split
  · rename_i here
    subst here
    have inside : i < t.threadDataVec.length := (List.getElem?_eq_some_iff.mp data).1
    rw [List.length_map, if_pos inside]
    exact there.symm
  · rfl

theorem addThreadEvent_keeps (evType : BitVec 32) (d : Pintool.ThreadData) :
    (Pintool.addThreadEvent evType d).2.openedFor = d.openedFor ∧
      (Pintool.addThreadEvent evType d).2.deleted = d.deleted := ⟨rfl, rfl⟩

theorem broadcast_appends (evType : BitVec 32) (stops : Bool) (is : List Nat) (t : Pintool)
    (there : ∀ i ∈ is, ∃ tid, (registry t)[i]? = some (tid, false)) :
    Appends t (t.broadcast evType stops is).2.1 (t.broadcast evType stops is).2.2 := by
  induction is generalizing t with
  | nil => exact ⟨rfl, fun e member => absurd member List.not_mem_nil⟩
  | cons i is ih =>
    obtain ⟨tid, here⟩ := there i (List.mem_cons_self ..)
    have added := append_appends t i _ (addThreadEvent_keeps evType) here
    rw [Pintool.broadcast]
    dsimp only
    split
    · exact added
    · refine added.trans (ih _ fun j member => ?_)
      rw [added.same]
      exact there j (List.mem_cons_of_mem i member)

/-- The indices of a loop, if it comes to no data that is deleted. -/
theorem indices_there {t : Pintool} {first : Nat}
    (undeleted : ∀ threadData ∈ t.threadDataVec.drop first, threadData.deleted = false) :
    ∀ i ∈ t.indices first, ∃ tid, (registry t)[i]? = some (tid, false) := by
  intro i member
  have bounds := List.mem_range'_1.mp member
  have inside : i < t.threadDataVec.length := by omega
  have alive := undeleted t.threadDataVec[i] (by
    rw [List.mem_iff_getElem?]
    refine ⟨i - first, ?_⟩
    rw [List.getElem?_drop, Nat.add_sub_cancel' bounds.1, List.getElem?_eq_getElem inside])
  refine ⟨t.threadDataVec[i].openedFor, ?_⟩
  rw [registry, List.getElem?_map, List.getElem?_eq_getElem inside, Option.map_some, alive]

theorem appendToDynamicTrace_appends (t : Pintool) {tid : THREADID} (bblId numInst : BitVec 32)
    (there : (registry t)[tid.toNat]? = some (tid, false))
    (undeleted : ∀ first, broadcastsFrom t (.appendToDynamicTrace bblId numInst) = some first →
      ∀ threadData ∈ t.threadDataVec.drop first, threadData.deleted = false) :
    Appends t (t.appendToDynamicTrace tid bblId numInst).1
      (t.appendToDynamicTrace tid bblId numInst).2 := by
  unfold Pintool.appendToDynamicTrace
  split
  · rename_i reached
    exact broadcast_appends _ _ _ t (indices_there (undeleted 0 (if_pos reached)))
  · have keeps : ∀ d, (Pintool.addBasicBlockId bblId numInst d).2.openedFor = d.openedFor ∧
        (Pintool.addBasicBlockId bblId numInst d).2.deleted = d.deleted := fun _ => ⟨rfl, rfl⟩
    have added := append_appends
      { t with numberOfExecInst := t.numberOfExecInst + numInst.setWidth 64 } tid.toNat _ keeps there
    exact ⟨added.same, added.records⟩

theorem onThreadEvent_appends (t : Pintool) {tid : THREADID} (evType : BitVec 32)
    (isMasterThreadEv : Bool) (there : (registry t)[tid.toNat]? = some (tid, false))
    (undeleted : ∀ first, broadcastsFrom t (.onThreadEvent evType isMasterThreadEv) = some first →
      ∀ threadData ∈ t.threadDataVec.drop first, threadData.deleted = false) :
    Appends t (t.onThreadEvent tid evType isMasterThreadEv).1
      (t.onThreadEvent tid evType isMasterThreadEv).2 := by
  have own := append_appends t tid.toNat _ (addThreadEvent_keeps evType) there
  unfold Pintool.onThreadEvent
  dsimp only
  split
  · exact ⟨own.same, own.records⟩
  · split
    · rename_i master
      rw [master] at undeleted
      have indices : (t.append tid.toNat (Pintool.addThreadEvent evType)).2.1.indices 1 =
          t.indices 1 := by
        rw [Pintool.indices, Pintool.indices, ← registry_length, own.same, registry_length]
      have others := broadcast_appends evType true (t.indices 1)
        (t.append tid.toNat (Pintool.addThreadEvent evType)).2.1
        (by rw [own.same]; exact indices_there (undeleted 1 rfl))
      have both := own.trans others
      rw [indices]
      exact ⟨both.same, both.records⟩
    · exact own

end Registry

section Order

/-- Threads that registered in order: the data of each is at the index that is its id, and
is deleted once the thread has ended. -/
structure Ordered (s : PinState) (log : List PintoolEvent) : Prop where
  opened : ∀ (i : Nat) (entry : THREADID × Bool), (registry s.tool)[i]? = some entry →
    entry.1.toNat = i ∧ (entry.2 = true ↔ s.threads entry.1 = .ended)
  registered : ∀ tid, s.threads tid ≠ .unborn ↔ tid.toNat < s.tool.threadDataVec.length
  started : ∀ tid, .started tid ∈ log ↔ s.threads tid ≠ .unborn
  finished : ∀ tid, .finished tid ∈ log ↔ s.threads tid = .ended

variable {s : PinState} {log : List PintoolEvent}

theorem Ordered.live (ordered : Ordered s log) (tid : THREADID) :
    Live log tid ↔ s.threads tid ≠ .unborn ∧ s.threads tid ≠ .ended := by
  rw [Live, ordered.started, ordered.finished]

/-- A thread that is running, in a callback or not, has its data. -/
theorem Ordered.there (ordered : Ordered s log) {tid : THREADID} (live : Live log tid) :
    (registry s.tool)[tid.toNat]? = some (tid, false) := by
  obtain ⟨born, unended⟩ := (ordered.live tid).mp live
  have inside := (ordered.registered tid).mp born
  rw [← registry_length] at inside
  have entry := List.getElem?_eq_getElem inside
  obtain ⟨same, deleted⟩ := ordered.opened tid.toNat _ entry
  have own : ((registry s.tool)[tid.toNat]).1 = tid := BitVec.eq_of_toNat_eq same
  rw [entry]
  refine congrArg some (Prod.ext own ?_)
  rw [own] at deleted
  exact Bool.eq_false_iff.mpr fun gone => unended (deleted.mp gone)

theorem Ordered.length_le (ordered : Ordered s log) :
    s.tool.threadDataVec.length ≤ 4294967296 := by
  by_contra more
  have inside : 4294967296 < (registry s.tool).length := by
    rw [registry_length]
    omega
  have last := (ordered.opened _ _ (List.getElem?_eq_getElem inside)).1
  have small := ((registry s.tool)[4294967296]).1.isLt
  omega

/-- The check takes every id for created but the number of threads that are registered. -/
theorem Ordered.wasThreadCreated_iff (ordered : Ordered s log) (tid : THREADID) :
    s.tool.wasThreadCreated tid = true ↔ tid.toNat ≠ s.tool.threadDataVec.length := by
  have count := ordered.length_le
  have small := tid.isLt
  rw [Pintool.wasThreadCreated, decide_eq_true_iff, BitVec.lt_def, BitVec.toNat_sub,
    BitVec.toNat_ofNat, BitVec.toNat_setWidth]
  change 0 < _ ↔ _
  omega

/-- Records for threads that are there are given to their own writers. -/
theorem Ordered.records (ordered : Ordered s log) {events : List PintoolEvent}
    (records : AppendsTo (registry s.tool) events) {e : PintoolEvent} (member : e ∈ events) :
    ∃ tid, e = .appended tid (some tid) ∧ Live log tid := by
  obtain ⟨i, tid, there, rfl⟩ := records e member
  obtain ⟨own, deleted⟩ := ordered.opened i _ there
  have index : BitVec.ofNat 32 i = tid := by
    have small := tid.isLt
    apply BitVec.eq_of_toNat_eq
    rw [BitVec.toNat_ofNat, ← own]
    exact Nat.mod_eq_of_lt small
  have inside := (List.getElem?_eq_some_iff.mp there).1
  refine ⟨tid, by rw [index], (ordered.live tid).mpr ⟨?_, ?_⟩⟩
  · rw [ordered.registered, ← registry_length]
    dsimp only at own
    omega
  · intro ended
    exact Bool.false_ne_true (deleted.mpr ended)

/-- No thread starts or ends. -/
def Quiet (events : List PintoolEvent) : Prop :=
  ∀ tid, .started tid ∉ events ∧ .finished tid ∉ events

theorem Quiet.live {events : List PintoolEvent} (quiet : Quiet events) (tid : THREADID) :
    Live (log ++ events) tid ↔ Live log tid := by
  rw [Live, Live, List.mem_append, List.mem_append, or_iff_left (quiet tid).1,
    or_iff_left (quiet tid).2]

theorem AppendsTo.quiet {entries : List (THREADID × Bool)} {events : List PintoolEvent}
    (records : AppendsTo entries events) : Quiet events := by
  intro tid
  constructor
  all_goals
    intro member
    obtain ⟨_, _, _, same⟩ := records _ member
    cases same

/-- A thread goes on, and the registry stays as it is. -/
theorem Ordered.proceed (ordered : Ordered s log) {t : Pintool} {tid : THREADID}
    {thread : PinThread} {events : List PintoolEvent} (live : Live log tid)
    (goes : thread ≠ .unborn ∧ thread ≠ .ended) (same : registry t = registry s.tool)
    (quiet : Quiet events) :
    Ordered ({ s with tool := t }.setThread tid thread) (log ++ events) := by
  obtain ⟨born, unended⟩ := (ordered.live tid).mp live
  have unborn : ∀ other, (setThread { s with tool := t } tid thread).threads other ≠ .unborn ↔
      s.threads other ≠ .unborn := by
    intro other
    rw [setThread_threads]
    split
    · rename_i here
      rw [here]
      exact iff_of_true goes.1 born
    · exact Iff.rfl
  have ended : ∀ other, (setThread { s with tool := t } tid thread).threads other = .ended ↔
      s.threads other = .ended := by
    intro other
    rw [setThread_threads]
    split
    · rename_i here
      rw [here]
      exact iff_of_false goes.2 unended
    · exact Iff.rfl
  refine ⟨fun i entry there => ?_, fun other => ?_, fun other => ?_, fun other => ?_⟩
  · rw [ended]
    exact ordered.opened i entry (same ▸ there)
  · have count : t.threadDataVec.length = s.tool.threadDataVec.length := by
      rw [← registry_length, same, registry_length]
    rw [unborn, ordered.registered, ← count]
    rfl
  · rw [unborn, ← ordered.started, List.mem_append, or_iff_left (quiet other).1]
  · rw [ended, ← ordered.finished, List.mem_append, or_iff_left (quiet other).2]

/-- The records of a part of a callback are right. -/
theorem Ordered.rightData (ordered : Ordered s log) {events : List PintoolEvent}
    (records : AppendsTo (registry s.tool) events) (before : List PintoolEvent) (e : PintoolEvent)
    (after : List PintoolEvent) (split : events = before ++ e :: after) :
    RightData (log ++ before) e := by
  obtain ⟨tid, rfl, live⟩ := ordered.records records (e := e) (by rw [split]; simp)
  have front : AppendsTo (registry s.tool) before := fun e member =>
    records e (by rw [split]; exact List.mem_append_left _ member)
  exact ⟨rfl, (front.quiet.live tid).mpr live⟩

theorem Ordered.onThreadStart (ordered : Ordered s log) {tid : THREADID}
    (dynamicOpens memoryOpens : Bool) (unborn : s.threads tid = .unborn)
    (next : s.tool.threadDataVec.length = tid.toNat) :
    Ordered ({ s with tool := s.tool.onThreadStart tid dynamicOpens memoryOpens }.setThread tid
      .running) (log ++ [.started tid]) := by
  have entries : registry (s.tool.onThreadStart tid dynamicOpens memoryOpens) =
      registry s.tool ++ [(tid, false)] := by
    rw [registry, Pintool.onThreadStart, List.map_append]
    rfl
  refine ⟨fun i entry there => ?_, fun other => ?_, fun other => ?_, fun other => ?_⟩
  · change (registry (s.tool.onThreadStart tid dynamicOpens memoryOpens))[i]? = some entry at there
    rw [entries, List.getElem?_append] at there
    split at there
    · rename_i old
      obtain ⟨index, deleted⟩ := ordered.opened i entry there
      have different : entry.1 ≠ tid := by
        rintro rfl
        rw [registry_length] at old
        omega
      rw [setThread_threads, if_neg different]
      exact ⟨index, deleted⟩
    · rename_i new
      rw [registry_length] at new there
      obtain ⟨last, rfl⟩ : i - s.tool.threadDataVec.length = 0 ∧ entry = (tid, false) := by
        rw [List.getElem?_singleton] at there
        split at there
        · rename_i first
          exact ⟨first, (Option.some_inj.mp there).symm⟩
        · cases there
      rw [setThread_threads, if_pos rfl]
      exact ⟨by dsimp only; omega, by simp⟩
  · have count : (s.tool.onThreadStart tid dynamicOpens memoryOpens).threadDataVec.length =
        s.tool.threadDataVec.length + 1 := by
      rw [← registry_length, entries, List.length_append, registry_length]
      rfl
    change _ ↔ other.toNat < (s.tool.onThreadStart tid dynamicOpens memoryOpens).threadDataVec.length
    rw [count, setThread_threads]
    split
    · rename_i same
      rw [same, next]
      exact iff_of_true (by simp) (Nat.lt_succ_self _)
    · rename_i different
      have apart : other.toNat ≠ tid.toNat := fun equal => different (BitVec.eq_of_toNat_eq equal)
      rw [ordered.registered]
      omega
  · rw [List.mem_append, ordered.started, setThread_threads]
    split
    · rename_i same
      rw [same]
      simp
    · rename_i different
      simp [different]
  · rw [List.mem_append, ordered.finished, setThread_threads]
    split
    · rename_i same
      rw [same, unborn]
      simp
    · simp

theorem registry_onThreadFini (t : Pintool) (tid : THREADID) (i : Nat) :
    (registry (t.onThreadFini tid))[i]? =
      (registry t)[i]?.map fun entry => if tid.toNat = i then (entry.1, true) else entry := by
  rw [registry, registry, Pintool.onThreadFini, List.getElem?_map, List.getElem?_map]
  dsimp only
  rw [List.getElem?_modify]
  cases t.threadDataVec[i]? with
  | none => rfl
  | some threadData =>
    by_cases here : tid.toNat = i
    · simp [here]
    · simp [here]

theorem Ordered.onThreadFini (ordered : Ordered s log) {tid : THREADID} (live : Live log tid) :
    Ordered ({ s with tool := s.tool.onThreadFini tid }.setThread tid .ended)
      (log ++ [.finished tid]) := by
  obtain ⟨born, unended⟩ := (ordered.live tid).mp live
  refine ⟨fun i entry there => ?_, fun other => ?_, fun other => ?_, fun other => ?_⟩
  · change (registry (s.tool.onThreadFini tid))[i]? = some entry at there
    rw [registry_onThreadFini, Option.map_eq_some_iff] at there
    obtain ⟨old, found, rfl⟩ := there
    obtain ⟨index, deleted⟩ := ordered.opened i old found
    rw [setThread_threads]
    by_cases here : tid.toNat = i
    · have own : old.1 = tid := BitVec.eq_of_toNat_eq (index.trans here.symm)
      rw [if_pos here, if_pos own]
      exact ⟨index, iff_of_true rfl rfl⟩
    · have different : old.1 ≠ tid := by
        rintro rfl
        exact here index
      rw [if_neg here, if_neg different]
      exact ⟨index, deleted⟩
  · have count : (s.tool.onThreadFini tid).threadDataVec.length = s.tool.threadDataVec.length :=
      List.length_modify ..
    change _ ↔ other.toNat < (s.tool.onThreadFini tid).threadDataVec.length
    rw [count, setThread_threads, ← ordered.registered]
    split
    · rename_i same
      rw [same]
      exact iff_of_true (by simp) born
    · exact Iff.rfl
  · rw [List.mem_append, ordered.started, setThread_threads]
    split
    · rename_i same
      rw [same]
      simp [born]
    · simp
  · rw [List.mem_append, ordered.finished, setThread_threads]
    split
    · rename_i same
      rw [same]
      simp
    · rename_i different
      simp [different]

/-- One step keeps the order, and its events are right. -/
structure Keeps (log : List PintoolEvent) (result : PinState × List PintoolEvent) : Prop where
  ordered : Ordered result.1 (log ++ result.2)
  right : ∀ before e after, result.2 = before ++ e :: after → RightData (log ++ before) e

theorem Ordered.keeps_nil (ordered : Ordered s log) : Keeps log (s, []) := by
  refine ⟨by rw [List.append_nil]; exact ordered, fun before e after split => ?_⟩
  simp at split

theorem Keeps.single {s : PinState} {event : PintoolEvent}
    (ordered : Ordered s (log ++ [event])) (right : RightData log event) :
    Keeps log (s, [event]) := by
  refine ⟨ordered, fun before e after split => ?_⟩
  cases before with
  | nil =>
    cases split
    rw [List.append_nil]
    exact right
  | cons _ _ => simp at split

/-- A thread that goes on with a callback, in which records are appended. -/
theorem Ordered.keeps_appends (ordered : Ordered s log) {t : Pintool} {tid : THREADID}
    {thread : PinThread} {events : List PintoolEvent} (live : Live log tid)
    (goes : thread ≠ .unborn ∧ thread ≠ .ended) (appends : Appends s.tool t events) :
    Keeps log ({ s with tool := t }.setThread tid thread, events) :=
  ⟨ordered.proceed live goes appends.same appends.records.quiet, ordered.rightData appends.records⟩

theorem Ordered.resume (ordered : Ordered s log) {tid : THREADID} {callback : Callback}
    (inside : s.threads tid = .inCallback callback) (orderly : Orderly s (.resume tid)) :
    Keeps log (s.resume tid callback) := by
  have live : Live log tid := by
    rw [ordered.live, inside]
    exact ⟨by simp, by simp⟩
  have there := ordered.there live
  have running : PinThread.running ≠ .unborn ∧ PinThread.running ≠ .ended := by simp
  have undeleted := fun first => orderly callback first inside
  cases callback with
  | appendToMemTrace calls =>
    cases calls with
    | nil => exact ordered.keeps_appends live running ⟨rfl, by simp [AppendsTo]⟩
    | cons call calls =>
      exact ordered.keeps_appends live (by simp) (append_appends s.tool tid.toNat
        (Pintool.memoryCall call) (fun _ => ⟨rfl, rfl⟩) there)
  | onThreadFini =>
    rw [PinState.resume]
    split
    · exact ordered.keeps_nil
    · exact Keeps.single (ordered.onThreadFini live) trivial
  | appendToDynamicTrace bblId numInst =>
    rw [PinState.resume]
    split
    · exact ordered.keeps_nil
    · exact ordered.keeps_appends live running
        (appendToDynamicTrace_appends s.tool bblId numInst there undeleted)
  | onThreadEvent evType isMasterThreadEv =>
    rw [PinState.resume]
    split
    · exact ordered.keeps_nil
    · exact ordered.keeps_appends live running
        (onThreadEvent_appends s.tool evType isMasterThreadEv there undeleted)

theorem Ordered.step (ordered : Ordered s log) (input : PinStep) (allowed : Allowed s input)
    (orderly : Orderly s input) : Keeps log (s.step input) := by
  cases input with
  | onThreadStart tid dynamicOpens memoryOpens =>
    rw [PinState.step]
    split
    · exact ordered.keeps_nil
    · exact Keeps.single (ordered.onThreadStart dynamicOpens memoryOpens allowed orderly) trivial
  | call tid callback =>
    have runs : s.threads tid = .running := allowed
    have live : Live log tid := by
      rw [ordered.live, runs]
      simp
    have registered := (ordered.registered tid).mp ((ordered.live tid).mp live).1
    have created : s.tool.wasThreadCreated tid = true :=
      (ordered.wasThreadCreated_iff tid).mpr (Nat.ne_of_lt registered)
    have quiet : Quiet [.checked tid true] := by
      intro other
      simp
    rw [PinState.step]
    unfold PinState.call
    rw [if_pos created]
    exact Keeps.single (ordered.proceed live (by simp) rfl quiet) (iff_of_true rfl live)
  | resume tid =>
    rw [PinState.step]
    split
    · rename_i callback inside
      exact ordered.resume inside orderly
    · exact ordered.keeps_nil

end Order

/-- Threads that register in order and are not reached by a loop once they have ended. -/
theorem callbacks_act_on_live_data (staticTrace : StaticTraceWriter)
    (knobNumberOfInstructions : BitVec 32) (inputs : List PinStep)
    (orderly : Machine.Meets PinState.step (fun s input => Allowed s input ∧ Orderly s input)
      (initial staticTrace knobNumberOfInstructions) inputs) :
    let run := Machine.run PinState.step (initial staticTrace knobNumberOfInstructions) inputs
    Machine.Explained RightData run.2 ∧
      ∀ tid, (run.1.tool.wasThreadCreated tid = true ↔ Live run.2 tid) ↔
        tid.toNat ≤ run.1.tool.threadDataVec.length ∧ .finished tid ∉ run.2 := by
  intro run
  obtain ⟨ordered, right⟩ : Ordered run.1 run.2 ∧ Machine.Explained RightData run.2 := by
    refine Machine.run_induction_of_meets PinState.step _
      (P := fun s _ log => Ordered s log ∧ Machine.Explained RightData log)
      ⟨⟨?_, ?_, ?_, ?_⟩, Machine.explained_nil _⟩ ?_ inputs orderly
    · intro i entry there
      simp [registry, initial] at there
    · intro tid
      simp [initial]
    · intro tid
      simp [initial]
    · intro tid
      simp [initial]
    · rintro s inputs log input ⟨ordered, right⟩ ⟨allowed, orderly⟩
      have keeps := ordered.step input allowed orderly
      exact ⟨keeps.ordered, right.append _ keeps.right⟩
  refine ⟨right, fun tid => ?_⟩
  rw [ordered.wasThreadCreated_iff, ordered.live, ordered.registered, ordered.finished]
  have born : run.1.threads tid = .ended → tid.toNat < run.1.tool.threadDataVec.length := by
    intro ended
    rw [← ordered.registered, ended]
    simp
  by_cases ended : run.1.threads tid = .ended
  · have inside := born ended
    simp only [ended, ne_eq, not_true_eq_false, and_false, iff_false, not_not]
    omega
  · simp only [ended, ne_eq, not_false_eq_true, and_true]
    omega

/-- The second thread has a barrier for both. -/
theorem callbacks_act_on_live_data_of_two :
    Machine.Explained RightData (Machine.run PinState.step (initial StaticTraceWriter.create 10)
      (twoThreads 0 1 (.onThreadEvent 0 true))).2 := by
  refine (callbacks_act_on_live_data StaticTraceWriter.create 10
    (twoThreads 0 1 (.onThreadEvent 0 true)) ?_).1
  refine ⟨⟨rfl, rfl⟩, ⟨rfl, rfl⟩, ⟨rfl, trivial⟩, ⟨trivial, ?_⟩, trivial⟩
  intro callback first inside loops threadData member
  cases inside
  cases loops
  cases List.mem_singleton.mp member
  rfl

/-- Thread 1 gets the lock before thread 0, and its basic block goes to the trace of
thread 0. -/
theorem early_thread_is_traced_as_another :
    Machine.Meets PinState.step Allowed (initial StaticTraceWriter.create 10)
        (twoThreads 1 0 (.appendToDynamicTrace 7 3)) ∧
      ¬ Machine.Explained RightData (Machine.run PinState.step
        (initial StaticTraceWriter.create 10) (twoThreads 1 0 (.appendToDynamicTrace 7 3))).2 := by
  have log : (Machine.run PinState.step (initial StaticTraceWriter.create 10)
      (twoThreads 1 0 (.appendToDynamicTrace 7 3))).2 =
        [.started 1, .started 0, .checked 1 true, .appended 1 (some 0)] := by decide +kernel
  refine ⟨⟨rfl, rfl, rfl, trivial, trivial⟩, fun explained => ?_⟩
  have right := explained [.started 1, .started 0, .checked 1 true] (.appended 1 (some 0)) [] log
  exact absurd right.1 (by decide)

end Sinuca3.Guarantees
