import Mathlib.Data.List.Range
import Sinuca3.Source.StdComponents.BoomFetch

/-!
# A cycle of boom fetch

What a clock does to the instructions that are fetched but not sent, and to the return
address stack, which is clocked with the requests of the cycle before.
-/
namespace Sinuca3.Source
open Lib

namespace BoomFetch

/-- The instructions that `SentToRas` sends a request about. -/
def toRas (events : List BoomFetchEvent) : List InstructionPacket :=
  events.filterMap fun
    | .sentToRas instruction => some instruction
    | _ => none

def fromRas (events : List BoomFetchEvent) : List PredictorPacket :=
  events.filterMap fun
    | .receivedFromRas response => some response
    | _ => none

/-- The instruction stream. -/
def fetchedBy (events : List BoomFetchEvent) : List InstructionPacket :=
  events.filterMap fun
    | .fetched instruction => some instruction
    | _ => none

section Append

variable (events more : List BoomFetchEvent)

@[simp] theorem toRas_append : toRas (events ++ more) = toRas events ++ toRas more :=
  List.filterMap_append

@[simp] theorem fromRas_append : fromRas (events ++ more) = fromRas events ++ fromRas more :=
  List.filterMap_append

@[simp] theorem fetchedBy_append :
    fetchedBy (events ++ more) = fetchedBy events ++ fetchedBy more :=
  List.filterMap_append

end Append

@[simp] theorem toRas_map_received (responses : List PredictorPacket) :
    toRas (responses.map .receivedFromRas) = [] := by
  simp [toRas, List.filterMap_map]

@[simp] theorem fromRas_map_received (responses : List PredictorPacket) :
    fromRas (responses.map .receivedFromRas) = responses := by
  simp [fromRas, List.filterMap_map]

@[simp] theorem fetchedBy_map_received (responses : List PredictorPacket) :
    fetchedBy (responses.map .receivedFromRas) = [] := by
  simp [fetchedBy, List.filterMap_map]

/-- A call or a return. -/
def concernsRas (instruction : InstructionPacket) : Bool := (rasPacket instruction).isSome

section Buffer

/-- The entries in use keep their instructions, and whether they are sent. -/
structure SameBuffer (f g : BoomFetch) : Prop where
  usage : g.fetchBufferUsage = f.fetchBufferUsage
  instruction : ∀ j < f.fetchBufferUsage,
    (g.fetchBuffer j).instruction = (f.fetchBuffer j).instruction
  sent : ∀ j < f.fetchBufferUsage,
    (g.fetchBuffer j).flags.sentToMemory = (f.fetchBuffer j).flags.sentToMemory
  flagsToCheck : g.flagsToCheck = f.flagsToCheck

/-- At most other flags are set, and the stack is left alone. -/
structure Marked (f g : BoomFetch) : Prop extends SameBuffer f g where
  ras : g.ras = f.ras
  rasConnection : g.rasConnection = f.rasConnection

theorem Marked.refl (f : BoomFetch) : Marked f f :=
  ⟨⟨rfl, fun _ _ => rfl, fun _ _ => rfl, rfl⟩, rfl, rfl⟩

theorem Marked.trans {f g h : BoomFetch} (first : Marked f g) (second : Marked g h) :
    Marked f h where
  usage := second.usage.trans first.usage
  instruction j used :=
    (second.instruction j (first.usage.symm ▸ used)).trans (first.instruction j used)
  sent j used := (second.sent j (first.usage.symm ▸ used)).trans (first.sent j used)
  flagsToCheck := second.flagsToCheck.trans first.flagsToCheck
  ras := second.ras.trans first.ras
  rasConnection := second.rasConnection.trans first.rasConnection

theorem Marked.withBTB {f g : BoomFetch} (marked : Marked f g) (c : BTBConnection) :
    Marked f { g with btbConnection := c } :=
  marked.trans ⟨⟨rfl, fun _ _ => rfl, fun _ _ => rfl, rfl⟩, rfl, rfl⟩

theorem setFlags_instruction (f : BoomFetch) (i : Nat)
    (set : BoomFetchBufferEntryFlags → BoomFetchBufferEntryFlags) (j : Nat) :
    ((f.setFlags i set).fetchBuffer j).instruction = (f.fetchBuffer j).instruction := by
  unfold setFlags setEntry
  dsimp only
  by_cases here : j = i
  · rw [here, Function.update_self]
  · rw [Function.update_of_ne here]

theorem setFlags_flags (f : BoomFetch) (i : Nat)
    (set : BoomFetchBufferEntryFlags → BoomFetchBufferEntryFlags) (j : Nat) :
    ((f.setFlags i set).fetchBuffer j).flags =
      if j = i then set (f.fetchBuffer j).flags else (f.fetchBuffer j).flags := by
  unfold setFlags setEntry
  dsimp only
  split
  · rename_i here
    rw [here, Function.update_self]
  · rename_i elsewhere
    rw [Function.update_of_ne elsewhere]

theorem setFlags_marked (f : BoomFetch) (i : Nat)
    (set : BoomFetchBufferEntryFlags → BoomFetchBufferEntryFlags)
    (keeps : ∀ flags, (set flags).sentToMemory = flags.sentToMemory) :
    Marked f (f.setFlags i set) := by
  refine ⟨⟨rfl, fun j _ => f.setFlags_instruction i set j, fun j _ => ?_, rfl⟩, rfl, rfl⟩
  rw [setFlags_flags]
  split
  · exact keeps _
  · rfl

theorem checkPredictor_marked (responses : List PredictorPacket) (i : Nat) (f : BoomFetch) :
    Marked f (checkPredictor responses i f).2 := by
  induction responses generalizing i f with
  | nil => exact Marked.refl f
  | cons response responses ih =>
    rw [checkPredictor]
    exact (f.setFlags_marked i .setPredictorCheck fun _ => rfl).trans (ih _ _)

theorem clockCheckPredictor_marked (f : BoomFetch) (ports : BoomFetchPorts) :
    Marked f (f.clockCheckPredictor ports).2.1 :=
  checkPredictor_marked _ _ f

theorem checkBTB_marked (responses : List BTBPacket) (f : BoomFetch) :
    Marked f (checkBTB responses f).2 := by
  induction responses generalizing f with
  | nil => exact Marked.refl f
  | cons response responses ih =>
    have marked := f.setFlags_marked (f.skipWhile (!·.awaitsBTB) f.fetchSize 0) .setBTBCheck
      fun _ => rfl
    rw [checkBTB]
    exact (marked.withBTB _).trans (ih _)

theorem clockCheckBTB_marked (f : BoomFetch) : Marked f f.clockCheckBTB.2 := by
  have clocked : Marked f f.clockedBTB.2 := ⟨⟨rfl, fun _ _ => rfl, fun _ _ => rfl, rfl⟩, rfl, rfl⟩
  rw [clockCheckBTB]
  exact clocked.trans (checkBTB_marked _ _)

end Buffer

section Flow

/-- Of the entries in use, those up to `k` are sent and the others are not. -/
structure Parted (f : BoomFetch) (k : Nat) : Prop where
  le : k ≤ f.fetchBufferUsage
  sent : ∀ j < k, (f.fetchBuffer j).flags.sentToMemory = true
  unsent : ∀ j, k ≤ j → j < f.fetchBufferUsage → (f.fetchBuffer j).flags.sentToMemory = false

/-- The instructions from the entry at `k` on. -/
def pending (f : BoomFetch) (k : Nat) : List InstructionPacket :=
  (List.range' k (f.fetchBufferUsage - k)).map fun j => (f.fetchBuffer j).instruction

theorem pending_cons (f : BoomFetch) {k : Nat} (used : k < f.fetchBufferUsage) :
    f.pending k = (f.fetchBuffer k).instruction :: f.pending (k + 1) := by
  have count : f.fetchBufferUsage - k = f.fetchBufferUsage - (k + 1) + 1 := by omega
  rw [pending, count, List.range'_succ]
  rfl

/-- A part of a clock: of what is yet to be sent and what is fetched, the calls and
returns are sent to the stack or yet to be sent. -/
structure Flow (f : BoomFetch) (k : Nat) (g : BoomFetch) (k' : Nat)
    (events : List BoomFetchEvent) : Prop where
  parted : g.Parted k'
  flagsToCheck : g.flagsToCheck = f.flagsToCheck
  balance : (f.pending k ++ fetchedBy events).filter concernsRas =
    toRas events ++ (g.pending k').filter concernsRas

theorem Flow.trans {f g h : BoomFetch} {k k' k'' : Nat} {events more : List BoomFetchEvent}
    (first : Flow f k g k' events) (second : Flow g k' h k'' more) :
    Flow f k h k'' (events ++ more) where
  parted := second.parted
  flagsToCheck := second.flagsToCheck.trans first.flagsToCheck
  balance := by
    have early := first.balance
    have late := second.balance
    rw [List.filter_append] at early late
    rw [fetchedBy_append, toRas_append, List.filter_append, List.filter_append, ← List.append_assoc,
      early, List.append_assoc, late, List.append_assoc]

theorem SameBuffer.flow {f g : BoomFetch} (same : SameBuffer f g) {k : Nat} (parted : f.Parted k)
    {events : List BoomFetchEvent} (idle : toRas events = []) (unfetched : fetchedBy events = []) :
    Flow f k g k events where
  parted := by
    refine ⟨?_, fun j before => ?_, fun j after used => ?_⟩
    · rw [same.usage]
      exact parted.le
    · rw [same.sent j (Nat.lt_of_lt_of_le before parted.le)]
      exact parted.sent j before
    · rw [same.usage] at used
      rw [same.sent j used]
      exact parted.unsent j after used
  flagsToCheck := same.flagsToCheck
  balance := by
    have pending : g.pending k = f.pending k := by
      rw [BoomFetch.pending, BoomFetch.pending, same.usage]
      refine List.map_congr_left fun j inside => same.instruction j ?_
      have bounds := List.mem_range'_1.mp inside
      omega
    rw [idle, unfetched, pending, List.append_nil, List.nil_append]

/-- A loop that skips what is sent stops where the rest starts. -/
theorem skipWhile_le (f : BoomFetch) (passes : BoomFetchBufferEntryFlags → Bool) (n i : Nat) :
    i ≤ f.skipWhile passes n i ∧ f.skipWhile passes n i ≤ i + n ∧
      (∀ j, i ≤ j → j < f.skipWhile passes n i → passes (f.fetchBuffer j).flags = true) ∧
      (f.skipWhile passes n i < i + n →
        passes (f.fetchBuffer (f.skipWhile passes n i)).flags = false) := by
  induction n generalizing i with
  | zero =>
    refine ⟨Nat.le_refl i, Nat.le_refl i, fun j after before => ?_, fun before => ?_⟩
    · exact absurd after (Nat.not_le_of_lt before)
    · exact absurd before (Nat.lt_irrefl i)
  | succ n ih =>
    rw [skipWhile]
    split
    · rename_i here
      obtain ⟨above, below, all, stops⟩ := ih (i + 1)
      refine ⟨by omega, by omega, fun j after before => ?_, fun before => stops (by omega)⟩
      rcases Nat.eq_or_lt_of_le after with rfl | after
      · exact here
      · exact all j after before
    · rename_i here
      refine ⟨Nat.le_refl i, by omega, fun j after before => ?_, fun _ => Bool.eq_false_iff.mpr here⟩
      exact absurd after (Nat.not_le_of_lt before)

theorem Parted.skipWhile {f : BoomFetch} {k : Nat} (parted : f.Parted k) :
    f.skipWhile (·.sentToMemory) f.fetchBufferUsage 0 = k := by
  obtain ⟨_, within, all, stops⟩ := f.skipWhile_le (·.sentToMemory) f.fetchBufferUsage 0
  rw [Nat.zero_add] at within stops
  have bound := parted.le
  rcases Nat.lt_trichotomy (f.skipWhile (·.sentToMemory) f.fetchBufferUsage 0) k with
    less | same | more
  · have stopped := stops (by omega)
    rw [parted.sent _ less] at stopped
    cases stopped
  · exact same
  · have passed := all k (Nat.zero_le k) more
    rw [parted.unsent k (Nat.le_refl k) (by omega)] at passed
    cases passed

end Flow

section Send

/-- A request is sent about a call or a return, and not about another instruction. -/
theorem sentToRas_eq (f : BoomFetch) (i : Nat) (available : f.rasConnection.isConnectionAvailable) :
    SameBuffer f (f.sentToRas i).2.1 ∧ (f.sentToRas i).2.1.ras = f.ras ∧
      toRas (f.sentToRas i).2.2 = [(f.fetchBuffer i).instruction].filter concernsRas ∧
      fromRas (f.sentToRas i).2.2 = [] ∧ fetchedBy (f.sentToRas i).2.2 = [] ∧
      f.rasConnection.Views (f.sentToRas i).2.1.rasConnection
        (f.rasConnection.sentRequests ++ (toRas (f.sentToRas i).2.2).filterMap rasPacket)
        f.rasConnection.readableRequests f.rasConnection.sentResponses
        f.rasConnection.readableResponses := by
  unfold sentToRas
  dsimp only
  rcases packet : rasPacket (f.fetchBuffer i).instruction with _ | packet'
  · have other : concernsRas (f.fetchBuffer i).instruction = false := by rw [concernsRas, packet]; rfl
    refine ⟨(Marked.refl f).toSameBuffer, rfl, ?_, rfl, rfl, ⟨rfl, ?_, rfl, rfl, rfl⟩⟩
    · simp [toRas, other]
    · simp [toRas]
  · have call : concernsRas (f.fetchBuffer i).instruction = true := by rw [concernsRas, packet]; rfl
    obtain ⟨c, sent, views⟩ := f.rasConnection.sendRequest_of_available packet' available
    refine ⟨⟨rfl, fun _ _ => rfl, fun _ _ => rfl, rfl⟩, rfl, ?_, rfl, rfl, ?_⟩
    · simp [toRas, call]
    · simpa [toRas, sent, packet] using views

theorem sentToBTB_marked (f : BoomFetch) (i : Nat) : Marked f (f.sentToBTB i).2 := by
  unfold sentToBTB
  dsimp only
  split
  · exact ((Marked.refl f).withBTB _).trans (setFlags_marked _ i .setSentToBTB fun _ => rfl)
  · exact Marked.refl f

/-- After the request to the stack an entry is only marked. -/
theorem sendEntry_marked (f : BoomFetch) (ports : BoomFetchPorts) (i : Nat) :
    Marked ((f.setFlags i .setSent).sentToRas i).2.1 (f.sendEntry ports i).1 := by
  have mark : ∀ (g h : BoomFetch) (flag : Bool), Marked g h → ∀ set,
      (∀ flags : BoomFetchBufferEntryFlags, (set flags).sentToMemory = flags.sentToMemory) →
      Marked g (if flag then h.setFlags i set else h) := by
    intro g h flag marked set keeps
    split
    · exact marked.trans (h.setFlags_marked i set keeps)
    · exact marked
  exact mark _ _ _ ((mark _ _ _ (Marked.refl _) .setSentToRas fun _ => rfl).trans
    (sentToBTB_marked _ i)) .setSentToBTB fun _ => rfl

theorem available_ras {f : BoomFetch} {ports : BoomFetchPorts} (available : f.available ports) :
    f.rasConnection.isConnectionAvailable = true := by
  simp only [BoomFetch.available, Bool.and_eq_true] at available
  exact available.1.2

theorem sendEntry_flow (f : BoomFetch) (ports : BoomFetchPorts) {i : Nat}
    (available : f.available ports) (parted : f.Parted i) (used : i < f.fetchBufferUsage) :
    Flow f i (f.sendEntry ports i).1 (i + 1) (f.sendEntry ports i).2.2 ∧
      (f.sendEntry ports i).1.fetchBufferUsage = f.fetchBufferUsage := by
  have set := f.setFlags_instruction i .setSent
  obtain ⟨same, _, sent, _, fetched, _⟩ :=
    (f.setFlags i .setSent).sentToRas_eq i (available_ras available)
  have marked : Flow f i (f.setFlags i .setSent) (i + 1)
      ((f.setFlags i .setSent).sentToRas i).2.2 := by
    refine ⟨⟨used, fun j before => ?_, fun j after within => ?_⟩, rfl, ?_⟩
    · rw [setFlags_flags]
      split
      · rfl
      · exact parted.sent j (by omega)
    · rw [setFlags_flags, if_neg (by omega)]
      exact parted.unsent j (by omega) within
    · have rest : (f.setFlags i .setSent).pending (i + 1) = f.pending (i + 1) :=
        List.map_congr_left fun j _ => set j
      rw [fetched, sent, rest, set, f.pending_cons used, List.append_nil, ← List.filter_append]
      rfl
  have later := (sendEntry_marked f ports i).toSameBuffer
  have asked : Flow _ (i + 1) _ (i + 1) [] := same.flow marked.parted rfl rfl
  have finished : Flow _ (i + 1) _ (i + 1) [] := later.flow asked.parted rfl rfl
  have whole := marked.trans (asked.trans finished)
  rw [List.append_nil, List.append_nil] at whole
  exact ⟨whole, later.usage.trans same.usage⟩

theorem sendFrom_flow (n i : Nat) (f : BoomFetch) (ports : BoomFetchPorts) (parted : f.Parted i)
    (rest : f.fetchBufferUsage - i = n) :
    ∃ k, Flow f i (sendFrom n i f ports).1 k (sendFrom n i f ports).2.2 := by
  induction n generalizing i f ports with
  | zero => exact ⟨i, (Marked.refl f).flow parted rfl rfl⟩
  | succ n ih =>
    rw [sendFrom]
    split
    · rename_i available
      obtain ⟨one, usage⟩ := f.sendEntry_flow ports available parted (by omega)
      obtain ⟨k, later⟩ := ih (i + 1) (f.sendEntry ports i).1 (f.sendEntry ports i).2.1 one.parted
        (by omega)
      exact ⟨k, one.trans later⟩
    · exact ⟨i, (Marked.refl f).flow parted rfl rfl⟩

theorem clockSendBuffered_flow (f : BoomFetch) (ports : BoomFetchPorts) {k : Nat}
    (parted : f.Parted k) :
    ∃ k', Flow f k (f.clockSendBuffered ports).1 k' (f.clockSendBuffered ports).2.2 := by
  unfold clockSendBuffered
  dsimp only
  rw [parted.skipWhile]
  exact sendFrom_flow _ k f ports parted rfl

end Send

section Clock

theorem sentToMemory_of_contains {flags toCheck : BoomFetchBufferEntryFlags}
    (contains : flags.contains toCheck = true) (checks : toCheck.sentToMemory = true) :
    flags.sentToMemory = true := by
  simp only [BoomFetchBufferEntryFlags.contains, Bool.and_eq_true] at contains
  simpa [checks] using contains.2

/-- Only entries that are sent are taken off the buffer. -/
theorem clockUnbuffer_flow (f : BoomFetch) {k : Nat} (parted : f.Parted k)
    (checks : f.flagsToCheck.sentToMemory = true) : ∃ k', Flow f k f.clockUnbuffer k' [] := by
  let passes := fun flags : BoomFetchBufferEntryFlags =>
    flags.contains f.flagsToCheck && !flags.awaitsBTB
  obtain ⟨_, within, all, _⟩ := f.skipWhile_le passes f.fetchBufferUsage 0
  generalize stop : f.skipWhile passes f.fetchBufferUsage 0 = i at within all
  have result : f.clockUnbuffer = { f with
      fetchBufferUsage := f.fetchBufferUsage - i
      fetchBuffer := fun j =>
        if j < f.fetchBufferUsage - i then f.fetchBuffer (i + j) else f.fetchBuffer j } := by
    rw [← stop]
    rfl
  have before : i ≤ k := by
    by_contra beyond
    have passed := all k (Nat.zero_le k) (by omega)
    have sent := sentToMemory_of_contains (Bool.and_eq_true_iff.mp passed).1 checks
    rw [parted.unsent k (Nat.le_refl k) (by omega)] at sent
    cases sent
  have inUse := parted.le
  rw [result]
  refine ⟨k - i, ⟨Nat.sub_le_sub_right inUse i, fun j front => ?_, fun j after used => ?_⟩, rfl, ?_⟩
  · dsimp only
    rw [if_pos (by omega)]
    exact parted.sent (i + j) (by omega)
  · dsimp only at used ⊢
    rw [if_pos used]
    exact parted.unsent (i + j) (by omega) (by omega)
  · have moved : List.range' k (f.fetchBufferUsage - k) =
        (List.range' (k - i) (f.fetchBufferUsage - k)).map (i + ·) := by
      rw [List.map_add_range', Nat.add_sub_cancel' before]
    have count : f.fetchBufferUsage - i - (k - i) = f.fetchBufferUsage - k := by omega
    rw [pending, pending, moved, List.map_map]
    dsimp only
    rw [count]
    simp only [fetchedBy, toRas, List.filterMap_nil, List.append_nil, List.nil_append]
    congr 1
    refine List.map_congr_left fun j inside => ?_
    have bounds := List.mem_range'_1.mp inside
    rw [if_pos (by omega)]
    rfl

/-- An instruction that is received is yet to be sent. -/
theorem receive_flow (responses : List InstructionPacket) (f : BoomFetch) {k : Nat}
    (parted : f.Parted k) : Flow f k (receive responses f).1 k (receive responses f).2 := by
  induction responses generalizing f with
  | nil =>
    have others : ∀ j < f.fetchBufferUsage,
        (receive [] f).1.fetchBuffer j = f.fetchBuffer j := fun j used =>
      Function.update_of_ne (Nat.ne_of_lt used) _ _
    have same : SameBuffer f (receive [] f).1 :=
      ⟨rfl, fun j used => by rw [others j used], fun j used => by rw [others j used], rfl⟩
    exact same.flow parted rfl rfl
  | cons response responses ih =>
    let g : BoomFetch := { f.setEntry f.fetchBufferUsage { instruction := response, flags := {} } with
      fetchBufferUsage := f.fetchBufferUsage + 1
      fetchedInstructions := f.fetchedInstructions + 1 }
    have old : ∀ j < f.fetchBufferUsage, g.fetchBuffer j = f.fetchBuffer j := fun j used =>
      Function.update_of_ne (Nat.ne_of_lt used) _ _
    have new : g.fetchBuffer f.fetchBufferUsage = { instruction := response, flags := {} } :=
      Function.update_self ..
    have inUse := parted.le
    have one : Flow f k g k [.fetched response] := by
      refine ⟨⟨Nat.le_succ_of_le inUse, fun j before => ?_, fun j after used => ?_⟩, rfl, ?_⟩
      · rw [old j (by omega)]
        exact parted.sent j before
      · rcases Nat.lt_succ_iff_lt_or_eq.mp used with used | rfl
        · rw [old j used]
          exact parted.unsent j after used
        · rw [new]
      · have count : g.fetchBufferUsage - k = f.fetchBufferUsage - k + 1 := by
          change f.fetchBufferUsage + 1 - k = _
          omega
        have last : k + (f.fetchBufferUsage - k) = f.fetchBufferUsage := by omega
        have pending : g.pending k = f.pending k ++ [response] := by
          rw [BoomFetch.pending, count, List.range'_1_concat, List.map_append, last,
            List.map_singleton, new]
          congr 1
          refine List.map_congr_left fun j inside => ?_
          have bounds := List.mem_range'_1.mp inside
          rw [old j (by omega)]
        rw [pending]
        rfl
    exact one.trans (ih g one.parted)

theorem clockCheckRas_flow (f : BoomFetch) {k : Nat} (parted : f.Parted k) :
    Flow f k f.clockCheckRas.2.1 k f.clockCheckRas.2.2 := by
  have same : SameBuffer f f.clockedRas.2 := ⟨rfl, fun _ _ => rfl, fun _ _ => rfl, rfl⟩
  unfold clockCheckRas
  exact same.flow parted (toRas_map_received _) (fetchedBy_map_received _)

theorem clockBuffered_flow (f : BoomFetch) (ports : BoomFetchPorts) {k : Nat}
    (parted : f.Parted k) (checks : f.flagsToCheck.sentToMemory = true) :
    ∃ k', Flow f k (f.clockBuffered ports).2.1 k' (f.clockBuffered ports).2.2.2 := by
  let sent := f.clockSendBuffered ports
  let predicted := sent.1.clockCheckPredictor sent.2.1
  let ras := predicted.2.1.clockCheckRas
  let btb := ras.2.1.clockCheckBTB
  obtain ⟨k', sends⟩ := f.clockSendBuffered_flow ports parted
  have checked : Flow sent.1 k' predicted.2.1 k' [] :=
    (sent.1.clockCheckPredictor_marked sent.2.1).flow sends.parted rfl rfl
  have asked : Flow predicted.2.1 k' ras.2.1 k' ras.2.2 :=
    predicted.2.1.clockCheckRas_flow checked.parted
  have redirected : Flow ras.2.1 k' btb.2 k' [] :=
    ras.2.1.clockCheckBTB_marked.flow asked.parted rfl rfl
  have before := sends.trans (checked.trans (asked.trans redirected))
  obtain ⟨k'', unbuffers⟩ := btb.2.clockUnbuffer_flow redirected.parted
    (by rw [before.flagsToCheck]; exact checks)
  have result : f.clockBuffered ports = (predicted.1 && ras.1 && btb.1, btb.2.clockUnbuffer,
      predicted.2.2, sent.2.2 ++ ras.2.2) := rfl
  have whole := before.trans unbuffers
  rw [List.nil_append, List.append_nil, List.append_nil] at whole
  rw [result]
  exact ⟨k'', whole⟩

/-- What follows the first five calls may fetch, and does not concern the stack. -/
structure Closes (f g : BoomFetch) (events : List BoomFetchEvent) : Prop where
  ras : g.ras = f.ras
  rasConnection : g.rasConnection = f.rasConnection
  unsent : toRas events = []
  silent : fromRas events = []
  flow : ∀ k, f.Parted k → Flow f k g k events

theorem Marked.closes {f g h : BoomFetch} {events : List BoomFetchEvent} (marked : Marked f g)
    (closes : Closes g h events) : Closes f h events where
  ras := closes.ras.trans marked.ras
  rasConnection := closes.rasConnection.trans marked.rasConnection
  unsent := closes.unsent
  silent := closes.silent
  flow k parted := by
    have first : Flow f k g k [] := marked.flow parted rfl rfl
    exact first.trans (closes.flow k first.parted)

theorem Marked.closes_nil {f g : BoomFetch} (marked : Marked f g) : Closes f g [] :=
  ⟨marked.ras, marked.rasConnection, rfl, rfl, fun _ parted => marked.flow parted rfl rfl⟩

theorem receive_closes (responses : List InstructionPacket) (f : BoomFetch) :
    Closes f (receive responses f).1 (receive responses f).2 := by
  refine ⟨?_, ?_, ?_, ?_, fun k parted => receive_flow responses f parted⟩ <;>
    induction responses generalizing f with
    | nil => rfl
    | cons response responses ih => exact ih _

theorem clockFetchAndRequest_closes (f : BoomFetch) (ports : BoomFetchPorts) :
    Closes f (f.clockFetchAndRequest ports).1 (f.clockFetchAndRequest ports).2.2 := by
  have received := receive_closes ports.fetch.drainResponses.1 f
  unfold clockFetchAndRequest clockFetch
  dsimp only
  split
  all_goals
    refine ⟨received.ras, received.rasConnection, received.unsent, received.silent, ?_⟩
    intro k parted
    have flow := received.flow k parted
    exact ⟨⟨flow.parted.le, flow.parted.sent, flow.parted.unsent⟩, flow.flagsToCheck, flow.balance⟩

theorem clock_closes (f : BoomFetch) (ports : BoomFetchPorts) :
    ∃ more, (f.clock ports).2.2 = (f.clockBuffered ports).2.2.2 ++ more ∧
      Closes (f.clockBuffered ports).2.1 (f.clock ports).1 more := by
  unfold clock
  generalize f.clockBuffered ports = buffered
  obtain ⟨unconfirmed, f, ports, events⟩ := buffered
  dsimp only
  have paying : Marked f { f with currentPenalty := f.currentPenalty - 1 } :=
    ⟨⟨rfl, fun _ _ => rfl, fun _ _ => rfl, rfl⟩, rfl, rfl⟩
  split
  · split
    · exact ⟨[], (List.append_nil events).symm, paying.closes_nil⟩
    · exact ⟨_, rfl, paying.closes (clockFetchAndRequest_closes _ ports)⟩
  · split
    · refine ⟨[], (List.append_nil events).symm, Marked.closes_nil ?_⟩
      exact ⟨⟨rfl, fun _ _ => rfl, fun _ _ => rfl, rfl⟩, rfl, rfl⟩
    · exact ⟨_, rfl, clockFetchAndRequest_closes f ports⟩

/-- Of the calls and returns that are fetched, those that are not sent yet are pending. -/
theorem clock_flow (f : BoomFetch) (ports : BoomFetchPorts) {k : Nat} (parted : f.Parted k)
    (checks : f.flagsToCheck.sentToMemory = true) :
    ∃ k', Flow f k (f.clock ports).1 k' (f.clock ports).2.2 := by
  obtain ⟨k', buffered⟩ := f.clockBuffered_flow ports parted checks
  obtain ⟨more, events, closes⟩ := f.clock_closes ports
  rw [events]
  exact ⟨k', buffered.trans (closes.flow k' buffered.parted)⟩

end Clock

section Stack

/-- A part of a clock that only sends requests to the stack, all of which are taken. -/
structure Asked (f g : BoomFetch) (events : List BoomFetchEvent) : Prop where
  ras : g.ras = f.ras
  silent : fromRas events = []
  views : f.rasConnection.Views g.rasConnection
    (f.rasConnection.sentRequests ++ (toRas events).filterMap rasPacket)
    f.rasConnection.readableRequests f.rasConnection.sentResponses
    f.rasConnection.readableResponses

theorem Asked.trans {f g h : BoomFetch} {events more : List BoomFetchEvent}
    (first : Asked f g events) (second : Asked g h more) : Asked f h (events ++ more) where
  ras := second.ras.trans first.ras
  silent := by rw [fromRas_append, first.silent, second.silent]; rfl
  views := by
    have early := first.views
    have late := second.views
    rw [early.sentRequests, early.readableRequests, early.sentResponses,
      early.readableResponses] at late
    rw [toRas_append, List.filterMap_append, ← List.append_assoc]
    exact early.trans late

theorem Marked.asked {f g : BoomFetch} (marked : Marked f g) : Asked f g [] := by
  refine ⟨marked.ras, rfl, ?_⟩
  rw [marked.rasConnection]
  exact ⟨rfl, (List.append_nil _).symm, rfl, rfl, rfl⟩

theorem sendEntry_asked (f : BoomFetch) (ports : BoomFetchPorts) (i : Nat)
    (available : f.available ports) :
    Asked f (f.sendEntry ports i).1 (f.sendEntry ports i).2.2 := by
  obtain ⟨_, ras, _, silent, _, views⟩ :=
    (f.setFlags i .setSent).sentToRas_eq i (available_ras available)
  have sent : Asked f ((f.setFlags i .setSent).sentToRas i).2.1
    ((f.setFlags i .setSent).sentToRas i).2.2 := ⟨ras, silent, views⟩
  have whole := sent.trans (sendEntry_marked f ports i).asked
  rw [List.append_nil] at whole
  exact whole

theorem sendFrom_asked (n i : Nat) (f : BoomFetch) (ports : BoomFetchPorts) :
    Asked f (sendFrom n i f ports).1 (sendFrom n i f ports).2.2 := by
  induction n generalizing i f ports with
  | zero => exact (Marked.refl f).asked
  | succ n ih =>
    rw [sendFrom]
    split
    · rename_i available
      exact (f.sendEntry_asked ports i available).trans (ih _ _ _)
    · exact (Marked.refl f).asked

/-- The clock of the stack, when it has no responses under way: it reads a request, and
what it responds is received at once. -/
theorem clockedRas_eq (f : BoomFetch) (idle : f.rasConnection.sentResponses = []) :
    f.clockedRas.2.ras = afterRequests Ras.respond f.ras (f.rasConnection.readableRequests.take 1) ∧
      f.clockedRas.1 = (f.rasConnection.readableRequests.take 1).filterMap
        (fun packet => (f.ras.respond packet).2) ∧
      f.clockedRas.2.rasConnection.sentRequests = [] ∧
      f.clockedRas.2.rasConnection.readableRequests = f.rasConnection.sentRequests ∧
      f.clockedRas.2.rasConnection.sentResponses = [] := by
  obtain ⟨c, connection, ras, views⟩ := clockOnce_single Ras.respond f.ras f.rasConnection idle
  obtain ⟨c', drained, views'⟩ := c.swapBuffers.drainResponses_eq
  have result : f.clockedRas =
      (c.swapBuffers.readableResponses, { f with
        ras := afterRequests Ras.respond f.ras (f.rasConnection.readableRequests.take 1)
        rasConnection := c' }) := by
    unfold clockedRas Ras.clock
    dsimp only
    rw [connection, ras, drained]
  rw [result]
  refine ⟨rfl, ?_, ?_, ?_, ?_⟩
  · rw [Connection.readableResponses_swap]
    exact views.sentResponses
  · exact views'.sentRequests.trans c.sentRequests_swap
  · exact (views'.readableRequests.trans c.readableRequests_swap).trans views.sentRequests
  · exact views'.sentResponses.trans c.sentResponses_swap

/-- The first five calls, as the stack sees them. -/
theorem clockBuffered_ras (f : BoomFetch) (ports : BoomFetchPorts) :
    ∃ (g : BoomFetch) (sent : List BoomFetchEvent), Asked f g sent ∧
      (f.clockBuffered ports).2.1.ras = g.clockedRas.2.ras ∧
      (f.clockBuffered ports).2.1.rasConnection = g.clockedRas.2.rasConnection ∧
      (f.clockBuffered ports).2.2.2 = sent ++ g.clockedRas.1.map .receivedFromRas := by
  have sends : Asked f (f.clockSendBuffered ports).1 (f.clockSendBuffered ports).2.2 :=
    sendFrom_asked _ _ f ports
  unfold clockBuffered
  dsimp only
  generalize f.clockSendBuffered ports = sent at *
  have predicts := sent.1.clockCheckPredictor_marked sent.2.1
  generalize sent.1.clockCheckPredictor sent.2.1 = predicted at *
  have asked := sends.trans predicts.asked
  rw [List.append_nil] at asked
  have redirects := predicted.2.1.clockCheckRas.2.1.clockCheckBTB_marked
  generalize predicted.2.1.clockCheckRas.2.1.clockCheckBTB = btb at *
  rw [clockCheckRas] at redirects ⊢
  exact ⟨predicted.2.1, sent.2.2, asked, redirects.ras, redirects.rasConnection, rfl⟩

/-- A cycle as the stack sees it: a request of the cycle before is handled, its response
is received, and the requests of this cycle wait for the next. -/
theorem clock_ras (f : BoomFetch) (ports : BoomFetchPorts)
    (unsent : f.rasConnection.sentRequests = []) (idle : f.rasConnection.sentResponses = []) :
    (f.clock ports).1.ras =
        afterRequests Ras.respond f.ras (f.rasConnection.readableRequests.take 1) ∧
      fromRas (f.clock ports).2.2 = (f.rasConnection.readableRequests.take 1).filterMap
        (fun packet => (f.ras.respond packet).2) ∧
      (f.clock ports).1.rasConnection.sentRequests = [] ∧
      (f.clock ports).1.rasConnection.readableRequests =
        (toRas (f.clock ports).2.2).filterMap rasPacket ∧
      (f.clock ports).1.rasConnection.sentResponses = [] := by
  obtain ⟨g, sent, asked, bufferedRas, bufferedConnection, bufferedEvents⟩ :=
    f.clockBuffered_ras ports
  obtain ⟨more, events, closes⟩ := f.clock_closes ports
  have views := asked.views
  obtain ⟨ras, responses, sentRequests, readable, sentResponses⟩ :=
    g.clockedRas_eq (views.sentResponses.trans idle)
  rw [asked.ras, views.readableRequests] at ras responses
  rw [views.sentRequests, unsent, List.nil_append] at readable
  rw [closes.ras, closes.rasConnection, events, bufferedRas, bufferedConnection, bufferedEvents]
  refine ⟨ras, ?_, sentRequests, ?_, sentResponses⟩
  · rw [fromRas_append, fromRas_append, closes.silent, asked.silent, fromRas_map_received,
      List.append_nil, List.nil_append]
    exact responses
  · rw [toRas_append, toRas_append, closes.unsent, toRas_map_received, List.append_nil,
      List.append_nil]
    exact readable

end Stack

end BoomFetch

end Sinuca3.Source
