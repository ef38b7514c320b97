import Sinuca3.Lib.Machine

/-!
# One stage of a log follows another

A stage of a process is a partial function that picks from each entry of a log the item
it hands on. A stage follows another if at every moment of the log the items it handed
on are, in order and each once, the first of those the other did.
-/
namespace Lib

variable {ω α : Type}

/-- In every beginning of the log, what `target` picks is a prefix of what `source`
picks. -/
def Follows (source target : ω → Option α) (log : List ω) : Prop :=
  ∀ before, before <+: log → before.filterMap target <+: before.filterMap source

variable {source target : ω → Option α}

theorem follows_nil : Follows source target [] := by
  intro before start
  rw [List.prefix_nil.mp start]
  exact List.nil_prefix

/-- The rule for one more part of the log: its items are among those the source had
picked before. -/
theorem Follows.append {log more : List ω} (old : Follows source target log)
    (next : (log ++ more).filterMap target <+: log.filterMap source) :
    Follows source target (log ++ more) := by
  intro before start
  rcases List.prefix_or_prefix_of_prefix start (List.prefix_append log more) with
    inside | beyond
  · exact old before inside
  · have picked := start.filterMap target
    have handed := beyond.filterMap source
    exact (picked.trans next).trans handed

/-- A part in which the target picks nothing. -/
theorem Follows.quiet {log more : List ω} (old : Follows source target log)
    (none : more.filterMap target = []) : Follows source target (log ++ more) := by
  apply old.append
  rw [List.filterMap_append, none, List.append_nil]
  exact old log (List.prefix_refl log)

theorem Follows.whole {log : List ω} (follows : Follows source target log) :
    log.filterMap target <+: log.filterMap source :=
  follows log (List.prefix_refl log)

end Lib
