import Mathlib.Data.Finset.Card
import Mathlib.Data.List.Dedup
import Mathlib.Data.List.Perm.Subperm
import Sinuca3.Lib.Recency

/-!
# LRU stacks

The distinct elements of a list with the most recent on top. The first `w` of them are
what `w` places hold that are always given to the least recent element, so that what fewer
places hold is held by more.
-/
namespace Lib.LruStack

variable {α : Type} [DecidableEq α]

section Lists

/-- Removing an element among the first ones lets one more in. -/
theorem take_erase_of_mem {l : List α} {x : α} {n : Nat} (member : x ∈ l.take (n + 1)) :
    (l.erase x).take n = (l.take (n + 1)).erase x := by
  induction l generalizing n with
  | nil => cases member
  | cons y l ih =>
    rw [List.take_succ_cons] at member ⊢
    by_cases same : y = x
    · subst same
      rw [List.erase_cons_head, List.erase_cons_head]
    · have later : x ∈ l.take n := (List.mem_cons.mp member).resolve_left (Ne.symm same)
      rw [List.erase_cons_tail (by simpa using same), List.erase_cons_tail (by simpa using same)]
      cases n with
      | zero => cases later
      | succ n => rw [List.take_succ_cons, ih later]

theorem take_erase_of_not_mem {l : List α} {x : α} {n : Nat} (absent : x ∉ l.take n) :
    (l.erase x).take n = l.take n := by
  induction l generalizing n with
  | nil => rfl
  | cons y l ih =>
    cases n with
    | zero => rfl
    | succ n =>
      rw [List.take_succ_cons] at absent ⊢
      rw [List.mem_cons, not_or] at absent
      obtain ⟨different, absent⟩ := absent
      rw [List.erase_cons_tail (by simpa using Ne.symm different), List.take_succ_cons, ih absent]

theorem map_erase_of_nodup {β : Type} [DecidableEq β] (f : α → β) {l : List α} {x : α}
    (distinct : (l.map f).Nodup) (member : x ∈ l) : (l.erase x).map f = (l.map f).erase (f x) := by
  induction l with
  | nil => cases member
  | cons y l ih =>
    rw [List.map_cons] at distinct ⊢
    obtain ⟨fresh, distinct⟩ := List.nodup_cons.mp distinct
    by_cases same : y = x
    · subst same
      rw [List.erase_cons_head, List.erase_cons_head]
    · have later : x ∈ l := (List.mem_cons.mp member).resolve_left (Ne.symm same)
      have apart : f y ≠ f x := fun image => fresh (image ▸ List.mem_map_of_mem later)
      rw [List.erase_cons_tail (by simpa using same), List.erase_cons_tail (by simpa using apart),
        List.map_cons, ih distinct later]

end Lists

/-- The use of an element brings it to the top. -/
def touch (stack : List α) (x : α) : List α := x :: stack.erase x

def stack (l : List α) : List α := l.foldl touch []

@[simp] theorem stack_nil : stack ([] : List α) = [] := rfl

theorem stack_concat (l : List α) (x : α) : stack (l ++ [x]) = x :: (stack l).erase x := by
  rw [stack, List.foldl_append]
  rfl

@[simp] theorem mem_stack {l : List α} {x : α} : x ∈ stack l ↔ x ∈ l := by
  induction l using List.reverseRecOn with
  | nil => rfl
  | append_singleton l y ih =>
    rw [stack_concat, List.mem_cons, List.mem_append, List.mem_singleton]
    by_cases same : x = y
    · simp [same]
    · rw [List.mem_erase_of_ne same, ih]
      exact Or.comm

theorem nodup_stack (l : List α) : (stack l).Nodup := by
  induction l using List.reverseRecOn with
  | nil => exact List.nodup_nil
  | append_singleton l y ih =>
    rw [stack_concat]
    exact List.nodup_cons.mpr ⟨ih.not_mem_erase, ih.erase y⟩

/-- Further down is longer ago. -/
theorem pairwise_since (l : List α) :
    (stack l).Pairwise fun x y => Recency.since x l < Recency.since y l := by
  induction l using List.reverseRecOn with
  | nil => exact List.Pairwise.nil
  | append_singleton l z ih =>
    rw [stack_concat, List.pairwise_cons]
    have below : ∀ y ∈ (stack l).erase z, z ≠ y := fun y member same =>
      (nodup_stack l).not_mem_erase (same ▸ member)
    constructor
    · intro y member
      rw [Recency.since_concat, Recency.since_concat, if_pos rfl, if_neg (below y member)]
      exact Nat.succ_pos _
    · apply (ih.sublist List.erase_sublist).imp_of_mem
      intro x y one other earlier
      rw [Recency.since_concat, Recency.since_concat, if_neg (below x one),
        if_neg (below y other)]
      exact Nat.succ_lt_succ earlier

/-- The least recent element is at the bottom. -/
theorem erase_append_of_oldest {l : List α} {x : α} (member : x ∈ l)
    (oldest : ∀ y ∈ l, y ≠ x → Recency.since y l < Recency.since x l) :
    (stack l).erase x ++ [x] = stack l := by
  obtain ⟨above, below, split⟩ := List.append_of_mem (mem_stack.mpr member)
  have order := pairwise_since l
  have distinct := nodup_stack l
  rw [split] at order distinct
  have bottom : below = [] := by
    apply List.eq_nil_iff_forall_not_mem.mpr
    intro y under
    have later := (List.pairwise_cons.mp (List.pairwise_append.mp order).2.1).1 y under
    have different : y ≠ x := by
      rintro rfl
      exact Nat.lt_irrefl _ later
    have occurs : y ∈ l := by
      rw [← mem_stack, split]
      exact List.mem_append_right _ (List.mem_cons_of_mem _ under)
    exact Nat.lt_asymm later (oldest y occurs different)
  subst bottom
  have absent : x ∉ above := fun early =>
    (List.nodup_append.mp distinct).2.2 x early x (List.mem_singleton_self x) rfl
  rw [split, List.erase_append_right _ absent, List.erase_cons_head, List.append_nil]

/-- What `w` places hold. -/
def resident (w : Nat) (l : List α) : List α := (stack l).take w

theorem nodup_resident (w : Nat) (l : List α) : (resident w l).Nodup :=
  (nodup_stack l).sublist (List.take_sublist w _)

theorem resident_of_le {w w' : Nat} (fewer : w ≤ w') (l : List α) :
    resident w l = (resident w' l).take w := by
  unfold resident
  rw [List.take_take, Nat.min_eq_left fewer]

/-- What fewer places hold is held by more. -/
theorem resident_mono {w w' : Nat} (fewer : w ≤ w') (l : List α) {x : α}
    (member : x ∈ resident w l) : x ∈ resident w' l := by
  rw [resident_of_le fewer] at member
  exact List.mem_of_mem_take member

/-- A place that holds nothing is not needed. -/
theorem resident_of_length_le {w w' : Nat} (fewer : w ≤ w') {l : List α}
    (room : (resident w' l).length ≤ w) : resident w l = resident w' l := by
  rw [resident_of_le fewer, List.take_of_length_le room]

/-- An element that is held comes to the top. -/
theorem resident_concat_of_mem {w : Nat} {l : List α} {x : α} (member : x ∈ resident w l) :
    resident w (l ++ [x]) = x :: (resident w l).erase x := by
  cases w with
  | zero => cases member
  | succ w =>
    unfold resident at member ⊢
    rw [stack_concat, List.take_succ_cons, take_erase_of_mem member]

/-- Another takes the place at the bottom. -/
theorem resident_concat_of_not_mem {w : Nat} {l : List α} {x : α}
    (absent : x ∉ resident (w + 1) l) : resident (w + 1) (l ++ [x]) = x :: resident w l := by
  have above : x ∉ (stack l).take w := fun member => absent (resident_mono (Nat.le_succ w) l member)
  unfold resident
  rw [stack_concat, List.take_succ_cons, take_erase_of_not_mem above]

/-- What was used after the last `x`. -/
theorem mem_takeWhile_iff {l : List α} {x y : α} :
    y ∈ l.reverse.takeWhile (· ≠ x) ↔ y ∈ l ∧ Recency.since y l < Recency.since x l := by
  induction l using List.reverseRecOn with
  | nil => simp
  | append_singleton l z ih =>
    rw [List.reverse_append, List.reverse_singleton, List.singleton_append, List.takeWhile_cons,
      Recency.since_concat, Recency.since_concat]
    by_cases last : z = x
    · simp [last]
    · by_cases same : z = y
      · have different : y ≠ x := same ▸ last
        simp [same, different]
      · have earlier : y ∈ l ++ [z] ↔ y ∈ l := by simp [Ne.symm same]
        rw [if_neg same, if_neg last, if_pos (by simpa using last), List.mem_cons, ih, earlier,
          Nat.add_lt_add_iff_right, or_iff_right (Ne.symm same)]

/-- An element occurs, and after it fewer than `w` others. -/
def Recent (w : Nat) (x : α) (l : List α) : Prop :=
  x ∈ l ∧ (l.reverse.takeWhile (· ≠ x)).dedup.length < w

instance (w : Nat) (x : α) (l : List α) : Decidable (Recent w x l) :=
  inferInstanceAs (Decidable (_ ∧ _))

theorem length_dedup_map {β : Type} [DecidableEq β] (f : α → β) {l : List α}
    (injective : ∀ y ∈ l, ∀ z ∈ l, f y = f z → y = z) :
    (l.map f).dedup.length = l.dedup.length := by
  have image : (l.map f).toFinset = l.toFinset.image f := by
    ext y
    simp
  rw [← List.card_toFinset, ← List.card_toFinset, image]
  apply Finset.card_image_of_injOn
  intro y one z other same
  rw [List.coe_toFinset] at one other
  exact injective y one z other same

theorem takeWhile_map_ne {β : Type} [DecidableEq β] (f : α → β) {x : α} {l : List α}
    (apart : ∀ y ∈ l, f y = f x → y = x) :
    (l.map f).takeWhile (· ≠ f x) = (l.takeWhile (· ≠ x)).map f := by
  induction l with
  | nil => rfl
  | cons y l ih =>
    rw [List.map_cons, List.takeWhile_cons, List.takeWhile_cons]
    by_cases same : y = x
    · simp [same]
    · have different : f y ≠ f x := fun image => same (apart y List.mem_cons_self image)
      rw [if_pos (by simpa using different), if_pos (by simpa using same), List.map_cons,
        ih fun z member => apart z (List.mem_cons_of_mem y member)]

/-- Other names for the elements. -/
theorem recent_map {β : Type} [DecidableEq β] (f : α → β) {w : Nat} {x : α} {l : List α}
    (injective : ∀ y ∈ x :: l, ∀ z ∈ x :: l, f y = f z → y = z) :
    Recent w (f x) (l.map f) ↔ Recent w x l := by
  have inside : ∀ y ∈ l, y ∈ x :: l := fun y member => List.mem_cons_of_mem x member
  have occurs : f x ∈ l.map f ↔ x ∈ l := by
    rw [List.mem_map]
    constructor
    · rintro ⟨y, member, same⟩
      rwa [← injective y (inside y member) x List.mem_cons_self same]
    · exact fun member => ⟨x, member, rfl⟩
  have after : (l.map f).reverse.takeWhile (· ≠ f x) = (l.reverse.takeWhile (· ≠ x)).map f := by
    rw [← List.map_reverse]
    exact takeWhile_map_ne f fun y member =>
      injective y (inside y (List.mem_reverse.mp member)) x List.mem_cons_self
  unfold Recent
  rw [occurs, after, length_dedup_map f]
  have used : ∀ y ∈ l.reverse.takeWhile (· ≠ x), y ∈ x :: l := fun y member =>
    inside y (List.mem_reverse.mp (List.takeWhile_subset _ member))
  intro y one z other
  exact injective y (used y one) z (used z other)

/-- What `w` places hold are the elements that are so recent. -/
theorem mem_resident_iff {w : Nat} {l : List α} {x : α} : x ∈ resident w l ↔ Recent w x l := by
  unfold Recent
  by_cases occurs : x ∈ l
  · rw [and_iff_right occurs]
    obtain ⟨above, below, split⟩ := List.append_of_mem (mem_stack.mpr occurs)
    have order := pairwise_since l
    have distinct := nodup_stack l
    unfold resident
    rw [split] at order distinct ⊢
    obtain ⟨distinctAbove, _, apart⟩ := List.nodup_append.mp distinct
    obtain ⟨_, orderBelow, orderAcross⟩ := List.pairwise_append.mp order
    have same : above.Perm (l.reverse.takeWhile (· ≠ x)).dedup := by
      rw [List.perm_ext_iff_of_nodup distinctAbove (List.nodup_dedup _)]
      intro y
      rw [List.mem_dedup, mem_takeWhile_iff, ← mem_stack (l := l), split]
      constructor
      · intro early
        exact ⟨List.mem_append_left _ early,
          orderAcross y early x (List.mem_cons_self ..)⟩
      · rintro ⟨member, later⟩
        rcases List.mem_append.mp member with early | rest
        · exact early
        · rcases List.mem_cons.mp rest with rfl | under
          · exact absurd later (Nat.lt_irrefl _)
          · exact absurd later (Nat.lt_asymm ((List.pairwise_cons.mp orderBelow).1 y under))
    rw [← same.length_eq]
    constructor
    · intro member
      by_contra full
      rw [List.take_append_of_le_length (Nat.le_of_not_lt full)] at member
      exact apart x (List.mem_of_mem_take member) x (List.mem_cons_self ..) rfl
    · intro room
      rw [List.take_append, List.take_of_length_le (Nat.le_of_lt room)]
      apply List.mem_append_right
      rw [show w - above.length = (w - above.length - 1) + 1 by omega, List.take_succ_cons]
      exact List.mem_cons_self ..
  · constructor
    · exact fun member => absurd (mem_stack.mp (List.mem_of_mem_take member)) occurs
    · exact fun both => absurd both.1 occurs

section Places

variable {n : Nat} {l : List Nat}

/-- There are no more elements than numbers. -/
theorem length_stack_lt {x : Nat} (within : x < n) (unused : x ∉ l)
    (inside : ∀ y ∈ l, y < n) : (stack l).length < n := by
  have fresh : (x :: stack l).Nodup :=
    List.nodup_cons.mpr ⟨fun member => unused (mem_stack.mp member), nodup_stack l⟩
  have subset : x :: stack l ⊆ List.range n := by
    intro y member
    rcases List.mem_cons.mp member with rfl | used
    · exact List.mem_range.mpr within
    · exact List.mem_range.mpr (inside y (mem_stack.mp used))
  have bound := (List.subperm_of_subset fresh subset).length_le
  rwa [List.length_range] at bound

/-- Where all occur, there are as many. -/
theorem length_stack_of_all (all : ∀ y < n, y ∈ l) (inside : ∀ y ∈ l, y < n) :
    (stack l).length = n := by
  have same : (stack l).Perm (List.range n) := by
    rw [List.perm_ext_iff_of_nodup (nodup_stack l) List.nodup_range]
    intro y
    rw [mem_stack, List.mem_range]
    exact ⟨inside y, all y⟩
  rw [same.length_eq, List.length_range]

end Places

end Lib.LruStack
