import Mathlib.Tactic.Common
import Mathlib.Data.List.Sort

/-!
# Strictly increasing lists

Two lists that increase in the same strict order are determined by their
members: when every member of one occurs in the other, the first is a sublist
of the second.  The order used by the freshness proofs is the lexicographic one
on pairs.
-/

namespace Increasing

variable {α β κ : Type}

/-- Lexicographic strict order on pairs. -/
def lexLt [LT α] [LT β] (first second : α × β) : Prop :=
  first.1 < second.1 ∨ (first.1 = second.1 ∧ first.2 < second.2)

instance [LT α] [LT β] [DecidableEq α]
    [DecidableRel (α := α) (· < ·)]
    [DecidableRel (α := β) (· < ·)]
    (first second : α × β) :
    Decidable (lexLt first second) :=
  inferInstanceAs
    (Decidable (first.1 < second.1 ∨ (first.1 = second.1 ∧ first.2 < second.2)))

/-- Nothing is before itself when neither component's order relates it so. -/
theorem lexLt_irrefl
    [LT α] [LT β]
    [Std.Irrefl (α := α) (· < ·)]
    [Std.Irrefl (α := β) (· < ·)]
    (pair : α × β) :
    ¬ lexLt pair pair := by
  rintro (firstLess | ⟨-, secondLess⟩)
  · exact Std.Irrefl.irrefl _ firstLess
  · exact Std.Irrefl.irrefl _ secondLess

/-- Of two pairs at most one is before the other. -/
theorem lexLt_asymm
    [LT α] [LT β]
    [Std.Irrefl (α := α) (· < ·)]
    [Std.Asymm (α := α) (· < ·)]
    [Std.Asymm (α := β) (· < ·)]
    {first second : α × β}
    (before : lexLt first second) :
    ¬ lexLt second first := by
  rintro after
  rcases before with firstLess | ⟨sameFirst, secondLess⟩
  · rcases after with firstMore | ⟨sameFirst, -⟩
    · exact Std.Asymm.asymm _ _ firstLess firstMore
    · rw [sameFirst] at firstLess
      exact Std.Irrefl.irrefl _ firstLess
  · rcases after with firstMore | ⟨-, secondMore⟩
    · rw [sameFirst] at firstMore
      exact Std.Irrefl.irrefl _ firstMore
    · exact Std.Asymm.asymm _ _ secondLess secondMore

/-- A list whose keys increase strictly repeats nothing. -/
theorem nodup_of_pairwise
    {before : α → α → Prop}
    (irreflexive : ∀ element, ¬ before element element)
    {items : List α}
    (increasing : items.Pairwise before) :
    items.Nodup := by
  refine increasing.imp ?_
  intro first second ordered same
  subst second
  exact irreflexive first ordered

/--
An increasing list whose members all occur in another increasing list is a
sublist of it.
-/
theorem sublist_of_subset
    {before : α → α → Prop}
    (irreflexive : ∀ element, ¬ before element element)
    (asymmetric : ∀ first second, before first second → ¬ before second first)
    {first second : List α}
    (firstIncreasing : first.Pairwise before)
    (secondIncreasing : second.Pairwise before)
    (members : first ⊆ second) :
    List.Sublist first second := by
  have antisymmetric : Std.Antisymm before := by
    constructor
    intro left right leftRight rightLeft
    exact (asymmetric left right leftRight rightLeft).elim
  exact
    List.sublist_of_subperm_of_pairwise
      (List.subperm_of_subset
        (nodup_of_pairwise irreflexive firstIncreasing) members)
      firstIncreasing secondIncreasing

/-- Appending one element that follows every present one keeps the order. -/
theorem pairwise_concat
    {before : α → α → Prop}
    {items : List α}
    {last : α}
    (increasing : items.Pairwise before)
    (follows : ∀ item ∈ items, before item last) :
    (items ++ [last]).Pairwise before := by
  rw [List.pairwise_append]
  refine ⟨increasing, List.pairwise_singleton before last, ?_⟩
  intro item member final isLast
  rw [List.mem_singleton] at isLast
  subst final
  exact follows item member

end Increasing
