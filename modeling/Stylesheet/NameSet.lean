import Stylesheet.Text.Basic

/-!
# Sets of names

A set of names is kept as a list that ascends by code point, so that equal sets
are equal lists and a set is always written in one order.
-/

namespace Stylesheet

/-- Insert a name before the first name that does not precede it. -/
def insertName (name : Text) : List Text → List Text
  | [] => [name]
  | head :: tail =>
      if name < head then name :: head :: tail
      else if name = head then head :: tail
      else head :: insertName name tail

theorem mem_insertName {other name : Text} {names : List Text} :
    other ∈ insertName name names ↔ other = name ∨ other ∈ names := by
  induction names with
  | nil => simp [insertName]
  | cons head tail induction =>
      unfold insertName
      split
      · simp
      · split
        next equal => subst equal; simp
        next => simp [induction, or_left_comm]

theorem pairwise_insertName (name : Text) {names : List Text}
    (ascending : names.Pairwise (· < ·)) :
    (insertName name names).Pairwise (· < ·) := by
  induction names with
  | nil => simp [insertName]
  | cons head tail induction =>
      rw [List.pairwise_cons] at ascending
      unfold insertName
      split
      next before =>
        refine List.pairwise_cons.mpr ⟨fun other member => ?_, List.pairwise_cons.mpr ascending⟩
        rcases List.mem_cons.mp member with rfl | member
        · exact before
        · exact List.lt_trans before (ascending.1 other member)
      next notBefore =>
        split
        next => exact List.pairwise_cons.mpr ascending
        next different =>
          refine List.pairwise_cons.mpr ⟨fun other member => ?_, induction ascending.2⟩
          rcases mem_insertName.mp member with rfl | member
          · rcases List.le_iff_lt_or_eq.mp (List.not_lt.mp notBefore) with after | equal
            · exact after
            · exact absurd equal.symm different
          · exact ascending.1 other member

structure NameSet where
  names : List Text
  ascending : names.Pairwise (· < ·)
  deriving DecidableEq

namespace NameSet

def empty : NameSet := ⟨[], .nil⟩

def contains (set : NameSet) (name : Text) : Bool :=
  set.names.contains name

def insert (set : NameSet) (name : Text) : NameSet :=
  ⟨insertName name set.names, pairwise_insertName name set.ascending⟩

def ofList (names : List Text) : NameSet :=
  names.foldl insert empty

@[simp] theorem contains_empty (name : Text) : empty.contains name = false := rfl

@[simp] theorem contains_insert (set : NameSet) (name other : Text) :
    (set.insert name).contains other = (other == name || set.contains other) := by
  rw [Bool.eq_iff_iff]
  simp [contains, insert, mem_insertName]

end NameSet
end Stylesheet
