/-!
# Places in a list

An index is a number of entries before a place. A negative index counts from the
end instead, so that -1 is the place of the last entry.
-/

namespace Stylesheet

/-- How many entries come before the place of an index. A place before the first
entry is moved there. -/
def place (length : Nat) (index : Int) : Nat :=
  if index < 0 then (length + index).toNat else index.toNat

@[simp] theorem place_natCast (length index : Nat) : place length (index : Int) = index := by
  have notNegative : ¬(index : Int) < 0 := by omega
  rw [place, if_neg notNegative, Int.toNat_natCast]

/-- The entries met when the index goes up by one each time. A negative index
reaches the end first and then goes through all entries from the front. -/
def entriesFrom {Entry : Type} (entries : List Entry) (index : Int) : List Entry :=
  if index < 0 then entries.drop (place entries.length index) ++ entries
  else entries.drop index.toNat

@[simp] theorem entriesFrom_natCast {Entry : Type} (entries : List Entry) (index : Nat) :
    entriesFrom entries (index : Int) = entries.drop index := by
  have notNegative : ¬(index : Int) < 0 := by omega
  rw [entriesFrom, if_neg notNegative, Int.toNat_natCast]

end Stylesheet
