import AntContest.Colony

/-!
# Cells

A cell has a terrain, some food, perhaps an ant, and a set of chemical marks for each colony.
Food is counted in 32-bit words and stays at the largest one instead of wrapping.

* `Terrain.owner?` names the colony that a hill belongs to.
* `MarkSet` is a set of the six markers; `contains_insert` and `contains_erase` describe its
  operations.
* `addFood` is described on natural numbers by `toNat_addFood`.
-/

namespace AntContest

/-- What the ground of a cell is made of. -/
inductive Terrain where
  | rock
  | clear
  | hill (owner : Colony)
deriving DecidableEq, Repr, Inhabited

namespace Terrain

/-- Ants stand on everything but rock. -/
def isPassable : Terrain → Bool
  | rock => false
  | _ => true

/-- The colony at home here. -/
def owner? : Terrain → Option Colony
  | hill c => some c
  | _ => none

/-- Whether this is a hill of a colony. -/
def isHillOf (c : Colony) : Terrain → Bool
  | hill owner => owner == c
  | _ => false

end Terrain

/-- The number of a chemical marker. -/
abbrev Marker := Fin 6

/-- A set of markers. -/
structure MarkSet where
  bits : BitVec 6
deriving DecidableEq, Repr

namespace MarkSet

def empty : MarkSet := ⟨0⟩

instance : Inhabited MarkSet := ⟨empty⟩

def contains (s : MarkSet) (m : Marker) : Bool :=
  s.bits.getLsbD m

def insert (s : MarkSet) (m : Marker) : MarkSet :=
  ⟨s.bits ||| BitVec.twoPow 6 m⟩

def erase (s : MarkSet) (m : Marker) : MarkSet :=
  ⟨s.bits &&& ~~~(BitVec.twoPow 6 m)⟩

def isEmpty (s : MarkSet) : Bool :=
  s.bits == 0

/-- The markers of the set in increasing order. -/
def toList (s : MarkSet) : List Marker :=
  (List.finRange 6).filter s.contains

@[simp] theorem contains_empty (m : Marker) : empty.contains m = false := by
  simp [empty, contains]

@[simp] theorem contains_insert (s : MarkSet) (m k : Marker) :
    (s.insert m).contains k = (s.contains k || decide (k = m)) := by
  have hk := k.isLt
  simp only [contains, insert, BitVec.getLsbD_or, BitVec.getLsbD_twoPow]
  by_cases h : k = m
  · subst h; simp [hk]
  · have : (m : Nat) ≠ k := fun e => h (Fin.ext e.symm)
    simp [h, this]

@[simp] theorem contains_erase (s : MarkSet) (m k : Marker) :
    (s.erase m).contains k = (s.contains k && !decide (k = m)) := by
  have hk := k.isLt
  simp only [contains, erase, BitVec.getLsbD_and, BitVec.getLsbD_not, BitVec.getLsbD_twoPow]
  by_cases h : k = m
  · subst h; simp [hk]
  · have : (m : Nat) ≠ k := fun e => h (Fin.ext e.symm)
    simp [h, this, hk]

theorem ext {s t : MarkSet} (h : ∀ m, s.contains m = t.contains m) : s = t := by
  cases s with
  | mk a =>
    cases t with
    | mk b =>
      congr
      exact BitVec.eq_of_getLsbD_eq fun i hi => h ⟨i, hi⟩

end MarkSet

/-- The largest amount of food that a cell can hold. -/
def foodLimit : UInt32 := 0xFFFFFFFF

/-- The sum of two amounts of food, or the largest amount if the sum is larger. -/
def addFood (a b : UInt32) : UInt32 :=
  if a.toNat + b.toNat ≤ foodLimit.toNat then a + b else foodLimit

theorem toNat_addFood (a b : UInt32) :
    (addFood a b).toNat = min (a.toNat + b.toNat) foodLimit.toNat := by
  have ha := a.toNat_lt
  have hb := b.toNat_lt
  unfold addFood
  split
  · next h =>
    have hl : foodLimit.toNat = 4294967295 := rfl
    rw [UInt32.toNat_add, Nat.mod_eq_of_lt (by omega), Nat.min_eq_left h]
  · next h => rw [Nat.min_eq_right (by omega)]

/-- One hexagonal cell; the ant on it is named by its number. -/
structure Cell where
  terrain : Terrain
  food : UInt32
  occupant : Option Nat
  redMarks : MarkSet
  blackMarks : MarkSet
deriving DecidableEq, Repr

namespace Cell

/-- A cell without ant and marks. -/
def fresh (terrain : Terrain) (food : UInt32) : Cell :=
  ⟨terrain, food, none, .empty, .empty⟩

instance : Inhabited Cell := ⟨fresh .clear 0⟩

/-- Whether an ant could step onto this cell now. -/
def isFree (c : Cell) : Bool :=
  c.terrain.isPassable && c.occupant.isNone

/-- The marks that a colony has set here. -/
def marks (c : Cell) : Colony → MarkSet
  | .red => c.redMarks
  | .black => c.blackMarks

/-- The cell with the marks of one colony changed. -/
def modifyMarks (c : Cell) (colony : Colony) (f : MarkSet → MarkSet) : Cell :=
  match colony with
  | .red => { c with redMarks := f c.redMarks }
  | .black => { c with blackMarks := f c.blackMarks }

/-- The cell with some more food. -/
def gain (c : Cell) (amount : UInt32) : Cell :=
  { c with food := addFood c.food amount }

/-- The cell with one particle of food less, if it has any. -/
def take? (c : Cell) : Option Cell :=
  if c.food = 0 then none else some { c with food := c.food - 1 }

/-- The cell with an ant on it, or with none. -/
def withOccupant (c : Cell) (ant : Option Nat) : Cell :=
  { c with occupant := ant }

end Cell

end AntContest
