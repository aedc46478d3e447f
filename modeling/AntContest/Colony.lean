/-!
# The two colonies
-/

namespace AntContest

/-- The red or the black colony. -/
inductive Colony where
  | red
  | black
deriving DecidableEq, Repr, Inhabited

namespace Colony

/-- Both colonies, red first. -/
def both : List Colony := [red, black]

def foe : Colony → Colony
  | red => black
  | black => red

/-- The colony's name in every text. -/
def name : Colony → String
  | red => "red"
  | black => "black"

instance : ToString Colony := ⟨name⟩

@[simp] theorem foe_foe (c : Colony) : c.foe.foe = c := by cases c <;> rfl

theorem foe_ne (c : Colony) : c.foe ≠ c := by cases c <;> decide

theorem eq_foe_of_ne {c d : Colony} (h : d ≠ c) : d = c.foe := by
  cases c <;> cases d <;> simp_all [foe]

end Colony

end AntContest
