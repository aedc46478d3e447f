import AntContest.Json.Decode
import Mathlib.Data.List.Perm.Basic

/-! # What a record is read from

A record is read from an object by the names of its fields, each of which may be there once at most
(`member?`).  So there are changes of an object that its reader does not notice: members change
their places, members of other names come in, a field goes whose value is what the reader takes in
its absence, or a field is changed within in a way that its own reader does not notice.  These are
the edits of a record (`Edit`), and `Edit.exists_obj` says that every field is read alike. -/

namespace AntContest

namespace Json

/-! ### Words as numbers -/

theorem int64?_toInt (n : Int64) : int64? (.int n.toInt) = some n := by
  have hlow : -0x8000000000000000 ≤ n.toInt := n.le_toInt
  have hhigh : n.toInt < 0x8000000000000000 := n.toInt_lt
  simp [int64?, intIn?, int?, hlow, hhigh]

theorem natBelow?_nat {limit n : Nat} (h : n < limit) : natBelow? limit (.nat n) = some n := by
  simp [natBelow?, intIn?, int?, nat, h]

theorem uint32?_toNat (n : UInt32) : uint32? (.nat n.toNat) = some n := by
  rw [uint32?, natBelow?_nat n.toNat_lt_size]
  simp

theorem uint64?_toNat (n : UInt64) : uint64? (.nat n.toNat) = some n := by
  rw [uint64?, natBelow?_nat n.toNat_lt_size]
  simp

/-! ### Fields by their names -/

/-- The value of the one member among some, if there is a member at all; there must be no two. -/
def atMostOne : List (JsonText × Json) → Option (Option Json)
  | [] => some none
  | [(_, v)] => some (some v)
  | _ => none

/-- The value of the field of a name, if it is there; it must not be there twice. -/
def member? (ms : List (JsonText × Json)) (name : String) : Option (Option Json) :=
  atMostOne (ms.filter fun (k, _) => k == some name)

/-- Reads the field of a name; the reader says what is read if it is not there. -/
def field? {α : Type} (ms : List (JsonText × Json)) (name : String)
    (read : Option Json → Option α) : Option α :=
  (member? ms name).bind read

/-- A field that must be there. -/
def required {α : Type} (read : Json → Option α) : Option Json → Option α :=
  (·.bind read)

/-- All names are texts. -/
def textNames (ms : List (JsonText × Json)) : Bool := ms.all fun (k, _) => k.isSome

theorem fields?_obj (names : List String) (ms : List (JsonText × Json)) :
    fields? names (.obj ms) = if textNames ms then names.mapM (member? ms) else none := rfl

theorem atMostOne_of_perm {ms ms' : List (JsonText × Json)} (h : ms.Perm ms') :
    atMostOne ms = atMostOne ms' := by
  have hlength := h.length_eq
  match ms, ms' with
  | [], [] => rfl
  | [m], ms' => rw [List.perm_singleton.mp h.symm]
  | _ :: _ :: _, [] => simp at hlength
  | _ :: _ :: _, [_] => simp at hlength
  | _ :: _ :: _, _ :: _ :: _ => rfl

theorem atMostOne_cons (k : JsonText) (v : Json) (ms : List (JsonText × Json)) :
    atMostOne ((k, v) :: ms) =
      match atMostOne ms with
      | some none => some (some v)
      | _ => none := by
  match ms with
  | [] => rfl
  | [_] => rfl
  | _ :: _ :: _ => rfl

section Member

variable {ms ms' : List (JsonText × Json)} {name : String}

theorem member?_of_perm (h : ms.Perm ms') (name : String) : member? ms name = member? ms' name :=
  atMostOne_of_perm (h.filter _)

theorem member?_cons_of_ne {k : String} (h : k ≠ name) (v : Json) :
    member? ((some k, v) :: ms) name = member? ms name := by
  rw [member?, List.filter_cons_of_neg (by simpa using h)]
  rfl

theorem member?_cons_self (name : String) (v : Json) (ms : List (JsonText × Json)) :
    member? ((some name, v) :: ms) name =
      match member? ms name with
      | some none => some (some v)
      | _ => none := by
  rw [member?, List.filter_cons_of_pos (by simp)]
  exact atMostOne_cons (some name) v _

theorem member?_of_absent (h : ∀ m ∈ ms, m.1 ≠ some name) : member? ms name = some none := by
  have hnone : ms.filter (fun (k, _) => k == some name) = [] := by
    rw [List.filter_eq_nil_iff]
    intro m hm
    simpa using h m hm
  rw [member?, hnone]
  rfl

end Member

/-! ### Edits of a record -/

/-- An edit of an object from which a record with the given fields is read.  A field may go if it
has the value that is taken in its absence, and it may be edited within. -/
inductive Edit (names : List String) (isDefault : String → Json → Prop)
    (edit : String → Json → Json → Prop) : Json → Json → Prop
  /-- The members change their places. -/
  | reorder {ms ms' : List (JsonText × Json)} (h : ms.Perm ms') :
    Edit names isDefault edit (.obj ms) (.obj ms')
  /-- A member comes in that is no field. -/
  | extend {k : String} (h : k ∉ names) (v : Json) (ms : List (JsonText × Json)) :
    Edit names isDefault edit (.obj ms) (.obj ((some k, v) :: ms))
  /-- A field that is there once goes. -/
  | drop {k : String} {v : Json} (h : isDefault k v) {ms : List (JsonText × Json)}
    (honce : ∀ m ∈ ms, m.1 ≠ some k) :
    Edit names isDefault edit (.obj ((some k, v) :: ms)) (.obj ms)
  /-- A field is edited within. -/
  | within {k : String} {v v' : Json} (h : edit k v v') (ms : List (JsonText × Json)) :
    Edit names isDefault edit (.obj ((some k, v) :: ms)) (.obj ((some k, v') :: ms))

variable {names : List String} {isDefault : String → Json → Prop}
  {edit : String → Json → Json → Prop}

/-- A reader of a field does not notice if the field goes, or is edited within. -/
structure Heedless {α : Type} (isDefault : String → Json → Prop)
    (edit : String → Json → Json → Prop) (name : String) (read : Option Json → Option α) :
    Prop where
  drop : ∀ v, isDefault name v → read (some v) = read none
  within : ∀ v v', edit name v v' → read (some v) = read (some v')

/-- The fields of two objects are read alike by all readers that do not notice an edit. -/
def ReadAlike (names : List String) (isDefault : String → Json → Prop)
    (edit : String → Json → Json → Prop) (ms ms' : List (JsonText × Json)) : Prop :=
  ∀ name ∈ names, ∀ {α : Type} {read : Option Json → Option α}, Heedless isDefault edit name read →
    field? ms name read = field? ms' name read

/-- An edit goes from an object to an object, of which all fields are read alike. -/
theorem Edit.exists_obj {v v' : Json} (h : Edit names isDefault edit v v') :
    ∃ ms ms', v = .obj ms ∧ v' = .obj ms' ∧ textNames ms = textNames ms' ∧
      ReadAlike names isDefault edit ms ms' := by
  cases h with
  | @reorder ms ms' h =>
    refine ⟨ms, ms', rfl, rfl, h.all_eq, fun name hname α read hread => ?_⟩
    rw [field?, field?, member?_of_perm h]
  | @extend k hk v ms =>
    refine ⟨ms, _, rfl, rfl, rfl, fun name hname α read hread => ?_⟩
    have hne : k ≠ name := fun heq => hk (heq ▸ hname)
    rw [field?, field?, member?_cons_of_ne hne]
  | @drop k v h ms honce =>
    refine ⟨_, ms, rfl, rfl, rfl, fun name hname α read hread => ?_⟩
    rw [field?, field?]
    by_cases hname : k = name
    · subst hname
      rw [member?_cons_self, member?_of_absent honce]
      exact hread.drop v h
    · rw [member?_cons_of_ne hname]
  | @within k v v' h ms =>
    refine ⟨_, _, rfl, rfl, rfl, fun name hname α read hread => ?_⟩
    rw [field?, field?]
    by_cases hname : k = name
    · subst hname
      rw [member?_cons_self, member?_cons_self]
      split
      · exact hread.within v v' h
      · rfl
    · rw [member?_cons_of_ne hname, member?_cons_of_ne hname]

end Json

end AntContest
