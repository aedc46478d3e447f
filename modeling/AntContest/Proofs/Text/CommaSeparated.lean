import Mathlib.Algebra.BigOperators.Group.List.Basic
import Mathlib.Algebra.Order.Ring.Nat

/-! # Comma-separated values

A text of comma-separated values is a sequence of lines.  The fields of a line stand between commas,
and it ends with a line feed, before which there may be a return.  A field that begins with a quote
goes on to the next quote, so commas and ends of lines can stand in it; a quote is written twice
there.  Anywhere else a quote is an error.

* `read` reads such a text, and `write` writes fields as they are, without quotes.
* `read_write`: plain fields, in which none of these characters occurs, are read back.
* `read_write_iff`: no others are.  For every character that is read the fields grow by at most one
  (`Kept.step`), and by none at the quotes and returns that belong to no field; so if all comes
  back, there have been none. -/

namespace AntContest.CommaSeparated

/-- The characters of a field. -/
abbrev Field := List Char

/-- The fields of a line. -/
abbrev Row := List Field

/-! ### Reading and writing -/

/-- Where a reader is: at the beginning of a field, within a plain one, within quotes, behind a
quote that closes them unless another one follows, or behind a return. -/
inductive Place where
  | beginning
  | plain
  | quoted
  | closed
  | returned
deriving DecidableEq, Repr

/-- What has been read, all of it the last one first: the lines, the fields of the present line, and
the characters of the present field. -/
structure Draft where
  rows : List Row := []
  row : Row := []
  field : Field := []
deriving DecidableEq, Repr

namespace Draft

def put (d : Draft) (c : Char) : Draft := { d with field := c :: d.field }

def endField (d : Draft) : Draft := { d with row := d.field.reverse :: d.row, field := [] }

def endRow (d : Draft) : Draft := ⟨(d.field.reverse :: d.row).reverse :: d.rows, [], []⟩

end Draft

/-- Reads one character. -/
def step (s : Place × Draft) (c : Char) : Option (Place × Draft) :=
  match s with
  | (.quoted, d) => some (if c = '"' then (.closed, d) else (.quoted, d.put c))
  | (.returned, d) => if c = '\n' then some (.beginning, d.endRow) else none
  | (place, d) =>
    if c = ',' then some (.beginning, d.endField)
    else if c = '\n' then some (.beginning, d.endRow)
    else if c = '\r' then some (.returned, d)
    else if c = '"' then
      match place with
      | .beginning => some (.quoted, d)
      | .closed => some (.quoted, d.put '"')
      | _ => none
    else if place = .closed then none
    else some (.plain, d.put c)

/-- The lines at the end of the text; the last one need not have an end. -/
def finish : Place × Draft → Option (List Row)
  | (.beginning, d) => some (if d.row = [] then d.rows.reverse else d.endRow.rows.reverse)
  | (.plain, d) | (.closed, d) => some d.endRow.rows.reverse
  | _ => none

def read (text : List Char) : Option (List Row) :=
  (text.foldlM step (.beginning, {})).bind finish

def writeRow (row : Row) : List Char := [','].intercalate row ++ ['\n']

def write (rows : List Row) : List Char := rows.flatMap writeRow

/-- A character that is nothing but itself in a field. -/
def IsPlainChar (c : Char) : Prop := c ≠ ',' ∧ c ≠ '\n' ∧ c ≠ '\r' ∧ c ≠ '"'

instance (c : Char) : Decidable (IsPlainChar c) := inferInstanceAs (Decidable (_ ∧ _))

/-- A field that can be written as it is. -/
def IsPlain (f : Field) : Prop := ∀ c ∈ f, IsPlainChar c

-- The characters of the field are looked through, not all characters.
instance (f : Field) : Decidable (IsPlain f) := List.decidableBAll IsPlainChar f

/-! ### Plain fields are read back -/

/-- The places at which a field without quotes goes on. -/
def Place.IsOpen (place : Place) : Prop := place = .beginning ∨ place = .plain

theorem step_plainChar {place : Place} (hplace : place.IsOpen) (d : Draft) {c : Char}
    (hc : IsPlainChar c) : step (place, d) c = some (.plain, d.put c) := by
  obtain ⟨hcomma, hfeed, hreturn, hquote⟩ := hc
  rcases hplace with rfl | rfl <;> simp [step, hcomma, hfeed, hreturn, hquote]

theorem step_comma {place : Place} (hplace : place.IsOpen) (d : Draft) :
    step (place, d) ',' = some (.beginning, d.endField) := by
  rcases hplace with rfl | rfl <;> rfl

theorem step_feed {place : Place} (hplace : place.IsOpen) (d : Draft) :
    step (place, d) '\n' = some (.beginning, d.endRow) := by
  rcases hplace with rfl | rfl <;> rfl

theorem foldlM_field {f : Field} (hf : IsPlain f) {place : Place} (hplace : place.IsOpen)
    (d : Draft) : ∃ place' : Place, place'.IsOpen ∧
      f.foldlM step (place, d) = some (place', { d with field := f.reverse ++ d.field }) := by
  induction f generalizing place d with
  | nil => exact ⟨place, hplace, rfl⟩
  | cons c f ih =>
    have hplain : Place.IsOpen .plain := .inr rfl
    obtain ⟨place', hplace', hrest⟩ :=
      ih (fun b hb => hf b (List.mem_cons_of_mem c hb)) hplain (d.put c)
    refine ⟨place', hplace', ?_⟩
    rw [List.foldlM_cons, step_plainChar hplace d (hf c List.mem_cons_self), Option.bind_eq_bind,
      Option.bind_some, hrest]
    simp [Draft.put]

theorem foldlM_writeRow {row : Row} (hne : row ≠ []) (hrow : ∀ f ∈ row, IsPlain f)
    (rows : List Row) (front : Row) :
    (writeRow row).foldlM step (.beginning, ⟨rows, front, []⟩) =
      some (.beginning, ⟨(front.reverse ++ row) :: rows, [], []⟩) := by
  induction row generalizing front with
  | nil => exact absurd rfl hne
  | cons f row ih =>
    obtain ⟨place, hplace, hfield⟩ :=
      foldlM_field (hrow f List.mem_cons_self) (.inl rfl) ⟨rows, front, []⟩
    cases row with
    | nil =>
      rw [writeRow, List.intercalate_singleton, List.foldlM_append, hfield, Option.bind_eq_bind,
        Option.bind_some, List.foldlM_cons, step_feed hplace]
      simp [Draft.endRow]
    | cons g row =>
      have hrest := ih (List.cons_ne_nil g row) (fun h hh => hrow h (List.mem_cons_of_mem f hh))
        (f :: front)
      rw [writeRow, List.intercalate_cons_cons, List.append_assoc, List.append_assoc,
        List.foldlM_append, hfield, Option.bind_eq_bind, Option.bind_some, List.singleton_append,
        List.foldlM_cons, step_comma hplace, Option.bind_eq_bind, Option.bind_some]
      rw [writeRow] at hrest
      simpa [Draft.endField] using hrest

theorem foldlM_write {rows : List Row} (hne : ∀ row ∈ rows, row ≠ [])
    (hrows : ∀ row ∈ rows, ∀ f ∈ row, IsPlain f) (front : List Row) :
    (write rows).foldlM step (.beginning, ⟨front, [], []⟩) =
      some (.beginning, ⟨rows.reverse ++ front, [], []⟩) := by
  induction rows generalizing front with
  | nil => rfl
  | cons row rows ih =>
    rw [write, List.flatMap_cons, List.foldlM_append,
      foldlM_writeRow (hne row List.mem_cons_self) (hrows row List.mem_cons_self) front [],
      Option.bind_eq_bind, Option.bind_some]
    refine (ih (fun r hr => hne r (List.mem_cons_of_mem row hr))
      (fun r hr => hrows r (List.mem_cons_of_mem row hr)) _).trans ?_
    simp

/-- Lines of plain fields are read back. -/
theorem read_write {rows : List Row} (hne : ∀ row ∈ rows, row ≠ [])
    (hrows : ∀ row ∈ rows, ∀ f ∈ row, IsPlain f) : read (write rows) = some rows := by
  have hread := foldlM_write hne hrows []
  rw [read, show ({} : Draft) = ⟨[], [], []⟩ from rfl, hread]
  simp [finish]

/-! ### Only plain fields are read back -/

/-- The characters of a line that is written from its fields: behind each there is one more. -/
def rowSize (row : Row) : Nat := (row.map fun f => f.length + 1).sum

/-- The characters of lines that are written from their fields. -/
def rowsSize (rows : List Row) : Nat := (rows.map rowSize).sum

theorem length_writeRow {row : Row} (hne : row ≠ []) : (writeRow row).length = rowSize row := by
  induction row with
  | nil => exact absurd rfl hne
  | cons f row ih =>
    cases row with
    | nil => simp [writeRow, rowSize]
    | cons g row =>
      have hrest := ih (List.cons_ne_nil g row)
      simp only [writeRow, rowSize, List.intercalate_cons_cons, List.map_cons, List.sum_cons,
        List.length_append, List.length_singleton] at hrest ⊢
      omega

theorem length_write {rows : List Row} (hne : ∀ row ∈ rows, row ≠ []) :
    (write rows).length = rowsSize rows := by
  rw [write, List.length_flatMap, rowsSize]
  exact congrArg List.sum (List.map_congr_left fun row hrow => length_writeRow (hne row hrow))

namespace Draft

/-- The characters that have gone into the lines, with one behind each field. -/
def size (d : Draft) : Nat := rowsSize d.rows + rowSize d.row + d.field.length

/-- All fields that have been read are plain. -/
structure AllPlain (d : Draft) : Prop where
  rows : ∀ row ∈ d.rows, ∀ f ∈ row, IsPlain f
  row : ∀ f ∈ d.row, IsPlain f
  field : IsPlain d.field

variable {d : Draft}

@[simp] theorem size_put (c : Char) : (d.put c).size = d.size + 1 := rfl

@[simp] theorem size_endField : d.endField.size = d.size + 1 := by
  simp only [size, endField, rowSize, List.map_cons, List.sum_cons, List.length_reverse,
    List.length_nil]
  omega

@[simp] theorem size_endRow : d.endRow.size = d.size + 1 := by
  simp only [size, endRow, rowSize, rowsSize, List.map_cons, List.sum_cons, List.map_nil,
    List.sum_nil, List.map_reverse, List.sum_reverse, List.length_reverse, List.length_nil]
  omega

theorem AllPlain.put (h : d.AllPlain) {c : Char} (hc : IsPlainChar c) : (d.put c).AllPlain :=
  ⟨h.rows, h.row, List.forall_mem_cons.mpr ⟨hc, h.field⟩⟩

theorem AllPlain.endField (h : d.AllPlain) : d.endField.AllPlain := by
  refine ⟨h.rows, List.forall_mem_cons.mpr ⟨fun c hc => ?_, h.row⟩, fun c hc => ?_⟩
  · exact h.field c (List.mem_reverse.mp hc)
  · exact absurd hc List.not_mem_nil

theorem AllPlain.endRow (h : d.AllPlain) : d.endRow.AllPlain := by
  refine ⟨List.forall_mem_cons.mpr ⟨fun f hf => ?_, h.rows⟩, fun f hf => ?_, fun c hc => ?_⟩
  · exact h.endField.row f (List.mem_reverse.mp hf)
  · exact absurd hf List.not_mem_nil
  · exact absurd hc List.not_mem_nil

end Draft

/-- A character makes what has been read at most one longer. -/
theorem size_step_le {s s' : Place × Draft} {c : Char} (h : step s c = some s') :
    s'.2.size ≤ s.2.size + 1 := by
  obtain ⟨place, d⟩ := s
  cases place <;> simp only [step] at h <;> split_ifs at h <;> cases h <;> simp

/-- Of `n` characters each one has gone into plain fields, or there are fewer in what was read. -/
def Kept (n : Nat) (s : Place × Draft) : Prop :=
  (s.1.IsOpen ∧ s.2.size = n ∧ s.2.AllPlain) ∨ s.2.size < n

/-- A character that is no separator and does not go into a plain field is lost. -/
theorem Kept.step {n : Nat} {s s' : Place × Draft} {c : Char} (h : Kept n s)
    (hstep : step s c = some s') : Kept (n + 1) s' := by
  rcases h with ⟨hopen, hsize, hplain⟩ | hlost
  · obtain ⟨place, d⟩ := s
    dsimp only at hopen hsize hplain
    by_cases hcomma : c = ','
    · rw [hcomma, step_comma hopen] at hstep
      cases hstep
      exact .inl ⟨.inl rfl, by simp [hsize], hplain.endField⟩
    by_cases hfeed : c = '\n'
    · rw [hfeed, step_feed hopen] at hstep
      cases hstep
      exact .inl ⟨.inl rfl, by simp [hsize], hplain.endRow⟩
    by_cases hlost : c = '\r' ∨ c = '"'
    · have hsame : s'.2 = d := by
        rcases hlost with rfl | rfl <;> rcases hopen with rfl | rfl <;> cases hstep <;> rfl
      rw [← hsame] at hsize
      exact .inr (by omega)
    · have hc : IsPlainChar c := ⟨hcomma, hfeed, (hlost <| .inl ·), (hlost <| .inr ·)⟩
      rw [step_plainChar hopen d hc] at hstep
      cases hstep
      exact .inl ⟨.inr rfl, by simp [hsize], hplain.put hc⟩
  · have hle := size_step_le hstep
    exact .inr (by omega)

theorem Kept.foldlM {n : Nat} {s s' : Place × Draft} {text : List Char} (h : Kept n s)
    (hread : text.foldlM CommaSeparated.step s = some s') : Kept (n + text.length) s' := by
  induction text generalizing n s with
  | nil =>
    cases hread
    exact h
  | cons c text ih =>
    rw [List.foldlM_cons, Option.bind_eq_bind, Option.bind_eq_some_iff] at hread
    obtain ⟨s₁, hstep, hrest⟩ := hread
    rw [List.length_cons, Nat.add_comm text.length, ← Nat.add_assoc]
    exact ih (h.step hstep) hrest

theorem finish_of_feed {s s' : Place × Draft} {rows : List Row} (hstep : step s '\n' = some s')
    (hfinish : finish s' = some rows) : s'.2.size = rowsSize rows ∧ rows = s'.2.rows.reverse := by
  obtain ⟨place, d⟩ := s
  have hsize (d : Draft) : d.endRow.size = rowsSize d.endRow.rows.reverse := by
    rw [Draft.size, rowsSize, rowsSize, List.map_reverse, List.sum_reverse]
    rfl
  cases place <;> cases hstep <;> cases hfinish <;> exact ⟨hsize d, rfl⟩

/-- If a text that ends a line is read as lines that would be as long if they were written as they
are, then their fields are plain. -/
theorem plain_of_read {front : List Char} {rows : List Row}
    (hread : read (front ++ ['\n']) = some rows)
    (hsize : (front ++ ['\n']).length = rowsSize rows) :
    ∀ row ∈ rows, ∀ f ∈ row, IsPlain f := by
  obtain ⟨s, htext, hfinish⟩ := Option.bind_eq_some_iff.mp hread
  have hstart : Kept 0 (.beginning, {}) := .inl ⟨.inl rfl, rfl, by simp, by simp, by simp [IsPlain]⟩
  have hkept := hstart.foldlM htext
  rw [List.foldlM_append, Option.bind_eq_bind, Option.bind_eq_some_iff] at htext
  obtain ⟨s₁, -, hfeed⟩ := htext
  rw [List.foldlM_cons, Option.bind_eq_bind, Option.bind_eq_some_iff] at hfeed
  obtain ⟨s₂, hstep, hlast⟩ := hfeed
  cases hlast
  obtain ⟨hdraft, rfl⟩ := finish_of_feed hstep hfinish
  rcases hkept with ⟨-, -, hplain⟩ | hlost
  · exact fun row hrow => hplain.rows row (List.mem_reverse.mp hrow)
  · omega

/-- Lines that are written without quotes are read back if and only if their fields are plain. -/
theorem read_write_iff {rows : List Row} (hne : ∀ row ∈ rows, row ≠ []) :
    read (write rows) = some rows ↔ ∀ row ∈ rows, ∀ f ∈ row, IsPlain f := by
  refine ⟨fun hread => ?_, read_write hne⟩
  have hlength := length_write hne
  rcases List.eq_nil_or_concat rows with rfl | ⟨front, last, rfl⟩
  · simp
  · have hwrite : write (front.concat last) =
        (write front ++ [','].intercalate last) ++ ['\n'] := by
      simp [write, writeRow]
    rw [hwrite] at hread hlength
    exact plain_of_read hread hlength

end AntContest.CommaSeparated
