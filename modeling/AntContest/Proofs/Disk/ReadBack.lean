import AntContest.Command.Host
import AntContest.Proofs.Outcome
import Mathlib.Tactic.SplitIfs

/-! # A file that was written can be read

A text is written to the place that a path leads to, where no folder may stand.  So all folders on
the way are still there afterwards (`enter_put`), the path leads to the same place
(`lastFolder_put`), and the text that was written is read from there (`readText_writeText`).

A session acts on its disk: `Session.run_readText`, `Session.run_writeText`. -/

namespace AntContest

namespace Disk

variable {d : Disk} {place : List String} {e : DiskEntry}

theorem entry?_put_self (hplace : place ≠ []) : entry? (d.put place e) place = some e := by
  cases place with
  | nil => exact absurd rfl hplace
  | cons name names => simp [Disk.put, entry?]

theorem entry?_put_of_ne {other : List String} (h : other ≠ place) :
    entry? (d.put place e) other = d.entry? other := by
  cases other with
  | nil => rfl
  | cons name names =>
    have hfilter : ∀ entries : List (List String × DiskEntry),
        (entries.filter fun entry => entry.1 ≠ place).lookup (name :: names) =
          entries.lookup (name :: names) := by
      intro entries
      induction entries with
      | nil => rfl
      | cons entry entries ih =>
        obtain ⟨p, f⟩ := entry
        by_cases hp : p = place
        · have hother : ((name :: names) == p) = false := by rw [hp]; simpa using h
          rw [List.filter_cons_of_neg (by simpa using hp), List.lookup_cons, hother, ih]
        · rw [List.filter_cons_of_pos (by simpa using hp), List.lookup_cons, List.lookup_cons, ih]
    have hhead : ((name :: names) == place) = false := by simpa using h
    show ((place, e) :: d.entries.filter fun entry => entry.1 ≠ place).lookup (name :: names) = _
    rw [List.lookup_cons, hhead]
    exact hfilter d.entries

/-- A place where no folder stands. -/
def NoFolder (d : Disk) (place : List String) : Prop := d.entry? place ≠ some .folder

theorem NoFolder.ne_nil (h : d.NoFolder place) : place ≠ [] := by
  rintro rfl
  exact h rfl

/-- What is put where no folder stands is in nobody's way. -/
theorem enter_put (hfree : d.NoFolder place) {folder folder' : List String} {name : String}
    (h : d.enter folder name = .ok folder') : (d.put place e).enter folder name = .ok folder' := by
  by_cases hplace : folder ++ [name] = place
  · rw [← hplace] at hfree
    simp only [enter] at h ⊢
    split_ifs at h ⊢ with hdot hdots hlimit
    · exact h
    · exact h
    · exfalso
      split at h
      · next hfolder => exact hfree hfolder
      · cases h
      · cases h
  · simp only [enter, entry?_put_of_ne hplace]
    exact h

theorem foldlM_enter_put (hfree : d.NoFolder place) {names folder folder' : List String}
    (h : names.foldlM d.enter folder = .ok folder') :
    names.foldlM (d.put place e).enter folder = .ok folder' := by
  induction names generalizing folder with
  | nil => exact h
  | cons name names ih =>
    rw [List.foldlM_cons] at h
    obtain ⟨next, hnext, hrest⟩ := ok_of_bind h
    rw [List.foldlM_cons, enter_put hfree hnext]
    exact ih hrest

theorem lastFolder_put (hfree : d.NoFolder place) {path : String} {last : List String × String}
    (h : d.lastFolder path = .ok last) : (d.put place e).lastFolder path = .ok last := by
  unfold lastFolder at h ⊢
  split_ifs at h ⊢
  all_goals
    obtain ⟨folder, hfolder, hlast⟩ := ok_of_bind h
    exact (congrArg (· >>= fun folder => pure (folder, (Path.names path).getLastD "."))
      (foldlM_enter_put hfree hfolder)).trans hlast

theorem lastPlace_put (hfree : d.NoFolder place) {folder place' : List String} {name : String}
    (h : d.lastPlace folder name = .ok place') :
    (d.put place e).lastPlace folder name = .ok place' := by
  unfold lastPlace at h ⊢
  split_ifs at h ⊢
  · exact enter_put hfree h
  · exact h

theorem exists_place_of_writeText {path text : String} {d' : Disk}
    (h : d.writeText path text = .ok d') :
    ∃ folder name place, d.lastFolder path = .ok (folder, name) ∧ Path.endsInSlash path = false ∧
      d.lastPlace folder name = .ok place ∧ d.NoFolder place ∧
      d' = d.put place (.file text.toUTF8) := by
  obtain ⟨⟨folder, name⟩, hfolder, h⟩ := ok_of_bind h
  have hslash : Path.endsInSlash path = false := by
    cases hends : Path.endsInSlash path with
    | false => rfl
    | true =>
      simp only [hends, if_true] at h
      cases h
  simp only [hslash, Bool.false_eq_true, if_false] at h
  obtain ⟨place, hplace, h⟩ := ok_of_bind h
  refine ⟨folder, name, place, hfolder, hslash, hplace, ?_⟩
  split at h
  · cases h
  · next hfree =>
    cases h
    exact ⟨hfree, rfl⟩

/-- A text that was written is read. -/
theorem readText_writeText {path text : String} {d' : Disk} (h : d.writeText path text = .ok d') :
    d'.readText path = .ok text := by
  obtain ⟨folder, name, place, hfolder, hslash, hplace, hfree, rfl⟩ := exists_place_of_writeText h
  have hbytes : (d.put place (.file text.toUTF8)).readBytes path = .ok text.toUTF8 := by
    simp [readBytes, lastFolder_put hfree hfolder, lastPlace_put hfree hplace,
      entry?_put_self hfree.ne_nil, hslash, bind, Except.bind, pure, Except.pure]
  have htext : String.fromUTF8? text.toUTF8 = some text := dif_pos text.isValidUTF8
  simp only [readText, hbytes, htext, bind, Except.bind, pure, Except.pure]

end Disk

namespace Session

theorem run_readText (path : String) (s : Session) :
    (Host.readText path : StateM Session (Except FileFault String)).run s =
      (s.disk.readText path, s) := rfl

theorem run_writeText (path text : String) (s : Session) :
    (Host.writeText path text : StateM Session (Except FileFault Unit)).run s =
      match s.disk.writeText path text with
      | .ok disk => (.ok (), { s with disk })
      | .error fault => (.error fault, s) := by
  cases hdisk : s.disk.writeText path text <;> simp [Host.writeText, hdisk] <;> rfl

theorem run_bind {ε α β : Type} {x : StateM Session α} {s s' : Session} {a : α}
    (h : x.run s = (a, s')) (f : α → ExceptT ε (StateM Session) β) :
    ((liftM x : ExceptT ε (StateM Session) α) >>= f).run.run s = (f a).run.run s' := by
  have hlift : (liftM x : ExceptT ε (StateM Session) α).run.run s = (.ok a, s') :=
    congrArg (fun p : α × Session => ((.ok p.1 : Except ε α), p.2)) h
  rw [ExceptT.run_bind, StateT.run_bind, hlift]
  rfl

end Session

end AntContest
