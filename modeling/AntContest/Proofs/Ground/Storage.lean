import AntContest.Proofs.Ground.Built
import AntContest.Proofs.Ground.Register

/-! # How the cells of a ground are kept

A register is sound if each position has a plot of its own in the right place, and what is told of
the plots is true (`Register.Sound`).

* `perform_cases`: a call writes one plot, in the place of the position that it names, or it writes
  none, and its answer says which.  This holds of every register.  That a call leaves the plots of
  other positions alone takes one in which no two positions share a place.
* `sound_register`: the register of a ground is sound if the ground is as before play, and through
  all changes it is so (`built_after`).

`representation_kept` puts this together: a register is sound from the time it is laid out, whatever
calls follow, and it tells of each position what the ground tells of it. -/

namespace AntContest

namespace Register

/-- What is to be said of a register. -/
structure Sound (r : Register) : Prop where
  /-- There are as many plots as positions. -/
  size : r.plots.size = r.width.val * r.height.val
  /-- The positions within the sides have a plot, and no others. -/
  plotted : ∀ p, (r.plot? p).isSome = true ↔ p.x < r.width.val ∧ p.y < r.height.val
  /-- The position that is written on a plot is the one that has it. -/
  labelled : ∀ p plot, r.plot? p = some plot → plot.position = p
  /-- Different positions have different places. -/
  apart : ∀ p q i, r.place? p = some i → r.place? q = some i → p = q
  /-- No food lies on rock. -/
  bare : ∀ plot ∈ r.plots, plot.cell.terrain = .rock → plot.cell.food = 0
  /-- A call that is refused changes nothing. -/
  refused : ∀ c : Change, (c.perform r).1 = false → (c.perform r).2 = r
  /-- A call that is granted writes one plot, in the place of the position that it names. -/
  granted : ∀ c : Change, (c.perform r).1 = true → ∃ i plot, r.place? c.position = some i ∧
    (c.perform r).2 = r.write i plot
  /-- No call changes the plot of another position. -/
  elsewhere : ∀ (c : Change) p, p ≠ c.position → (c.perform r).2.plot? p = r.plot? p
  /-- The hills are listed, and nothing else. -/
  listed : ∀ p colony, (p, colony) ∈ r.hills ↔
    ∃ plot, r.plot? p = some plot ∧ plot.cell.terrain = .hill colony
  /-- They are listed row by row, and each row from west to east. -/
  ordered : r.hills.Pairwise fun a b => a.1.Precedes b.1
  /-- No position is listed twice. -/
  once : (r.hills.map Prod.fst).Nodup

/-! ### Single calls -/

section

variable {r : Register} {p : Position} {i : Nat} {plot : Plot}

theorem modify_eq_write (hi : r.place? p = some i) (hplot : r.plots[i]? = some plot)
    (f : Plot → Plot) : r.modify p f = r.write i (f plot) := by
  have hplots : r.plots.modify i f = r.plots.setIfInBounds i (f plot) := by
    apply Array.ext_getElem?
    intro j
    rw [Array.getElem?_modify, Array.getElem?_setIfInBounds]
    split
    · next hij =>
      subst hij
      rw [hplot, if_pos (Array.getElem?_eq_some_iff.mp hplot).1, Option.map_some]
    · rfl
  rw [modify, hi]
  exact congrArg (Register.mk r.width r.height) hplots

/-- A call is refused, or it is granted and writes one plot. -/
theorem perform_cases (c : Change) (r : Register) :
    c.perform r = (false, r) ∨
      ∃ i plot, r.place? c.position = some i ∧ c.perform r = (true, r.write i plot) := by
  cases c with
  | terrain p t =>
    cases hplot : r.plot? p with
    | none => exact .inl (by rw [Change.perform, setTerrain, hplot])
    | some plot =>
      obtain ⟨i, hi, hold⟩ := Option.bind_eq_some_iff.mp hplot
      have hwrite := modify_eq_write hi hold
      exact .inr ⟨i, _, hi, by rw [Change.perform, setTerrain, hplot, hwrite]⟩
  | food p n =>
    cases hplot : r.plot? p with
    | none => exact .inl (by rw [Change.perform, setFood, hplot])
    | some plot =>
      cases hpassable : plot.cell.terrain.isPassable with
      | false =>
        exact .inl (by simp [Change.perform, setFood, hplot, hpassable])
      | true =>
        obtain ⟨i, hi, hold⟩ := Option.bind_eq_some_iff.mp hplot
        have hwrite := modify_eq_write hi hold
        refine .inr ⟨i, { plot with cell := { plot.cell with food := n } }, hi, ?_⟩
        simp only [Change.perform, setFood, hplot, hpassable, hwrite, if_true]

theorem sides_after (r : Register) (calls : List Change) :
    (r.after calls).width = r.width ∧ (r.after calls).height = r.height := by
  induction calls generalizing r with
  | nil => exact ⟨rfl, rfl⟩
  | cons c calls ih =>
    have hsides : (c.perform r).2.width = r.width ∧ (c.perform r).2.height = r.height := by
      rcases perform_cases c r with h | ⟨i, plot, -, h⟩ <;> rw [h] <;> exact ⟨rfl, rfl⟩
    have ih := ih (c.perform r).2
    exact ⟨ih.1.trans hsides.1, ih.2.trans hsides.2⟩

theorem place?_write : (r.write i plot).place? p = r.place? p := rfl

theorem plot?_write_of_ne (h : r.place? p ≠ some i) : (r.write i plot).plot? p = r.plot? p := by
  rw [plot?, plot?, place?_write]
  cases hj : r.place? p with
  | none => rfl
  | some j =>
    rw [Option.bind_some, Option.bind_some]
    have hij : i ≠ j := fun hij => h (by rw [hj, hij])
    exact Array.getElem?_setIfInBounds_ne hij

end

end Register

/-! ### Grounds and their registers -/

namespace Ground

section

variable {g : Ground}

theorem place?_register_inj {p q : Position} {i : Nat} (hp : g.register.place? p = some i)
    (hq : g.register.place? q = some i) : p = q := by
  rw [place?_register] at hp hq
  split at hp
  · next hcontains =>
    split at hq
    · next hcontains' =>
      exact offset_inj hcontains hcontains' (Option.some.inj (hp.trans hq.symm))
    · cases hq
  · cases hp

/-- Every plot is that of a position. -/
theorem exists_of_mem_plots {plot : Plot} (h : plot ∈ g.register.plots) :
    ∃ p, g.cell? p = some plot.cell := by
  rw [← Array.mem_toList_iff, toList_plots_register, List.mem_map] at h
  obtain ⟨entry, hentry, rfl⟩ := h
  exact ⟨entry.1, mem_entries.mp hentry⟩

theorem pairwise_hills_precedes (g : Ground) :
    g.hills.Pairwise fun a b => a.1.Precedes b.1 := by
  have hcontains (a : Position × Colony) (ha : a ∈ g.hills) : g.contains a.1 = true := by
    obtain ⟨c, hc, -⟩ := mem_hills.mp ha
    rw [← isSome_cell?, hc]
    rfl
  exact g.pairwise_hills.imp_of_mem fun ha hb hab =>
    precedes_of_offset_lt (hcontains _ ha) hab (hcontains _ hb)

theorem sound_register (hpristine : g.Pristine) : g.register.Sound where
  size := size_plots_register
  plotted p := by
    rw [plot?_register, Option.isSome_map, isSome_cell?]
    exact contains_iff
  labelled p plot hplot := by
    rw [plot?_register] at hplot
    obtain ⟨c, -, rfl⟩ := Option.map_eq_some_iff.mp hplot
    rfl
  apart _ _ _ := place?_register_inj
  bare plot hplot hrock := by
    obtain ⟨p, hp⟩ := exists_of_mem_plots hplot
    exact (hpristine p plot.cell hp).bare hrock
  refused c hanswer := by
    rcases Register.perform_cases c g.register with h | ⟨i, plot, -, h⟩
    · rw [h]
    · rw [h] at hanswer
      cases hanswer
  granted c hanswer := by
    rcases Register.perform_cases c g.register with h | ⟨i, plot, hi, h⟩
    · rw [h] at hanswer
      cases hanswer
    · exact ⟨i, plot, hi, congrArg Prod.snd h⟩
  elsewhere c p hne := by
    rcases Register.perform_cases c g.register with h | ⟨i, plot, hi, h⟩
    · rw [h]
    · rw [h]
      -- The place that is written belongs to the position of the call, and to no other one.
      exact Register.plot?_write_of_ne fun hp => hne (place?_register_inj hp hi)
  listed p colony := by
    rw [hills_register, mem_hills, plot?_register]
    constructor
    · rintro ⟨c, hc, hterrain⟩
      exact ⟨⟨p, c⟩, by rw [hc, Option.map_some], hterrain⟩
    · rintro ⟨plot, hplot, hterrain⟩
      obtain ⟨c, hc, rfl⟩ := Option.map_eq_some_iff.mp hplot
      exact ⟨c, hc, hterrain⟩
  ordered := by
    rw [hills_register]
    exact g.pairwise_hills_precedes
  once := by
    rw [hills_register, List.Nodup, List.pairwise_map]
    exact g.pairwise_hills_precedes.imp fun hab heq => by
      rw [heq] at hab
      exact hab.asymm hab

theorem built_getD_result? (h : g.Built) (c : Change) : ((c.result? g).getD g).Built := by
  cases hresult : c.result? g with
  | none => exact h
  | some g' =>
    cases c with
    | terrain p t => exact h.setTerrain hresult
    | food p n => exact h.setFood hresult

/-- A built ground is one after every list of calls. -/
theorem built_after (h : g.Built) (calls : List Change) : (g.after calls).Built := by
  induction calls generalizing g with
  | nil => exact h
  | cons c calls ih => exact ih (built_getD_result? h c)

end

theorem built_laid (isWalled : Bool) (width height : Side) :
    (laid isWalled width height).Built := by
  cases isWalled
  · exact .clear width height
  · exact .walled width height

end Ground

namespace Register

theorem sides_laid (isWalled : Bool) (width height : Side) :
    (laid isWalled width height).width = width ∧ (laid isWalled width height).height = height := by
  rw [Ground.laid_register]
  cases isWalled <;> exact ⟨rfl, rfl⟩

/-- From the time it is laid out, and through all calls, a register holds the cells of the ground
and nothing else, has its sides, and is sound; it tells of each position and answers each call as
the ground does. -/
theorem representation_kept (isWalled : Bool) (width height : Side) (calls : List Change) :
    let r := (laid isWalled width height).after calls
    let g := (Ground.laid isWalled width height).after calls
    r = g.register ∧ r.width = width ∧ r.height = height ∧ r.Sound ∧
      (∀ p, r.plot? p = (g.cell? p).map fun c => ⟨p, c⟩) ∧ r.hills = g.hills ∧
      ∀ c : Change, (c.perform r).1 = (c.result? g).isSome := by
  intro r g
  have hregister : r = g.register := by
    show (laid isWalled width height).after calls = _
    rw [Ground.laid_register, Ground.after_register]
  have hsides := sides_after (laid isWalled width height) calls
  have hlaid := sides_laid isWalled width height
  have hbuilt : g.Built := Ground.built_after (Ground.built_laid isWalled width height) calls
  refine ⟨hregister, hsides.1.trans hlaid.1, hsides.2.trans hlaid.2, ?_⟩
  rw [hregister]
  exact ⟨Ground.sound_register hbuilt.pristine, fun p => Ground.plot?_register,
    Ground.hills_register g, fun c => congrArg Prod.fst (Ground.perform_register g c)⟩

end Register

end AntContest
