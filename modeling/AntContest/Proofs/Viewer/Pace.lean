import AntContest.Viewer

/-! # The pace of a viewer

The pace of a viewer is the delay between two strides and the turns of a stride.  One key makes a
viewer faster and one slower, whatever delay it was started with.

* `pace_press` says what a key does to the pace.
* `stride_after_mem`: the stride is always one of five.
* `speed_keys_monotone`: the key for faster never makes the delay longer or the stride shorter, and
  the key for slower never makes the stride longer.  It makes the delay shorter only where it was
  beyond its bound, so it never does if and only if the viewer was started within the bound. -/

namespace AntContest

namespace Viewer

/-- What a viewer can be asked for. -/
inductive Key where
  | stepForward
  | stepBackward
  | togglePause
  | increaseSpeed
  | decreaseSpeed
  | scroll (dx dy : Int)
deriving DecidableEq, Repr

def press (v : Viewer) : Key → Viewer
  | .stepForward => v.stepForward
  | .stepBackward => v.stepBackward
  | .togglePause => v.togglePause
  | .increaseSpeed => v.increaseSpeed
  | .decreaseSpeed => v.decreaseSpeed
  | .scroll dx dy => v.scroll dx dy

def after (v : Viewer) (keys : List Key) : Viewer := keys.foldl press v

/-- The delay and the stride of a viewer. -/
def pace (v : Viewer) : Nat × Nat := (v.delay, v.stride)

/-! ### What a key does to the pace -/

theorem pace_increaseSpeed (v : Viewer) : v.increaseSpeed.pace =
    if 10 < v.delay then (max (v.delay - 50) 10, v.stride)
    else (v.delay, min (v.stride * 10) 10000) := by
  unfold increaseSpeed
  split <;> rfl

theorem pace_decreaseSpeed (v : Viewer) : v.decreaseSpeed.pace =
    if 1 < v.stride then (v.delay, v.stride / 10)
    else (min (v.delay + 50) 2000, v.stride) := by
  unfold decreaseSpeed
  split <;> rfl

theorem pace_stepBackward (v : Viewer) : v.stepBackward.pace = v.pace := by
  unfold stepBackward
  split <;> rfl

/-- Only the keys of the speed change the pace. -/
theorem pace_press (v : Viewer) (key : Key) : (v.press key).pace =
    match key with
    | .increaseSpeed => v.increaseSpeed.pace
    | .decreaseSpeed => v.decreaseSpeed.pace
    | _ => v.pace := by
  cases key with
  | stepBackward => exact v.pace_stepBackward
  | stepForward | togglePause | increaseSpeed | decreaseSpeed | scroll dx dy => rfl

theorem pace_after {I : Nat × Nat → Prop}
    (hfaster : ∀ v : Viewer, I v.pace → I v.increaseSpeed.pace)
    (hslower : ∀ v : Viewer, I v.pace → I v.decreaseSpeed.pace) {v : Viewer} (h : I v.pace)
    (keys : List Key) : I (v.after keys).pace := by
  induction keys generalizing v with
  | nil => exact h
  | cons key keys ih =>
    refine ih (v := v.press key) ?_
    rw [pace_press]
    cases key with
    | increaseSpeed => exact hfaster v h
    | decreaseSpeed => exact hslower v h
    | stepForward | stepBackward | togglePause | scroll dx dy => exact h

/-! ### The bounds of the pace -/

def strides : List Nat := [1, 10, 100, 1000, 10000]

/-- The stride is one of the strides, whatever keys are pressed. -/
theorem stride_after_mem {v : Viewer} (h : v.stride ∈ strides) (keys : List Key) :
    (v.after keys).stride ∈ strides := by
  have hlonger : ∀ n ∈ strides, min (n * 10) 10000 ∈ strides := by decide
  have hshorter : ∀ n ∈ strides, 1 < n → n / 10 ∈ strides := by decide
  refine pace_after (I := fun pace => pace.2 ∈ strides) ?_ ?_ h keys
  · intro v hv
    rw [pace_increaseSpeed]
    split
    · exact hv
    · exact hlonger _ hv
  · intro v hv
    rw [pace_decreaseSpeed]
    split
    · next hlong => exact hshorter _ hv hlong
    · exact hv

theorem delay_after_le (v : Viewer) (keys : List Key) :
    (v.after keys).delay ≤ max v.delay 2000 := by
  refine pace_after (I := fun pace => pace.1 ≤ max v.delay 2000) ?_ ?_ (Nat.le_max_left _ _) keys
  · intro w hw
    have hdelay : w.delay ≤ max v.delay 2000 := hw
    rw [pace_increaseSpeed]
    split
    · show max (w.delay - 50) 10 ≤ max v.delay 2000
      omega
    · exact hw
  · intro w hw
    rw [pace_decreaseSpeed]
    split
    · exact hw
    · exact Nat.le_trans (Nat.min_le_right _ _) (Nat.le_max_right _ _)

/-! ### Faster and slower -/

theorem pace_increaseSpeed_le {v : Viewer} (h : v.stride ∈ strides) :
    v.increaseSpeed.delay ≤ v.delay ∧ v.stride ≤ v.increaseSpeed.stride := by
  have hlonger : ∀ n ∈ strides, n ≤ min (n * 10) 10000 := by decide
  have hdelay := congrArg Prod.fst v.pace_increaseSpeed
  have hstride := congrArg Prod.snd v.pace_increaseSpeed
  dsimp only [pace] at hdelay hstride
  rw [hdelay, hstride]
  split
  · exact ⟨by show max (v.delay - 50) 10 ≤ v.delay; omega, Nat.le_refl _⟩
  · exact ⟨Nat.le_refl _, hlonger _ h⟩

theorem stride_decreaseSpeed_le (v : Viewer) : v.decreaseSpeed.stride ≤ v.stride := by
  have hstride := congrArg Prod.snd v.pace_decreaseSpeed
  dsimp only [pace] at hstride
  rw [hstride]
  split
  · exact Nat.div_le_self _ _
  · exact Nat.le_refl _

/-- The key for slower makes a delay shorter if it is beyond the bound and the stride cannot be made
shorter instead. -/
theorem delay_decreaseSpeed_lt_iff (v : Viewer) :
    v.decreaseSpeed.delay < v.delay ↔ v.stride ≤ 1 ∧ 2000 < v.delay := by
  have hdelay := congrArg Prod.fst v.pace_decreaseSpeed
  dsimp only [pace] at hdelay
  rw [hdelay]
  split
  · show v.delay < v.delay ↔ _
    omega
  · show min (v.delay + 50) 2000 < v.delay ↔ _
    omega

/-- After any keys, the key for faster makes the viewer no slower, and the key for slower makes no
stride longer.  It makes no delay shorter either, for whatever keys, if and only if the viewer was
started with a delay within the bound. -/
theorem speed_keys_monotone (p : Playback) (delay : Nat) :
    (∀ keys, let v := (start p delay).after keys
      (v.increaseSpeed.delay ≤ v.delay ∧ v.stride ≤ v.increaseSpeed.stride) ∧
        v.decreaseSpeed.stride ≤ v.stride) ∧
    ((∀ keys, let v := (start p delay).after keys
      v.delay ≤ v.decreaseSpeed.delay) ↔ delay ≤ 2000) := by
  have hstart : (start p delay).stride ∈ strides := List.mem_cons_self
  refine ⟨fun keys => ⟨pace_increaseSpeed_le (stride_after_mem hstart keys),
    stride_decreaseSpeed_le _⟩, fun h => ?_, fun hdelay keys => ?_⟩
  · refine Nat.le_of_not_lt fun hbeyond => ?_
    have hshorter : (start p delay).decreaseSpeed.delay < (start p delay).delay :=
      (delay_decreaseSpeed_lt_iff _).mpr ⟨Nat.le_refl 1, hbeyond⟩
    exact absurd (h []) (Nat.not_le_of_lt hshorter)
  · have hbound : ((start p delay).after keys).delay ≤ max delay 2000 := delay_after_le _ keys
    refine Nat.le_of_not_lt fun hshorter => ?_
    have hbeyond := (delay_decreaseSpeed_lt_iff _).mp hshorter
    omega

/-- A viewer that was started with a delay of five seconds plays faster after the key for slower. -/
theorem slower_key_shortens_long_delay :
    let r : Recording := ⟨"4\n3\n# # # #\n # + . #\n# # # #\n", ⟨"a", "move 0 0\n"⟩,
      ⟨"b", "move 0 0\n"⟩, {}⟩
    ∃ p, Playback.openAt r 0 = .ok p ∧ (start p 5000).delay = 5000 ∧
      (start p 5000).decreaseSpeed.delay = 2000 := by
  intro r
  have hopen : (Playback.openAt r 0).isOk = true := by decide +kernel
  cases h : Playback.openAt r 0 with
  | error e =>
    rw [h] at hopen
    cases hopen
  | ok p => exact ⟨p, rfl, rfl, rfl⟩

end Viewer

end AntContest
