import AntContest.Proofs.Game.Posts
import AntContest.Proofs.Recording.TimeTravel
import AntContest.Proofs.Viewer.Pace

/-! # A viewer is settled by a few numbers

Whatever keys are pressed, a viewer shows no more than its numbers tell: the turn, the two numbers
of its speed and the corner of the map.  `Gauge` has these numbers as integers and `Gauge.press`
moves them, between bounds, without a game at hand.

* `Steady` is what a key keeps: the playback is at a turn of the recording, the stride is one of
  five, and the corner lies on the map.
* `Steady.gauge_press`: under it a key moves the numbers of the viewer as it moves the gauge.
* `gauge_of_keys`: hence the numbers after any keys are those of the gauge, and the game that is
  shown is the one that so many steps make of the beginning (`Shows`). -/

namespace AntContest

namespace Viewer

/-! ### The numbers -/

/-- The numbers of a viewer. -/
structure Gauge where
  turn : Int
  paused : Bool
  delay : Int
  stride : Int
  x : Int
  y : Int
deriving DecidableEq, Repr

/-- How far the numbers can go: the last turn and the sides of the map. -/
structure Bounds where
  limit : Int
  width : Int
  height : Int

/-- The numbers after a key. -/
def Gauge.press (b : Bounds) (g : Gauge) : Key → Gauge
  | .stepForward => { g with turn := min (g.turn + g.stride) b.limit }
  | .stepBackward => { g with turn := max (g.turn - g.stride) 0 }
  | .togglePause => { g with paused := !g.paused }
  | .increaseSpeed =>
    if 10 < g.delay then { g with delay := max (g.delay - 50) 10 }
    else { g with stride := min (10 * g.stride) 10000 }
  | .decreaseSpeed =>
    if 1 < g.stride then { g with stride := g.stride / 10 }
    else { g with delay := min (g.delay + 50) 2000 }
  | .scroll dx dy =>
    { g with
      x := max 0 (min (g.x + 8 * dx) (b.width - 1))
      y := max 0 (min (g.y + 4 * dy) (b.height - 1)) }

/-- The numbers that a viewer stands at. -/
def gauge (v : Viewer) : Gauge where
  turn := v.playback.turn
  paused := v.paused
  delay := v.delay
  stride := v.stride
  x := v.origin.x
  y := v.origin.y

/-- The bounds of a playback. -/
def boundsOf (p : Playback) : Bounds := ⟨p.limit, p.ground.width.val, p.ground.height.val⟩

/-! ### Keys that leave the playback alone -/

/-- The keys of the speed change nothing but the pace. -/
theorem exists_increaseSpeed_eq (v : Viewer) :
    ∃ delay stride, v.increaseSpeed = { v with delay, stride } := by
  unfold increaseSpeed
  split
  · exact ⟨_, v.stride, rfl⟩
  · exact ⟨v.delay, _, rfl⟩

theorem exists_decreaseSpeed_eq (v : Viewer) :
    ∃ delay stride, v.decreaseSpeed = { v with delay, stride } := by
  unfold decreaseSpeed
  split
  · exact ⟨v.delay, _, rfl⟩
  · exact ⟨_, v.stride, rfl⟩

theorem shift_lt (side : Side) (n : Nat) (distance : Int) : shift side n distance < side.val := by
  have hpos := side.property.1
  unfold shift
  omega

theorem shift_eq (side : Side) (n : Nat) (distance : Int) :
    (shift side n distance : Int) = max 0 (min (n + distance) (side.val - 1)) := by
  have hpos := side.property.1
  unfold shift
  omega

/-! ### What every key keeps -/

/-- A viewer is steady if it shows a turn of a recording, with one of the strides and a corner on
the map. -/
structure Steady (p : Playback) (v : Viewer) : Prop where
  onTrack : ∃ n, v.playback = p.atTurn n
  stride_mem : v.stride ∈ strides
  contains : p.ground.contains v.origin = true

theorem steady_start (p : Playback) (n delay : Nat) : Steady p (start (p.atTurn n) delay) where
  onTrack := ⟨n, rfl⟩
  stride_mem := by
    show 1 ∈ strides
    decide
  contains := Ground.contains_iff.mpr ⟨p.ground.width.property.1, p.ground.height.property.1⟩

theorem sides_atTurn (p : Playback) (n : Nat) :
    (p.atTurn n).game.ground.width = p.ground.width ∧
      (p.atTurn n).game.ground.height = p.ground.height := by
  have hbegin : Game.Course (.load p.ground p.recording.config) p.fresh :=
    Relation.ReflTransGen.single (.begin p.teams)
  exact Game.sides_of_course (hbegin.trans (Game.course_steps p.fresh n))

namespace Steady

variable {p : Playback} {v : Viewer}

theorem playback_eq (h : Steady p v) : v.playback = p.atTurn v.playback.turn := by
  obtain ⟨n, hn⟩ := h.onTrack
  rw [hn, Playback.turn_atTurn, Playback.atTurn_min]

theorem turn_le (h : Steady p v) : v.playback.turn ≤ p.limit := by
  rw [h.playback_eq, Playback.turn_atTurn]
  exact Nat.min_le_right _ p.limit

theorem stepForward_eq (h : Steady p v) :
    v.stepForward = { v with playback := p.atTurn (v.playback.turn + v.stride) } := by
  have hgame : v.playback.game = p.fresh.steps v.playback.turn :=
    congrArg Playback.game h.playback_eq
  have hsteps : Game.stepMany v.stride v.playback.game =
      p.fresh.steps (v.playback.turn + v.stride) := by
    have hunderway := (p.underway_fresh.steps v.playback.turn).1
    rw [hgame, hunderway.stepMany_eq_steps, ← Game.steps_add]
  obtain ⟨n, hn⟩ := h.onTrack
  rw [stepForward, hsteps, hn]
  rfl

theorem stepBackward_eq (h : Steady p v) :
    v.stepBackward = { v with playback := p.atTurn (v.playback.turn - v.stride) } := by
  have htrack : v.playback.OnTrack := by
    rw [h.playback_eq]
    exact p.onTrack_atTurn v.playback.turn
  obtain ⟨n, hn⟩ := h.onTrack
  have hle : v.playback.turn - v.stride ≤ v.playback.limit :=
    (Nat.sub_le _ _).trans htrack.turn_le
  have hgoTo : v.playback.goTo (v.playback.turn - v.stride) =
      .ok (p.atTurn (v.playback.turn - v.stride)) := by
    rw [Playback.goTo, htrack.seek_of_le hle]
    generalize v.playback.turn - v.stride = target
    rw [hn]
    rfl
  rw [stepBackward, hgoTo]

theorem scroll_eq (h : Steady p v) (dx dy : Int) :
    v.scroll dx dy = { v with
      origin := ⟨shift p.ground.width v.origin.x (8 * dx),
        shift p.ground.height v.origin.y (4 * dy)⟩ } := by
  obtain ⟨n, hn⟩ := h.onTrack
  obtain ⟨hwidth, hheight⟩ := sides_atTurn p n
  unfold scroll
  dsimp only
  rw [hn, hwidth, hheight]

theorem press (h : Steady p v) (key : Key) : Steady p (v.press key) := by
  have hstride : (v.press key).stride ∈ strides := stride_after_mem h.stride_mem [key]
  cases key with
  | stepForward => exact ⟨⟨_, congrArg Viewer.playback h.stepForward_eq⟩, hstride, h.contains⟩
  | stepBackward =>
    have hback : v.press .stepBackward = _ := h.stepBackward_eq
    rw [hback]
    exact ⟨⟨_, rfl⟩, h.stride_mem, h.contains⟩
  | togglePause => exact ⟨h.onTrack, hstride, h.contains⟩
  | increaseSpeed =>
    obtain ⟨delay, stride, hspeed⟩ := v.exists_increaseSpeed_eq
    have hpress : v.press .increaseSpeed = _ := hspeed
    rw [hpress] at hstride ⊢
    exact ⟨h.onTrack, hstride, h.contains⟩
  | decreaseSpeed =>
    obtain ⟨delay, stride, hspeed⟩ := v.exists_decreaseSpeed_eq
    have hpress : v.press .decreaseSpeed = _ := hspeed
    rw [hpress] at hstride ⊢
    exact ⟨h.onTrack, hstride, h.contains⟩
  | scroll dx dy =>
    have hscroll : v.press (.scroll dx dy) = _ := h.scroll_eq dx dy
    rw [hscroll]
    exact ⟨h.onTrack, h.stride_mem, Ground.contains_iff.mpr ⟨shift_lt _ _ _, shift_lt _ _ _⟩⟩

theorem after (h : Steady p v) (keys : List Key) : Steady p (v.after keys) := by
  induction keys generalizing v with
  | nil => exact h
  | cons key keys ih => exact ih (h.press key)

/-- A key moves the numbers of a viewer as it moves the gauge. -/
theorem gauge_press (h : Steady p v) (key : Key) :
    (v.press key).gauge = v.gauge.press (boundsOf p) key := by
  cases key with
  | stepForward =>
    have hforward : v.press .stepForward = _ := h.stepForward_eq
    have hturn : ((min (v.playback.turn + v.stride) p.limit : Nat) : Int) =
        min ((v.playback.turn : Int) + v.stride) p.limit := by omega
    rw [hforward, gauge, Playback.turn_atTurn, hturn]
    rfl
  | stepBackward =>
    have hback : v.press .stepBackward = _ := h.stepBackward_eq
    have hle := h.turn_le
    have hturn : ((min (v.playback.turn - v.stride) p.limit : Nat) : Int) =
        max ((v.playback.turn : Int) - v.stride) 0 := by omega
    rw [hback, gauge, Playback.turn_atTurn, hturn]
    rfl
  | togglePause => rfl
  | increaseSpeed =>
    have hdelay (hslow : 10 < v.delay) :
        ((max (v.delay - 50) 10 : Nat) : Int) = max ((v.delay : Int) - 50) 10 := by omega
    have hstride : ((min (v.stride * 10) 10000 : Nat) : Int) =
        min (10 * (v.stride : Int)) 10000 := by omega
    show v.increaseSpeed.gauge = _
    unfold increaseSpeed Gauge.press gauge
    dsimp only
    split
    · next hslow => rw [if_pos (by omega), hdelay hslow]
    · next hquick => rw [if_neg (by omega), hstride]
  | decreaseSpeed =>
    have hdelay : ((min (v.delay + 50) 2000 : Nat) : Int) = min ((v.delay : Int) + 50) 2000 := by
      omega
    have hstride : ((v.stride / 10 : Nat) : Int) = (v.stride : Int) / 10 := by omega
    show v.decreaseSpeed.gauge = _
    unfold decreaseSpeed Gauge.press gauge
    dsimp only
    split
    · next hlong => rw [if_pos (by omega), hstride]
    · next hshort => rw [if_neg (by omega), hdelay]
  | scroll dx dy =>
    have hscroll : v.press (.scroll dx dy) = _ := h.scroll_eq dx dy
    rw [hscroll, gauge, shift_eq, shift_eq]
    rfl

theorem gauge_after (h : Steady p v) (keys : List Key) :
    (v.after keys).gauge = keys.foldl (Gauge.press (boundsOf p)) v.gauge := by
  induction keys generalizing v with
  | nil => rfl
  | cons key keys ih =>
    rw [List.foldl_cons, ← h.gauge_press key]
    exact ih (h.press key)

end Steady

/-! ### What is shown -/

/-- What a viewer shows of a game, given the beginning of the game and the bounds of the numbers. -/
structure Shows (beginning : Game) (b : Bounds) (v : Viewer) : Prop where
  /-- The game is what so many steps make of its beginning. -/
  game_eq : v.playback.game = beginning.steps v.playback.turn
  isOver_iff : v.playback.isOver = true ↔ v.gauge.turn = b.limit
  stride_mem : v.stride ∈ strides
  x_mem : 0 ≤ v.gauge.x ∧ v.gauge.x < b.width
  y_mem : 0 ≤ v.gauge.y ∧ v.gauge.y < b.height

theorem Steady.shows {p : Playback} {v : Viewer} (h : Steady p v) :
    Shows p.fresh (boundsOf p) v where
  game_eq := congrArg Playback.game h.playback_eq
  isOver_iff := by
    have hgame : v.playback.game = p.fresh.steps v.playback.turn :=
      congrArg Playback.game h.playback_eq
    have hunderway : Game.Underway p.limit v.playback.game := by
      rw [hgame]
      exact (p.underway_fresh.steps v.playback.turn).1
    have hle : v.playback.game.turn ≤ p.limit := hunderway.turn_le
    have hlast : v.gauge.turn = p.limit ↔ ¬ v.playback.game.turn < p.limit := by
      show (v.playback.game.turn : Int) = p.limit ↔ _
      omega
    rw [Playback.isOver, hunderway.phase_eq, show (boundsOf p).limit = p.limit from rfl, hlast]
    split <;> simp_all
  stride_mem := h.stride_mem
  x_mem := ⟨Int.natCast_nonneg _, Int.ofNat_lt.mpr (Ground.contains_iff.mp h.contains).1⟩
  y_mem := ⟨Int.natCast_nonneg _, Int.ofNat_lt.mpr (Ground.contains_iff.mp h.contains).2⟩

/-- In a viewer of a recording that can be opened, whatever keys are pressed, the numbers are those
of the gauge, and the game shown is that of the turn.  The delay is never longer than two seconds,
unless the viewer was started so. -/
theorem gauge_of_keys {r : Recording} {t₀ : Nat} {p₀ : Playback}
    (h : Playback.openAt r t₀ = .ok p₀) (delay : Nat) :
    ∃ ground red black, Ground.readMap r.map = .ok ground ∧ r.red.read = .ok red ∧
      r.black.read = .ok black ∧
      ∀ keys,
        let bounds : Bounds := ⟨r.config.maxTurns.toNat, ground.width.val, ground.height.val⟩
        let v := (start p₀ delay).after keys
        v.gauge = keys.foldl (Gauge.press bounds) ⟨min t₀ bounds.limit, true, delay, 1, 0, 0⟩ ∧
          Shows (Playback.start ground ⟨red, black⟩ r.config) bounds v ∧
          v.delay ≤ max delay 2000 := by
  obtain ⟨ground, red, black, hground, hred, hblack, rfl⟩ := Playback.openAt_eq_ok.mp h
  let p : Playback := ⟨r, ground, ⟨red, black⟩, Playback.start ground ⟨red, black⟩ r.config⟩
  refine ⟨ground, red, black, hground, hred, hblack, fun keys => ?_⟩
  have hstart : Steady p (start (p.atTurn t₀) delay) := steady_start p t₀ delay
  have hturn : ((p.atTurn t₀).turn : Int) = min (t₀ : Int) p.limit := by
    rw [Playback.turn_atTurn]
    omega
  refine ⟨?_, (hstart.after keys).shows, delay_after_le _ keys⟩
  refine (hstart.gauge_after keys).trans ?_
  rw [gauge, show (start (p.atTurn t₀) delay).playback = p.atTurn t₀ from rfl, hturn]
  rfl

/-- For example with long strides over the end of a recording of two turns, and a corner that is
pushed against the side of the map. -/
theorem gauge_over_the_end :
    ∃ (r : Recording) (p₀ : Playback), Playback.openAt r 0 = .ok p₀ ∧
      ((start p₀ 10).after
        [.increaseSpeed, .stepForward, .scroll 1 (-1), .decreaseSpeed, .stepBackward]).gauge =
          ⟨1, true, 10, 1, 2, 0⟩ := by
  let r : Recording := ⟨"3\n3\n# # #\n # + #\n# # #\n", ⟨"left", "turn left 0\n"⟩,
    ⟨"ahead", "move 0 0\n"⟩, { maxTurns := 2 }⟩
  have hopen : (Playback.openAt r 0).isOk = true := by decide +kernel
  have hmap : ∀ ground, Ground.readMap r.map = .ok ground →
      ground.width.val = 3 ∧ ground.height.val = 3 := by
    intro ground hground
    have hsides : (match Ground.readMap r.map with
      | .ok ground => decide (ground.width.val = 3 ∧ ground.height.val = 3)
      | .error _ => false) = true := by decide +kernel
    rw [hground] at hsides
    exact of_decide_eq_true hsides
  cases h : Playback.openAt r 0 with
  | error e =>
    rw [h] at hopen
    cases hopen
  | ok p₀ =>
    obtain ⟨ground, red, black, hground, -, -, hgauge⟩ := gauge_of_keys h 10
    obtain ⟨hwidth, hheight⟩ := hmap ground hground
    refine ⟨r, p₀, h, (hgauge _).1.trans ?_⟩
    rw [hwidth, hheight]
    rfl

end Viewer

end AntContest
