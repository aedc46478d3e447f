import AntContest.Proofs.Game.Stepping
import AntContest.Proofs.Ground.Built
import AntContest.Recording.Playback

/-! # Time travel

A playback reaches a turn on two ways: it plays on from where it is, or it plays again from the
beginning.  Both lead to the same game, so a playback of a recording is settled by its turn.

* `atTurn` is the playback at a turn, whatever its history.
* `forward_of_lt`, `seek_of_le` and `backward_of_succ` say that the calls lead to `atTurn`; with
  `forward_of_eq`, `seek_of_lt` and `backward_of_zero` they say when a call fails.
* `time_travel`: hence the laws of playbacks after any sequence of calls (`TravelLaws`). -/

namespace AntContest

namespace Playback

/-- A call of a playback. -/
inductive Call where
  | forward
  | backward
  | seek (target : Nat)
deriving DecidableEq, Repr

/-- The answer of a call, and the playback that it leaves. -/
def Call.run (p : Playback) : Call → Except PlaybackError Unit × Playback
  | forward => p.forward
  | backward => p.backward
  | seek target => p.seek target

/-- The playback after some calls, successful or not. -/
def after (p : Playback) (calls : List Call) : Playback :=
  calls.foldl (fun p call => (call.run p).2) p

/-- The game of a playback at its beginning. -/
def fresh (p : Playback) : Game := start p.ground p.teams p.recording.config

/-- The playback at a turn, or at the last turn if that comes first. -/
def atTurn (p : Playback) (n : Nat) : Playback := { p with game := p.fresh.steps n }

@[simp] theorem limit_atTurn (p : Playback) (n : Nat) : (p.atTurn n).limit = p.limit := rfl

@[simp] theorem atTurn_atTurn (p : Playback) (m n : Nat) : (p.atTurn m).atTurn n = p.atTurn n := rfl

theorem underway_fresh (p : Playback) : Game.Underway p.limit p.fresh :=
  Game.underway_begin (.load p.ground p.recording.config) p.teams

@[simp] theorem turn_atTurn (p : Playback) (n : Nat) : (p.atTurn n).turn = min n p.limit :=
  Game.turn_steps_begin (.load p.ground p.recording.config) p.teams n

theorem atTurn_min (p : Playback) (n : Nat) : p.atTurn (min n p.limit) = p.atTurn n := by
  rw [atTurn, atTurn, p.underway_fresh.steps_min n]
  rfl

/-- A playback is on track if its game is that of its turn. -/
def OnTrack (p : Playback) : Prop := p = p.atTurn p.turn

theorem onTrack_atTurn (p : Playback) (n : Nat) : OnTrack (p.atTurn n) := by
  rw [OnTrack, turn_atTurn, atTurn_atTurn, atTurn_min]

theorem forward_eq (p : Playback) : p.forward =
    match p.game.step with
    | (.ok _, game) => (.ok (), { p with game })
    | (.error _, game) => (.error .gameOver, { p with game }) := rfl

namespace OnTrack

variable {p : Playback}

theorem game_eq (h : OnTrack p) : p.game = p.fresh.steps p.turn := congrArg Playback.game h

theorem underway (h : OnTrack p) : Game.Underway p.limit p.game := by
  rw [h.game_eq]
  exact (p.underway_fresh.steps p.turn).1

theorem turn_le (h : OnTrack p) : p.turn ≤ p.limit := h.underway.turn_le

/-! ### What the calls lead to -/

theorem forward_of_lt (h : OnTrack p) (hlt : p.turn < p.limit) :
    p.forward = (.ok (), p.atTurn (p.turn + 1)) := by
  obtain ⟨⟨report, hreport⟩, -, -⟩ := h.underway.step_of_lt hlt
  have hnext : p.game.step.2 = p.fresh.steps (p.turn + 1) := by
    rw [Game.steps_succ, ← h.game_eq]
  have hstep : p.game.step = (.ok report, p.fresh.steps (p.turn + 1)) := Prod.ext hreport hnext
  rw [forward_eq, hstep]
  rfl

theorem forward_of_eq (h : OnTrack p) (heq : p.turn = p.limit) :
    p.forward = (.error .gameOver, p) := by
  rw [forward_eq, h.underway.step_of_eq heq]

theorem seek_of_lt {target : Nat} (hlt : p.limit < target) :
    p.seek target = (.error (.outOfBounds target p.limit), p) := by
  unfold seek
  rw [if_pos hlt]

/-- Playing on from a turn of the game leads to a later one. -/
theorem advanceTo_steps (p : Playback) {n target : Nat} (hn : n ≤ p.limit) (hle : n ≤ target) :
    advanceTo target (p.fresh.steps n) = p.fresh.steps target := by
  have hturn : (p.fresh.steps n).turn = n := (p.turn_atTurn n).trans (Nat.min_eq_left hn)
  have hunderway := (p.underway_fresh.steps n).1
  rw [advanceTo, hunderway.stepMany_eq_steps, ← Game.steps_add, hturn, Nat.add_sub_cancel' hle]

theorem seek_of_le (h : OnTrack p) {target : Nat} (hle : target ≤ p.limit) :
    p.seek target = (.ok (), p.atTurn target) := by
  have hgame : advanceTo target (if target < p.game.turn then p.fresh else p.game) =
      p.fresh.steps target := by
    split
    · exact advanceTo_steps p (Nat.zero_le _) (Nat.zero_le _)
    · next hahead =>
      rw [h.game_eq]
      exact advanceTo_steps p h.turn_le (Nat.le_of_not_lt hahead)
  unfold seek
  rw [if_neg (Nat.not_lt.mpr hle), atTurn, ← hgame]
  rfl

theorem backward_of_zero (hzero : p.turn = 0) :
    p.backward = (.error (.outOfBounds 0 p.limit), p) := by
  unfold backward
  rw [hzero]

theorem backward_of_succ (h : OnTrack p) {n : Nat} (hsucc : p.turn = n + 1) :
    p.backward = (.ok (), p.atTurn n) := by
  have hle := h.turn_le
  unfold backward
  rw [hsucc]
  exact h.seek_of_le (by omega)

theorem run_call (h : OnTrack p) (call : Call) :
    (∃ e, call.run p = (.error e, p)) ∨ ∃ n ≤ p.limit, call.run p = (.ok (), p.atTurn n) := by
  have hle := h.turn_le
  cases call with
  | forward =>
    rcases Nat.lt_or_eq_of_le hle with hlt | heq
    · exact .inr ⟨_, hlt, h.forward_of_lt hlt⟩
    · exact .inl ⟨_, h.forward_of_eq heq⟩
  | backward =>
    cases hturn : p.turn with
    | zero => exact .inl ⟨_, backward_of_zero hturn⟩
    | succ n => exact .inr ⟨n, by omega, h.backward_of_succ hturn⟩
  | seek target =>
    rcases Nat.lt_or_ge p.limit target with hlt | hle
    · exact .inl ⟨_, seek_of_lt hlt⟩
    · exact .inr ⟨target, hle, h.seek_of_le hle⟩

/-- After any calls a playback is on track, and it plays the same recording. -/
theorem after (h : OnTrack p) (calls : List Call) :
    ∃ n, p.after calls = p.atTurn n := by
  induction calls generalizing p with
  | nil => exact ⟨p.turn, h⟩
  | cons call calls ih =>
    show ∃ n, (call.run p).2.after calls = p.atTurn n
    rcases h.run_call call with ⟨e, hfail⟩ | ⟨n, -, hdone⟩
    · rw [hfail]
      exact ih h
    · rw [hdone]
      exact ih (onTrack_atTurn p n)

end OnTrack

/-! ### Opening a recording -/

theorem openAt_eq_ok {r : Recording} {t : Nat} {p : Playback} : openAt r t = .ok p ↔
    ∃ ground red black, Ground.readMap r.map = .ok ground ∧ r.red.read = .ok red ∧
      r.black.read = .ok black ∧
      p = ⟨r, ground, ⟨red, black⟩, (start ground ⟨red, black⟩ r.config).steps t⟩ := by
  have hadvance (ground : Ground) (teams : Teams) :
      advanceTo t (start ground teams r.config) = (start ground teams r.config).steps t :=
    OnTrack.advanceTo_steps ⟨r, ground, teams, start ground teams r.config⟩
      (Nat.zero_le _) (Nat.zero_le t)
  unfold openAt
  constructor
  · intro h
    obtain ⟨ground, hground, h⟩ := ok_of_bind h
    obtain ⟨red, hred, h⟩ := ok_of_bind h
    obtain ⟨black, hblack, h⟩ := ok_of_bind h
    cases h
    exact ⟨ground, red, black, mapError_eq_ok.mp hground, mapError_eq_ok.mp hred,
      mapError_eq_ok.mp hblack, by rw [hadvance]⟩
  · rintro ⟨ground, red, black, hground, hred, hblack, rfl⟩
    rw [hground, hred, hblack, ← hadvance]
    rfl

/-- The laws of a playback of a game whose beginning and whose limit of turns are given. -/
structure TravelLaws (beginning : Game) (limit : Nat) (p : Playback) : Prop where
  /-- The game is what so many steps make of its beginning. -/
  game_eq : p.game = beginning.steps p.turn
  turn_le : p.turn ≤ limit
  seek_succeeds : ∀ t, (p.seek t).1 = .ok () ↔ t ≤ limit
  turn_seek : ∀ t ≤ limit, (p.seek t).2.turn = t
  forward_fails : (∃ e, p.forward.1 = .error e) ↔ p.turn = limit
  backward_fails : (∃ e, p.backward.1 = .error e) ↔ p.turn = 0
  /-- A call that fails leaves everything as it is. -/
  unchanged : ∀ (call : Call) (e : PlaybackError), (call.run p).1 = .error e → (call.run p).2 = p
  backward_forward : p.forward.1 = .ok () → p.forward.2.backward = (.ok (), p)
  forward_backward : p.backward.1 = .ok () → p.backward.2.forward = (.ok (), p)

theorem OnTrack.travelLaws {p : Playback} (h : OnTrack p) : TravelLaws p.fresh p.limit p where
  game_eq := h.game_eq
  turn_le := h.turn_le
  seek_succeeds t := by
    rcases Nat.lt_or_ge p.limit t with hlt | hle
    · rw [seek_of_lt hlt]
      simp only [reduceCtorEq, false_iff]
      omega
    · rw [h.seek_of_le hle]
      simpa using hle
  turn_seek t hle := by
    rw [h.seek_of_le hle, turn_atTurn, Nat.min_eq_left hle]
  forward_fails := by
    have hle := h.turn_le
    rcases Nat.lt_or_eq_of_le hle with hlt | heq
    · rw [h.forward_of_lt hlt]
      simp only [reduceCtorEq, exists_false, false_iff]
      omega
    · rw [h.forward_of_eq heq]
      simp [heq]
  backward_fails := by
    cases hturn : p.turn with
    | zero =>
      rw [backward_of_zero hturn]
      simp
    | succ n =>
      rw [h.backward_of_succ hturn]
      simp
  unchanged call e hfail := by
    rcases h.run_call call with ⟨e', hrun⟩ | ⟨n, -, hrun⟩
    · rw [hrun]
    · rw [hrun] at hfail
      cases hfail
  backward_forward hdone := by
    rcases Nat.lt_or_eq_of_le h.turn_le with hlt | heq
    · rw [h.forward_of_lt hlt]
      have hturn : (p.atTurn (p.turn + 1)).turn = p.turn + 1 := by
        rw [turn_atTurn, Nat.min_eq_left hlt]
      rw [(onTrack_atTurn p _).backward_of_succ hturn, atTurn_atTurn, ← h]
    · rw [h.forward_of_eq heq] at hdone
      cases hdone
  forward_backward hdone := by
    cases hturn : p.turn with
    | zero =>
      rw [backward_of_zero hturn] at hdone
      cases hdone
    | succ n =>
      have hle := h.turn_le
      rw [h.backward_of_succ hturn]
      have hback : (p.atTurn n).turn = n := by
        rw [turn_atTurn, Nat.min_eq_left (by omega)]
      rw [(onTrack_atTurn p n).forward_of_lt (by rw [hback, limit_atTurn]; omega), hback,
        atTurn_atTurn, ← hturn, ← h]

/-- A recording that can be opened can be opened at every turn up to its limit, and whatever calls
are made then, the laws of time travel hold. -/
theorem time_travel {r : Recording} {t₀ : Nat} {p₀ : Playback} (h : openAt r t₀ = .ok p₀) :
    (∀ t, ∃ p, openAt r t = .ok p ∧ p.turn = min t r.config.maxTurns.toNat) ∧
    ∃ ground red black, Ground.readMap r.map = .ok ground ∧ r.red.read = .ok red ∧
      r.black.read = .ok black ∧
      ∀ calls, TravelLaws (start ground ⟨red, black⟩ r.config) r.config.maxTurns.toNat
        (p₀.after calls) := by
  obtain ⟨ground, red, black, hground, hred, hblack, rfl⟩ := openAt_eq_ok.mp h
  let p : Playback := ⟨r, ground, ⟨red, black⟩, start ground ⟨red, black⟩ r.config⟩
  refine ⟨fun t => ⟨p.atTurn t, openAt_eq_ok.mpr ⟨ground, red, black, hground, hred, hblack, rfl⟩,
    turn_atTurn p t⟩, ground, red, black, hground, hred, hblack, fun calls => ?_⟩
  obtain ⟨n, hn⟩ := (onTrack_atTurn p t₀).after calls
  show TravelLaws p.fresh p.limit ((p.atTurn t₀).after calls)
  rw [hn]
  exact (onTrack_atTurn p n).travelLaws

/-- For example there and back again in a recording of two turns, with a jump that fails. -/
theorem time_travel_two_turns :
    ∃ (r : Recording) (p₀ : Playback), openAt r 0 = .ok p₀ ∧ ∃ beginning,
      TravelLaws beginning 2 (p₀.after [.forward, .forward, .seek 5, .backward]) := by
  let r : Recording := ⟨"3\n3\n# # #\n # + #\n# # #\n", ⟨"left", "turn left 0\n"⟩,
    ⟨"ahead", "move 0 0\n"⟩, { maxTurns := 2 }⟩
  have hopen : (openAt r 0).isOk = true := by decide +kernel
  cases h : openAt r 0 with
  | error e =>
    rw [h] at hopen
    cases hopen
  | ok p₀ =>
    obtain ⟨-, ground, red, black, -, -, -, hlaws⟩ := time_travel h
    exact ⟨r, p₀, h, _, hlaws _⟩

end Playback

end AntContest
