import AntContest.Command.Files
import AntContest.Proofs.Disk.ReadBack
import AntContest.Proofs.Json.Fields
import AntContest.Proofs.Json.RoundTrip
import AntContest.Recording.Document
import Mathlib

/-! # Recordings are kept without loss

What is saved of a recording is the text of its document, which is read back
(`Recording.read?_text`); whoever writes the document otherwise may put it in other words.

* `Recording.ofJson?_toJson`: all parts of a recording are read from its document.
* `Recording.Edit`: the fields of a recording, or of its parts, change their places, fields of other
  names come in, and a parameter goes that has its default value.
* `Recording.ofJson?_of_reworded`: after any number of such edits the same is read.
* `Session.load_of_save`: what was saved is loaded, whatever else is on the disk.
* `recording_kept` puts these together. -/

namespace AntContest

open Json (field? orDefault)

/-! ### Fields of records -/

theorem Config.ofJson?_obj (ms : List (JsonText × Json)) : ofJson? (.obj ms) =
    if Json.textNames ms then do
      return {
        seed := ← field? ms "seed" (orDefault Json.int64? 12345)
        maxTurns := ← field? ms "max_turns" (orDefault Json.uint32? 300000)
        restAfterMove := ← field? ms "rest_after_move" (orDefault Json.uint32? 14)
        pacing := ← field? ms "pacing_ms" (orDefault Json.uint64? 0) }
    else none := by
  rw [ofJson?, Json.fields?_obj]
  split
  · simp only [List.mapM_cons, List.mapM_nil, field?, bind, Option.bind_assoc, Option.bind_some,
      pure]
    cases Json.member? ms "seed" <;> cases Json.member? ms "max_turns" <;>
      cases Json.member? ms "rest_after_move" <;> cases Json.member? ms "pacing_ms" <;>
      simp only [Option.bind_some, Option.bind_none, Option.bind_fun_none]
  · rfl

theorem BrainText.ofJson?_obj (ms : List (JsonText × Json)) : ofJson? (.obj ms) =
    if Json.textNames ms then do
      return ⟨← field? ms "name" (Json.required Json.text?),
        ← field? ms "source" (Json.required Json.text?)⟩
    else none := by
  rw [ofJson?, Json.fields?_obj]
  split
  · simp only [List.mapM_cons, List.mapM_nil, field?, Json.required, bind, Option.bind_assoc,
      Option.bind_some, pure]
    rcases Json.member? ms "name" with _ | _ | name <;>
      rcases Json.member? ms "source" with _ | _ | source <;>
      simp only [Option.bind_some, Option.bind_none, Option.bind_fun_none]
  · rfl

theorem Recording.ofJson?_obj (ms : List (JsonText × Json)) : ofJson? (.obj ms) =
    if Json.textNames ms then do
      return ⟨← field? ms "world" (Json.required Json.text?),
        ← field? ms "red" (Json.required BrainText.ofJson?),
        ← field? ms "black" (Json.required BrainText.ofJson?),
        ← field? ms "config" (Json.required Config.ofJson?)⟩
    else none := by
  rw [ofJson?, Json.fields?_obj]
  split
  · simp only [List.mapM_cons, List.mapM_nil, field?, Json.required, bind, Option.bind_assoc,
      Option.bind_some, pure]
    rcases Json.member? ms "world" with _ | _ | world <;>
      rcases Json.member? ms "red" with _ | _ | red <;>
      rcases Json.member? ms "black" with _ | _ | black <;>
      rcases Json.member? ms "config" with _ | _ | config <;>
      simp only [Option.bind_some, Option.bind_none, Option.bind_fun_none]
  · rfl

/-! ### Reading back -/

theorem Config.ofJson?_toJson (c : Config) : ofJson? c.toJson = some c := by
  have hfields : c.toJson.fields? ["seed", "max_turns", "rest_after_move", "pacing_ms"] =
      some [some (.int c.seed.toInt), some (.nat c.maxTurns.toNat),
        some (.nat c.restAfterMove.toNat), some (.nat c.pacing.toNat)] := rfl
  simp [ofJson?, hfields, orDefault, Json.int64?_toInt, Json.uint32?_toNat, Json.uint64?_toNat]

theorem BrainText.ofJson?_toJson (t : BrainText) : ofJson? t.toJson = some t := rfl

theorem Recording.ofJson?_toJson (r : Recording) : ofJson? r.toJson = some r := by
  have hfields : r.toJson.fields? ["world", "red", "black", "config"] =
      some [some (.text r.map), some r.red.toJson, some r.black.toJson, some r.config.toJson] := rfl
  simp [ofJson?, hfields, Json.text, Json.text?, BrainText.ofJson?_toJson, Config.ofJson?_toJson]

theorem Config.legible_toJson (c : Config) : c.toJson.Legible := by
  have hseed : c.seed.toInt.natAbs < Json.wordLimit := by
    have hlow : -0x8000000000000000 ≤ c.seed.toInt := c.seed.le_toInt
    have hhigh : c.seed.toInt < 0x8000000000000000 := c.seed.toInt_lt
    show c.seed.toInt.natAbs < 0x10000000000000000
    omega
  have hword (n : UInt32) : n.toNat < Json.wordLimit := n.toNat_lt_size.trans (by decide)
  refine Json.legible_object ?_
  simp only [List.forall_mem_cons]
  exact ⟨.int hseed, Json.legible_nat (hword _), Json.legible_nat (hword _),
    Json.legible_nat c.pacing.toNat_lt_size, List.forall_mem_nil _⟩

theorem BrainText.legible_toJson (t : BrainText) : t.toJson.Legible := by
  refine Json.legible_object ?_
  simp only [List.forall_mem_cons]
  exact ⟨Json.legible_text _, Json.legible_text _, List.forall_mem_nil _⟩

theorem Recording.legible_toJson (r : Recording) : r.toJson.Legible := by
  refine Json.legible_object ?_
  simp only [List.forall_mem_cons]
  exact ⟨Json.legible_text _, r.red.legible_toJson, r.black.legible_toJson, r.config.legible_toJson,
    List.forall_mem_nil _⟩

theorem Recording.read?_text (r : Recording) : read? r.text = some r := by
  rw [read?, text, Json.read_pretty r.legible_toJson]
  exact r.ofJson?_toJson

/-! ### Other words -/

/-- The value of a parameter is that of the default parameters. -/
def Config.IsDefault (name : String) (v : Json) : Prop :=
  ∃ ms, ({} : Config).toJson = .obj ms ∧ (some name, v) ∈ ms

def Config.fieldNames : List String := ["seed", "max_turns", "rest_after_move", "pacing_ms"]

def BrainText.fieldNames : List String := ["name", "source"]

def Recording.fieldNames : List String := ["world", "red", "black", "config"]

/-- An edit of parameters, of which those may go that have their default values. -/
def Config.Edit : Json → Json → Prop := Json.Edit fieldNames IsDefault fun _ _ _ => False

def BrainText.Edit : Json → Json → Prop :=
  Json.Edit fieldNames (fun _ _ => False) fun _ _ _ => False

/-- An edit of a part of a recording, by the name of its field. -/
def Recording.PartEdit (name : String) (v v' : Json) : Prop :=
  (name = "red" ∨ name = "black") ∧ BrainText.Edit v v' ∨ name = "config" ∧ Config.Edit v v'

/-- An edit of a recording or of one of its parts. -/
def Recording.Edit : Json → Json → Prop := Json.Edit fieldNames (fun _ _ => False) PartEdit

/-- Two documents of recordings are the same but for edits, each made or taken back. -/
def Recording.Reworded : Json → Json → Prop := Relation.EqvGen Recording.Edit

theorem Config.isDefault_iff {name : String} {v : Json} : IsDefault name v ↔
    name = "seed" ∧ v = .int 12345 ∨ name = "max_turns" ∧ v = .nat 300000 ∨
      name = "rest_after_move" ∧ v = .nat 14 ∨ name = "pacing_ms" ∧ v = .nat 0 := by
  have hdefault : ({} : Config).toJson = .object [("seed", .int 12345), ("max_turns", .nat 300000),
      ("rest_after_move", .nat 14), ("pacing_ms", .nat 0)] := rfl
  simp [IsDefault, hdefault, Json.object]

theorem Config.ofJson?_of_edit {v v' : Json} (h : Edit v v') : ofJson? v = ofJson? v' := by
  obtain ⟨ms, ms', rfl, rfl, hnames, hread⟩ := Json.Edit.exists_obj h
  have hfield (name : String) {α : Type} {read : Json → Option α} {default : α}
      (hname : name ∈ fieldNames)
      (hdefault : ∀ v, IsDefault name v → read v = some default) :
      field? ms name (orDefault read default) = field? ms' name (orDefault read default) :=
    hread name hname ⟨hdefault, fun _ _ => False.elim⟩
  rw [ofJson?_obj, ofJson?_obj, hnames, hfield "seed" (by simp [fieldNames]),
    hfield "max_turns" (by simp [fieldNames]), hfield "rest_after_move" (by simp [fieldNames]),
    hfield "pacing_ms" (by simp [fieldNames])]
  -- Each reader reads the default value of its own field.
  all_goals
    intro v hv
    obtain rfl : v = _ := by simpa [isDefault_iff] using hv
    rfl

theorem BrainText.ofJson?_of_edit {v v' : Json} (h : Edit v v') : ofJson? v = ofJson? v' := by
  obtain ⟨ms, ms', rfl, rfl, hnames, hread⟩ := Json.Edit.exists_obj h
  have hfield {name : String} (hname : name ∈ fieldNames) :
      field? ms name (Json.required Json.text?) = field? ms' name (Json.required Json.text?) :=
    hread name hname ⟨fun _ => False.elim, fun _ _ => False.elim⟩
  rw [ofJson?_obj, ofJson?_obj, hnames, hfield (by simp [fieldNames]),
    hfield (by simp [fieldNames])]

theorem Recording.ofJson?_of_edit {v v' : Json} (h : Edit v v') : ofJson? v = ofJson? v' := by
  obtain ⟨ms, ms', rfl, rfl, hnames, hread⟩ := Json.Edit.exists_obj h
  have hfield (name : String) {α : Type} (read : Json → Option α)
      (hname : name ∈ fieldNames)
      (hpart : ∀ v v', PartEdit name v v' → read v = read v') :
      field? ms name (Json.required read) = field? ms' name (Json.required read) :=
    hread name hname ⟨fun _ => False.elim, hpart⟩
  have hworld := hfield "world" Json.text? (by simp [fieldNames]) (by simp [PartEdit])
  have hred := hfield "red" BrainText.ofJson? (by simp [fieldNames]) fun v v' hpart =>
    BrainText.ofJson?_of_edit (by simpa [PartEdit] using hpart)
  have hblack := hfield "black" BrainText.ofJson? (by simp [fieldNames]) fun v v' hpart =>
    BrainText.ofJson?_of_edit (by simpa [PartEdit] using hpart)
  have hconfig := hfield "config" Config.ofJson? (by simp [fieldNames]) fun v v' hpart =>
    Config.ofJson?_of_edit (by simpa [PartEdit] using hpart)
  rw [ofJson?_obj, ofJson?_obj, hnames, hworld, hred, hblack, hconfig]

/-- Whatever the words, the same recording is read, if any. -/
theorem Recording.ofJson?_of_reworded {v v' : Json} (h : Reworded v v') :
    ofJson? v = ofJson? v' := by
  induction h with
  | rel v v' h => exact ofJson?_of_edit h
  | refl v => rfl
  | symm v v' _ ih => exact ih.symm
  | trans v v' v'' _ _ ih ih' => exact ih.trans ih'

/-! ### Saving and loading -/

namespace Session

def save (s : Session) (path : String) (r : Recording) :
    Except RecordingFileError Unit × Session :=
  (saveRecording path r : ExceptT RecordingFileError (StateM Session) Unit).run.run s

def load (s : Session) (path : String) : Except RecordingFileError Recording × Session :=
  (loadRecording path : ExceptT RecordingFileError (StateM Session) Recording).run.run s

variable {s s' : Session} {path : String} {r : Recording}

theorem save_eq_ok_iff : s.save path r = (.ok (), s') ↔
    ∃ disk, s.disk.writeText path r.text = .ok disk ∧ s' = { s with disk } := by
  have hwrite := run_writeText path r.text s
  cases hdisk : s.disk.writeText path r.text with
  | error fault =>
    rw [hdisk] at hwrite
    rw [save, saveRecording, run_bind hwrite]
    constructor
    · intro h
      cases h
    · rintro ⟨disk, h, -⟩
      cases h
  | ok disk =>
    rw [hdisk] at hwrite
    rw [save, saveRecording, run_bind hwrite]
    constructor
    · intro h
      cases h
      exact ⟨disk, rfl, rfl⟩
    · rintro ⟨disk', h, rfl⟩
      cases h
      rfl

/-- A recording that was saved is loaded. -/
theorem load_of_save (h : s.save path r = (.ok (), s')) : s'.load path = (.ok r, s') := by
  obtain ⟨disk, hdisk, rfl⟩ := save_eq_ok_iff.mp h
  have hread := run_readText path { s with disk }
  rw [Disk.readText_writeText hdisk] at hread
  rw [load, loadRecording, loadFile, run_bind hread]
  dsimp only
  rw [r.read?_text]
  rfl

end Session

/-- Recordings are kept without loss: the text of a recording is read as that recording, and a
recording that was saved is loaded.  Two texts of the same document in other words are read alike,
and the document of a recording in other words is read as that recording, however it is laid out. -/
theorem recording_kept (r : Recording) :
    Recording.read? r.text = some r ∧
    (∀ (s s' : Session) path, s.save path r = (.ok (), s') → s'.load path = (.ok r, s')) ∧
    (∀ text text' v v', Json.read text = some v → Json.read text' = some v' →
      Recording.Reworded v v' → Recording.read? text = Recording.read? text') ∧
    (∀ v, Recording.Reworded r.toJson v → v.Legible → ∀ l : Json.Layout, l.Blank →
      Recording.read? (String.ofList (Json.writeAt l 0 v [])) = some r) := by
  refine ⟨r.read?_text, fun s s' path => Session.load_of_save, ?_, ?_⟩
  · intro text text' v v' hv hv' h
    rw [Recording.read?, Recording.read?, hv, hv']
    exact Recording.ofJson?_of_reworded h
  · intro v h hv l hl
    rw [Recording.read?, Json.read_write hl hv, Option.bind_some, ← Recording.ofJson?_of_reworded h]
    exact r.ofJson?_toJson

/-- For example a recording with names that need escapes.  In other words the parameters come first
and one of them is left out, and there is a version. -/
theorem recording_of_escapes_kept :
    ∃ (r : Recording) (v : Json) (s' : Session),
      r.red.name = "\"red\\ant\"" ∧ r.black.name = "\x01🐜" ∧
      r.config = { seed := -9223372036854775808, pacing := 18446744073709551615 } ∧
      Recording.Reworded r.toJson v ∧ Recording.read? v.compact = some r ∧
      Recording.read? r.text = Recording.read? v.compact ∧
      Session.save { disk := {} } "g" r = (.ok (), s') ∧ s'.load "g" = (.ok r, s') := by
  let c : Config := { seed := -9223372036854775808, pacing := 18446744073709551615 }
  let r : Recording := ⟨"3\n3\n# # #\n # + #\n# # #\n", ⟨"\"red\\ant\"", "move 0 0\n"⟩,
    ⟨"\x01🐜", "move 0 0\n"⟩, c⟩
  let parts : List (String × Json) :=
    [("world", .text r.map), ("red", r.red.toJson), ("black", r.black.toJson)]
  let brief : Json := .object [("seed", .int c.seed.toInt),
    ("rest_after_move", .nat c.restAfterMove.toNat), ("pacing_ms", .nat c.pacing.toNat)]
  let v : Json := .object (("version", .nat 2) :: ("config", brief) :: parts)
  have hreworded : Recording.Reworded r.toJson v := by
    let swapped : Json := .object [("max_turns", .nat c.maxTurns.toNat),
      ("seed", .int c.seed.toInt), ("rest_after_move", .nat c.restAfterMove.toNat),
      ("pacing_ms", .nat c.pacing.toNat)]
    have hfront : Recording.Edit r.toJson (.object (("config", c.toJson) :: parts)) :=
      .reorder (List.perm_append_singleton _ [_, _, _])
    have hswap : Recording.Edit (.object (("config", c.toJson) :: parts))
        (.object (("config", swapped) :: parts)) :=
      .within (.inr ⟨rfl, .reorder (.swap _ _ _)⟩) _
    have hbrief : Recording.Edit (.object (("config", swapped) :: parts))
        (.object (("config", brief) :: parts)) :=
      .within (.inr ⟨rfl, .drop (Config.isDefault_iff.mpr (by simp [c])) (by simp)⟩) _
    have hversion : Recording.Edit (.object (("config", brief) :: parts)) v :=
      .extend (by simp [Recording.fieldNames]) _ _
    exact .trans _ _ _ (.rel _ _ hfront) (.trans _ _ _ (.rel _ _ hswap)
      (.trans _ _ _ (.rel _ _ hbrief) (.rel _ _ hversion)))
  have hlegible : v.Legible := by
    have hbrief : brief.Legible := by
      refine Json.legible_object ?_
      simp only [List.forall_mem_cons]
      exact ⟨.int (by decide), .int (by decide), .int (by decide), List.forall_mem_nil _⟩
    refine Json.legible_object ?_
    simp only [parts, List.forall_mem_cons]
    exact ⟨.int (by decide), hbrief, Json.legible_text _, r.red.legible_toJson,
      r.black.legible_toJson, List.forall_mem_nil _⟩
  have hdisk : ({} : Disk).writeText "g" r.text =
      .ok (({} : Disk).put ["g"] (.file r.text.toUTF8)) := by
    have hpieces : "g".splitOn "/" = ["g"] := by cbv
    have hslash : Path.endsInSlash "g" = false := by decide +kernel
    have hsize : "g".utf8ByteSize = 1 := by decide +kernel
    simp [Disk.writeText, Disk.lastFolder, Path.names, hpieces, hslash, hsize, Disk.pathLimit,
      Disk.nameLimit, Disk.lastPlace, Disk.entry?, bind, Except.bind, pure, Except.pure]
  have hsave : Session.save { disk := {} } "g" r =
      (.ok (), { disk := ({} : Disk).put ["g"] (.file r.text.toUTF8) }) :=
    Session.save_eq_ok_iff.mpr ⟨_, hdisk, rfl⟩
  obtain ⟨-, hload, halike, hread⟩ := recording_kept r
  refine ⟨r, v, _, rfl, rfl, rfl, hreworded, ?_, ?_, hsave, hload _ _ _ hsave⟩
  · exact hread v hreworded hlegible _ Json.Layout.compact_blank
  · exact halike _ _ _ _ (Json.read_pretty r.legible_toJson)
      (Json.read_write Json.Layout.compact_blank hlegible) hreworded

end AntContest
