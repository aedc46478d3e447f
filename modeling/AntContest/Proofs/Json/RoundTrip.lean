import AntContest.Json.Reader
import AntContest.Proofs.Json.Lexis

/-! # Documents are read as they were written

Between the text of a document and its value stand its tokens (`tokens`).

* `scanFrom_writeAt`: a document that can be told from its text (`Legible`) is scanned as its
  tokens, however it is spread over lines (`Layout.Blank`).
* `readTokens_tokens`: the tokens of a document are put together to it, in whatever containers it
  stands.
* `read_write`: so the text of a document is read as that document. -/

namespace AntContest

namespace Json

/-! ### The tokens of a document -/

mutual

def tokens : Json → List Token
  | .null => [.null]
  | .bool b => [.bool b]
  | .int i => [.int i]
  | .real numeral => [.real numeral]
  | .str t => [.str t]
  | .arr [] => [.openBracket, .closeBracket]
  | .arr (v :: vs) => .openBracket :: (tokens v ++ (elementTokens vs ++ [.closeBracket]))
  | .obj [] => [.openBrace, .closeBrace]
  | .obj ((k, v) :: ms) =>
    .openBrace :: .str k :: .colon :: (tokens v ++ (memberTokens ms ++ [.closeBrace]))

/-- The tokens of the elements after the first. -/
def elementTokens : List Json → List Token
  | [] => []
  | v :: vs => .comma :: (tokens v ++ elementTokens vs)

/-- The tokens of the members after the first. -/
def memberTokens : List (JsonText × Json) → List Token
  | [] => []
  | (k, v) :: ms => .comma :: .str k :: .colon :: (tokens v ++ memberTokens ms)

end

/-- A document that can be told from its text: a 64-bit word and a sign hold its integers, and its
other numerals are numerals of other numbers. -/
inductive Legible : Json → Prop
  | null : Legible .null
  | bool (b : Bool) : Legible (.bool b)
  | int {i : Int} (h : i.natAbs < wordLimit) : Legible (.int i)
  | real {numeral : String} (hword : ∀ c ∈ numeral.toList, isWordChar c = true)
    (htoken : wordToken? numeral.toList = some (.real numeral)) : Legible (.real numeral)
  | str (t : JsonText) : Legible (.str t)
  | arr {vs : List Json} (h : ∀ v ∈ vs, Legible v) : Legible (.arr vs)
  | obj {ms : List (JsonText × Json)} (h : ∀ m ∈ ms, Legible m.2) : Legible (.obj ms)

theorem legible_text (s : String) : (text s).Legible := .str (some s)

theorem legible_object {fields : List (String × Json)} (h : ∀ f ∈ fields, f.2.Legible) :
    (object fields).Legible := by
  refine .obj fun m hm => ?_
  obtain ⟨f, hf, rfl⟩ := List.mem_map.mp hm
  exact h f hf

theorem legible_nat {n : Nat} (h : n < wordLimit) : (nat n).Legible := .int h

/-! ### From the text to the tokens -/

/-- A layout that puts nothing but blanks between tokens. -/
structure Layout.Blank (l : Layout) : Prop where
  newLine : ∀ n, ∀ c ∈ l.newLine n, isSpace c = true
  colon : ∃ before after, (∀ c ∈ before ++ after, isSpace c = true) ∧
    l.colon = before ++ ':' :: after

theorem Layout.compact_blank : Layout.compact.Blank where
  newLine := by simp [compact]
  colon := ⟨[], [], by simp, rfl⟩

theorem Layout.pretty_blank : Layout.pretty.Blank where
  newLine n c hc := by
    rcases List.mem_cons.mp hc with rfl | hc
    · rfl
    · rw [List.eq_of_mem_replicate hc]
      rfl
  colon := ⟨[], [' '], by simp [isSpace], rfl⟩

section Scan

variable {l : Layout}

/-- A value is scanned as its tokens, wherever it stands. -/
def Scans (l : Layout) (v : Json) : Prop :=
  ∀ (done : List Token) (n : Nat) (rest : List Char), Delimited rest →
    scanFrom done .free (writeAt l n v rest) = scanFrom ((tokens v).reverse ++ done) .free rest

theorem scanFrom_newLine (hl : l.Blank) (done : List Token) (n : Nat) (rest : List Char) :
    scanFrom done .free (l.newLine n ++ rest) = scanFrom done .free rest :=
  scanFrom_blanks done (hl.newLine n) rest

theorem scanFrom_colon (hl : l.Blank) (done : List Token) (rest : List Char) :
    scanFrom done .free (l.colon ++ rest) = scanFrom (.colon :: done) .free rest := by
  obtain ⟨before, after, hblank, hcolon⟩ := hl.colon
  obtain ⟨hbefore, hafter⟩ := List.forall_mem_append.mp hblank
  rw [hcolon, List.append_assoc, scanFrom_blanks done hbefore, List.cons_append,
    scanFrom_mark done rfl, scanFrom_blanks _ hafter]

theorem delimited_writeElements (n : Nat) (vs : List Json) {rest : List Char}
    (hrest : Delimited rest) : Delimited (writeElements l n vs rest) := by
  cases vs with
  | nil => exact hrest
  | cons v vs => exact delimited_mark rfl _

theorem delimited_writeMembers (n : Nat) (ms : List (JsonText × Json)) {rest : List Char}
    (hrest : Delimited rest) : Delimited (writeMembers l n ms rest) := by
  cases ms with
  | nil => exact hrest
  | cons m ms => exact delimited_mark rfl _

theorem scanFrom_writeElements (hl : l.Blank) {vs : List Json} (h : ∀ v ∈ vs, Scans l v)
    (done : List Token) (n : Nat) {rest : List Char} (hrest : Delimited rest) :
    scanFrom done .free (writeElements l n vs rest) =
      scanFrom ((elementTokens vs).reverse ++ done) .free rest := by
  induction vs generalizing done with
  | nil => rfl
  | cons v vs ih =>
    obtain ⟨hv, hvs⟩ := List.forall_mem_cons.mp h
    rw [writeElements, scanFrom_mark done rfl, scanFrom_newLine hl,
      hv _ _ _ (delimited_writeElements n vs hrest), ih hvs, elementTokens]
    simp

theorem scanFrom_writeMembers (hl : l.Blank) {ms : List (JsonText × Json)}
    (h : ∀ m ∈ ms, Scans l m.2) (done : List Token) (n : Nat) {rest : List Char}
    (hrest : Delimited rest) :
    scanFrom done .free (writeMembers l n ms rest) =
      scanFrom ((memberTokens ms).reverse ++ done) .free rest := by
  induction ms generalizing done with
  | nil => rfl
  | cons m ms ih =>
    obtain ⟨hm, hms⟩ := List.forall_mem_cons.mp h
    rw [writeMembers, scanFrom_mark done rfl, scanFrom_newLine hl, scanFrom_writeText,
      scanFrom_colon hl, hm _ _ _ (delimited_writeMembers n ms hrest), ih hms, memberTokens]
    simp

/-- A document is scanned as its tokens. -/
theorem scanFrom_writeAt (hl : l.Blank) {v : Json} (h : Legible v) : Scans l v := by
  have hword {w : List Char} {t : Token} (hw : ∀ c ∈ w, isWordChar c = true)
      (ht : wordToken? w = some t) (done : List Token) {rest : List Char} (hrest : Delimited rest) :
      scanFrom done .free (w ++ rest) = scanFrom (t :: done) .free rest := by
    refine scanFrom_word done ?_ hw ht hrest
    rintro rfl
    cases ht
  induction h with
  | null =>
    intro done n rest hrest
    rw [writeAt]
    exact hword (List.all_eq_true.mp rfl) rfl done hrest
  | bool b =>
    intro done n rest hrest
    rw [writeAt]
    cases b with
    | false => exact hword (List.all_eq_true.mp rfl) rfl done hrest
    | true => exact hword (List.all_eq_true.mp rfl) rfl done hrest
  | int h =>
    intro done n rest hrest
    rw [writeAt]
    exact scanFrom_writeInt done h hrest
  | real hchars htoken =>
    intro done n rest hrest
    rw [writeAt]
    exact hword hchars htoken done hrest
  | str t =>
    intro done n rest hrest
    rw [writeAt]
    exact scanFrom_writeText done t rest
  | @arr vs hvs ih =>
    intro done n rest hrest
    -- Behind each element stands a mark or a blank, so that its last word ends there.
    have hend : Delimited (l.newLine n ++ ']' :: rest) :=
      delimited_blanks (hl.newLine n) (delimited_mark rfl rest)
    cases vs with
    | nil =>
      rw [writeAt, scanFrom_mark done rfl, scanFrom_mark _ rfl]
      rfl
    | cons v vs =>
      obtain ⟨hv, hvs⟩ := List.forall_mem_cons.mp ih
      rw [writeAt, scanFrom_mark done rfl, scanFrom_newLine hl,
        hv _ _ _ (delimited_writeElements _ vs hend), scanFrom_writeElements hl hvs _ _ hend,
        scanFrom_newLine hl, scanFrom_mark _ rfl, tokens]
      simp
  | @obj ms hms ih =>
    intro done n rest hrest
    have hend : Delimited (l.newLine n ++ '}' :: rest) :=
      delimited_blanks (hl.newLine n) (delimited_mark rfl rest)
    cases ms with
    | nil =>
      rw [writeAt, scanFrom_mark done rfl, scanFrom_mark _ rfl]
      rfl
    | cons m ms =>
      obtain ⟨hm, hms⟩ := List.forall_mem_cons.mp ih
      rw [writeAt, scanFrom_mark done rfl, scanFrom_newLine hl, scanFrom_writeText,
        scanFrom_colon hl, hm _ _ _ (delimited_writeMembers _ ms hend),
        scanFrom_writeMembers hl hms _ _ hend, scanFrom_newLine hl, scanFrom_mark _ rfl, tokens]
      simp

end Scan

/-! ### From the tokens to the document -/

/-- The tokens of a value are put together to it, in whatever containers it stands. -/
def Assembles (v : Json) : Prop :=
  ∀ (open_ : List Frame) (ts : List Token),
    readTokens (.value open_) (tokens v ++ ts) = readTokens (complete v open_) ts

theorem readTokens_elementOrEnd (v : Json) (open_ : List Frame) (ts : List Token) :
    readTokens (.elementOrEnd open_) (tokens v ++ ts) =
      readTokens (.value (.element [] :: open_)) (tokens v ++ ts) := by
  cases v with
  | arr vs => cases vs <;> rfl
  | obj ms => cases ms <;> rfl
  | _ => rfl

theorem readTokens_elementTokens {vs : List Json} (h : ∀ v ∈ vs, Assembles v)
    (before : List Json) (open_ : List Frame) (ts : List Token) :
    readTokens (.afterElement before open_) (elementTokens vs ++ ts) =
      readTokens (.afterElement (vs.reverse ++ before) open_) ts := by
  induction vs generalizing before with
  | nil => rfl
  | cons v vs ih =>
    obtain ⟨hv, hvs⟩ := List.forall_mem_cons.mp h
    rw [elementTokens, List.cons_append, readTokens, readToken, List.append_assoc]
    refine (hv _ _).trans ((ih hvs (v :: before)).trans ?_)
    simp

theorem readTokens_memberTokens {ms : List (JsonText × Json)} (h : ∀ m ∈ ms, Assembles m.2)
    (before : List (JsonText × Json)) (open_ : List Frame) (ts : List Token) :
    readTokens (.afterMember before open_) (memberTokens ms ++ ts) =
      readTokens (.afterMember (ms.reverse ++ before) open_) ts := by
  induction ms generalizing before with
  | nil => rfl
  | cons m ms ih =>
    obtain ⟨hm, hms⟩ := List.forall_mem_cons.mp h
    rw [memberTokens, List.cons_append, List.cons_append, List.cons_append, readTokens, readToken,
      List.append_assoc]
    refine (hm _ _).trans ((ih hms (m :: before)).trans ?_)
    simp

theorem readTokens_tokens {v : Json} (h : Legible v) : Assembles v := by
  induction h with
  | @arr vs hvs ih =>
    intro open_ ts
    cases vs with
    | nil => rfl
    | cons v vs =>
      obtain ⟨hv, hvs⟩ := List.forall_mem_cons.mp ih
      rw [tokens, List.cons_append, readTokens, readToken, beginValue, List.append_assoc]
      refine (readTokens_elementOrEnd v open_ _).trans ((hv _ _).trans ?_)
      rw [complete, List.append_assoc, readTokens_elementTokens hvs]
      simp [readTokens, readToken]
  | @obj ms hms ih =>
    intro open_ ts
    cases ms with
    | nil => rfl
    | cons m ms =>
      obtain ⟨hm, hms⟩ := List.forall_mem_cons.mp ih
      rw [tokens, List.cons_append, List.cons_append, List.cons_append, readTokens, readToken,
        beginValue, List.append_assoc]
      refine (hm (.member [] m.1 :: open_) _).trans ?_
      rw [complete, List.append_assoc, readTokens_memberTokens hms]
      simp [readTokens, readToken]
  | _ => exact fun _ _ => rfl

/-! ### Reading back -/

/-- The text of a document is read as that document. -/
theorem read_write {l : Layout} (hl : l.Blank) {v : Json} (h : Legible v) :
    read (String.ofList (writeAt l 0 v [])) = some v := by
  have hscan : scan (String.ofList (writeAt l 0 v [])) = some (tokens v) := by
    rw [scan, String.toList_ofList, scanFrom_writeAt hl h [] 0 [] delimited_nil]
    simp [scanFrom, scanEnd]
  have hread := readTokens_tokens h [] []
  rw [List.append_nil] at hread
  rw [read, hscan, Option.bind_some, hread]
  rfl

theorem read_pretty {v : Json} (h : Legible v) : read v.pretty = some v :=
  read_write Layout.pretty_blank h

end Json

end AntContest
