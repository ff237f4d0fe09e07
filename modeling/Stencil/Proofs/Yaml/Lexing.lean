import Stencil.Proofs.Yaml.Quoting

/-!
# Reading block collections

The lexer reads a block collection line by line. Between two lexemes nothing is queued, and what the lexer does next
depends on its place only: the text before it, its column and the margins around it. `Lexes` tells what it reads from
one place to another; such readings can be put together, and they pay for their steps with the characters they use.

- **`lexes_dash_first`**, **`lexes_dash_next`**: the hyphen before an item begins a sequence or ends the item before it.
- **`lexes_field_first`**, **`lexes_field_next`**: a word and a colon begin a mapping or continue it.
- **`lexes_quoted`**: a value in double quotes.
- **`lexemes_of_toEnd`**, **`toEnd_of_nested`**: the whole text, where all collections are ended behind the last line.
-/

namespace Stencil
namespace Yaml

open LexState

/-! ## Places -/

/-- A place between two lexemes, outside of brackets. -/
structure Place where
  /-- The text before the lexer. -/
  text : List Char
  /-- The column of its first character. -/
  column : Nat
  /-- The margin of the innermost block collection. -/
  margin : Nat
  /-- The margins of the block collections around it. -/
  outerMargins : List Nat
  /-- A key may start here. -/
  keyAllowed : Bool

/-- The lexer at the place, with some lexemes queued. -/
def Place.state (p : Place) (index line released : Nat) (queue : List Lexeme) : LexState where
  cursor := ⟨p.text, ⟨index, line, p.column⟩⟩
  queue := queue
  released := released
  margin := p.margin
  outerMargins := p.outerMargins
  keyAllowed := p.keyAllowed
  candidate := none
  outerCandidates := []
  ended := false

/-- From the first place the lexer reads the lexemes and comes to the second. It takes five steps at most for each
character. -/
def Lexes (p : Place) (ls : List Lexeme) (q : Place) : Prop :=
  ∀ index line released, ∃ index' line' released' steps, steps + 1 + 5 * q.text.length ≤ 5 * p.text.length ∧
    ∀ n, (p.state index line released []).release (n + steps + 1) =
      ls ++ (q.state index' line' released' []).release n

theorem Lexes.trans {p q r : Place} {ls ls' : List Lexeme} (h : Lexes p ls q) (h' : Lexes q ls' r) :
    Lexes p (ls ++ ls') r := by
  intro index line released
  obtain ⟨index₁, line₁, released₁, steps₁, hpaid₁, hsame₁⟩ := h index line released
  obtain ⟨index₂, line₂, released₂, steps₂, hpaid₂, hsame₂⟩ := h' index₁ line₁ released₁
  refine ⟨index₂, line₂, released₂, steps₁ + 1 + steps₂, by omega, fun n => ?_⟩
  have hsum : n + (steps₁ + 1 + steps₂) + 1 = n + steps₂ + 1 + steps₁ + 1 := by omega
  rw [hsum, hsame₁, hsame₂, List.append_assoc]

variable {text : List Char} {column margin index line released : Nat} {outerMargins : List Nat} {keyAllowed : Bool}
  {p q : Place} {ls : List Lexeme}

/-! ## Releasing -/

/-- With nothing queued the next step is to fetch a lexeme. -/
theorem release_place (n : Nat) : (p.state index line released []).release (n + 1) =
    match (p.state index line released []).fetch with
    | none => []
    | some s => s.release n := rfl

/-- Without a candidate the queue is released as it is. -/
theorem release_queue (n : Nat) :
    (p.state index line released ls).release (n + ls.length) =
      ls ++ (p.state index line (released + ls.length) []).release n := by
  induction ls generalizing released with
  | nil => rfl
  | cons l ls ih =>
    have hstep : (p.state index line released (l :: ls)).release (n + ls.length + 1) =
        l :: (p.state index line (released + 1) ls).release (n + ls.length) := rfl
    rw [List.length_cons, ← Nat.add_assoc, hstep, ih, List.cons_append, Nat.add_right_comm, Nat.add_assoc]

/-- A lexeme that is no key is released once it is read. -/
theorem lexes_of_fetch (hfetch : ∀ index line released, ∃ index' line',
      (p.state index line released []).fetch = some (q.state index' line' released ls))
    (hpaid : ls.length + 1 + 5 * q.text.length ≤ 5 * p.text.length) : Lexes p ls q := by
  intro index line released
  obtain ⟨index', line', hfetch⟩ := hfetch index line released
  refine ⟨index', line', released + ls.length, ls.length, hpaid, fun n => ?_⟩
  rw [release_place, hfetch]
  exact release_queue n

/-! ## Blanks and line breaks -/

theorem skipSpace_blank {c : Cursor} (h : c.rest = ' ' :: text) (keyAllowed : Bool) :
    skipSpace false c keyAllowed = skipSpace false (c.skip 1) keyAllowed := by
  rw [skipSpace]
  split
  · next heq =>
    rw [h] at heq
    cases heq
  · next heq =>
    rw [h] at heq
    cases heq
    simp

theorem skipSpace_newline {c : Cursor} (h : c.rest = '\n' :: text) (keyAllowed : Bool) :
    skipSpace false c keyAllowed = skipSpace false ⟨text, ⟨c.mark.index + 1, c.mark.line + 1, 0⟩⟩ true := by
  have hbreak : isBreak '\n' = true := by decide
  have hskip : c.skipBreak = ⟨text, ⟨c.mark.index + 1, c.mark.line + 1, 0⟩⟩ := by
    unfold Cursor.skipBreak
    simp [h, hbreak]
  rw [skipSpace]
  split
  · next heq =>
    rw [h] at heq
    cases heq
  · next heq =>
    rw [h] at heq
    cases heq
    simp [hbreak, hskip, byteOrderMark]

/-- A character that is no blank, no line break and starts no comment. -/
def isSolid (c : Char) : Bool := !isBlank c && !isBreak c && c != '#' && c != byteOrderMark

/-- A lexeme starts here. -/
def startsSolid (text : List Char) : Bool := text.head?.any isSolid

theorem skipSpace_solid {c : Cursor} (h : startsSolid c.rest = true) (keyAllowed : Bool) :
    skipSpace false c keyAllowed = (c, keyAllowed) := by
  rw [skipSpace]
  split
  · rfl
  · next ch rest heq =>
    rw [heq] at h
    simp only [startsSolid, isSolid, isBlank, List.head?_cons, Option.any_some, Bool.and_eq_true, Bool.not_eq_true',
      Bool.or_eq_false_iff, beq_eq_false_iff_ne, bne_iff_ne] at h
    obtain ⟨⟨⟨⟨hspace, htab⟩, hbreak⟩, hhash⟩, hmark⟩ := h
    simp [hspace, htab, hbreak, hhash, hmark]

theorem fetch_blank :
    (Place.state ⟨' ' :: text, column, margin, outerMargins, keyAllowed⟩ index line released []).fetch =
      (Place.state ⟨text, column + 1, margin, outerMargins, keyAllowed⟩ (index + 1) line released []).fetch := by
  rw [fetch, fetch]
  simp only [Place.state, inFlow, List.isEmpty_nil, Bool.not_true]
  rw [skipSpace_blank rfl]
  rfl

theorem fetch_newline :
    (Place.state ⟨'\n' :: text, column, margin, outerMargins, keyAllowed⟩ index line released []).fetch =
      (Place.state ⟨text, 0, margin, outerMargins, true⟩ (index + 1) (line + 1) released []).fetch := by
  rw [fetch, fetch]
  simp only [Place.state, inFlow, List.isEmpty_nil, Bool.not_true]
  rw [skipSpace_newline rfl]

/-- Where a lexeme starts, the collections that are indented more are ended before it is read. -/
theorem fetch_solid (h : startsSolid p.text = true) :
    (p.state index line released []).fetch = ((p.state index line released []).outdent (p.column + 1)).takeNext := by
  rw [fetch]
  have hskip := skipSpace_solid (c := ⟨p.text, ⟨index, line, p.column⟩⟩) h p.keyAllowed
  simp only [Place.state, inFlow, List.isEmpty_nil, Bool.not_true]
  rw [hskip]
  rfl

/-- What is fetched decides what is read. -/
theorem Lexes.of_fetch {p' : Place} (h : Lexes p' ls q) (hle : p'.text.length ≤ p.text.length)
    (hfetch : ∀ index line released, ∃ index' line',
      (p.state index line released []).fetch = (p'.state index' line' released []).fetch) : Lexes p ls q := by
  intro index line released
  obtain ⟨index', line', hfetch⟩ := hfetch index line released
  obtain ⟨index₁, line₁, released₁, steps, hpaid, hsame⟩ := h index' line' released
  refine ⟨index₁, line₁, released₁, steps, by omega, fun n => ?_⟩
  rw [← hsame, release_place, release_place, hfetch]

theorem Lexes.blank (h : Lexes ⟨text, column + 1, margin, outerMargins, keyAllowed⟩ ls q) :
    Lexes ⟨' ' :: text, column, margin, outerMargins, keyAllowed⟩ ls q :=
  h.of_fetch (Nat.le_succ _) fun _ _ _ => ⟨_, _, fetch_blank⟩

theorem Lexes.newline (h : Lexes ⟨text, 0, margin, outerMargins, true⟩ ls q) :
    Lexes ⟨'\n' :: text, column, margin, outerMargins, keyAllowed⟩ ls q :=
  h.of_fetch (Nat.le_succ _) fun _ _ _ => ⟨_, _, fetch_newline⟩

/-! ## Margins -/

variable {queue : List Lexeme} {limit : Nat}

theorem blt_eq_false {m n : Nat} (h : n ≤ m) : Nat.blt m n = false := by
  rw [← Bool.not_eq_true, Nat.blt_eq]
  omega

theorem outer_of_le (h : margin ≤ limit) (margins : List Nat) : outer limit margin margins = (0, margin, margins) := by
  cases margins with
  | nil => rfl
  | cons m ms => simp [outer, blt_eq_false h]

/-- Collections that are not indented more than the limit stay. -/
theorem outdent_of_le (h : p.margin ≤ limit) :
    (p.state index line released queue).outdent limit = p.state index line released queue := by
  simp [outdent, Place.state, inFlow, outer_of_le h]

/-- Collections that are indented more than the limit are ended, up to the first that is not. -/
theorem outdent_of_lt (inside : List Nat) {around : Nat} (h : limit < margin) (hinside : ∀ m ∈ inside, limit < m)
    (haround : around ≤ limit) :
    (Place.state ⟨text, column, margin, inside ++ around :: outerMargins, keyAllowed⟩ index line released
      queue).outdent limit =
      Place.state ⟨text, column, around, outerMargins, keyAllowed⟩ index line released
        (queue ++ List.replicate (inside.length + 1) .blockEnd) := by
  have houter : outer limit margin (inside ++ around :: outerMargins) = (inside.length + 1, around, outerMargins) := by
    induction inside generalizing margin with
    | nil => simp [outer, Nat.blt_eq.mpr h, outer_of_le haround]
    | cons m rest ih =>
      obtain ⟨hm, hrest⟩ := List.forall_mem_cons.mp hinside
      simp [outer, Nat.blt_eq.mpr h, ih hm hrest]
  simp [outdent, Place.state, inFlow, houter]

/-- A collection begins at a column that is not inside the margin. -/
theorem indent_of_le {l : Lexeme} (h : margin ≤ column) :
    (Place.state ⟨text, column, margin, outerMargins, keyAllowed⟩ index line released queue).indent column none l =
      Place.state ⟨text, column, column + 1, margin :: outerMargins, keyAllowed⟩ index line released
        (queue ++ [l]) := by
  simp [indent, Place.state, inFlow, blt_eq_false h, push]

theorem indent_of_lt {number : Option Nat} {l : Lexeme} {s : LexState} (h : column < s.margin) :
    s.indent column number l = s := by
  simp [indent, Nat.blt_eq.mpr h]

/-! ## Hyphens -/

theorem takeNext_dash (hcolumn : 0 < p.column) (htext : p.text = '-' :: ' ' :: text) :
    (p.state index line released queue).takeNext = (p.state index line released queue).takeDash := by
  have hne : p.column ≠ 0 := by omega
  simp [takeNext, Place.state, htext, Cursor.column, hne, startsBlank, isBlank]

/-- A hyphen, once the collection for it is there. -/
theorem takeDash_of_indent {p' : Place} {queue' : List Lexeme} (hkey : p.keyAllowed = true)
    (h : (p.state index line released queue).indent p.column none .blockSequence =
      p'.state index line released queue') :
    (p.state index line released queue).takeDash =
      some (Place.state ⟨p'.text.drop 1, p'.column + 1, p'.margin, p'.outerMargins, true⟩ (index + 1) line released
        (queue' ++ [.dash])) := by
  have hguard :
      ((p.state index line released queue).inFlow || (p.state index line released queue).keyAllowed) = true := by
    rw [Bool.or_eq_true]
    exact .inr hkey
  rw [takeDash, hguard]
  change (do
    let s ← ((p.state index line released queue).indent p.column none .blockSequence).dropCandidate
    return { s with keyAllowed := true }.take 1 .dash) = _
  rw [h]
  rfl

/-- The hyphen before the first item of a sequence. -/
theorem lexes_dash_first (h : margin ≤ column + 1) :
    Lexes ⟨'-' :: ' ' :: text, column + 1, margin, outerMargins, true⟩ [.blockSequence, .dash]
      ⟨' ' :: text, column + 2, column + 2, margin :: outerMargins, true⟩ := by
  refine lexes_of_fetch (fun index line released => ⟨index + 1, line, ?_⟩) (by simp; omega)
  rw [fetch_solid rfl, outdent_of_le (Nat.le_succ_of_le h), takeNext_dash (Nat.succ_pos _) rfl]
  exact takeDash_of_indent rfl (indent_of_le h)

/-- The hyphen before a further item, behind an item that is a mapping or a sequence. -/
theorem lexes_dash_next (h : column + 2 < margin) :
    Lexes ⟨'-' :: ' ' :: text, column + 1, margin, (column + 2) :: outerMargins, true⟩ [.blockEnd, .dash]
      ⟨' ' :: text, column + 2, column + 2, outerMargins, true⟩ := by
  refine lexes_of_fetch (fun index line released => ⟨index + 1, line, ?_⟩) (by simp; omega)
  have hends : (Place.state ⟨'-' :: ' ' :: text, column + 1, margin, (column + 2) :: outerMargins, true⟩ index line
      released []).outdent (column + 2) =
      Place.state ⟨'-' :: ' ' :: text, column + 1, column + 2, outerMargins, true⟩ index line released [.blockEnd] :=
    outdent_of_lt [] h (fun _ hm => absurd hm List.not_mem_nil) (Nat.le_refl _)
  rw [fetch_solid rfl, hends, takeNext_dash (Nat.succ_pos _) rfl]
  exact takeDash_of_indent rfl (indent_of_lt (Nat.lt_succ_self _))

/-! ## Quoted values -/

theorem takeNext_quote (htext : p.text = '"' :: text) :
    (p.state index line released queue).takeNext = (p.state index line released queue).takeQuoted .double := by
  simp [takeNext, Place.state, htext, startsWithMarker_of_ne]

/-- Behind a colon no key may start on the same line, so a value is no candidate. -/
theorem takeQuoted_value {value : String} (htext : p.text = quoted value ++ text) (hkey : p.keyAllowed = false) :
    (p.state index line released queue).takeQuoted .double =
      some (Place.state ⟨text, p.column + (quoted value).length, p.margin, p.outerMargins, false⟩
        (index + (quoted value).length) line released (queue ++ [.scalar value false])) := by
  have hread := readQuoted_quoted (c := (p.state index line released queue).cursor) value htext
  have hsave : (p.state index line released queue).saveCandidate = some (p.state index line released queue) := by
    rw [saveCandidate]
    exact if_neg (by simp [Place.state, hkey])
  have hafter : p.text.drop (quoted value).length = text := by rw [htext, List.drop_left]
  rw [takeQuoted, takeContent, hsave]
  simp only [Option.bind_eq_bind, Option.bind_some, hread, Option.map_some]
  simp [Place.state, takeTo, push, Cursor.skip, hafter]

/-- A value in double quotes. -/
theorem lexes_quoted (value : String) (h : margin ≤ column + 1) :
    Lexes ⟨quoted value ++ text, column, margin, outerMargins, false⟩ [.scalar value false]
      ⟨text, column + (quoted value).length, margin, outerMargins, false⟩ := by
  refine lexes_of_fetch (fun index line released => ⟨index + (quoted value).length, line, ?_⟩) ?_
  · rw [fetch_solid rfl, outdent_of_le h, takeNext_quote rfl]
    exact takeQuoted_value rfl rfl
  · simp [quoted]
    omega

/-! ## Keys -/

/-- The lexer at the place, with a lexeme queued that started on the same line and may turn out to be a key. -/
def Place.withCandidate (p : Place) (index line released : Nat) (word : Lexeme) (required : Bool)
    (start startColumn : Nat) : LexState :=
  { p.state index line released [word] with candidate := some ⟨released, required, ⟨start, line, startColumn⟩⟩ }

theorem takeNext_word {word : List Char} (hword : IsWord word) (htext : p.text = word ++ text) :
    (p.state index line released queue).takeNext = (p.state index line released queue).takePlain := by
  obtain ⟨hne, hletters⟩ := hword
  cases word with
  | nil => exact absurd rfl hne
  | cons ch word =>
    have hletter : isLetter ch = true := hletters ch List.mem_cons_self
    have hne : ∀ x : Char, isLetter x = false → ch ≠ x := fun _ => ne_of_isLetter hletter
    simp [takeNext, Place.state, htext, startsWithMarker_of_ne, isBlank_of_isLetter hletter, hne '%' rfl, hne '-' rfl,
      hne '.' rfl, hne '[' rfl, hne '{' rfl, hne ']' rfl, hne '}' rfl, hne ',' rfl, hne '?' rfl, hne ':' rfl,
      hne '*' rfl, hne '&' rfl, hne '!' rfl, hne '|' rfl, hne '>' rfl, hne '\'' rfl, hne '"' rfl, hne '@' rfl,
      hne '\x60' rfl]

/-- Where a key may start, the next lexeme is a candidate for it; it has to be one at the margin. -/
theorem saveCandidate_state (hkey : p.keyAllowed = true) :
    (p.state index line released []).saveCandidate =
      some { p.state index line released [] with
        candidate := some ⟨released, p.margin == p.column + 1, ⟨index, line, p.column⟩⟩ } := by
  simp [saveCandidate, dropCandidate, Place.state, hkey, inFlow, Cursor.column]

/-- A word before a colon, where a key may start. -/
theorem takePlain_word {word : List Char} (hword : IsWord word) (hblank : startsBlank text = true) :
    (Place.state ⟨word ++ ':' :: text, column, margin, outerMargins, true⟩ index line released []).takePlain =
      some (Place.withCandidate ⟨':' :: text, column + word.length, margin, outerMargins, false⟩ (index + word.length)
        line released (.scalar (String.ofList word) true) (margin == column + 1) index column) := by
  have hread : readPlain false margin ⟨word ++ ':' :: text, ⟨index, line, column⟩⟩ [] .nothing =
      some ⟨String.ofList word, Cursor.skip ⟨word ++ ':' :: text, ⟨index, line, column⟩⟩ word.length, false⟩ :=
    readPlain_word word hword.2 rfl hblank
  have hafter : (word ++ ':' :: text).drop word.length = ':' :: text := List.drop_left
  rw [takePlain, saveCandidate_state rfl, Option.bind_eq_bind, Option.bind_some]
  change (readPlain false margin ⟨word ++ ':' :: text, ⟨index, line, column⟩⟩ [] .nothing).bind _ = _
  rw [hread, Option.bind_some]
  simp [Place.withCandidate, Place.state, takeTo, push, Cursor.skip, hafter]

variable {word : Lexeme} {required : Bool} {start startColumn : Nat}

/-- A candidate on the same line is not outdated for 1024 characters. -/
theorem fresh_of_le (hindex : index ≤ start + 1024) :
    outdated ⟨index, line, column⟩ ⟨released, required, ⟨start, line, startColumn⟩⟩ = false := by
  simp [outdated, blt_eq_false hindex, blt_eq_false (Nat.le_refl line)]

/-- The candidate is still good on its line, so the colon behind it comes next. -/
theorem fetch_withCandidate (hsolid : startsSolid p.text = true) (hmargin : p.margin ≤ p.column + 1)
    (hindex : index ≤ start + 1024) :
    (p.withCandidate index line released word required start startColumn).fetch =
      (p.withCandidate index line released word required start startColumn).takeNext := by
  have hskip := skipSpace_solid (c := ⟨p.text, ⟨index, line, p.column⟩⟩) hsolid p.keyAllowed
  have hfresh : outdated ⟨index, line, p.column⟩ ⟨released, required, ⟨start, line, startColumn⟩⟩ = false :=
    fresh_of_le hindex
  rw [fetch]
  simp only [Place.withCandidate, Place.state, inFlow, List.isEmpty_nil, Bool.not_true, hskip]
  simp [refresh, refreshed, hfresh, outdent, inFlow, Cursor.column, outer_of_le hmargin]

/-- As long as there is a candidate at the head of the queue, the lexer reads on. -/
theorem release_withCandidate (hindex : index ≤ start + 1024) (n : Nat) :
    (p.withCandidate index line released word required start startColumn).release (n + 1) =
      match (p.withCandidate index line released word required start startColumn).fetch with
      | none => []
      | some s => s.release n := by
  have hrefresh : (p.withCandidate index line released word required start startColumn).refresh =
      some (p.withCandidate index line released word required start startColumn) := by
    simp [Place.withCandidate, Place.state, refresh, refreshed, fresh_of_le hindex]
  have hheld : (p.withCandidate index line released word required start startColumn).holdsHead = true := by
    simp [Place.withCandidate, Place.state, holdsHead]
  rw [release, hrefresh]
  exact if_pos hheld

theorem takeNext_colon (htext : p.text = ':' :: text) (hblank : startsBlank text = true) :
    (p.withCandidate index line released word required start startColumn).takeNext =
      (p.withCandidate index line released word required start startColumn).takeValue := by
  simp [takeNext, Place.withCandidate, Place.state, htext, startsWithMarker_of_ne, hblank]

/-- The colon behind a key that begins a mapping. -/
theorem takeValue_first (h : margin ≤ startColumn) :
    (Place.withCandidate ⟨':' :: text, column, margin, outerMargins, false⟩ index line released word required start
      startColumn).takeValue =
      some (Place.state ⟨text, column + 1, startColumn + 1, margin :: outerMargins, false⟩ (index + 1) line released
        [.blockMapping, .key, word, .value]) := by
  simp [takeValue, Place.withCandidate, Place.state, pushBefore, indent, inFlow, blt_eq_false h, take, push,
    Cursor.skip]

/-- The colon behind a key that continues a mapping. -/
theorem takeValue_next (h : startColumn < margin) :
    (Place.withCandidate ⟨':' :: text, column, margin, outerMargins, false⟩ index line released word required start
      startColumn).takeValue =
      some (Place.state ⟨text, column + 1, margin, outerMargins, false⟩ (index + 1) line released
        [.key, word, .value]) := by
  simp [takeValue, Place.withCandidate, Place.state, pushBefore, indent, Nat.blt_eq.mpr h, take, push, Cursor.skip]

theorem startsSolid_word {word : List Char} (hword : IsWord word) : startsSolid (word ++ text) = true := by
  obtain ⟨hne, hletters⟩ := hword
  cases word with
  | nil => exact absurd rfl hne
  | cons ch word =>
    have hletter : isLetter ch = true := hletters ch List.mem_cons_self
    have hhash : ch ≠ '#' := ne_of_isLetter hletter rfl
    have hmark : ch ≠ byteOrderMark := ne_of_isLetter hletter rfl
    simp [startsSolid, isSolid, isBlank_of_isLetter hletter, isBreak_of_isLetter hletter, hhash, hmark]

/-- A key is released with the colon behind it. -/
theorem lexes_of_takeValue {word : List Char} (hword : IsWord word) (hlength : word.length ≤ 1024)
    (hblank : startsBlank text = true) (hmargin : margin ≤ column + 1)
    (hvalue : ∀ index line released,
      (Place.withCandidate ⟨':' :: text, column + word.length, margin, outerMargins, false⟩ (index + word.length) line
        released (.scalar (String.ofList word) true) (margin == column + 1) index column).takeValue =
        some (q.state (index + word.length + 1) line released ls))
    (hpaid : ls.length + 2 + 5 * q.text.length ≤ 5 * (word ++ ':' :: text).length) :
    Lexes ⟨word ++ ':' :: text, column, margin, outerMargins, true⟩ ls q := by
  intro index line released
  refine ⟨index + word.length + 1, line, released + ls.length, ls.length + 1, hpaid, fun n => ?_⟩
  have hfresh : index + word.length ≤ index + 1024 := Nat.add_le_add_left hlength index
  have hmargin' : margin ≤ column + word.length + 1 := by omega
  rw [release_place, fetch_solid (startsSolid_word hword), outdent_of_le hmargin, takeNext_word hword rfl,
    takePlain_word hword hblank, ← Nat.add_assoc]
  simp only
  rw [release_withCandidate hfresh, fetch_withCandidate rfl hmargin' hfresh, takeNext_colon rfl hblank, hvalue]
  exact release_queue n

/-- A key that begins a mapping. -/
theorem lexes_field_first {word : List Char} (hword : IsWord word) (hlength : word.length ≤ 1024)
    (hblank : startsBlank text = true) (h : margin ≤ column) :
    Lexes ⟨word ++ ':' :: text, column, margin, outerMargins, true⟩
      [.blockMapping, .key, .scalar (String.ofList word) true, .value]
      ⟨text, column + word.length + 1, column + 1, margin :: outerMargins, false⟩ := by
  have hpos : 0 < word.length := List.length_pos_iff.mpr hword.1
  refine lexes_of_takeValue hword hlength hblank (Nat.le_succ_of_le h) (fun _ _ _ => takeValue_first h) ?_
  simp only [List.length_cons, List.length_nil, List.length_append]
  omega

/-- A further key of the mapping at the margin. -/
theorem lexes_field_next {word : List Char} (hword : IsWord word) (hlength : word.length ≤ 1024)
    (hblank : startsBlank text = true) :
    Lexes ⟨word ++ ':' :: text, column, column + 1, outerMargins, true⟩
      [.key, .scalar (String.ofList word) true, .value]
      ⟨text, column + word.length + 1, column + 1, outerMargins, false⟩ := by
  have hpos : 0 < word.length := List.length_pos_iff.mpr hword.1
  refine lexes_of_takeValue hword hlength hblank (Nat.le_refl _) (fun _ _ _ => takeValue_next (Nat.lt_succ_self _)) ?_
  simp only [List.length_cons, List.length_nil, List.length_append]
  omega

/-! ## Fields in a line -/

/-- A field in a line: a word, a colon, and text in double quotes. -/
def fieldText (name : List Char) (value : String) : List Char := name ++ ':' :: ' ' :: quoted value

/-- A field in a line that begins a mapping. -/
theorem lexes_fieldText_first {name : List Char} (hname : IsWord name) (hlength : name.length ≤ 1024)
    (value : String) (h : margin ≤ column) :
    ∃ column', Lexes ⟨fieldText name value ++ text, column, margin, outerMargins, true⟩
      [.blockMapping, .key, .scalar (String.ofList name) true, .value, .scalar value false]
      ⟨text, column', column + 1, margin :: outerMargins, false⟩ := by
  have hkey : Lexes ⟨name ++ ':' :: ' ' :: (quoted value ++ text), column, margin, outerMargins, true⟩ _ _ :=
    lexes_field_first hname hlength rfl h
  have hmargin : column + 1 ≤ column + name.length + 1 + 1 + 1 := by omega
  refine ⟨column + name.length + 1 + 1 + (quoted value).length, ?_⟩
  simpa [fieldText] using hkey.trans (lexes_quoted value hmargin).blank

/-- A field in a line that continues a mapping. -/
theorem lexes_fieldText_next {name : List Char} (hname : IsWord name) (hlength : name.length ≤ 1024) (value : String) :
    ∃ column', Lexes ⟨fieldText name value ++ text, column, column + 1, outerMargins, true⟩
      [.key, .scalar (String.ofList name) true, .value, .scalar value false]
      ⟨text, column', column + 1, outerMargins, false⟩ := by
  have hkey : Lexes ⟨name ++ ':' :: ' ' :: (quoted value ++ text), column, column + 1, outerMargins, true⟩ _ _ :=
    lexes_field_next hname hlength rfl
  have hmargin : column + 1 ≤ column + name.length + 1 + 1 + 1 := by omega
  refine ⟨column + name.length + 1 + 1 + (quoted value).length, ?_⟩
  simpa [fieldText] using hkey.trans (lexes_quoted value hmargin).blank

/-! ## The end of the text -/

/-- With enough steps the lexer reads the lexemes from the place to the end of the text. -/
def LexesToEnd (p : Place) (ls : List Lexeme) : Prop :=
  ∀ index line released n, 5 * (p.text.length + 2) ≤ n → (p.state index line released []).release n = ls

theorem Lexes.toEnd {ls' : List Lexeme} (h : Lexes p ls q) (h' : LexesToEnd q ls') : LexesToEnd p (ls ++ ls') := by
  intro index line released n hn
  obtain ⟨index', line', released', steps, hpaid, hsame⟩ := h index line released
  obtain ⟨m, rfl⟩ : ∃ m, n = m + steps + 1 := ⟨n - (steps + 1), by omega⟩
  rw [hsame, h' index' line' released' m (by omega)]

/-- What is read from the start of text that has only characters of YAML. -/
theorem lexemes_of_toEnd (hreadable : text.all isReadable = true) (h : LexesToEnd ⟨text, 0, 0, [], true⟩ ls) :
    lexemes text = ls := by
  rw [lexemes, if_pos hreadable]
  exact h 0 0 0 _ (Nat.le_refl _)

theorem fetch_end {margin' : Nat} {outerMargins' : List Nat}
    (h : (Place.state ⟨[], 0, margin, outerMargins, keyAllowed⟩ index line released []).outdent 1 =
      Place.state ⟨[], 0, margin', outerMargins', keyAllowed⟩ index line released ls) :
    (Place.state ⟨[], 0, margin, outerMargins, keyAllowed⟩ index line released []).fetch =
      (Place.state ⟨[], 0, margin', outerMargins', keyAllowed⟩ index line released ls).takeEnd := by
  have hskip : skipSpace false ⟨[], ⟨index, line, 0⟩⟩ keyAllowed = (⟨[], ⟨index, line, 0⟩⟩, keyAllowed) := by
    rw [skipSpace]
  rw [fetch]
  simp only [Place.state, inFlow, List.isEmpty_nil, Bool.not_true, hskip]
  simp only [Place.state] at h
  simp [refresh, refreshed, Cursor.column, h, takeNext]

/-- Behind the last line three nested collections are ended. -/
theorem toEnd_of_nested {inner : Nat} (h : 1 < margin) (hinner : 1 < inner) :
    LexesToEnd ⟨['\n'], column, margin, [inner, 1, 0], keyAllowed⟩ [.blockEnd, .blockEnd, .blockEnd, .streamEnd] := by
  intro index line released n hn
  obtain ⟨m, rfl⟩ : ∃ m, n = m + 6 := ⟨n - 6, by simp at hn; omega⟩
  have hends : (Place.state ⟨[], 0, margin, [inner, 1, 0], true⟩ (index + 1) (line + 1) released []).outdent 1 =
      Place.state ⟨[], 0, 1, [0], true⟩ (index + 1) (line + 1) released [.blockEnd, .blockEnd] :=
    outdent_of_lt [inner] h (by simpa using hinner) (Nat.le_refl 1)
  rw [release_place, fetch_newline, fetch_end hends]
  rfl

end Yaml
end Stencil
