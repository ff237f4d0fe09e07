import Mathlib.Tactic.Ring
import Stencil.Yaml.Lexeme.Read

/-!
# Scalars that are read back

Every text has a written form between double quotes that is read back as the text, whatever its characters: letters and
digits of ASCII stand for themselves, and all others are escaped by their code points. Words of letters, digits and
underscores are read back without quotes.

- **`hexNumber?_hexDigits`**: a code point is read back from its digits.
- **`all_isReadable_quoted`**: text in double quotes has characters of YAML only.
- **`readQuoted_quoted`**: text in double quotes is read back.
- **`readPlain_word`**: a word before a colon is read back.
-/

namespace Stencil
namespace Yaml

@[simp] theorem Cursor.skip_skip (c : Cursor) (m n : Nat) : (c.skip m).skip n = c.skip (m + n) := by
  simp [Cursor.skip, List.drop_drop, Nat.add_assoc]

/-! ## Writing -/

/-- The last hexadecimal digits of a number, as many as asked for. -/
def hexDigits : Nat → Nat → List Char
  | 0, _ => []
  | w + 1, n => Nat.digitChar (n / 16 ^ w % 16) :: hexDigits w n

/-- A character between double quotes: itself, if it is a letter or digit of ASCII, or else its code point in eight
hexadecimal digits. -/
def escapeChar (c : Char) : List Char := if c.isAlphanum then [c] else '\\' :: 'U' :: hexDigits 8 c.toNat

/-- Text between double quotes. -/
def escape (text : List Char) : List Char := text.flatMap escapeChar

/-- Text in double quotes. -/
def quoted (text : String) : List Char := '"' :: (escape text.toList ++ ['"'])

/-! ## Code points -/

theorem hexDigit?_digitChar : ∀ d < 16, hexDigit? (Nat.digitChar d) = some d := by decide

/-- The number is read back from its digits, up to those that are left out. -/
theorem hexNumber?_hexDigits (w n value : Nat) (rest : List Char) :
    hexNumber? w value (hexDigits w n ++ rest) = some (value * 16 ^ w + n % 16 ^ w) := by
  induction w generalizing value with
  | zero => simp [hexNumber?, Nat.mod_one]
  | succ w ih =>
    have hdigit := hexDigit?_digitChar (n / 16 ^ w % 16) (Nat.mod_lt _ (by decide))
    rw [hexDigits, List.cons_append, hexNumber?, hdigit]
    simp only [ih, Option.some.injEq]
    rw [Nat.mod_pow_succ, Nat.pow_succ]
    ring

theorem charOfNat?_toNat (c : Char) : charOfNat? c.toNat = some c := by
  have hvalid : c.toNat.isValidChar := c.valid
  rw [charOfNat?, dif_pos hvalid]
  rfl

/-- Every code point has eight digits at most. -/
theorem hexNumber?_codePoint (c : Char) (rest : List Char) :
    (hexNumber? 8 0 (hexDigits 8 c.toNat ++ rest)).bind charOfNat? = some c := by
  have hlt : c.toNat < 16 ^ 8 := Nat.lt_of_lt_of_le c.val.toNat_lt (by decide)
  rw [hexNumber?_hexDigits, Nat.zero_mul, Nat.zero_add, Nat.mod_eq_of_lt hlt]
  exact charOfNat?_toNat c

theorem length_hexDigits (w n : Nat) : (hexDigits w n).length = w := by
  induction w with
  | zero => rfl
  | succ w ih => rw [hexDigits, List.length_cons, ih]

/-! ## Characters of YAML -/

/-- Letters and digits of ASCII are printable. -/
theorem isReadable_of_isAlphanum {c : Char} (h : c.isAlphanum = true) : isReadable c = true := by
  have hrange : (65 ≤ c.toNat ∧ c.toNat ≤ 90 ∨ 97 ≤ c.toNat ∧ c.toNat ≤ 122) ∨ 48 ≤ c.toNat ∧ c.toNat ≤ 57 := by
    rcases (Bool.or_eq_true _ _).mp h with halpha | hdigit
    · rcases (Bool.or_eq_true _ _).mp halpha with hupper | hlower
      · have hupper : 'A'.val ≤ c.val ∧ c.val ≤ 'Z'.val := of_decide_eq_true hupper
        exact .inl (.inl hupper)
      · exact .inl (.inr (((Bool.and_eq_true _ _).mp hlower).imp of_decide_eq_true of_decide_eq_true))
    · exact .inr (((Bool.and_eq_true _ _).mp hdigit).imp of_decide_eq_true of_decide_eq_true)
  have hlow : Nat.ble 0x20 c.toNat = true := Nat.ble_eq.mpr (by omega)
  have hhigh : Nat.ble c.toNat 0x7e = true := Nat.ble_eq.mpr (by omega)
  simp [isReadable, hlow, hhigh]

theorem isReadable_digitChar : ∀ d < 16, isReadable (Nat.digitChar d) = true := by decide

theorem all_isReadable_hexDigits (w n : Nat) : (hexDigits w n).all isReadable = true := by
  induction w with
  | zero => rfl
  | succ w ih =>
    rw [hexDigits, List.all_cons, isReadable_digitChar _ (Nat.mod_lt _ (by decide)), ih]
    rfl

theorem all_isReadable_escapeChar (c : Char) : (escapeChar c).all isReadable = true := by
  rw [escapeChar]
  split
  · next h => simp [isReadable_of_isAlphanum h]
  · have hslash : isReadable '\\' = true := by decide
    have hletter : isReadable 'U' = true := by decide
    rw [List.all_cons, List.all_cons, hslash, hletter, all_isReadable_hexDigits]
    rfl

/-- Whatever the text, between double quotes it has characters of YAML only. -/
theorem all_isReadable_quoted (text : String) : (quoted text).all isReadable = true := by
  have hquote : isReadable '"' = true := by decide
  have hescape : (escape text.toList).all isReadable = true := by
    rw [escape, List.all_flatMap, List.all_eq_true]
    exact fun c _ => all_isReadable_escapeChar c
  simp only [quoted, List.all_cons, List.all_append, List.all_nil, hescape, hquote, Bool.and_true]

/-! ## Quoted scalars -/

theorem startsWithMarker_of_ne {marker ch : Char} {rest : List Char} (h : ch ≠ marker) :
    startsWithMarker marker (ch :: rest) = false := by
  unfold startsWithMarker
  split
  · next heq =>
    cases heq
    simp [h]
  · rfl

/-- No document marker starts with the character. -/
theorem startsMarker_of_ne {ch : Char} {rest : List Char} (hdash : ch ≠ '-') (hdot : ch ≠ '.') :
    startsMarker (ch :: rest) = false := by
  rw [startsMarker, startsWithMarker_of_ne hdash, startsWithMarker_of_ne hdot]
  rfl

/-- A letter or digit of ASCII, or the underscore. None of them has a meaning of its own. -/
def isLetter (c : Char) : Bool := c.isAlphanum || c == '_'

theorem ne_of_isLetter {ch x : Char} (h : isLetter ch = true) (hx : isLetter x = false) : ch ≠ x := by
  rintro rfl
  rw [hx] at h
  cases h

theorem isBlank_of_isLetter {ch : Char} (h : isLetter ch = true) : isBlank ch = false := by
  have hne : ∀ x : Char, isLetter x = false → ch ≠ x := fun _ => ne_of_isLetter h
  simp [isBlank, hne ' ' rfl, hne '\t' rfl]

theorem isBreak_of_isLetter {ch : Char} (h : isLetter ch = true) : isBreak ch = false := by
  have hne : ∀ x : Char, isLetter x = false → ch ≠ x := fun _ => ne_of_isLetter h
  simp [isBreak, hne '\n' rfl, hne '\r' rfl, hne '\x85' rfl, hne '\u2028' rfl, hne '\u2029' rfl]

theorem startsMarker_of_isLetter {ch : Char} {rest : List Char} (h : isLetter ch = true) :
    startsMarker (ch :: rest) = false :=
  startsMarker_of_ne (ne_of_isLetter h rfl) (ne_of_isLetter h rfl)

section Quoted

variable {c : Cursor} {text rest : List Char}

theorem readQuoted_letter {ch : Char} (hrest : c.rest = ch :: rest) (h : isLetter ch = true) :
    readQuoted .double c text .nothing = readQuoted .double (c.skip 1) (ch :: text) .nothing := by
  rw [readQuoted]
  split
  · next heq =>
    rw [hrest] at heq
    cases heq
  · next heq =>
    rw [hrest] at heq
    cases heq
    have hquote : ch ≠ '"' := ne_of_isLetter h rfl
    have hslash : ch ≠ '\\' := ne_of_isLetter h rfl
    simp [isBlank_of_isLetter h, isBreak_of_isLetter h, hrest, startsMarker_of_isLetter h, hquote, hslash, Gap.folded]

theorem readQuoted_codePoint (ch : Char) (hrest : c.rest = '\\' :: 'U' :: (hexDigits 8 ch.toNat ++ rest)) :
    readQuoted .double c text .nothing = readQuoted .double (c.skip 10) (ch :: text) .nothing := by
  rw [readQuoted]
  split
  · next heq =>
    rw [hrest] at heq
    cases heq
  · next heq =>
    rw [hrest] at heq
    cases heq
    have hblank : isBlank '\\' = false := by decide
    have hbreak : isBreak '\\' = false := by decide
    have hbreak' : isBreak 'U' = false := by decide
    have hwidth : escapeWidth? 'U' = some 8 := by decide
    simp [hblank, hbreak, hbreak', hwidth, hrest, startsMarker_of_ne, hexNumber?_codePoint, Gap.folded]

theorem readQuoted_close (hrest : c.rest = '"' :: rest) :
    readQuoted .double c text .nothing = some (String.ofList text.reverse, c.skip 1) := by
  rw [readQuoted]
  split
  · next heq =>
    rw [hrest] at heq
    cases heq
  · next heq =>
    rw [hrest] at heq
    cases heq
    have hblank : isBlank '"' = false := by decide
    have hbreak : isBreak '"' = false := by decide
    simp [hblank, hbreak, hrest, startsMarker_of_ne, Gap.folded]

/-- **Quoted text** is read back, up to the closing quote. -/
theorem readQuoted_escape (cs : List Char) (hrest : c.rest = escape cs ++ '"' :: rest) :
    readQuoted .double c text .nothing =
      some (String.ofList (text.reverse ++ cs), c.skip ((escape cs).length + 1)) := by
  induction cs generalizing c text with
  | nil =>
    rw [readQuoted_close hrest, List.append_nil]
    rfl
  | cons ch cs ih =>
    have hescape : escape (ch :: cs) = escapeChar ch ++ escape cs := rfl
    have hstep : readQuoted .double c text .nothing =
        readQuoted .double (c.skip (escapeChar ch).length) (ch :: text) .nothing := by
      rw [hescape, escapeChar] at hrest
      rw [escapeChar]
      split at hrest
      · next h =>
        rw [if_pos h]
        exact readQuoted_letter hrest (by rw [isLetter, h, Bool.true_or])
      · next h =>
        rw [if_neg h, List.length_cons, List.length_cons, length_hexDigits]
        exact readQuoted_codePoint ch (by simpa using hrest)
    have hafter : (c.skip (escapeChar ch).length).rest = escape cs ++ '"' :: rest := by
      rw [Cursor.rest_skip, hrest, hescape, List.append_assoc, List.drop_left]
    rw [hstep, ih hafter, Cursor.skip_skip, hescape, List.length_append, List.reverse_cons, List.append_assoc,
      List.singleton_append, Nat.add_assoc]

/-- **Text in double quotes** is read back from behind the opening quote. -/
theorem readQuoted_quoted (value : String) (hrest : c.rest = quoted value ++ rest) :
    readQuoted .double (c.skip 1) [] .nothing = some (value, c.skip (quoted value).length) := by
  have hinner : (c.skip 1).rest = escape value.toList ++ '"' :: rest := by
    rw [Cursor.rest_skip, hrest]
    simp [quoted]
  have hlen : 1 + ((escape value.toList).length + 1) = (quoted value).length := by
    simp [quoted]
    omega
  rw [readQuoted_escape value.toList hinner, Cursor.skip_skip, hlen, List.reverse_nil, List.nil_append,
    String.ofList_toList]

end Quoted

/-! ## Words -/

/-- A word needs no quotes. -/
def IsWord (word : List Char) : Prop := word ≠ [] ∧ ∀ c ∈ word, isLetter c = true

instance (word : List Char) : Decidable (IsWord word) :=
  decidable_of_iff ((!word.isEmpty && word.all isLetter) = true) (by simp [IsWord])

section Plain

variable {c : Cursor} {text rest : List Char} {margin : Nat}

theorem readPlain_letter {ch : Char} (hrest : c.rest = ch :: rest) (h : isLetter ch = true) :
    readPlain false margin c text .nothing = readPlain false margin (c.skip 1) (ch :: text) .nothing := by
  rw [readPlain]
  split
  · next heq =>
    rw [hrest] at heq
    cases heq
  · next heq =>
    rw [hrest] at heq
    cases heq
    have hcolon : ch ≠ ':' := ne_of_isLetter h rfl
    simp [isBlank_of_isLetter h, isBreak_of_isLetter h, hrest, startsMarker_of_isLetter h, hcolon, Gap.folded]

theorem readPlain_colon (hrest : c.rest = ':' :: rest) (hblank : startsBlank rest = true) :
    readPlain false margin c text .nothing = some ⟨String.ofList text.reverse, c, false⟩ := by
  rw [readPlain]
  split
  · next heq =>
    rw [hrest] at heq
    cases heq
  · next heq =>
    rw [hrest] at heq
    cases heq
    have hblank' : isBlank ':' = false := by decide
    have hbreak : isBreak ':' = false := by decide
    simp [hblank, hblank', hbreak, hrest, startsMarker_of_ne, Gap.isBroken]

/-- **A word** is read back, up to the colon behind it. -/
theorem readPlain_word (word : List Char) (hword : ∀ ch ∈ word, isLetter ch = true)
    (hrest : c.rest = word ++ ':' :: rest) (hblank : startsBlank rest = true) :
    readPlain false margin c text .nothing =
      some ⟨String.ofList (text.reverse ++ word), c.skip word.length, false⟩ := by
  induction word generalizing c text with
  | nil =>
    rw [readPlain_colon hrest hblank, List.append_nil]
    rfl
  | cons ch word ih =>
    obtain ⟨hletter, hword⟩ := List.forall_mem_cons.mp hword
    have hafter : (c.skip 1).rest = word ++ ':' :: rest := by
      rw [Cursor.rest_skip, hrest]
      rfl
    rw [readPlain_letter hrest hletter, ih hword hafter, Cursor.skip_skip, List.reverse_cons, List.append_assoc,
      List.singleton_append, List.length_cons, Nat.add_comm]

end Plain

end Yaml
end Stencil
