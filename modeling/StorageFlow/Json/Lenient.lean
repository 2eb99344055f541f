/-
# StorageFlow.Json.Lenient — the written form of program files.

Every character up to the space is blank.  A number may have zeros in front, and digits may be missing on
one side of its point.  A number token of more than fifteen characters is not read as a number, whose value
would not be exact, but as an object without any field the program could know.  A text may contain control
characters; a hexadecimal escape ends after four digits or at the first unit that is no digit, which is
dropped, be it half of a pair.  Keys that contain one of two reserved words are not admitted, in whatever way
the letters of the word are spelled.
-/
import StorageFlow.Json.Reader

namespace StorageFlow.Json.Lenient

/-- Reads up to `count` hexadecimal digits onto a value; a unit that is no digit is dropped. -/
def hexUnit : Nat → Nat → List UInt16 → Nat × List UInt16
  | 0, value, us => (value, us)
  | _ + 1, value, [] => (value, [])
  | count + 1, value, u :: us =>
    match hexValue? u with
    | some digit => hexUnit count (value * 16 + digit) us
    | none => (value, us)

theorem length_hexUnit (count value : Nat) (us : List UInt16) :
    (hexUnit count value us).2.length ≤ us.length := by
  fun_induction hexUnit count value us with
  | case1 => exact Nat.le_refl _
  | case2 => exact Nat.le_refl _
  | case3 _ _ _ _ _ _ ih => exact Nat.le_succ_of_le ih
  | case4 => exact Nat.le_succ _

/-- Reads an escape from behind its backslash. -/
def escape : List UInt16 → Option (UInt16 × List UInt16)
  | [] => none
  | letter :: rest =>
    if letter = Text.unit 'u' then some (UInt16.ofNat (hexUnit 4 0 rest).1, (hexUnit 4 0 rest).2)
    else (shortEscape? letter).map fun u => (u, rest)

theorem length_escape {us rest : List UInt16} {u : UInt16} (h : escape us = some (u, rest)) :
    rest.length < us.length := by
  unfold escape at h
  split at h
  · exact absurd h (by simp)
  · split at h
    · obtain ⟨_, rfl⟩ := Prod.mk.inj (Option.some.inj h)
      exact Nat.lt_succ_of_le (length_hexUnit 4 0 _)
    · obtain ⟨_, _, e⟩ := Option.map_eq_some_iff.1 h
      obtain ⟨_, rfl⟩ := Prod.mk.inj e
      exact Nat.lt_succ_self _

/-- The longest number token that is read as a number. -/
def exactLength : Nat := 15

/-- Tells whether a token spells a number at all. -/
def isSpelled (t : NumberToken) : Bool :=
  !(t.whole.isEmpty && (t.fraction.getD []).isEmpty) && t.exponent.all fun (_, digits) => !digits.isEmpty

/-- The document of a token that spells a finite number. -/
def number (t : NumberToken) : Option Json :=
  if isSpelled t then
    t.number?.map fun x => if exactLength < t.length then .object [] else .number x
  else none

/-- The ways to spell a letter in a key: itself, or an escape that was left in place. -/
def spellings (letter : Char) : List Text :=
  let escaped (digit : Nat → Char) : Text :=
    .ofChars ['\\', 'u', '0', '0', digit (letter.toNat / 16), digit (letter.toNat % 16)]
  [.ofChars [letter], escaped Nat.digitChar, escaped fun n => (Nat.digitChar n).toUpper]

/-- Tells whether a key starts with some spelling of a word. -/
def startsWith : List Char → Text → Bool
  | [], _ => true
  | letter :: word, key =>
    (spellings letter).any fun spelling => key.startsWith spelling && startsWith word (key.drop spelling.length)

/-- Tells whether a key contains some spelling of a word. -/
def contains (word : List Char) : List UInt16 → Bool
  | [] => startsWith word ⟨[]⟩
  | u :: key => startsWith word ⟨u :: key⟩ || contains word key

/-- The words that no key may contain. -/
def reservedWords : List String := ["__proto__", "constructor"]

/-- The written form of program files. -/
def dialect : Dialect where
  isBlank u := u ≤ Text.unit ' '
  number := number
  isPlain _ := true
  escape := escape
  length_escape := length_escape
  admits key := !reservedWords.any fun word => contains word.toList key.units

/-- The document that a program file consists of. -/
def read (source : Text) : Option Json := dialect.read source

end StorageFlow.Json.Lenient
