/-
# StorageFlow.Text — texts as sequences of 16-bit code units.

Lengths, offsets, columns and the order of texts are measured in the code units of UTF-16: a character of the
basic plane is one unit, any other character is a pair of surrogates.  A text may hold surrogates without a
partner.  They belong to no character, yet they are counted, compared and copied like any other unit; only
where a text is turned into characters, each of them is replaced by U+FFFD.

Main statements: `characters_ofChars` — a text made from characters has exactly those characters, and
`asString_ofString` — so a string is kept as it is.
-/

namespace StorageFlow

/-- A sequence of 16-bit code units. -/
structure Text where
  units : List UInt16
  deriving DecidableEq, Repr, Inhabited

namespace Text

/-! ## Characters as units -/

/-- The unit of a character of the basic plane. -/
def unit (c : Char) : UInt16 := UInt16.ofNat c.toNat

/-- The units of a character. -/
def unitsOfChar (c : Char) : List UInt16 :=
  if c.toNat < 0x10000 then [unit c]
  else
    let rest := c.toNat - 0x10000
    [UInt16.ofNat (0xD800 + rest / 0x400), UInt16.ofNat (0xDC00 + rest % 0x400)]

/-- The text that consists of some characters. -/
def ofChars (cs : List Char) : Text := ⟨cs.flatMap unitsOfChar⟩

/-- The text that a string of characters is. -/
def ofString (s : String) : Text := ofChars s.toList

instance : Coe String Text := ⟨ofString⟩

/-- Tells whether a unit opens a pair. -/
def isHighSurrogate (u : UInt16) : Bool := 0xD800 ≤ u.toNat && u.toNat < 0xDC00

/-- Tells whether a unit closes a pair. -/
def isLowSurrogate (u : UInt16) : Bool := 0xDC00 ≤ u.toNat && u.toNat < 0xE000

/-- The character of a pair of surrogates. -/
def charOfPair (high low : UInt16) : Char :=
  Char.ofNat (0x10000 + (high.toNat - 0xD800) * 0x400 + (low.toNat - 0xDC00))

/-- The character of a unit that is not part of a pair. -/
def charOfUnit (u : UInt16) : Char :=
  if isHighSurrogate u || isLowSurrogate u then '\uFFFD' else Char.ofNat u.toNat

/-- The characters of a sequence of units. -/
def charsOfUnits : List UInt16 → List Char
  | [] => []
  | [u] => [charOfUnit u]
  | u :: v :: rest =>
    if isHighSurrogate u && isLowSurrogate v then charOfPair u v :: charsOfUnits rest
    else charOfUnit u :: charsOfUnits (v :: rest)

/-- The characters of a text. -/
def characters (t : Text) : List Char := charsOfUnits t.units

/-- A text as a string of characters. -/
def asString (t : Text) : String := String.ofList t.characters

/-- A text whose surrogates without a partner are replaced. -/
def wellFormed (t : Text) : Text := ofChars t.characters

/-- The number of bytes that the characters of a text take in UTF-8. -/
def byteCount (t : Text) : Nat := t.characters.foldl (fun n c => n + c.utf8Size) 0

theorem toNat_unit {c : Char} (h : c.toNat < 0x10000) : (unit c).toNat = c.toNat := by
  rw [unit, UInt16.toNat_ofNat']
  exact Nat.mod_eq_of_lt h

/-- The value of a character is no surrogate. -/
theorem not_surrogate (c : Char) : c.toNat < 0xD800 ∨ 0xE000 ≤ c.toNat := by
  have h := c.valid
  have e : c.toNat = c.val.toNat := rfl
  rcases h with h | h
  · exact .inl (by omega)
  · exact .inr (by omega)

theorem charsOfUnits_unit {c : Char} (h : c.toNat < 0x10000) (us : List UInt16) :
    charsOfUnits (unit c :: us) = c :: charsOfUnits us := by
  have hn := not_surrogate c
  have hu := toNat_unit h
  have high : isHighSurrogate (unit c) = false := by
    rw [Bool.eq_false_iff]
    simp only [isHighSurrogate, hu, ne_eq, Bool.and_eq_true, decide_eq_true_eq]
    omega
  have low : isLowSurrogate (unit c) = false := by
    rw [Bool.eq_false_iff]
    simp only [isLowSurrogate, hu, ne_eq, Bool.and_eq_true, decide_eq_true_eq]
    omega
  have char : charOfUnit (unit c) = c := by simp [charOfUnit, high, low, hu]
  cases us with
  | nil => simp [charsOfUnits, char]
  | cons v rest => simp [charsOfUnits, high, char]

theorem charsOfUnits_pair {c : Char} (h : ¬ c.toNat < 0x10000) (us : List UInt16) :
    charsOfUnits (unitsOfChar c ++ us) = c :: charsOfUnits us := by
  have hc : c.toNat < 0x110000 := by
    have e : c.toNat = c.val.toNat := rfl
    rcases c.valid with v | v <;> omega
  have h1 : (UInt16.ofNat (0xD800 + (c.toNat - 0x10000) / 0x400)).toNat =
      0xD800 + (c.toNat - 0x10000) / 0x400 := by
    rw [UInt16.toNat_ofNat']
    omega
  have h2 : (UInt16.ofNat (0xDC00 + (c.toNat - 0x10000) % 0x400)).toNat =
      0xDC00 + (c.toNat - 0x10000) % 0x400 := by
    rw [UInt16.toNat_ofNat']
    omega
  have pair : charOfPair (UInt16.ofNat (0xD800 + (c.toNat - 0x10000) / 0x400))
      (UInt16.ofNat (0xDC00 + (c.toNat - 0x10000) % 0x400)) = c := by
    have e : 0x10000 + (0xD800 + (c.toNat - 0x10000) / 0x400 - 0xD800) * 0x400 +
        (0xDC00 + (c.toNat - 0x10000) % 0x400 - 0xDC00) = c.toNat := by omega
    rw [charOfPair, h1, h2, e, Char.ofNat_toNat]
  have surrogates : (isHighSurrogate (UInt16.ofNat (0xD800 + (c.toNat - 0x10000) / 0x400)) &&
      isLowSurrogate (UInt16.ofNat (0xDC00 + (c.toNat - 0x10000) % 0x400))) = true := by
    simp only [isHighSurrogate, isLowSurrogate, h1, h2, Bool.and_eq_true, decide_eq_true_eq]
    omega
  simp only [unitsOfChar, if_neg h, List.cons_append, List.nil_append, charsOfUnits, surrogates, pair, if_true]

/-- A text made from characters has exactly those characters. -/
theorem characters_ofChars (cs : List Char) : (ofChars cs).characters = cs := by
  show charsOfUnits (cs.flatMap unitsOfChar) = cs
  induction cs with
  | nil => rfl
  | cons c cs ih =>
    rw [List.flatMap_cons]
    by_cases h : c.toNat < 0x10000
    · rw [unitsOfChar, if_pos h, List.singleton_append, charsOfUnits_unit h, ih]
    · rw [charsOfUnits_pair h, ih]

/-- A string of characters is kept as it is. -/
theorem asString_ofString (s : String) : (ofString s).asString = s := by
  rw [asString, ofString, characters_ofChars, String.ofList_toList]

/-! ## Joining -/

/-- One text after the other. -/
def append (s t : Text) : Text := ⟨s.units ++ t.units⟩

instance : Append Text := ⟨append⟩

@[simp] theorem units_append (s t : Text) : (s ++ t).units = s.units ++ t.units := rfl

/-- Texts one after the other. -/
def join (parts : List Text) : Text := ⟨parts.flatMap units⟩

/-- Texts one after the other, with a separator between neighbours. -/
def intercalate (separator : Text) : List Text → Text
  | [] => ⟨[]⟩
  | [part] => part
  | part :: parts => part ++ separator ++ intercalate separator parts

/-- The decimal digits of a natural number. -/
def ofNat (n : Nat) : Text := ofChars (Nat.toDigits 10 n)

/-! ## Looking into a text -/

/-- The number of units. -/
def length (t : Text) : Nat := t.units.length

/-- Tells whether there are no units. -/
def isEmpty (t : Text) : Bool := t.units.isEmpty

/-- Tells whether a text starts with another one. -/
def startsWith (t part : Text) : Bool := part.units.isPrefixOf t.units

/-- Tells whether a text ends with another one. -/
def endsWith (t part : Text) : Bool := part.units.isSuffixOf t.units

/-- A text without its first units. -/
def drop (t : Text) (count : Nat) : Text := ⟨t.units.drop count⟩

/-- A text without its last units. -/
def dropEnd (t : Text) (count : Nat) : Text := ⟨t.units.take (t.length - count)⟩

/-- Orders texts by their units, the first difference deciding. -/
def compare (s t : Text) : Ordering := List.compareLex Ord.compare s.units t.units

end Text

end StorageFlow
