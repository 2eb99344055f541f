/-
# StorageFlow.Json.Strict — the standard written form.

Blank are space, tab, line feed and carriage return.  A number has digits on both sides of its point and
after its exponent mark, and no zero in front of another digit.  A text has no control characters, and an
escape is one of the short ones or exactly four hexadecimal digits.
-/
import StorageFlow.Json.Reader

namespace StorageFlow.Json.Strict

/-- The unit that four hexadecimal digits spell. -/
def hexUnit? (a b c d : UInt16) : Option UInt16 := do
  return UInt16.ofNat (((← hexValue? a) * 16 + (← hexValue? b)) * 256 + (← hexValue? c) * 16 + (← hexValue? d))

/-- Reads an escape from behind its backslash. -/
def escape : List UInt16 → Option (UInt16 × List UInt16)
  | [] => none
  | letter :: rest =>
    if letter = Text.unit 'u' then
      match rest with
      | a :: b :: c :: d :: rest => (hexUnit? a b c d).map fun u => (u, rest)
      | _ => none
    else (shortEscape? letter).map fun u => (u, rest)

theorem length_escape {us rest : List UInt16} {u : UInt16} (h : escape us = some (u, rest)) :
    rest.length < us.length := by
  unfold escape at h
  split at h
  · exact absurd h (by simp)
  · split at h
    · split at h
      · obtain ⟨_, _, e⟩ := Option.map_eq_some_iff.1 h
        obtain ⟨_, rfl⟩ := Prod.mk.inj e
        simp only [List.length_cons]
        omega
      · exact absurd h (by simp)
    · obtain ⟨_, _, e⟩ := Option.map_eq_some_iff.1 h
      obtain ⟨_, rfl⟩ := Prod.mk.inj e
      exact Nat.lt_succ_self _

/-- Tells whether a token has digits wherever they are due and no superfluous zero. -/
def isRegular (t : NumberToken) : Bool :=
  !t.whole.isEmpty && !(t.whole.head? == some (Text.unit '0') && t.whole.length != 1) &&
    t.fraction != some [] && t.exponent.all fun (_, digits) => !digits.isEmpty

/-- What stands for a token beyond all finite numbers: a multiple that is too large and not whole. -/
def beyond : Int := Number.bound + 1

/-- The number of a regular token. -/
def number (t : NumberToken) : Option Json :=
  if isRegular t then
    some (.number (t.number?.getD ⟨if t.negative then -beyond else beyond⟩))
  else none

/-- The standard written form. -/
def dialect : Dialect where
  isBlank u := [' ', '\t', '\n', '\r'].any fun c => Text.unit c == u
  number := number
  isPlain u := 0x20 ≤ u
  escape := escape
  length_escape := length_escape
  admits _ := true

/-- The document that a text in the standard form consists of. -/
def read (source : Text) : Option Json := dialect.read source

end StorageFlow.Json.Strict
