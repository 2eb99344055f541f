/-
# StorageFlow.Validation — checking documents against schemas.

A schema is built from small readers, each of which takes a part of a document, or nothing where there is
none, and answers a `Checked` value: what it read, if it could read anything, and every issue it met.  Reading
goes on after an issue, so one run reports all issues of a document, in the order of the schema.  A document
is accepted if there are no issues at all.

Main statement: `toExcept_eq_ok_iff` — a value is accepted exactly if it was read without an issue.
-/
import StorageFlow.Issue
import StorageFlow.Json

namespace StorageFlow

universe u v

/-- What was read from a document, and the issues met on the way. -/
structure Checked (α : Type u) where
  -- The value, if one could be read in spite of the issues.
  value? : Option α
  issues : List Issue

namespace Checked

variable {α : Type u} {β : Type v}

/-- A value without issues. -/
def valid (a : α) : Checked α := ⟨some a, []⟩

/-- No value, because of one issue at this place. -/
def invalid (cause : IssueCause) : Checked α := ⟨none, [⟨[], cause⟩]⟩

/-- A value together with issues at this place. -/
def flagged (a : α) (causes : List IssueCause) : Checked α := ⟨some a, causes.map fun c => ⟨[], c⟩⟩

/-- Changes the value. -/
def map (f : α → β) (c : Checked α) : Checked β := ⟨c.value?.map f, c.issues⟩

/-- Applies a function to an argument; the issues of both are kept. -/
def seq (f : Checked (α → β)) (c : Checked α) : Checked β :=
  ⟨f.value?.bind fun f => c.value?.map f, f.issues ++ c.issues⟩

instance : Applicative Checked where
  pure := valid
  map := map
  seq f c := seq f (c ())

/-- Looks at the value once more, if there is one. -/
def andThen (c : Checked α) (f : α → Checked β) : Checked β :=
  match c.value? with
  | none => ⟨none, c.issues⟩
  | some a => ⟨(f a).value?, c.issues ++ (f a).issues⟩

/-- Adds issues that do not concern the value itself. -/
def also (c : Checked α) (issues : List Issue) : Checked α := { c with issues := c.issues ++ issues }

/-- Places all issues inside a part of a document. -/
def under (step : PathStep) (c : Checked α) : Checked α :=
  { c with issues := c.issues.map fun issue => { issue with path := step :: issue.path } }

/-- The value, if there are no issues. -/
def toExcept (c : Checked α) : Except (List Issue) α :=
  match c.issues, c.value? with
  | [], some a => .ok a
  | issues, _ => .error issues

/-- A value is accepted exactly if it was read without an issue. -/
theorem toExcept_eq_ok_iff {c : Checked α} {a : α} : c.toExcept = .ok a ↔ c = valid a := by
  obtain ⟨value?, issues⟩ := c
  cases issues <;> cases value? <;> simp [toExcept, valid]

end Checked

/-- Reads a part of a document, or the lack of it. -/
abbrev Reader (α : Type u) := Option Json → Checked α

namespace Reader

variable {α : Type u} {β : Type v}

/-- A part of another kind than expected. -/
def mismatch (expected : Text) : Option Json → Checked α
  | none => .invalid .missing
  | some j => .invalid (.wrongKind expected j.kindName)

/-! ## Simple parts -/

/-- A text. -/
def text : Reader Text
  | some (.string s) => .valid s
  | other => mismatch "string" other

/-- A truth value. -/
def flag : Reader Bool
  | some (.bool b) => .valid b
  | other => mismatch "boolean" other

/-- What is wrong with a number that should be a natural one. -/
def naturalCauses (x : Number) : List IssueCause :=
  (if x.isWhole then [] else [.notWhole]) ++ (if x.isNegative then [.negative] else [])

/-- A number that should be a natural one. -/
def natural : Reader Number
  | some (.number x) => .flagged x (naturalCauses x)
  | other => mismatch "number" other

/-- A natural number. -/
def nat : Reader Nat := fun j => (natural j).map Number.toNat

/-- One of some named values. -/
def choice (choices : List (Text × α)) : Reader α
  | some (.string s) =>
    match Table.find? s choices with
    | some a => .valid a
    | none => .invalid (.wrongChoice (choices.map Prod.fst) s)
  | other => mismatch (IssueCause.quoted " | " (choices.map Prod.fst)) other

/-! ## Parts that may be missing -/

/-- A part that may be missing. -/
def optional (r : Reader α) : Reader (Option α)
  | none => .valid none
  | some j => (r (some j)).map some

/-- A part that stands for a default if it is missing. -/
def withDefault (a : α) (r : Reader α) : Reader α
  | none => .valid a
  | some j => r (some j)

/-! ## Parts with parts -/

/-- The items of an array, from a position on. -/
def itemsFrom (r : Reader α) : Nat → List Json → Checked (List α)
  | _, [] => .valid []
  | position, j :: js =>
    .seq (((r (some j)).under (.index (.ofNat position))).map List.cons) (itemsFrom r (position + 1) js)

/-- An array. -/
def array (r : Reader α) : Reader (List α)
  | some (.array js) => itemsFrom r 0 js
  | other => mismatch "array" other

/-- An array with at least some number of items. -/
def arrayWith (minimum : Nat) (r : Reader α) : Reader (List α)
  | some (.array js) =>
    if js.length < minimum then
      -- The items that are there are read all the same, after the issue with their number.
      ⟨(itemsFrom r 0 js).value?, ⟨[], .tooFewItems minimum⟩ :: (itemsFrom r 0 js).issues⟩
    else itemsFrom r 0 js
  | other => mismatch "array" other

/-- An object, whose fields are read one by one. -/
def object (body : Json → Checked α) : Reader α
  | some (.object fields) => body (.object fields)
  | other => mismatch "object" other

/-- A field of an object. -/
def field (key : Text) (r : Reader α) (j : Json) : Checked α := (r (j.field? key)).under (.key key)

/-- The issue that an object has unknown fields, if it has some. -/
def unknownKeys (known : List Text) : Json → List Issue
  | .object fields =>
    match (fields.map Prod.fst).filter fun key => !known.contains key with
    | [] => []
    | keys => [⟨[], .unknownKeys keys⟩]
  | _ => []

/-- An object whose schema depends on the text of one of its fields. -/
def variant (key : Text) (variants : List (Text × (Json → Checked α))) : Reader α :=
  object fun j =>
    match j.field? key with
    | some (.string s) =>
      match Table.find? s variants with
      | some body => body j
      | none => .under (.key key) (.invalid (.wrongVariant (variants.map Prod.fst)))
    -- What is no text, or is missing, is reported like a text that selects no schema.
    | _ => .under (.key key) (.invalid (.wrongVariant (variants.map Prod.fst)))

end Reader

end StorageFlow
